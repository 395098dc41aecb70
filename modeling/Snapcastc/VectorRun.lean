import Snapcastc.VectorList

/-! Sequences of uses of the vector macros, and the lists they make. -/

namespace Snapcastc

open Calls SnapVector

variable {elemsize : UInt64}

namespace VectorOp

/-- What the use of a macro does to a list. -/
def onList : VectorOp elemsize → List (Option (Element elemsize)) → List (Option (Element elemsize))
  | .add elem, entries => entries ++ [some elem]
  | .delete pos, entries => entries.eraseIdx pos.toNat
  | .resize n, entries => Slots.resize entries n.toNat

def lengthAfter (length : Nat) : VectorOp elemsize → Nat
  | .add _ => length + 1
  | .delete _ => length - 1
  | .resize n => n.toNat

/-- An index at which an element is deleted is valid. -/
def IndexValid (length : Nat) : VectorOp elemsize → Prop
  | .delete pos => pos.toNat < length
  | _ => True

instance decidableIndexValid (length : Nat) (op : VectorOp elemsize) : Decidable (op.IndexValid length) :=
  match op with
  | .delete pos => inferInstanceAs (Decidable (pos.toNat < length))
  | .add _ => inferInstanceAs (Decidable True)
  | .resize _ => inferInstanceAs (Decidable True)

theorem onList_length (op : VectorOp elemsize) {entries : List (Option (Element elemsize))}
    (hvalid : op.IndexValid entries.length) :
    (op.onList entries).length = op.lengthAfter entries.length := by
  cases op with
  | add elem => exact List.length_append
  | delete pos => exact List.length_eraseIdx_of_lt hvalid
  | resize n => exact Slots.resize_length entries n.toNat

end VectorOp

/-- The indices are valid, and the lengths are below `2 ^ 62`. -/
def LegalOps (length : Nat) : List (VectorOp elemsize) → Prop
  | [] => True
  | op :: ops =>
      op.IndexValid length ∧ op.lengthAfter length < 2 ^ 62 ∧ LegalOps (op.lengthAfter length) ops

instance decidableLegalOps (length : Nat) (ops : List (VectorOp elemsize)) :
    Decidable (LegalOps length ops) :=
  match ops with
  | [] => inferInstanceAs (Decidable True)
  | op :: ops =>
      have := decidableLegalOps (op.lengthAfter length) ops
      inferInstanceAs (Decidable (_ ∧ _ ∧ _))

/-- The numbers of elements for which there has to be room, from the lengths: half as many more at the first
allocation. -/
def targets (first : Bool) (length : Nat) : List (VectorOp elemsize) → List Nat
  | [] => []
  | op :: ops =>
      (if first then op.lengthAfter length * 3 / 2 else op.lengthAfter length) ::
        targets false (op.lengthAfter length) ops

def listAfter (entries : List (Option (Element elemsize))) (ops : List (VectorOp elemsize)) :
    List (Option (Element elemsize)) :=
  ops.foldl (fun entries op => op.onList entries) entries

/-- A use for which `realloc` does not fail. -/
def VectorCall.answered (op : VectorOp elemsize) : VectorCall elemsize := ⟨op, some fun _ => 0⟩

namespace SnapVector

/-- After every use the vector is the list. A use returns unless `realloc` fails, which ends the process. -/
def BehavesAsList (v : SnapVector) (entries : List (Option (Element elemsize)))
    (calls : List (VectorCall elemsize)) : Prop :=
  ∀ done, done <+: calls →
    Meets (fun fault => ∃ c ∈ done, ReallocFails c.answer fault)
      (fun v' => v'.Refines (listAfter entries (done.map VectorCall.op))) (v.run done)

theorem run_cons (v : SnapVector) (c : VectorCall elemsize) (calls : List (VectorCall elemsize)) :
    v.run (c :: calls) = v.call c >>= fun v' => v'.run calls := List.foldlM_cons

namespace BehavesAsList

variable {v v' : SnapVector} {entries : List (Option (Element elemsize))} {op : VectorOp elemsize}
  {calls : List (VectorCall elemsize)}

/-- A first use for which `realloc` does not fail returns. -/
theorem head (hbehaves : v.BehavesAsList entries (.answered op :: calls)) :
    ∃ v', v.call (.answered op) = .ok v' ∧ v'.Refines (op.onList entries) := by
  have hfirst := hbehaves [.answered op] (List.cons_prefix_cons.mpr ⟨rfl, List.nil_prefix⟩)
  rw [run_cons] at hfirst
  cases hresult : v.call (.answered op) with
  | error fault =>
      rw [hresult] at hfirst
      obtain ⟨c, hc, hfails⟩ := hfirst
      obtain rfl := List.mem_singleton.mp hc
      cases hfails.1
  | ok v' =>
      rw [hresult] at hfirst
      exact ⟨v', rfl, hfirst⟩

theorem tail (hbehaves : v.BehavesAsList entries (.answered op :: calls))
    (hrun : v.call (.answered op) = .ok v') : v'.BehavesAsList (op.onList entries) calls := by
  intro done hdone
  have hrest := hbehaves (.answered op :: done) (List.cons_prefix_cons.mpr ⟨rfl, hdone⟩)
  rw [run_cons, hrun, except_ok_bind] at hrest
  refine Meets.weaken hrest fun fault ⟨c, hc, hfails⟩ => ?_
  rcases List.mem_cons.mp hc with rfl | hc
  · cases hfails.1
  · exact ⟨c, hc, hfails⟩

end BehavesAsList

namespace Refines

variable {v v' : SnapVector} {entries : List (Option (Element elemsize))}

/-- A use of a macro does to the vector what it does to the list, if the block that is allocated fits. -/
theorem call (hv : v.Refines entries) (c : VectorCall elemsize) (hvalid : c.op.IndexValid entries.length)
    (hlength : c.op.lengthAfter entries.length < 2 ^ 62)
    (hfits : Fits elemsize (target v.desc.allocated (c.op.lengthAfter entries.length))) :
    Meets (ReallocFails c.answer) (fun v' => v'.Refines (c.op.onList entries) ∧ v'.desc.allocated ≠ 0)
      (v.call c) := by
  obtain ⟨op, answer⟩ := c
  cases op with
  | add elem =>
      have hinsert := hv.insert answer elem hv.length.le hlength hfits
      rw [hv.length, List.insertIdx_length_self] at hinsert
      exact hinsert.map fun _ hresult => ⟨hresult.1, hresult.2.1⟩
  | delete pos => exact hv.delete answer hvalid hlength hfits
  | resize n => exact hv.resize answer hlength hfits

/-- Whether the block fits or not, the vector has enough elements allocated according to its description. -/
theorem call_allocated (hv : v.Refines entries) {c : VectorCall elemsize}
    (hvalid : c.op.IndexValid entries.length) (hlength : c.op.lengthAfter entries.length < 2 ^ 62)
    (hrun : v.call c = .ok v') :
    slotsFor (target v.desc.allocated (c.op.lengthAfter entries.length)) ≤ v'.desc.allocated.toNat := by
  obtain ⟨op, answer⟩ := c
  cases op with
  | add elem =>
      obtain ⟨⟨_, p⟩, hinsert, rfl⟩ := except_map_ok hrun
      obtain ⟨v₁, hresize, hinsert⟩ := except_bind_ok hinsert
      obtain ⟨v₂, hmoved, hinsert⟩ := except_bind_ok hinsert
      obtain ⟨v₃, hwritten, hinsert⟩ := except_bind_ok hinsert
      cases hinsert
      have hn := hv.length_succ hlength
      have hdesc := (memcpy_desc hwritten).trans (memmove_desc hmoved)
      have hallocated := snapVectorResize_allocated hv.allocated (by rw [hn]; exact hlength) hresize
      rw [hn, ← hdesc] at hallocated
      exact hallocated
  | delete pos =>
      obtain ⟨v₁, hmoved, hresize⟩ := except_bind_ok hrun
      have hdesc := memmove_desc hmoved
      have hn := hv.length_pred (Nat.zero_lt_of_lt hvalid)
      rw [← hdesc] at hn ⊢
      have hvalid₁ : AllocationValid v₁.desc.allocated := hdesc ▸ hv.allocated
      have hallocated := snapVectorResize_allocated hvalid₁ (by rw [hn]; exact hlength) hresize
      rw [hn] at hallocated
      exact hallocated
  | resize n => exact snapVectorResize_allocated hv.allocated hlength hrun

/-- A use that gives the list has allocated a block that fits. -/
theorem fits_of_call (hv : v.Refines entries) {c : VectorCall elemsize}
    (hvalid : c.op.IndexValid entries.length) (hlength : c.op.lengthAfter entries.length < 2 ^ 62)
    (hrun : v.call c = .ok v') (hv' : v'.Refines (c.op.onList entries)) :
    Fits elemsize (target v.desc.allocated (c.op.lengthAfter entries.length)) :=
  (Nat.mul_le_mul_right _ (hv.call_allocated hvalid hlength hrun)).trans_lt hv'.allocated_lt

/-! ### Every sequence -/

/-- The number of elements for which there has to be room at the next use. -/
theorem targets_cons (v : SnapVector) (length : Nat) (op : VectorOp elemsize)
    (ops : List (VectorOp elemsize)) :
    targets (decide (v.desc.allocated = 0)) length (op :: ops) =
      target v.desc.allocated (op.lengthAfter length) :: targets false (op.lengthAfter length) ops := by
  simp [targets, target]

/-- From a vector that is a list on, every sequence behaves as on the list if the blocks fit. -/
theorem behavesAsList (hv : v.Refines entries) {calls : List (VectorCall elemsize)}
    (hlegal : LegalOps entries.length (calls.map VectorCall.op))
    (hfits : ∀ n ∈ targets (decide (v.desc.allocated = 0)) entries.length (calls.map VectorCall.op),
      Fits elemsize n) : v.BehavesAsList entries calls := by
  induction calls generalizing v entries with
  | nil =>
      intro done hdone
      obtain rfl := List.prefix_nil.mp hdone
      exact hv
  | cons c calls ih =>
      obtain ⟨hvalid, hlength, hlegal⟩ := hlegal
      rw [List.map_cons, targets_cons, List.forall_mem_cons] at hfits
      obtain ⟨hfit, hfits⟩ := hfits
      intro done hdone
      cases done with
      | nil => exact hv
      | cons first done =>
          obtain ⟨rfl, htail⟩ := List.cons_prefix_cons.mp hdone
          rw [run_cons]
          have hcall := hv.call first hvalid hlength hfit
          cases hresult : v.call first with
          | error fault => exact ⟨first, List.mem_cons_self, hcall.of_error hresult⟩
          | ok v' =>
              obtain ⟨hv', halloc⟩ := hcall.of_eq hresult
              rw [← first.op.onList_length hvalid] at hlegal hfits
              have hrest := ih hv' hlegal (by rw [decide_eq_false halloc]; exact hfits) done htail
              rw [except_ok_bind]
              exact Meets.weaken hrest fun _ ⟨c, hc, hfault⟩ => ⟨c, List.mem_cons_of_mem _ hc, hfault⟩

/-- If the sequence behaves as on the list whatever `realloc` answers, the blocks fit. -/
theorem fits_of_behaves (hv : v.Refines entries) {ops : List (VectorOp elemsize)}
    (hlegal : LegalOps entries.length ops)
    (hbehaves : ∀ calls, calls.map VectorCall.op = ops → v.BehavesAsList entries calls) :
    ∀ n ∈ targets (decide (v.desc.allocated = 0)) entries.length ops, Fits elemsize n := by
  induction ops generalizing v entries with
  | nil => exact fun _ hn => absurd hn List.not_mem_nil
  | cons op ops ih =>
      obtain ⟨hvalid, hlength, hlegal⟩ := hlegal
      have hanswered : ∀ calls, calls.map VectorCall.op = ops →
          v.BehavesAsList entries (.answered op :: calls) := fun calls hcalls =>
        hbehaves _ (congrArg (op :: ·) hcalls)
      have hops : (ops.map VectorCall.answered).map VectorCall.op = ops := by
        rw [List.map_map]
        exact List.map_id ops
      obtain ⟨v', hrun, hv'⟩ := (hanswered _ hops).head
      have hfit := @fits_of_call _ _ _ _ hv (.answered op) hvalid hlength hrun hv'
      obtain ⟨-, halloc⟩ := (hv.call (.answered op) hvalid hlength hfit).of_eq hrun
      rw [← op.onList_length hvalid] at hlegal
      have hrest := ih hv' hlegal fun calls hcalls => (hanswered calls hcalls).tail hrun
      rw [decide_eq_false halloc, op.onList_length hvalid] at hrest
      rw [targets_cons, List.forall_mem_cons]
      exact ⟨hfit, hrest⟩

end Refines

/-- For every element size and every sequence of uses of `VECTOR_ADD`, `VECTOR_DELETE` and
`VECTOR_RESIZE` after `VECTOR_INIT`, the vector behaves as the list if and only if the blocks that the
lengths ask for are smaller than `2 ^ 64` bytes. -/
theorem behavesAsList_iff {elemsize : UInt64} {ops : List (VectorOp elemsize)} (hlegal : LegalOps 0 ops) :
    (∀ (v : SnapVector) (calls : List (VectorCall elemsize)), calls.map VectorCall.op = ops →
        v.vectorInit.BehavesAsList [] calls) ↔ ∀ n ∈ targets true 0 ops, Fits elemsize n := by
  constructor
  · intro hbehaves
    have hv : Refines _ ([] : List (Option (Element elemsize))) := refines_vectorInit ⟨⟨0, 0⟩, none⟩
    exact hv.fits_of_behaves hlegal (hbehaves _)
  · rintro hfits v calls rfl
    exact (refines_vectorInit v).behavesAsList hlegal hfits

/-- Elements of two bytes. The vector is not empty before `VECTOR_INIT`, and the last element is new. -/
theorem behavesAsList_of_pairs :
    (vectorInit ⟨⟨12, 5⟩, none⟩).BehavesAsList []
      ([.add ⟨[1, 2], rfl⟩, .add ⟨[3, 4], rfl⟩, .resize 3, .delete 0].map (@VectorCall.answered 2)) :=
  (behavesAsList_iff (by decide)).mpr (by decide) _ _ rfl

/-- `test_vector_init` of `server-test.c`. -/
example :
    ((vectorInit ⟨⟨12, 5⟩, none⟩).run [@VectorCall.answered 4 (.add ⟨[12, 0, 0, 0], rfl⟩)]).map
      (fun v => v.desc.length) = .ok 1 := rfl

/-- Elements of 16 bytes, of which `2 ^ 59` are made room for before one is added. -/
def wrappingCalls : List (VectorCall 16) :=
  [.answered (.resize (2 ^ 59)), .answered (.add ⟨List.replicate 16 0, rfl⟩)]

set_option maxRecDepth 3000 in
/-- The size of the block for `2 ^ 60` elements of 16 bytes is 0 in `size_t`. `realloc` does not fail, and
the next element is written outside of the block. -/
theorem wrappingCalls_outOfBounds :
    LegalOps 0 (wrappingCalls.map VectorCall.op) ∧
      ((vectorInit ⟨⟨0, 0⟩, none⟩).run (wrappingCalls.take 1)).map
          (fun v => (v.desc.length, v.desc.allocated, v.data.map Block.size)) =
        .ok (2 ^ 59, 2 ^ 60, some 0) ∧
      (vectorInit ⟨⟨0, 0⟩, none⟩).run wrappingCalls = .error .outOfBounds ∧
      ¬∀ (elemsize : UInt64) (ops : List (VectorOp elemsize)), LegalOps 0 ops →
        ∀ (v : SnapVector) (calls : List (VectorCall elemsize)), calls.map VectorCall.op = ops →
          v.vectorInit.BehavesAsList [] calls := by
  have hlegal : LegalOps 0 (wrappingCalls.map VectorCall.op) := by decide
  have hrun : (vectorInit ⟨⟨0, 0⟩, none⟩).run wrappingCalls = .error .outOfBounds := rfl
  refine ⟨hlegal, rfl, hrun, fun hclaim => ?_⟩
  have hbehaves := hclaim 16 _ hlegal ⟨⟨0, 0⟩, none⟩ wrappingCalls rfl wrappingCalls List.prefix_rfl
  rw [hrun] at hbehaves
  obtain ⟨c, -, -, hfault⟩ := hbehaves
  cases hfault

end SnapVector

end Snapcastc
