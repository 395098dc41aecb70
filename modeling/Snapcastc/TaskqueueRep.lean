import Snapcastc.Taskqueue
import Snapcastc.LibraryPairingHeap

/-! The heap that the linked tasks of the memory form, and what the functions of `taskqueue.c` do to
it. The forward pointers spell out a forest; the back pointers are a statement about all places at
once, which may leave out the one place whose pointer is out of date while a function works. -/

namespace Snapcastc

open Batteries.PairingHeapImp

/-- The place is a field of one of the tasks. -/
def Slot.In (l : List Nat) : Slot → Prop
  | .queue => False
  | .next t => t ∈ l
  | .children t => t ∈ l

theorem Slot.In.mono {l l' : List Nat} {slot : Slot} (hin : slot.In l) (hsub : l ⊆ l') :
    slot.In l' := by
  cases slot with
  | queue => exact hin
  | next t => exact hsub hin
  | children t => exact hsub hin

namespace Taskqueue

/-- The test of `taskqueue_merge`. -/
def before (s : Taskqueue) (a b : Nat) : Bool := decide (timespecCmp (s.due a) (s.due b) < 0)

/-- The first task is due no later than the second. -/
def NotLater (s : Taskqueue) (a b : Nat) : Prop := timespecCmp (s.due a) (s.due b) ≤ 0

instance (s : Taskqueue) : IsTrans Nat s.NotLater :=
  ⟨fun _ _ _ => timespecCmp_totalPreorder.trans _ _ _⟩

instance (s : Taskqueue) : Std.Refl s.NotLater := ⟨fun _ => timespecCmp_totalPreorder.refl _⟩

theorem decides (s : Taskqueue) (l : List Nat) : Heap.Decides s.before s.NotLater l := by
  intro x _ y _
  have hswap := timespecCmp_totalPreorder.swap (s.due y) (s.due x)
  simp only [before, NotLater, decide_eq_true_eq, decide_eq_false_iff_not]
  omega

def unlinked (task : Task) : Task := { task with pprev := none, next := none, children := none }

/-- Only links were written. -/
structure SameContent (s s' : Taskqueue) : Prop where
  task : ∀ t, unlinked (s'.task t) = unlinked (s.task t)
  fresh : s'.fresh = s.fresh

namespace SameContent

variable {s s' s'' : Taskqueue}

theorem refl (s : Taskqueue) : SameContent s s := ⟨fun _ => rfl, rfl⟩

theorem trans (h : SameContent s s') (h' : SameContent s' s'') : SameContent s s'' :=
  ⟨fun t => (h'.task t).trans (h.task t), h'.fresh.trans h.fresh⟩

theorem due (h : SameContent s s') (t : Nat) : s'.due t = s.due t := by
  change (unlinked (s'.task t)).due = (unlinked (s.task t)).due
  rw [h.task t]

theorem running (h : SameContent s s') (t : Nat) : s'.running t = s.running t := by
  change (unlinked (s'.task t)).running = (unlinked (s.task t)).running
  rw [h.task t]

theorem cleanup (h : SameContent s s') (t : Nat) : s'.cleanup t = s.cleanup t := by
  change (unlinked (s'.task t)).cleanup = (unlinked (s.task t)).cleanup
  rw [h.task t]

theorem before (h : SameContent s s') : s'.before = s.before := by
  funext a b
  simp only [Taskqueue.before, h.due]

theorem notLater (h : SameContent s s') : s'.NotLater = s.NotLater := by
  funext a b
  simp only [NotLater, h.due]

theorem set (s : Taskqueue) (slot : Slot) (pointer : Option Nat) :
    SameContent s (s.set slot pointer) := by
  cases slot <;> refine ⟨fun t => ?_, rfl⟩ <;>
    simp only [Taskqueue.set, modify, Function.update_apply] <;> split_ifs with h <;> simp [unlinked, h]

theorem setPprev (s : Taskqueue) (t : Nat) (slot : Option Slot) :
    SameContent s (s.setPprev t slot) := by
  refine ⟨fun t' => ?_, rfl⟩
  simp only [Taskqueue.setPprev, modify, Function.update_apply]
  split_ifs with h <;> simp [unlinked, h]

theorem setPprevOf (s : Taskqueue) (pointer : Option Nat) (slot : Slot) :
    SameContent s (s.setPprevOf pointer slot) := by
  cases pointer with
  | none => exact refl s
  | some t => exact setPprev s t _

end SameContent

/-- The pointer leads to the forest: a task is followed by its children and by its next siblings. -/
def Shape (s : Taskqueue) : Option Nat → Heap Nat → Prop
  | p, .nil => p = none
  | p, .node a c t => p = some a ∧ Shape s (s.get (.children a)) c ∧ Shape s (s.get (.next a)) t

theorem Shape.frame {s s' : Taskqueue} {p : Option Nat} {h : Heap Nat} (hshape : Shape s p h)
    (hsame : ∀ slot : Slot, slot.In h.elements → s'.get slot = s.get slot) : Shape s' p h := by
  induction h generalizing p with
  | nil => exact hshape
  | node a c t ihc iht =>
      obtain ⟨hp, hc, ht⟩ := hshape
      refine ⟨hp, ?_, ?_⟩
      · rw [hsame (.children a) (by simp [Slot.In])]
        exact ihc hc fun slot hin => hsame slot (hin.mono (by simp))
      · rw [hsame (.next a) (by simp [Slot.In])]
        exact iht ht fun slot hin => hsame slot (hin.mono (by simp))

theorem Shape.root_mem {s : Taskqueue} {p : Option Nat} {h : Heap Nat} {x : Nat}
    (hshape : Shape s p h) (hp : p = some x) : x ∈ h.elements := by
  cases h with
  | nil =>
      rw [hshape] at hp
      cases hp
  | node a c t =>
      rw [hshape.1] at hp
      simp [Option.some.inj hp]

/-- The fields of the tasks of a forest point into the forest. -/
theorem Shape.closed {s : Taskqueue} {p : Option Nat} {h : Heap Nat} (hshape : Shape s p h)
    {slot : Slot} (hin : slot.In h.elements) {x : Nat} (hget : s.get slot = some x) :
    x ∈ h.elements := by
  induction h generalizing p with
  | nil => cases slot <;> cases hin
  | node a c t ihc iht =>
      obtain ⟨-, hc, ht⟩ := hshape
      rw [Heap.elements_node, List.mem_cons, List.mem_append]
      by_cases hinc : slot.In c.elements
      · exact .inr (.inl (ihc hc hinc))
      by_cases hint : slot.In t.elements
      · exact .inr (.inr (iht ht hint))
      -- what is left are the two fields of the first task
      cases slot with
      | queue => cases hin
      | next b =>
          simp only [Slot.In, Heap.elements_node, List.mem_cons, List.mem_append] at hin hinc hint
          obtain rfl : b = a := by tauto
          exact .inr (.inr (ht.root_mem hget))
      | children b =>
          simp only [Slot.In, Heap.elements_node, List.mem_cons, List.mem_append] at hin hinc hint
          obtain rfl : b = a := by tauto
          exact .inr (.inl (hc.root_mem hget))

theorem Shape.singleton {s : Taskqueue} {p : Option Nat} {h : Heap Nat} (hshape : Shape s p h)
    (hsingle : h.NoSibling) {a : Nat} (hp : p = some a) : s.get (.next a) = none := by
  cases hsingle with
  | nil =>
      rw [hshape] at hp
      cases hp
  | node b c =>
      rw [hshape.1] at hp
      rw [← Option.some.inj hp]
      exact hshape.2.2

/-- Every task is told which place points to it; the places in `skip` may be out of date. -/
def Back (skip : Slot → Prop) (s : Taskqueue) : Prop :=
  ∀ slot t, ¬skip slot → s.get slot = some t → s.pprev t = some slot

/-- Nothing points to the task, up to the places in `skip`. -/
def Unpointed (skip : Slot → Prop) (s : Taskqueue) (t : Nat) : Prop :=
  ∀ slot, ¬skip slot → s.get slot ≠ some t

/-- Only the links of the tasks of a list were changed, and no other task got a pointer to it. -/
structure Rearranged (skip : Slot → Prop) (l : List Nat) (s s' : Taskqueue) : Prop where
  outside : ∀ slot : Slot, ¬slot.In l → s'.get slot = s.get slot
  pprev : ∀ t, t ∉ l → s'.pprev t = s.pprev t
  content : SameContent s s'
  unpointed : ∀ t, t ∉ l → Unpointed skip s t → Unpointed skip s' t

variable {skip : Slot → Prop} {s s' s'' : Taskqueue}

theorem Rearranged.refl (l : List Nat) (s : Taskqueue) : Rearranged skip l s s :=
  ⟨fun _ _ => rfl, fun _ _ => rfl, .refl s, fun _ _ h => h⟩

theorem Rearranged.mono {l l' : List Nat} (h : Rearranged skip l s s') (hsub : l ⊆ l') :
    Rearranged skip l' s s' :=
  ⟨fun slot hslot => h.outside slot fun hin => hslot (hin.mono hsub),
    fun t ht => h.pprev t fun hin => ht (hsub hin), h.content,
    fun t ht => h.unpointed t fun hin => ht (hsub hin)⟩

theorem Rearranged.trans {l : List Nat} (h : Rearranged skip l s s') (h' : Rearranged skip l s' s'') :
    Rearranged skip l s s'' :=
  ⟨fun slot hslot => (h'.outside slot hslot).trans (h.outside slot hslot),
    fun t ht => (h'.pprev t ht).trans (h.pprev t ht), h.content.trans h'.content,
    fun t ht hfree => h'.unpointed t ht (h.unpointed t ht hfree)⟩

theorem Rearranged.shape {l : List Nat} (h : Rearranged skip l s s') {p : Option Nat} {f : Heap Nat}
    (hshape : Shape s p f) (hdisjoint : ∀ t ∈ f.elements, t ∉ l) : Shape s' p f := by
  refine hshape.frame fun slot hin => h.outside slot fun hl => ?_
  cases slot with
  | queue => cases hin
  | next t => exact hdisjoint t hin hl
  | children t => exact hdisjoint t hin hl

/-- Clearing a field keeps the back pointers, and nothing new is pointed to. -/
theorem rearranged_clear {l : List Nat} {slot : Slot} (hin : slot.In l) :
    Rearranged skip l s (s.set slot none) := by
  refine ⟨fun slot' hslot' => ?_, fun t _ => by simp, .set s slot none, fun t _ hfree slot' hskip => ?_⟩
  · rw [get_set, if_neg fun h : slot' = slot => hslot' (h ▸ hin)]
  · rw [get_set]
    split_ifs
    · simp
    · exact hfree slot' hskip

theorem Back.clear (hback : Back skip s) (slot : Slot) : Back skip (s.set slot none) := by
  intro slot' t hskip hget
  rw [get_set] at hget
  split_ifs at hget
  rw [pprev_set]
  exact hback slot' t hskip hget

/-- A task is free as soon as the one place that pointed to it does no more. -/
theorem Back.unpointed (hback : Back skip s) {slot : Slot} {t : Nat} (hskip : ¬skip slot)
    (hget : s.get slot = some t) (hcleared : s'.get slot ≠ some t)
    (hfewer : ∀ slot', s'.get slot' = some t → s.get slot' = some t) : Unpointed skip s' t := by
  intro slot' hskip' hget'
  have hsame := (hback slot' t hskip' (hfewer slot' hget')).symm.trans (hback slot t hskip hget)
  rw [Option.some.inj hsame] at hget'
  exact hcleared hget'

/-! ### `taskqueue_link` and `taskqueue_merge` -/

/-- The memory after `taskqueue_link`. -/
structure LinkedAt (slot : Slot) (e : Nat) (s s' : Taskqueue) : Prop where
  get : ∀ x, s'.get x =
    if x = slot then some e else if x = .next e then s.get slot else s.get x
  pprev : ∀ t, s'.pprev t =
    if s.get slot = some t then some (.next e) else if t = e then some slot else s.pprev t
  content : SameContent s s'

theorem link_ok {e : Nat} (slot : Slot) (hnext : s.get (.next e) = none) :
    ∃ s', s.link slot e = .ok s' ∧ LinkedAt slot e s s' := by
  refine ⟨_, by rw [link, if_neg (by simp [hnext])], ?_, ?_, ?_⟩
  · intro x
    simp
  · intro t
    simp
  · exact (((SameContent.setPprev _ _ _).trans (.set _ _ _)).trans (.setPprevOf _ _ _)).trans (.set _ _ _)

theorem LinkedAt.back {slot : Slot} {e : Nat} (hlink : LinkedAt slot e s s') (hback : Back skip s)
    (hskip : ¬skip slot) (hfree : Unpointed skip s e) : Back skip s' := by
  intro x t hx hget
  rw [hlink.get] at hget
  rw [hlink.pprev]
  split_ifs at hget with hslot hnext
  · obtain rfl := Option.some.inj hget
    rw [if_neg (hfree slot hskip), if_pos rfl, hslot]
  · rw [if_pos hget, hnext]
  · have hpprev := hback x t hx hget
    rw [if_neg fun hold => hslot ?_, if_neg fun h : t = e => hfree x hx (h ▸ hget)]
    · exact hpprev
    · exact (Option.some.inj ((hback slot t hskip hold).symm.trans hpprev)).symm

/-- Linking one task in front of another's children. -/
theorem LinkedAt.rearranged {l : List Nat} {a e : Nat} (hlink : LinkedAt (.children a) e s s')
    (ha : a ∈ l) (he : e ∈ l) (hold : ∀ t, s.get (.children a) = some t → t ∈ l) :
    Rearranged skip l s s' := by
  refine ⟨fun slot hslot => ?_, fun t ht => ?_, hlink.content, fun t ht hfree x hskip hget => ?_⟩
  · rw [hlink.get, if_neg, if_neg]
    · rintro rfl
      exact hslot he
    · rintro rfl
      exact hslot ha
  · rw [hlink.pprev, if_neg fun h => ht (hold t h), if_neg fun h : t = e => ht (h ▸ he)]
  · rw [hlink.get] at hget
    split_ifs at hget
    · exact ht (Option.some.inj hget ▸ he)
    · exact ht (hold t hget)
    · exact hfree x hskip hget

/-- The root above the task that was linked below it is still free. -/
theorem LinkedAt.unpointed_above {a e : Nat} (hlink : LinkedAt (.children a) e s s') (hne : a ≠ e)
    (hskip : ¬skip (.children a)) (hfree : Unpointed skip s a) : Unpointed skip s' a := by
  intro x hx hget
  rw [hlink.get] at hget
  split_ifs at hget
  · exact hne (Option.some.inj hget).symm
  · exact hfree _ hskip hget
  · exact hfree x hx hget

/-- The tree of the one root with the other tree in front of its children. -/
theorem LinkedAt.shape {a e : Nat} {c d : Heap Nat} (hlink : LinkedAt (.children a) e s s')
    (hc : Shape s (s.get (.children a)) c) (hd : Shape s (s.get (.children e)) d)
    (hnext : s.get (.next a) = none)
    (hnodup : (a :: (c.elements ++ e :: d.elements)).Nodup) :
    Shape s' (some a) (.node a (.node e d c) .nil) := by
  simp only [List.nodup_cons, List.mem_append, List.mem_cons, List.nodup_append, not_or] at hnodup
  obtain ⟨⟨hac, hae, had⟩, hcNodup, ⟨hed, hdNodup⟩, hdisjoint⟩ := hnodup
  have hec : e ∉ c.elements := fun h => hdisjoint e h e (.inl rfl) rfl
  have hframe : ∀ f : Heap Nat, a ∉ f.elements → e ∉ f.elements →
      ∀ slot : Slot, slot.In f.elements → s'.get slot = s.get slot := by
    intro f ha he slot hin
    rw [hlink.get, if_neg, if_neg]
    · rintro rfl
      exact he hin
    · rintro rfl
      exact ha hin
  refine ⟨rfl, ⟨?_, ?_, ?_⟩, ?_⟩
  · rw [hlink.get, if_pos rfl]
  · rw [hlink.get, if_neg (by simp [Ne.symm hae]), if_neg (by simp)]
    exact hd.frame (hframe d had hed)
  · rw [hlink.get, if_neg (by simp), if_pos rfl]
    exact hc.frame (hframe c hac hec)
  · rw [hlink.get, if_neg (by simp), if_neg (by simp [hae])]
    exact hnext

/-- `taskqueue_merge` of two trees nothing points to. -/
theorem merge_spec {q : Nat} {p : Option Nat} {h₁ h₂ : Heap Nat} (hback : Back skip s)
    (hshape₁ : Shape s (some q) h₁) (hsingle₁ : h₁.NoSibling) (hshape₂ : Shape s p h₂)
    (hsingle₂ : h₂.NoSibling) (hnodup : (h₁.elements ++ h₂.elements).Nodup)
    (hfree₁ : Unpointed skip s q) (hfree₂ : ∀ r, p = some r → Unpointed skip s r)
    (hskip : ∀ slot, skip slot → ¬slot.In (h₁.elements ++ h₂.elements)) :
    ∃ s' r, s.merge (some q) p = .ok (s', r) ∧ Shape s' (some r) (Heap.merge s.before h₁ h₂) ∧
      Back skip s' ∧ Unpointed skip s' r ∧
        Rearranged skip (h₁.elements ++ h₂.elements) s s' := by
  cases hsingle₁ with
  | nil => cases hshape₁
  | node a c =>
      obtain ⟨hq, hc, hnil₁⟩ := hshape₁
      obtain rfl := Option.some.inj hq
      have hnext₁ : s.get (.next q) = none := hnil₁
      cases hsingle₂ with
      | nil =>
          obtain rfl : p = none := hshape₂
          exact ⟨s, q, by simp [merge, hnext₁], ⟨rfl, hc, hnext₁⟩, hback, hfree₁, .refl _ _⟩
      | node b d =>
          obtain ⟨rfl, hd, hnil₂⟩ := hshape₂
          have hnext₂ : s.get (.next b) = none := hnil₂
          simp only [Heap.elements_node, Heap.elements_nil, List.append_nil] at hnodup hskip ⊢
          have hqb : q ≠ b := by
            rintro rfl
            simp at hnodup
          have hfree₂ := hfree₂ b rfl
          rw [Heap.merge_node]
          cases hbefore : s.before q b with
          | true =>
              obtain ⟨s', hlink, hat⟩ := link_ok (.children q) hnext₂
              have hskipAt : ¬skip (.children q) := fun h => hskip _ h (by simp [Slot.In])
              refine ⟨s', q, ?_, ?_, hat.back hback hskipAt hfree₂,
                hat.unpointed_above hqb hskipAt hfree₁, hat.rearranged (by simp) (by simp) ?_⟩
              · have hlt : timespecCmp (s.due q) (s.due b) < 0 := by simpa [before] using hbefore
                simp [merge, hnext₁, hnext₂, hlt, hlink, Except.map]
              · exact hat.shape hc hd hnext₁ hnodup
              · intro t ht
                simp [hc.root_mem ht]
          | false =>
              obtain ⟨s', hlink, hat⟩ := link_ok (.children b) hnext₁
              have hskipAt : ¬skip (.children b) := fun h => hskip _ h (by simp [Slot.In])
              refine ⟨s', b, ?_, ?_, hat.back hback hskipAt hfree₁,
                hat.unpointed_above hqb.symm hskipAt hfree₂, hat.rearranged (by simp) (by simp) ?_⟩
              · have hlt : ¬timespecCmp (s.due q) (s.due b) < 0 := by simpa [before] using hbefore
                simp [merge, hnext₁, hnext₂, hlt, hlink, Except.map]
              · refine hat.shape hd hc hnext₂ ?_
                have hswap : (q :: c.elements ++ b :: d.elements).Perm
                    (b :: d.elements ++ q :: c.elements) := List.perm_append_comm
                exact hswap.nodup_iff.mp hnodup
              · intro t ht
                simp [hd.root_mem ht]

end Taskqueue

end Snapcastc
