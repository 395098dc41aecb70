import Snapcastc.Pqueue

/-! When the priority queue serves its elements in order. The queue moves elements up along
`PARENT(x) = x / 2` and down along `LEFT` and `RIGHT`, whose inverse is `(x - 1) / 2`. The two agree
at odd positions only, so an element that climbs from an even position leaves the heap that
`pqueue_heapify` works on. -/

namespace Snapcastc

open ArrayHeap Comparator

namespace PQueue

variable {α : Type}

/-- A call on the queue. -/
inductive Op (α : Type) where
  | enqueue (x : α)
  | dequeue

/-- The queue after one call. -/
def step (q : PQueue α) : Op α → PQueue α
  | .enqueue x => q.enqueue x
  | .dequeue => q.dequeue.2

/-- The queue after a sequence of calls. -/
def run (q : PQueue α) (ops : List (Op α)) : PQueue α := ops.foldl step q

/-- On a non-empty queue, `pqueue_peek` and `pqueue_dequeue` return a held element that no held
element outranks. -/
def ServesGreatest (q : PQueue α) : Prop :=
  0 < q.size → ∃ m, q.peek = some m ∧ q.dequeue.1 = some m ∧ (∃ i, i < q.size ∧ q.data i = m) ∧
    ∀ i, i < q.size → q.cmp (q.data i) m ≤ 0

/-- The walk that moves `x` up from position `i` swaps at odd positions only, where `PARENT` is the
heap parent, and it stops below its heap parent. -/
inductive Aligned (q : PQueue α) (x : α) : Nat → Prop where
  | root : Aligned q x 0
  | stop (i : Nat) (hi : 0 < i) (hparent : q.cmp x (q.data (parentOf i)) ≤ 0)
      (hheap : q.cmp x (q.data (parent i)) ≤ 0) : Aligned q x i
  | climb (i : Nat) (hodd : i % 2 = 1) (hgt : 0 < q.cmp x (q.data (parentOf i)))
      (hrest : Aligned q x (parentOf i)) : Aligned q x i

/-- An enqueue that cannot bring the queue out of order: the queue is full, or holds at most three
elements, or the new element's walk is aligned with the heap. -/
def HarmlessEnqueue (q : PQueue α) (x : α) : Prop :=
  q.capacity ≤ q.size ∨ q.size ≤ 3 ∨ Aligned q x q.size

/-- Every enqueue of the sequence of calls is harmless where it happens. -/
def HarmlessRun : PQueue α → List (Op α) → Prop
  | _, [] => True
  | q, .enqueue x :: ops => HarmlessEnqueue q x ∧ HarmlessRun (q.enqueue x) ops
  | q, .dequeue :: ops => HarmlessRun q.dequeue.2 ops

/-- The index that `pqueue_heapify` picks is outranked by neither `idx` nor its children. -/
theorem le_largest {q : PQueue α} (hcmp : TotalPreorder q.cmp) (idx : Nat) :
    q.cmp (q.data idx) (q.data (q.largest idx)) ≤ 0 ∧
      ∀ k, 0 < k → k < q.size → parent k = idx → q.cmp (q.data k) (q.data (q.largest idx)) ≤ 0 := by
  have hchild : ∀ k, 0 < k → parent k = idx → k = left idx ∨ k = right idx := by
    intro k hpos hk
    unfold parent at hk
    unfold left right
    omega
  unfold largest
  dsimp only
  split_ifs with hl hr hr
  · refine ⟨hcmp.trans _ _ _ (hcmp.le_of_pos hl.2) (hcmp.le_of_pos hr.2), ?_⟩
    intro k hpos hk hparent
    rcases hchild k hpos hparent with rfl | rfl
    · exact hcmp.le_of_pos hr.2
    · exact hcmp.refl _
  · refine ⟨hcmp.le_of_pos hl.2, ?_⟩
    intro k hpos hk hparent
    rcases hchild k hpos hparent with rfl | rfl
    · exact hcmp.refl _
    · by_contra hgt
      exact hr ⟨hk, by omega⟩
  · refine ⟨hcmp.le_of_pos hr.2, ?_⟩
    intro k hpos hk hparent
    rcases hchild k hpos hparent with rfl | rfl
    · have hle : q.cmp (q.data (left idx)) (q.data idx) ≤ 0 := by
        by_contra hgt
        exact hl ⟨hk, by omega⟩
      exact hcmp.trans _ _ _ hle (hcmp.le_of_pos hr.2)
    · exact hcmp.refl _
  · refine ⟨hcmp.refl _, ?_⟩
    intro k hpos hk hparent
    rcases hchild k hpos hparent with rfl | rfl
    · by_contra hgt
      exact hl ⟨hk, by omega⟩
    · by_contra hgt
      exact hr ⟨hk, by omega⟩

theorem largest_gt {q : PQueue α} (hcmp : TotalPreorder q.cmp) {idx : Nat}
    (hmove : q.largest idx ≠ idx) :
    parent (q.largest idx) = idx ∧ 0 < q.cmp (q.data (q.largest idx)) (q.data idx) := by
  unfold largest at *
  dsimp only at *
  split_ifs at * with hl hr hr
  · exact ⟨by unfold parent right; omega, hcmp.pos_trans hr.2 hl.2⟩
  · exact ⟨by unfold parent left; omega, hl.2⟩
  · exact ⟨by unfold parent right; omega, hr.2⟩
  · exact absurd rfl hmove

/-- `pqueue_heapify` turns an almost-heap into a heap. -/
theorem heapify_ordered {q : PQueue α} (hcmp : TotalPreorder q.cmp) {idx : Nat}
    (hdown : DownReady q.cmp q.data q.size idx) :
    Ordered q.cmp (q.heapify idx).data q.size := by
  obtain ⟨gap, hgap⟩ : ∃ gap, gap = q.size - idx := ⟨_, rfl⟩
  induction gap using Nat.strong_induction_on generalizing q idx with
  | _ gap ih =>
      rw [heapify_eq]
      obtain ⟨hself, hchildren⟩ := le_largest hcmp idx
      split
      · rename_i hmove
        obtain ⟨hlt, hsize⟩ := lt_largest hmove
        obtain ⟨hparent, hgt⟩ := largest_gt hcmp hmove
        exact ih (q.size - q.largest idx) (by omega) (q := q.swap (q.largest idx) idx) hcmp
          (hdown.move hcmp (by omega) hsize hparent hgt hchildren) rfl
      · rename_i hstay
        rw [not_not] at hstay
        rw [hstay] at hchildren
        exact hdown.finish hchildren

/-! ### Moving up along `PARENT` -/

/-- An aligned walk moves its element up along heap edges and keeps the heap. Below position `i` the
array is still the one the walk started with. -/
theorem siftUp_aligned {q : PQueue α} (hcmp : TotalPreorder q.cmp) {x : α} {i n : Nat}
    (halign : Aligned q x i) : ∀ {q' : PQueue α}, q'.cmp = q.cmp → q'.data i = x →
    (∀ k, k < i → q'.data k = q.data k) → UpReady q.cmp q'.data n i →
    Ordered q.cmp (q'.siftUp i).data n := by
  induction halign with
  | root =>
      intro q' _ _ _ hup
      rw [siftUp_eq, if_neg (by omega)]
      exact hup.finish (by omega)
  | stop i hi hparent hheap =>
      intro q' hq' hx hsame hup
      have hlt := parentOf_lt hi
      have hlt' := ArrayHeap.parent_lt hi
      rw [siftUp_eq, if_neg (by rw [hq', hx, hsame _ hlt]; omega)]
      refine hup.finish fun _ => ?_
      rw [hx, hsame _ hlt']
      exact hheap
  | climb i hodd hgt _ ih =>
      intro q' hq' hx hsame hup
      have hi : 0 < i := by omega
      have hlt := parentOf_lt hi
      -- at an odd position `PARENT` is the heap parent
      have hparent : parent i = parentOf i := by
        unfold parent parentOf
        omega
      rw [siftUp_eq, if_pos (by rw [hq', hx, hsame _ hlt]; omega)]
      refine @ih (q'.swap i (parentOf i)) hq' ?_ ?_ ?_
      · simp [hx]
      · intro k hk
        exact (exchange_of_ne (by omega) (by omega)).trans (hsame k (by omega))
      · have hmove : 0 < q.cmp (q'.data i) (q'.data (parent i)) := by
          rw [hparent, hx, hsame _ hlt]
          exact hgt
        rw [← hparent]
        exact hup.move hcmp hi hmove

/-- From positions one and three every walk is aligned. -/
theorem aligned_of_small {q : PQueue α} (x : α) {i : Nat} (hi : i = 0 ∨ i = 1 ∨ i = 3) :
    Aligned q x i := by
  have hone : Aligned q x 1 := by
    by_cases hgt : 0 < q.cmp x (q.data (parentOf 1))
    · exact .climb 1 rfl hgt .root
    · exact .stop 1 (by omega) (by omega) (show q.cmp x (q.data (parentOf 1)) ≤ 0 by omega)
  rcases hi with rfl | rfl | rfl
  · exact .root
  · exact hone
  · by_cases hgt : 0 < q.cmp x (q.data (parentOf 3))
    · exact .climb 3 rfl hgt hone
    · exact .stop 3 (by omega) (by omega) (show q.cmp x (q.data (parentOf 3)) ≤ 0 by omega)

/-- An element that outranks nothing in the queue stays where it is appended. -/
theorem aligned_of_last {q : PQueue α} {x : α} (hlast : ∀ i, i < q.size → q.cmp x (q.data i) ≤ 0) :
    Aligned q x q.size := by
  by_cases hzero : q.size = 0
  · rw [hzero]
    exact .root
  · have hlt := parentOf_lt (i := q.size) (by omega)
    have hlt' := ArrayHeap.parent_lt (i := q.size) (by omega)
    exact .stop _ (by omega) (hlast _ hlt) (hlast _ hlt')

/-- Positions above the start of the walk are not touched. -/
theorem siftUp_above (q : PQueue α) {i k : Nat} (hk : i < k) : (q.siftUp i).data k = q.data k := by
  induction i using Nat.strong_induction_on generalizing q with
  | _ i ih =>
      rw [siftUp_eq]
      split
      · rename_i hmove
        have hlt := parentOf_lt hmove.1
        rw [ih _ hlt _ (by omega)]
        exact exchange_of_ne (by omega) (by omega)
      · rfl

/-- A walk only ever replaces the root by a greater element. -/
theorem le_siftUp_root {q : PQueue α} (hcmp : TotalPreorder q.cmp) (i : Nat) :
    q.cmp (q.data 0) ((q.siftUp i).data 0) ≤ 0 := by
  induction i using Nat.strong_induction_on generalizing q with
  | _ i ih =>
      rw [siftUp_eq]
      split
      · rename_i hmove
        have hlt := parentOf_lt hmove.1
        refine hcmp.trans _ _ _ ?_
          (ih _ hlt (q := q.swap i (parentOf i)) hcmp)
        by_cases hroot : parentOf i = 0
        · rw [swap_data, hroot, exchange_right]
          rw [hroot] at hmove
          exact hcmp.le_of_pos hmove.2
        · rw [swap_data, exchange_of_ne (by omega) (Ne.symm hroot)]
          exact hcmp.refl _
      · exact hcmp.refl _

theorem siftUp_one {q : PQueue α} (hcmp : TotalPreorder q.cmp) {n : Nat}
    (hup : UpReady q.cmp q.data n 1) : Ordered q.cmp (q.siftUp 1).data n :=
  siftUp_aligned hcmp (aligned_of_small (q.data 1) (by omega)) rfl rfl (fun _ _ => rfl) hup

/-- Position two is compared with its sibling instead of the root. In a heap of at most four this
costs nothing: the two are either left alone or exchanged, and then the sibling climbs. -/
theorem siftUp_two {q : PQueue α} (hcmp : TotalPreorder q.cmp) {n : Nat} (hn : n ≤ 4)
    (hone : q.cmp (q.data 1) (q.data 0) ≤ 0) (hthree : 3 < n → q.cmp (q.data 3) (q.data 1) ≤ 0) :
    Ordered q.cmp (q.siftUp 2).data n := by
  rw [siftUp_eq, show parentOf 2 = 1 from rfl]
  split
  · rename_i hmove
    have hzero : exchange q.data 2 1 0 = q.data 0 := exchange_of_ne (by omega) (by omega)
    have hthird : exchange q.data 2 1 3 = q.data 3 := exchange_of_ne (by omega) (by omega)
    refine siftUp_one (q := q.swap 2 1) hcmp ⟨?_, ?_⟩
    · intro k hpos hk hne
      obtain rfl | rfl : k = 2 ∨ k = 3 := by omega
      · rw [show parent 2 = 0 from rfl, swap_data, exchange_left, hzero]
        exact hone
      · rw [show parent 3 = 1 from rfl, swap_data, exchange_right, hthird]
        exact hcmp.trans _ _ _ (hthree hk) (hcmp.le_of_pos hmove.2)
    · intro k hpos hk hparent _
      obtain rfl : k = 3 := by
        unfold parent at hparent
        omega
      rw [show parent 1 = 0 from rfl, swap_data, hzero, hthird]
      exact hcmp.trans _ _ _ (hthree hk) hone
  · rename_i hstop
    intro k hpos hk
    obtain rfl | rfl | rfl : k = 1 ∨ k = 2 ∨ k = 3 := by omega
    · exact hone
    · exact hcmp.trans _ _ _ (show q.cmp (q.data 2) (q.data 1) ≤ 0 by omega) hone
    · exact hthree hk

/-- The fifth element is compared with position two instead of position one: the first four elements
stay a heap, and the fifth stays below the root. -/
theorem siftUp_four {q : PQueue α} (hcmp : TotalPreorder q.cmp) (hord : Ordered q.cmp q.data 4) :
    Ordered q.cmp (q.siftUp 4).data 4 ∧
      q.cmp ((q.siftUp 4).data 4) ((q.siftUp 4).data 0) ≤ 0 := by
  have hone : q.cmp (q.data 1) (q.data 0) ≤ 0 := hord 1 (by omega) (by omega)
  have htwo : q.cmp (q.data 2) (q.data 0) ≤ 0 := hord 2 (by omega) (by omega)
  have hthree : q.cmp (q.data 3) (q.data 1) ≤ 0 := hord 3 (by omega) (by omega)
  rw [siftUp_eq q 4, show parentOf 4 = 2 from rfl]
  split
  · have hkeep : ∀ k, k ≠ 4 → k ≠ 2 → exchange q.data 4 2 k = q.data k :=
      fun k hk4 hk2 => exchange_of_ne hk4 hk2
    have hzero := hkeep 0 (by omega) (by omega)
    constructor
    · refine siftUp_two (q := q.swap 4 2) hcmp (le_refl 4) ?_ ?_
      · rw [swap_data, hkeep 1 (by omega) (by omega), hzero]
        exact hone
      · rw [swap_data, hkeep 3 (by omega) (by omega), hkeep 1 (by omega) (by omega)]
        exact fun _ => hthree
    · have hroot := le_siftUp_root (q := q.swap 4 2) hcmp 2
      rw [siftUp_above _ (by omega), swap_data, exchange_left]
      rw [swap_data, hzero] at hroot
      exact hcmp.trans _ _ _ htwo hroot
  · rename_i hstop
    exact ⟨hord, hcmp.trans _ _ _ (show q.cmp (q.data 4) (q.data 2) ≤ 0 by omega) htwo⟩

/-! ### What calls preserve -/

/-- Everything but possibly the last element is in heap order, and nothing outranks the root. -/
structure Served (q : PQueue α) : Prop where
  ordered : Ordered q.cmp q.data (q.size - 1)
  root : ∀ i, i < q.size → q.cmp (q.data i) (q.data 0) ≤ 0

theorem served_of_ordered {q : PQueue α} (hcmp : TotalPreorder q.cmp)
    (hord : Ordered q.cmp q.data q.size) : Served q :=
  ⟨hord.mono (by omega), hord.le_root hcmp⟩

theorem Served.servesGreatest {q : PQueue α} (hq : Served q) : ServesGreatest q := by
  intro hpos
  refine ⟨q.data 0, peek_eq_some hpos, ?_, ⟨0, hpos, rfl⟩, hq.root⟩
  rw [dequeue_of_pos hpos]

/-- The last element becomes the root that `pqueue_heapify` moves down, so its own place in the heap
does not matter. -/
theorem Served.dequeue_ordered {q : PQueue α} (hcmp : TotalPreorder q.cmp) (hq : Served q) :
    Ordered q.cmp q.dequeue.2.data q.dequeue.2.size := by
  by_cases hpos : 0 < q.size
  · rw [dequeue_size, dequeue_of_pos hpos]
    exact heapify_ordered (q := q.lastToRoot) hcmp
      (hq.ordered.downReady_root fun k hk _ => q.lastToRoot_data_of_pos hk)
  · intro i _ hi
    rw [dequeue_size] at hi
    omega

/-- A harmless enqueue keeps the heap. -/
theorem enqueue_ordered {q : PQueue α} (hcmp : TotalPreorder q.cmp)
    (hord : Ordered q.cmp q.data q.size) {x : α} (hx : HarmlessEnqueue q x) :
    Ordered q.cmp (q.enqueue x).data (q.enqueue x).size := by
  by_cases hfull : q.size ≥ q.capacity
  · rw [enqueue, if_pos hfull]
    exact hord
  · rw [enqueue_size, enqueue, if_neg hfull, if_neg hfull]
    have hsame : ∀ k, k < q.size → (q.addLast x).data k = q.data k :=
      fun k hk => q.addLast_data_of_lt x hk
    have haligned : Aligned q x q.size →
        Ordered q.cmp ((q.addLast x).siftUp q.size).data (q.size + 1) := fun halign =>
      siftUp_aligned hcmp halign rfl (q.addLast_data_size x) hsame (hord.upReady_last hsame)
    rcases hx with hcap | hsmall | halign
    · exact absurd hcap hfull
    · by_cases htwo : q.size = 2
      · have hone := hord 1 (by omega) (by omega)
        rw [← hsame _ (by omega), ← hsame _ (show parent 1 < q.size by rw [htwo]; decide)] at hone
        rw [htwo]
        exact siftUp_two (q := q.addLast x) hcmp (by omega) hone (by omega)
      · exact haligned (aligned_of_small x (by omega))
    · exact haligned halign

/-- The fifth element of a queue leaves it served. -/
theorem enqueue_fifth {q : PQueue α} (hcmp : TotalPreorder q.cmp)
    (hord : Ordered q.cmp q.data q.size) (hsize : q.size = 4) (x : α) : Served (q.enqueue x) := by
  by_cases hfull : q.size ≥ q.capacity
  · rw [enqueue, if_pos hfull]
    exact served_of_ordered hcmp hord
  · have hfour : Ordered q.cmp (q.addLast x).data 4 := by
      intro k hpos hk
      have hlt := ArrayHeap.parent_lt hpos
      rw [q.addLast_data_of_lt x (by omega), q.addLast_data_of_lt x (by omega)]
      exact hord k hpos (by omega)
    obtain ⟨hheap, hlast⟩ := siftUp_four (q := q.addLast x) hcmp hfour
    have henqueue : q.enqueue x = (q.addLast x).siftUp 4 := by
      rw [enqueue, if_neg hfull, hsize]
    have hnew : (q.enqueue x).size = 5 := by
      rw [enqueue_size, if_neg hfull, hsize]
    constructor
    · rw [enqueue_cmp, hnew, henqueue]
      exact hheap
    · intro i hi
      rw [hnew] at hi
      rw [enqueue_cmp, henqueue]
      by_cases hfourth : i = 4
      · rw [hfourth]
        exact hlast
      · exact hheap.le_root hcmp i (by omega)

theorem HarmlessRun.of_prefix {q : PQueue α} {pre ops : List (Op α)} (hpre : pre <+: ops)
    (hrun : HarmlessRun q ops) : HarmlessRun q pre := by
  obtain ⟨rest, rfl⟩ := hpre
  induction pre generalizing q with
  | nil => trivial
  | cons op pre ih =>
      cases op with
      | enqueue x => exact ⟨hrun.1, ih hrun.2⟩
      | dequeue => exact ih hrun

theorem run_ordered {q : PQueue α} (hcmp : TotalPreorder q.cmp)
    (hord : Ordered q.cmp q.data q.size) {ops : List (Op α)} (hrun : HarmlessRun q ops) :
    Served (run q ops) := by
  induction ops generalizing q with
  | nil => exact served_of_ordered hcmp hord
  | cons op ops ih =>
      cases op with
      | enqueue x =>
          have hnext := enqueue_ordered hcmp hord hrun.1
          rw [← enqueue_cmp q x] at hcmp hnext
          exact ih hcmp hnext hrun.2
      | dequeue =>
          have hnext := (served_of_ordered hcmp hord).dequeue_ordered hcmp
          rw [← dequeue_cmp q] at hcmp hnext
          exact ih hcmp hnext hrun

/-- What holds of a queue of at most five elements whatever is done with it: it is a heap, or it is
full and only the last element may be out of place. -/
structure SmallInv (q : PQueue α) : Prop where
  capacity : q.capacity ≤ 5
  size : q.size ≤ q.capacity
  preorder : TotalPreorder q.cmp
  order : Ordered q.cmp q.data q.size ∨ q.size = 5 ∧ Served q

theorem SmallInv.served {q : PQueue α} (hq : SmallInv q) : Served q :=
  hq.order.elim (served_of_ordered hq.preorder) And.right

theorem SmallInv.step {q : PQueue α} (hq : SmallInv q) (op : Op α) : SmallInv (q.step op) := by
  cases op with
  | enqueue x =>
      refine ⟨by simpa [PQueue.step] using hq.capacity, ?_, by simpa [PQueue.step] using hq.preorder, ?_⟩
      · simp only [PQueue.step, enqueue_size, enqueue_capacity]
        have := hq.size
        split <;> omega
      · show Ordered (q.enqueue x).cmp (q.enqueue x).data (q.enqueue x).size ∨
          (q.enqueue x).size = 5 ∧ Served (q.enqueue x)
        by_cases hfull : q.size ≥ q.capacity
        · rw [show q.enqueue x = q from if_pos hfull]
          exact hq.order
        · have hcap := hq.capacity
          have hord := hq.order.resolve_right (by omega)
          by_cases hfour : q.size = 4
          · refine Or.inr ⟨?_, enqueue_fifth hq.preorder hord hfour x⟩
            rw [enqueue_size, if_neg hfull, hfour]
          · rw [enqueue_cmp]
            exact Or.inl (enqueue_ordered hq.preorder hord (Or.inr (Or.inl (by omega))))
  | dequeue =>
      refine ⟨by simpa [PQueue.step] using hq.capacity, ?_, by simpa [PQueue.step] using hq.preorder, ?_⟩
      · simp only [PQueue.step, dequeue_size, dequeue_capacity]
        have := hq.size
        omega
      · simp only [PQueue.step, dequeue_cmp]
        exact Or.inl (hq.served.dequeue_ordered hq.preorder)

theorem SmallInv.run {q : PQueue α} (hq : SmallInv q) (ops : List (Op α)) : SmallInv (run q ops) :=
  List.foldlRecOn ops PQueue.step hq fun _ hb op _ => hb.step op

/-! ### A run that leaves the order, at every capacity from six on -/

/-- The sequence of calls never finds a queue of `n` elements full at capacity `c`. -/
def fits (c : Nat) : Nat → List (Op α) → Bool
  | _, [] => true
  | n, .enqueue _ :: ops => decide (n < c) && fits c (n + 1) ops
  | n, .dequeue :: ops => fits c (n - 1) ops

def withCapacity (q : PQueue α) (c : Nat) : PQueue α := { q with capacity := c }

theorem siftUpLoop_withCapacity (rounds : Nat) (q : PQueue α) (i c : Nat) :
    siftUpLoop rounds (q.withCapacity c) i = (siftUpLoop rounds q i).withCapacity c := by
  induction rounds generalizing q i with
  | zero => rfl
  | succ rounds ih =>
      by_cases hmove : i > 0 ∧ q.cmp (q.data i) (q.data (parentOf i)) > 0
      · have hold : siftUpLoop (rounds + 1) q i = _ := if_pos hmove
        have hnew : siftUpLoop (rounds + 1) (q.withCapacity c) i = _ := if_pos hmove
        rw [hold, hnew]
        exact ih (q.swap i (parentOf i)) (parentOf i)
      · have hold : siftUpLoop (rounds + 1) q i = q := if_neg hmove
        have hnew : siftUpLoop (rounds + 1) (q.withCapacity c) i = q.withCapacity c := if_neg hmove
        rw [hold, hnew]

theorem heapifyLoop_withCapacity (rounds : Nat) (q : PQueue α) (idx c : Nat) :
    heapifyLoop rounds (q.withCapacity c) idx = (heapifyLoop rounds q idx).withCapacity c := by
  induction rounds generalizing q idx with
  | zero => rfl
  | succ rounds ih =>
      have hlargest : (q.withCapacity c).largest idx = q.largest idx := rfl
      rw [heapifyLoop, heapifyLoop]
      simp only [hlargest]
      split
      · exact ih (q.swap (q.largest idx) idx) (q.largest idx)
      · rfl

theorem enqueue_withCapacity {q : PQueue α} {c : Nat} (hq : q.size < q.capacity) (hc : q.size < c)
    (x : α) : (q.withCapacity c).enqueue x = (q.enqueue x).withCapacity c := by
  rw [enqueue, enqueue, if_neg (show ¬(q.withCapacity c).size ≥ (q.withCapacity c).capacity by
    show ¬q.size ≥ c
    omega), if_neg (by omega)]
  exact siftUpLoop_withCapacity _ (q.addLast x) _ c

theorem dequeue_withCapacity (q : PQueue α) (c : Nat) :
    (q.withCapacity c).dequeue.2 = q.dequeue.2.withCapacity c := by
  by_cases hpos : 0 < q.size
  · rw [dequeue_of_pos hpos, dequeue_of_pos (q := q.withCapacity c) hpos]
    exact heapifyLoop_withCapacity _ q.lastToRoot 0 c
  · rw [dequeue_of_empty (show q.size = 0 by omega),
      dequeue_of_empty (q := q.withCapacity c) (show q.size = 0 by omega)]

/-- A sequence of calls that never fills the queue does the same at every larger capacity. -/
theorem run_withCapacity {q : PQueue α} {c : Nat} (hc : q.capacity ≤ c) {ops : List (Op α)}
    (hfits : fits q.capacity q.size ops = true) :
    run (q.withCapacity c) ops = (run q ops).withCapacity c := by
  induction ops generalizing q with
  | nil => rfl
  | cons op ops ih =>
      cases op with
      | enqueue x =>
          simp only [fits, Bool.and_eq_true, decide_eq_true_eq] at hfits
          obtain ⟨hlt, hrest⟩ := hfits
          have hsize : (q.enqueue x).size = q.size + 1 := by
            rw [enqueue_size, if_neg (by omega)]
          show run ((q.withCapacity c).enqueue x) ops = (run (q.enqueue x) ops).withCapacity c
          rw [enqueue_withCapacity hlt (by omega)]
          exact ih (by rw [enqueue_capacity]; exact hc)
            (by rw [enqueue_capacity, hsize]; exact hrest)
      | dequeue =>
          show run ((q.withCapacity c).dequeue.2) ops = (run q.dequeue.2 ops).withCapacity c
          rw [dequeue_withCapacity]
          exact ih (by rw [dequeue_capacity]; exact hc)
            (by rw [dequeue_capacity, dequeue_size]; exact hfits)

end PQueue

namespace PQueue

def chunkAt (sec : UInt32) : PcmChunk := { (default : PcmChunk) with playAtTvSec := sec }

/-- Eleven calls on the receive buffer after which a chunk due at second 7 is served before one due
at second 5. -/
def disorderingCalls : List (Op PcmChunk) :=
  [.enqueue (chunkAt 7), .enqueue (chunkAt 5), .enqueue (chunkAt 1), .enqueue (chunkAt 8),
    .enqueue (chunkAt 5), .dequeue, .enqueue (chunkAt 5), .enqueue (chunkAt 9), .dequeue,
    .enqueue (chunkAt 9), .dequeue]

/-- The receive buffer after the eleven calls. -/
def disordered (capacity : Nat) : PQueue PcmChunk :=
  run (new (fun _ => default) receivebufferCmp capacity) disorderingCalls

theorem disordered_head : (disordered 6).size = 5 ∧ (disordered 6).data 0 = chunkAt 7 ∧
    (disordered 6).data 1 = chunkAt 5 := by
  decide +kernel

/-- No larger buffer helps: the eleven calls never hold more than six chunks. -/
theorem disordered_not_served {capacity : Nat} (hcap : 6 ≤ capacity) :
    ¬ServesGreatest (disordered capacity) := by
  obtain ⟨hsize, hzero, hone⟩ := disordered_head
  have hsame : disordered capacity = (disordered 6).withCapacity capacity :=
    run_withCapacity (q := new (fun _ => default) receivebufferCmp 6) hcap (by decide)
  have hcmp : (disordered capacity).cmp = receivebufferCmp := by
    rw [hsame]
    rfl
  intro hserves
  obtain ⟨m, hpeek, -, -, hmax⟩ := hserves (by rw [hsame]; exact hsize ▸ (by decide : 0 < 5))
  have hm : m = chunkAt 7 := by
    rw [peek_eq_some (by rw [hsame]; exact hsize ▸ (by decide : 0 < 5)), hsame] at hpeek
    exact (Option.some.inj hpeek).symm.trans hzero
  have hle := hmax 1 (by rw [hsame]; exact hsize ▸ (by decide : 1 < 5))
  rw [hcmp, hm, hsame] at hle
  exact absurd (show receivebufferCmp ((disordered 6).data 1) (chunkAt 7) ≤ 0 from hle)
    (by rw [hone]; decide)

/-- The queue serves the greatest element after every sequence of calls exactly when it has room for
at most five elements. At any capacity it does so in every state of a run whose enqueues are all
harmless. -/
theorem servesGreatest_iff (capacity : Nat) :
    ((∀ (α : Type) (slots : Nat → α) (cmp : α → α → Int), TotalPreorder cmp →
      ∀ ops, ServesGreatest (run (new slots cmp capacity) ops)) ↔ capacity ≤ 5) ∧
    ∀ (α : Type) (slots : Nat → α) (cmp : α → α → Int) (ops : List (Op α)),
      TotalPreorder cmp → HarmlessRun (new slots cmp capacity) ops →
        ∀ pre, pre <+: ops → ServesGreatest (run (new slots cmp capacity) pre) := by
  constructor
  · constructor
    · intro hall
      by_contra hcap
      exact disordered_not_served (by omega)
        (hall PcmChunk (fun _ => default) receivebufferCmp receivebufferCmp_totalPreorder
          disorderingCalls)
    · intro hcap α slots cmp hcmp ops
      have hnew : SmallInv (new slots cmp capacity) :=
        ⟨hcap, Nat.zero_le _, hcmp, Or.inl fun i _ hi => absurd hi (Nat.not_lt_zero i)⟩
      exact (hnew.run ops).served.servesGreatest
  · intro α slots cmp ops hcmp hrun pre hpre
    exact (run_ordered hcmp (fun i _ hi => absurd hi (Nat.not_lt_zero i))
      (hrun.of_prefix hpre)).servesGreatest

/-- Chunks that arrive in the order they are to be played are served in that order. -/
theorem servesGreatest_in_order :
    ServesGreatest (run (new (fun _ => default) receivebufferCmp 40)
      [.enqueue (chunkAt 1), .enqueue (chunkAt 2), .enqueue (chunkAt 3), .enqueue (chunkAt 4),
        .enqueue (chunkAt 5), .enqueue (chunkAt 6), .enqueue (chunkAt 7), .dequeue]) := by
  refine (servesGreatest_iff 40).2 PcmChunk _ receivebufferCmp _ receivebufferCmp_totalPreorder ?_ _
    (List.prefix_refl _)
  refine ⟨Or.inr (Or.inl (by decide)), Or.inr (Or.inl (by decide)), Or.inr (Or.inl (by decide)),
    Or.inr (Or.inl (by decide)), ?_⟩
  exact ⟨Or.inr (Or.inr (aligned_of_last (by decide +kernel))),
    Or.inr (Or.inr (aligned_of_last (by decide +kernel))),
    Or.inr (Or.inr (aligned_of_last (by decide +kernel))), trivial⟩

/-- A receive buffer of six chunks serves a chunk due at second 7 while it holds one due at
second 5. -/
theorem receivebuffer_out_of_order :
    ¬∀ (capacity : Nat) (ops : List (Op PcmChunk)),
      ServesGreatest (run (new (fun _ => default) receivebufferCmp capacity) ops) :=
  fun hall => disordered_not_served (le_refl 6) (hall 6 disorderingCalls)

end PQueue

end Snapcastc
