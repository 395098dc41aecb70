import Snapcastc.LibraryArrayHeap
import Snapcastc.Pcmchunk

/-! The priority queue of the receive buffer (`pqueue.c`). The loops carry a bound on their rounds
that the callers choose large enough: `siftUp_eq` and `heapify_eq` say that each is the loop of the
source. -/

namespace Snapcastc

open ArrayHeap

/-- `PQueue`. The slots at and beyond `size` hold whatever was there before. -/
structure PQueue (α : Type) where
  size : Nat
  capacity : Nat
  data : Nat → α
  cmp : α → α → Int

namespace PQueue

variable {α : Type}

/-- `LEFT(x)`. -/
def left (x : Nat) : Nat := 2 * x + 1

/-- `RIGHT(x)`. -/
def right (x : Nat) : Nat := 2 * x + 2

/-- `PARENT(x)`. -/
def parentOf (x : Nat) : Nat := x / 2

/-- `pqueue_new`, on slots with arbitrary contents. -/
def new (slots : Nat → α) (cmp : α → α → Int) (capacity : Nat) : PQueue α where
  size := 0
  capacity := capacity
  data := slots
  cmp := cmp

/-- The queue after the elements at two positions are swapped. -/
def swap (q : PQueue α) (i j : Nat) : PQueue α := { q with data := exchange q.data i j }

@[simp] theorem swap_data (q : PQueue α) (i j : Nat) : (q.swap i j).data = exchange q.data i j := rfl

@[simp] theorem swap_size (q : PQueue α) (i j : Nat) : (q.swap i j).size = q.size := rfl

@[simp] theorem swap_capacity (q : PQueue α) (i j : Nat) : (q.swap i j).capacity = q.capacity := rfl

@[simp] theorem swap_cmp (q : PQueue α) (i j : Nat) : (q.swap i j).cmp = q.cmp := rfl

/-- The loop of `pqueue_enqueue`: the element at `i` is swapped with `PARENT(i)` as long as its
precedence is higher. -/
def siftUpLoop : Nat → PQueue α → Nat → PQueue α
  | 0, q, _ => q
  | rounds + 1, q, i =>
      if i > 0 ∧ q.cmp (q.data i) (q.data (parentOf i)) > 0 then
        siftUpLoop rounds (q.swap i (parentOf i)) (parentOf i)
      else q

/-- The loop of `pqueue_enqueue` from position `i`. -/
def siftUp (q : PQueue α) (i : Nat) : PQueue α := siftUpLoop i q i

/-- The queue with an element added last, before it is moved up. -/
def addLast (q : PQueue α) (x : α) : PQueue α :=
  { q with data := Function.update q.data q.size x, size := q.size + 1 }

/-- `pqueue_enqueue`. -/
def enqueue (q : PQueue α) (x : α) : PQueue α :=
  if q.size ≥ q.capacity then q else siftUp (q.addLast x) q.size

/-- `pqueue_peek`. -/
def peek (q : PQueue α) : Option α := if q.size < 1 then none else some (q.data 0)

/-- The index `pqueue_heapify` finds the largest element at: `idx` or one of its children. -/
def largest (q : PQueue α) (idx : Nat) : Nat :=
  let lrg := if left idx < q.size ∧ q.cmp (q.data (left idx)) (q.data idx) > 0 then left idx else idx
  if right idx < q.size ∧ q.cmp (q.data (right idx)) (q.data lrg) > 0 then right idx else lrg

/-- The recursion of `pqueue_heapify`. -/
def heapifyLoop : Nat → PQueue α → Nat → PQueue α
  | 0, q, _ => q
  | rounds + 1, q, idx =>
      let lrg := q.largest idx
      if lrg ≠ idx then heapifyLoop rounds (q.swap lrg idx) lrg else q

/-- `pqueue_heapify`. -/
def heapify (q : PQueue α) (idx : Nat) : PQueue α := heapifyLoop q.size q idx

/-- The queue with the last element moved into the root, before it is moved down. -/
def lastToRoot (q : PQueue α) : PQueue α :=
  { q with data := Function.update q.data 0 (q.data (q.size - 1)), size := q.size - 1 }

/-- `pqueue_dequeue`. -/
def dequeue (q : PQueue α) : Option α × PQueue α :=
  match q.peek with
  | none => (none, q)
  | some x => (some x, heapify q.lastToRoot 0)

theorem addLast_data_of_lt (q : PQueue α) (x : α) {k : Nat} (hk : k < q.size) :
    (q.addLast x).data k = q.data k := Function.update_of_ne (by omega) _ _

@[simp] theorem addLast_data_size (q : PQueue α) (x : α) : (q.addLast x).data q.size = x :=
  Function.update_self _ _ _

@[simp] theorem addLast_size (q : PQueue α) (x : α) : (q.addLast x).size = q.size + 1 := rfl

@[simp] theorem addLast_capacity (q : PQueue α) (x : α) :
    (q.addLast x).capacity = q.capacity := rfl

@[simp] theorem addLast_cmp (q : PQueue α) (x : α) : (q.addLast x).cmp = q.cmp := rfl

theorem lastToRoot_data_of_pos (q : PQueue α) {k : Nat} (hk : 0 < k) :
    q.lastToRoot.data k = q.data k := Function.update_of_ne (by omega) _ _

@[simp] theorem lastToRoot_size (q : PQueue α) : q.lastToRoot.size = q.size - 1 := rfl

@[simp] theorem lastToRoot_capacity (q : PQueue α) : q.lastToRoot.capacity = q.capacity := rfl

@[simp] theorem lastToRoot_cmp (q : PQueue α) : q.lastToRoot.cmp = q.cmp := rfl

/-! ### The loops are those of the source -/

@[simp] theorem siftUpLoop_frame (rounds : Nat) (q : PQueue α) (i : Nat) :
    (siftUpLoop rounds q i).size = q.size ∧ (siftUpLoop rounds q i).capacity = q.capacity ∧
      (siftUpLoop rounds q i).cmp = q.cmp := by
  induction rounds generalizing q i with
  | zero => exact ⟨rfl, rfl, rfl⟩
  | succ rounds ih =>
      rw [siftUpLoop]
      split
      · exact ih _ _
      · exact ⟨rfl, rfl, rfl⟩

@[simp] theorem heapifyLoop_frame (rounds : Nat) (q : PQueue α) (idx : Nat) :
    (heapifyLoop rounds q idx).size = q.size ∧ (heapifyLoop rounds q idx).capacity = q.capacity ∧
      (heapifyLoop rounds q idx).cmp = q.cmp := by
  induction rounds generalizing q idx with
  | zero => exact ⟨rfl, rfl, rfl⟩
  | succ rounds ih =>
      rw [heapifyLoop]
      split
      · exact ih _ _
      · exact ⟨rfl, rfl, rfl⟩

theorem parentOf_lt {i : Nat} (hi : 0 < i) : parentOf i < i := by
  unfold parentOf
  omega

/-- Rounds beyond the position the loop starts at change nothing. -/
theorem siftUpLoop_enough (q : PQueue α) {i rounds : Nat} (hrounds : i ≤ rounds) :
    siftUpLoop rounds q i = siftUp q i := by
  rw [siftUp]
  induction i using Nat.strong_induction_on generalizing q rounds with
  | _ i ih =>
      by_cases hi : i = 0
      · subst hi
        cases rounds <;> simp [siftUpLoop]
      · have hlt := parentOf_lt (i := i) (by omega)
        obtain ⟨more, rfl⟩ : ∃ more, rounds = more + 1 := ⟨rounds - 1, by omega⟩
        obtain ⟨less, rfl⟩ : ∃ less, i = less + 1 := ⟨i - 1, by omega⟩
        rw [siftUpLoop, siftUpLoop]
        split
        · exact (ih _ hlt _ (by omega)).trans (ih _ hlt _ (by omega)).symm
        · rfl

/-- One round of the loop of `pqueue_enqueue`. -/
theorem siftUp_eq (q : PQueue α) (i : Nat) :
    siftUp q i = if i > 0 ∧ q.cmp (q.data i) (q.data (parentOf i)) > 0 then
      siftUp (q.swap i (parentOf i)) (parentOf i) else q := by
  by_cases hi : i = 0
  · subst hi
    simp [siftUp, siftUpLoop]
  · obtain ⟨less, rfl⟩ : ∃ less, i = less + 1 := ⟨i - 1, by omega⟩
    have hlt := parentOf_lt (i := less + 1) (by omega)
    conv_lhs => rw [siftUp, siftUpLoop]
    split
    · exact siftUpLoop_enough _ (by omega)
    · rfl

theorem largest_cases (q : PQueue α) (idx : Nat) :
    q.largest idx = idx ∨ q.largest idx = left idx ∧ left idx < q.size ∨
      q.largest idx = right idx ∧ right idx < q.size := by
  unfold largest
  dsimp only
  split_ifs with hl hr hr
  · exact Or.inr (Or.inr ⟨rfl, hr.1⟩)
  · exact Or.inr (Or.inl ⟨rfl, hl.1⟩)
  · exact Or.inr (Or.inr ⟨rfl, hr.1⟩)
  · exact Or.inl rfl

theorem lt_largest {q : PQueue α} {idx : Nat} (h : q.largest idx ≠ idx) :
    idx < q.largest idx ∧ q.largest idx < q.size := by
  rcases q.largest_cases idx with heq | ⟨heq, hlt⟩ | ⟨heq, hlt⟩
  · exact absurd heq h
  · rw [heq]
    exact ⟨by unfold left; omega, hlt⟩
  · rw [heq]
    exact ⟨by unfold right; omega, hlt⟩

/-- Rounds beyond the number of elements below the start change nothing. -/
theorem heapifyLoop_enough (q : PQueue α) {idx rounds : Nat} (hrounds : q.size - idx ≤ rounds) :
    heapifyLoop rounds q idx = heapifyLoop (q.size - idx) q idx := by
  obtain ⟨gap, hgap⟩ : ∃ gap, gap = q.size - idx := ⟨_, rfl⟩
  induction gap using Nat.strong_induction_on generalizing q idx rounds with
  | _ gap ih =>
      by_cases hstay : q.largest idx = idx
      · cases rounds <;> cases q.size - idx <;> simp [heapifyLoop, hstay]
      · obtain ⟨hlt, hsize⟩ := lt_largest hstay
        obtain ⟨more, rfl⟩ : ∃ more, rounds = more + 1 := ⟨rounds - 1, by omega⟩
        obtain ⟨less, hless⟩ : ∃ less, q.size - idx = less + 1 := ⟨q.size - idx - 1, by omega⟩
        rw [hless, heapifyLoop, heapifyLoop, if_pos hstay, if_pos hstay]
        have hnext := fun rounds => @ih (q.size - q.largest idx) (by omega)
          (q.swap (q.largest idx) idx) (q.largest idx) rounds
        rw [hnext more (by rw [swap_size]; omega) rfl, hnext less (by rw [swap_size]; omega) rfl]

/-- One call of `pqueue_heapify`. -/
theorem heapify_eq (q : PQueue α) (idx : Nat) :
    heapify q idx = if q.largest idx ≠ idx then
      heapify (q.swap (q.largest idx) idx) (q.largest idx) else q := by
  unfold heapify
  split
  · rename_i hmove
    obtain ⟨hlt, hsize⟩ := lt_largest hmove
    obtain ⟨less, hless⟩ : ∃ less, q.size = less + 1 := ⟨q.size - 1, by omega⟩
    conv_lhs => rw [hless, heapifyLoop, if_pos hmove]
    have hrounds : (q.swap (q.largest idx) idx).size - q.largest idx ≤ q.size := by
      rw [swap_size]
      omega
    rw [heapifyLoop_enough _ (by rw [swap_size]; omega), swap_size,
      heapifyLoop_enough _ hrounds, swap_size]
  · rename_i hstay
    rw [not_not] at hstay
    cases q.size <;> simp [heapifyLoop, hstay]

@[simp] theorem enqueue_cmp (q : PQueue α) (x : α) : (q.enqueue x).cmp = q.cmp := by
  unfold enqueue siftUp
  split <;> simp

@[simp] theorem enqueue_capacity (q : PQueue α) (x : α) : (q.enqueue x).capacity = q.capacity := by
  unfold enqueue siftUp
  split <;> simp

theorem enqueue_size (q : PQueue α) (x : α) :
    (q.enqueue x).size = if q.size ≥ q.capacity then q.size else q.size + 1 := by
  unfold enqueue siftUp
  split <;> simp

theorem peek_eq_some {q : PQueue α} (hpos : 0 < q.size) : q.peek = some (q.data 0) := by
  rw [peek, if_neg (by omega)]

theorem peek_eq_none {q : PQueue α} (hzero : q.size = 0) : q.peek = none := by
  rw [peek, if_pos (by omega)]

theorem dequeue_of_pos {q : PQueue α} (hpos : 0 < q.size) :
    q.dequeue = (some (q.data 0), heapify q.lastToRoot 0) := by
  rw [dequeue, peek_eq_some hpos]

theorem dequeue_of_empty {q : PQueue α} (hzero : q.size = 0) : q.dequeue = (none, q) := by
  rw [dequeue, peek_eq_none hzero]

@[simp] theorem dequeue_cmp (q : PQueue α) : q.dequeue.2.cmp = q.cmp := by
  by_cases hpos : 0 < q.size
  · simp [dequeue_of_pos hpos, heapify]
  · simp [dequeue_of_empty (show q.size = 0 by omega)]

@[simp] theorem dequeue_capacity (q : PQueue α) : q.dequeue.2.capacity = q.capacity := by
  by_cases hpos : 0 < q.size
  · simp [dequeue_of_pos hpos, heapify]
  · simp [dequeue_of_empty (show q.size = 0 by omega)]

theorem dequeue_size (q : PQueue α) : q.dequeue.2.size = q.size - 1 := by
  by_cases hpos : 0 < q.size
  · simp [dequeue_of_pos hpos, heapify]
  · simp [dequeue_of_empty (show q.size = 0 by omega), show q.size = 0 by omega]

end PQueue

/-- `receivebuffer_cmp`: the smallest `play_at` has the greatest priority. -/
def receivebufferCmp (c1 c2 : PcmChunk) : Int := chunkCmp c2 c1

theorem receivebufferCmp_totalPreorder : Comparator.TotalPreorder receivebufferCmp := by
  have hcmp := (timespecCmp_totalPreorder.comap fun c => chunkGetPlayAt (some c)).flip
  have heq : receivebufferCmp = fun c1 c2 : PcmChunk =>
      timespecCmp (chunkGetPlayAt (some c2)) (chunkGetPlayAt (some c1)) := by
    funext c1 c2
    exact chunkCmp_eq_timespecCmp c2 c1
  rw [heq]
  exact hcmp

end Snapcastc
