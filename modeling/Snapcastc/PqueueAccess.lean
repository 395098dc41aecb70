import Snapcastc.PqueueContents
import Snapcastc.PqueueOrder

/-! Which slots the priority queue reads and writes. Here every access to the array is checked: a read has
to be at an index below `size`, where an element is, and a write at an index below `capacity`. The loops
run out of rounds instead of ending where they are. None of this happens, whatever the comparator says. -/

namespace Snapcastc

open ArrayHeap

/-- An access outside the slots it may go to, or a loop that does not end. -/
inductive SlotFault where
  | read (idx : Nat)
  | write (idx : Nat)
  | endless
  deriving DecidableEq, Repr

namespace PQueue

variable {α : Type}

/-- A read of `q->data[idx]`. -/
def readSlot (q : PQueue α) (idx : Nat) : Except SlotFault α :=
  if idx < q.size then pure (q.data idx) else throw (.read idx)

/-- A write to `q->data[idx]`. -/
def writeSlot (q : PQueue α) (idx : Nat) (x : α) : Except SlotFault (PQueue α) :=
  if idx < q.capacity then pure { q with data := Function.update q.data idx x } else throw (.write idx)

/-- `tmp = q->data[i]; q->data[i] = q->data[j]; q->data[j] = tmp;` -/
def exchangeSlots (q : PQueue α) (i j : Nat) : Except SlotFault (PQueue α) := do
  let tmp ← q.readSlot i
  let x ← q.readSlot j
  let q ← q.writeSlot i x
  q.writeSlot j tmp

/-- The loop of `pqueue_enqueue` with its accesses. -/
def siftUpSlots : Nat → PQueue α → Nat → Except SlotFault (PQueue α)
  | 0, _, _ => throw .endless
  | rounds + 1, q, i =>
      if i > 0 then do
        let x ← q.readSlot i
        let parent ← q.readSlot (parentOf i)
        if q.cmp x parent > 0 then
          let q ← q.exchangeSlots i (parentOf i)
          siftUpSlots rounds q (parentOf i)
        else pure q
      else pure q

/-- `pqueue_enqueue` with its accesses. -/
def enqueueSlots (q : PQueue α) (x : α) : Except SlotFault (PQueue α) :=
  if q.size ≥ q.capacity then pure q
  else do
    let added ← q.writeSlot q.size x
    siftUpSlots (q.size + 1) { added with size := added.size + 1 } q.size

/-- `pqueue_peek` with its access. -/
def peekSlot (q : PQueue α) : Except SlotFault (Option α) :=
  if q.size < 1 then pure none else do
    let x ← q.readSlot 0
    pure (some x)

/-- One of the two tests of `pqueue_heapify`: the child, if it exists and is larger. -/
def largerChild (q : PQueue α) (child lrg : Nat) : Except SlotFault Nat :=
  if child < q.size then do
    let x ← q.readSlot child
    let y ← q.readSlot lrg
    pure (if q.cmp x y > 0 then child else lrg)
  else pure lrg

/-- The part of `pqueue_heapify` that determines the largest element, with its accesses. -/
def largestSlots (q : PQueue α) (idx : Nat) : Except SlotFault Nat := do
  let lrg ← q.largerChild (left idx) idx
  q.largerChild (right idx) lrg

/-- `pqueue_heapify` with its accesses. -/
def heapifySlots : Nat → PQueue α → Nat → Except SlotFault (PQueue α)
  | 0, _, _ => throw .endless
  | rounds + 1, q, idx => do
      let lrg ← q.largestSlots idx
      if lrg ≠ idx then
        let q ← q.exchangeSlots lrg idx
        heapifySlots rounds q lrg
      else pure q

/-- `pqueue_dequeue` with its accesses. -/
def dequeueSlots (q : PQueue α) : Except SlotFault (Option α × PQueue α) := do
  match ← q.peekSlot with
  | none => pure (none, q)
  | some x =>
      let last ← q.readSlot (q.size - 1)
      let moved ← q.writeSlot 0 last
      let q ← heapifySlots q.size { moved with size := moved.size - 1 } 0
      pure (some x, q)

/-! ### The accesses are to slots that may be accessed -/

theorem readSlot_ok {q : PQueue α} {idx : Nat} (hidx : idx < q.size) :
    q.readSlot idx = .ok (q.data idx) := if_pos hidx

theorem writeSlot_ok {q : PQueue α} {idx : Nat} (hidx : idx < q.capacity) (x : α) :
    q.writeSlot idx x = .ok { q with data := Function.update q.data idx x } := if_pos hidx

theorem slots_ok_bind {β γ : Type} (x : β) (next : β → Except SlotFault γ) :
    (Except.ok x >>= next) = next x := rfl

theorem exchange_eq_update (f : Nat → α) (i j : Nat) :
    Function.update (Function.update f i (f j)) j (f i) = exchange f i j := by
  funext k
  rcases eq_or_ne k j with rfl | hkj
  · rw [Function.update_self, exchange_right]
  · rw [Function.update_of_ne hkj]
    rcases eq_or_ne k i with rfl | hki
    · rw [Function.update_self, exchange_left]
    · rw [Function.update_of_ne hki, exchange_of_ne hki hkj]

variable {q : PQueue α}

theorem exchangeSlots_eq (hsize : q.size ≤ q.capacity) {i j : Nat} (hi : i < q.size) (hj : j < q.size) :
    q.exchangeSlots i j = .ok (q.swap i j) := by
  rw [exchangeSlots, readSlot_ok hi, slots_ok_bind, readSlot_ok hj, slots_ok_bind,
    writeSlot_ok (hi.trans_le hsize), slots_ok_bind, swap, ← exchange_eq_update]
  exact @writeSlot_ok α { q with data := Function.update q.data i (q.data j) } j (hj.trans_le hsize) _

/-- The loop of `pqueue_enqueue` ends, after at most as many rounds as the position it starts at. -/
theorem siftUpSlots_eq (hsize : q.size ≤ q.capacity) {rounds i : Nat} (hi : i < q.size)
    (hrounds : i < rounds) : siftUpSlots rounds q i = .ok (siftUp q i) := by
  induction rounds generalizing q i with
  | zero => exact absurd hrounds (Nat.not_lt_zero i)
  | succ rounds ih =>
      rw [siftUpSlots, siftUp_eq]
      by_cases hpos : i > 0
      · have hparent := parentOf_lt hpos
        rw [if_pos hpos, readSlot_ok hi, slots_ok_bind, readSlot_ok (hparent.trans hi), slots_ok_bind]
        by_cases hgt : q.cmp (q.data i) (q.data (parentOf i)) > 0
        · rw [if_pos hgt, if_pos ⟨hpos, hgt⟩, exchangeSlots_eq hsize hi (hparent.trans hi), slots_ok_bind]
          exact ih (by simpa using hsize) (by rw [swap_size]; omega) (by omega)
        · rw [if_neg hgt, if_neg fun hboth => hgt hboth.2]
          rfl
      · rw [if_neg hpos, if_neg fun hboth => hpos hboth.1]
        rfl

theorem enqueueSlots_eq (q : PQueue α) (x : α) : q.enqueueSlots x = .ok (q.enqueue x) := by
  rw [enqueueSlots, enqueue]
  by_cases hfull : q.size ≥ q.capacity
  · rw [if_pos hfull, if_pos hfull]
    rfl
  · rw [if_neg hfull, if_neg hfull, writeSlot_ok (by omega), slots_ok_bind]
    have hadded : (q.addLast x).size ≤ (q.addLast x).capacity := by
      rw [addLast_size, addLast_capacity]
      omega
    exact siftUpSlots_eq hadded (by rw [addLast_size]; omega) (by omega)

theorem peekSlot_eq (q : PQueue α) : q.peekSlot = .ok q.peek := by
  rw [peekSlot, peek]
  by_cases hempty : q.size < 1
  · rw [if_pos hempty, if_pos hempty]
    rfl
  · rw [if_neg hempty, if_neg hempty, readSlot_ok (by omega)]
    rfl

theorem largerChild_eq {child lrg : Nat} (hlrg : child < q.size → lrg < q.size) :
    q.largerChild child lrg =
      .ok (if child < q.size ∧ q.cmp (q.data child) (q.data lrg) > 0 then child else lrg) := by
  rw [largerChild]
  by_cases hchild : child < q.size
  · rw [if_pos hchild, readSlot_ok hchild, slots_ok_bind, readSlot_ok (hlrg hchild), slots_ok_bind]
    simp only [hchild, true_and]
    rfl
  · rw [if_neg hchild, if_neg fun hboth => hchild hboth.1]
    rfl

theorem largestSlots_eq (q : PQueue α) (idx : Nat) : q.largestSlots idx = .ok (q.largest idx) := by
  have hleft : left idx < q.size → idx < q.size := fun hlt => by unfold left at hlt; omega
  rw [largestSlots, largerChild_eq hleft, slots_ok_bind, largerChild_eq]
  · rfl
  · -- the right child is compared with `idx` or with the left child, and both exist then
    intro hright
    unfold right at hright
    split_ifs with hlarger
    · exact hlarger.1
    · omega

/-- `pqueue_heapify` ends: every call but the last moves to a child. -/
theorem heapifySlots_eq (hsize : q.size ≤ q.capacity) {rounds idx : Nat}
    (hrounds : q.size - idx < rounds) : heapifySlots rounds q idx = .ok (heapify q idx) := by
  induction rounds generalizing q idx with
  | zero => exact absurd hrounds (Nat.not_lt_zero _)
  | succ rounds ih =>
      rw [heapifySlots, largestSlots_eq, slots_ok_bind, heapify_eq]
      by_cases hmove : q.largest idx ≠ idx
      · obtain ⟨hlt, hlargest⟩ := lt_largest hmove
        rw [if_pos hmove, if_pos hmove, exchangeSlots_eq hsize hlargest (hlt.trans hlargest), slots_ok_bind]
        exact ih (by simpa using hsize) (by rw [swap_size]; omega)
      · rw [if_neg hmove, if_neg hmove]
        rfl

theorem dequeueSlots_eq (hsize : q.size ≤ q.capacity) : q.dequeueSlots = .ok q.dequeue := by
  rw [dequeueSlots, peekSlot_eq, slots_ok_bind, dequeue]
  rcases Nat.eq_zero_or_pos q.size with hzero | hpos
  · rw [peek_eq_none hzero]
    rfl
  · have hmoved : q.lastToRoot.size ≤ q.lastToRoot.capacity := by
      rw [lastToRoot_size, lastToRoot_capacity]
      omega
    have hheapify := @heapifySlots_eq α q.lastToRoot hmoved q.size 0 (by rw [lastToRoot_size]; omega)
    rw [peek_eq_some hpos]
    dsimp only
    rw [readSlot_ok (by omega), slots_ok_bind, writeSlot_ok (by omega), slots_ok_bind]
    change (heapifySlots q.size q.lastToRoot 0 >>= fun q' => pure (some (q.data 0), q')) = _
    rw [hheapify]
    rfl

/-! ### Sequences of calls -/

/-- A queue with the elements its calls have accepted and those they have returned so far. -/
structure Tally (α : Type) where
  queue : PQueue α
  accepted : List α
  returned : List α

/-- One call. An element is accepted when there is room for it. -/
def Tally.step (t : Tally α) : Op α → Except SlotFault (Tally α)
  | .enqueue x => do
      let queue ← t.queue.enqueueSlots x
      pure { t with queue, accepted := if t.queue.size < t.queue.capacity then t.accepted ++ [x] else t.accepted }
  | .dequeue => do
      let (x, queue) ← t.queue.dequeueSlots
      pure { t with queue, returned := t.returned ++ x.toList }

/-- A sequence of calls. -/
def Tally.run (t : Tally α) (ops : List (Op α)) : Except SlotFault (Tally α) := ops.foldlM Tally.step t

/-- `pqueue_new`, before the first call. -/
def Tally.new (slots : Nat → α) (cmp : α → α → Int) (capacity : Nat) : Tally α :=
  ⟨PQueue.new slots cmp capacity, [], []⟩

/-- The queue keeps to its capacity, and what it holds is what it has accepted and not returned. -/
structure Tally.Balanced (t : Tally α) (capacity : Nat) : Prop where
  bound : t.queue.capacity = capacity
  size : t.queue.size ≤ capacity
  contents : (t.returned ++ t.queue.contents).Perm t.accepted

theorem Tally.Balanced.step {t : Tally α} {capacity : Nat} (hbalanced : t.Balanced capacity) (op : Op α) :
    ∃ t', t.step op = .ok t' ∧ t'.Balanced capacity := by
  obtain ⟨hcapacity, hsize, hcontents⟩ := hbalanced
  have hwithin : t.queue.size ≤ t.queue.capacity := by omega
  cases op with
  | enqueue x =>
      refine ⟨_, by rw [Tally.step, enqueueSlots_eq]; rfl, ?_, ?_, ?_⟩
      · exact (t.queue.enqueue_capacity x).trans hcapacity
      · change (t.queue.enqueue x).size ≤ capacity
        rw [enqueue_size]
        split <;> omega
      · change (t.returned ++ (t.queue.enqueue x).contents).Perm (if _ then _ else _)
        split
        · rename_i hroom
          have hadded := (t.queue.enqueue_contents x hroom).append_left t.returned
          rw [← List.append_assoc] at hadded
          exact hadded.trans (hcontents.append_right [x])
        · rename_i hfull
          rw [enqueue_of_full t.queue x (by omega)]
          exact hcontents
  | dequeue =>
      refine ⟨_, by rw [Tally.step, dequeueSlots_eq hwithin]; rfl, ?_, ?_, ?_⟩
      · exact t.queue.dequeue_capacity.trans hcapacity
      · change t.queue.dequeue.2.size ≤ capacity
        rw [dequeue_size]
        omega
      · change (t.returned ++ t.queue.dequeue.1.toList ++ t.queue.dequeue.2.contents).Perm t.accepted
        rw [List.append_assoc]
        refine List.Perm.trans (List.Perm.append_left _ ?_) hcontents
        rcases Nat.eq_zero_or_pos t.queue.size with hzero | hpos
        · rw [dequeue_of_empty hzero]
          exact List.Perm.refl _
        · have hhead : t.queue.dequeue.1 = some (t.queue.data 0) := by rw [dequeue_of_pos hpos]
          rw [hhead]
          exact t.queue.dequeue_contents hpos

theorem Tally.Balanced.run {t : Tally α} {capacity : Nat} (hbalanced : t.Balanced capacity)
    (ops : List (Op α)) : ∃ t', t.run ops = .ok t' ∧ t'.Balanced capacity := by
  induction ops generalizing t with
  | nil => exact ⟨t, rfl, hbalanced⟩
  | cons op ops ih =>
      obtain ⟨next, hstep, hnext⟩ := hbalanced.step op
      obtain ⟨last, hrun, hlast⟩ := ih hnext
      exact ⟨last, by rw [Tally.run, List.foldlM_cons, hstep]; exact hrun, hlast⟩

/-- Every sequence of calls accesses only slots that hold elements or are free, and comes to an end. It
conserves the elements. A queue that is full takes no element, and one that is empty returns none. -/
theorem run_conserves (slots : Nat → α) (cmp : α → α → Int) (capacity : Nat) (ops : List (Op α)) :
    ∃ t, (Tally.new slots cmp capacity).run ops = .ok t ∧ t.queue.size ≤ capacity ∧
      (t.returned ++ t.queue.contents).Perm t.accepted ∧
      (t.queue.size = capacity → ∀ x, t.queue.enqueueSlots x = .ok t.queue) ∧
      (t.queue.size = 0 → t.queue.dequeueSlots = .ok (none, t.queue)) := by
  have hnew : (Tally.new slots cmp capacity).Balanced capacity :=
    ⟨rfl, Nat.zero_le _, List.Perm.refl _⟩
  obtain ⟨t, hrun, hbalanced⟩ := hnew.run ops
  have hwithin : t.queue.size ≤ t.queue.capacity := hbalanced.size.trans_eq hbalanced.bound.symm
  refine ⟨t, hrun, hbalanced.size, hbalanced.contents, fun hfull x => ?_, fun hzero => ?_⟩
  · rw [enqueueSlots_eq, t.queue.enqueue_of_full x (by rw [hbalanced.bound]; omega)]
  · rw [dequeueSlots_eq hwithin, dequeue_of_empty hzero]

end PQueue

end Snapcastc
