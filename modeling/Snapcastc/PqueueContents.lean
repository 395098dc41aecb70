import Snapcastc.Pqueue

/-! What the queue holds: the elements in its first `size` slots. Moving elements up and down permutes
them, so `pqueue_enqueue` adds one element, or none when the queue is full, and `pqueue_dequeue` takes
away the one it returns. -/

namespace Snapcastc.PQueue

open ArrayHeap

variable {α : Type}

/-- The elements the queue holds. -/
def contents (q : PQueue α) : List α := (List.range q.size).map q.data

@[simp] theorem contents_length (q : PQueue α) : q.contents.length = q.size := by
  simp [contents]

theorem swap_lt {i j k n : Nat} (hi : i < n) (hj : j < n) (hk : k < n) : Equiv.swap i j k < n := by
  rcases eq_or_ne k i with rfl | hki
  · rwa [Equiv.swap_apply_left]
  · rcases eq_or_ne k j with rfl | hkj
    · rwa [Equiv.swap_apply_right]
    · rwa [Equiv.swap_apply_of_ne_of_ne hki hkj]

theorem range_map_swap {i j n : Nat} (hi : i < n) (hj : j < n) :
    ((List.range n).map (Equiv.swap i j)).Perm (List.range n) := by
  have hnodup : ((List.range n).map (Equiv.swap i j)).Nodup :=
    List.nodup_range.map (Equiv.swap i j).injective
  refine (List.perm_ext_iff_of_nodup hnodup List.nodup_range).mpr fun k => ?_
  simp only [List.mem_map, List.mem_range]
  constructor
  · rintro ⟨m, hm, rfl⟩
    exact swap_lt hi hj hm
  · intro hk
    exact ⟨Equiv.swap i j k, swap_lt hi hj hk, Equiv.swap_apply_self i j k⟩

theorem swap_contents (q : PQueue α) {i j : Nat} (hi : i < q.size) (hj : j < q.size) :
    (q.swap i j).contents.Perm q.contents := by
  have hperm := (range_map_swap hi hj).map q.data
  rwa [List.map_map] at hperm

theorem siftUpLoop_contents (rounds : Nat) (q : PQueue α) {i : Nat} (hi : i < q.size) :
    (siftUpLoop rounds q i).contents.Perm q.contents := by
  induction rounds generalizing q i with
  | zero => exact List.Perm.refl _
  | succ rounds ih =>
      rw [siftUpLoop]
      split
      · rename_i hmove
        have hparent := parentOf_lt hmove.1
        refine (ih (q.swap i (parentOf i)) ?_).trans (q.swap_contents hi (by omega))
        rw [swap_size]
        omega
      · exact List.Perm.refl _

theorem heapifyLoop_contents (rounds : Nat) (q : PQueue α) (idx : Nat) :
    (heapifyLoop rounds q idx).contents.Perm q.contents := by
  induction rounds generalizing q idx with
  | zero => exact List.Perm.refl _
  | succ rounds ih =>
      rw [heapifyLoop]
      split
      · rename_i hmove
        have hlargest := lt_largest hmove
        exact (ih _ _).trans (q.swap_contents hlargest.2 (by omega))
      · exact List.Perm.refl _

theorem addLast_contents (q : PQueue α) (x : α) : (q.addLast x).contents = q.contents ++ [x] := by
  rw [contents, addLast_size, List.range_succ, List.map_append, List.map_singleton,
    addLast_data_size, contents]
  congr 1
  exact List.map_congr_left fun k hk => q.addLast_data_of_lt x (List.mem_range.mp hk)

/-- A queue with room holds the new element besides what it held. -/
theorem enqueue_contents (q : PQueue α) (x : α) (hroom : q.size < q.capacity) :
    (q.enqueue x).contents.Perm (q.contents ++ [x]) := by
  rw [enqueue, if_neg (by omega), ← addLast_contents]
  exact siftUpLoop_contents _ _ (by rw [addLast_size]; omega)

theorem enqueue_of_full (q : PQueue α) (x : α) (hfull : q.capacity ≤ q.size) : q.enqueue x = q :=
  if_pos hfull

theorem lastToRoot_contents (q : PQueue α) (hsize : 0 < q.size) :
    (q.data 0 :: q.lastToRoot.contents).Perm q.contents := by
  obtain ⟨m, hm⟩ : ∃ m, q.size = m + 1 := ⟨q.size - 1, by omega⟩
  have hlast : q.contents = (List.range m).map q.data ++ [q.data m] := by
    rw [contents, hm, List.range_succ, List.map_append, List.map_singleton]
  rw [hlast, contents, lastToRoot_size, hm, Nat.add_sub_cancel]
  cases m with
  | zero => exact List.Perm.refl _
  | succ k =>
      have hroot : q.lastToRoot.data 0 = q.data (k + 1) := by
        simp [lastToRoot, hm]
      have hrest : (List.range k).map (q.lastToRoot.data ∘ Nat.succ) =
          (List.range k).map (q.data ∘ Nat.succ) :=
        List.map_congr_left fun i _ => q.lastToRoot_data_of_pos (Nat.succ_pos i)
      rw [List.range_succ_eq_map, List.map_cons, List.map_map, hroot, hrest, List.map_cons,
        List.map_map, List.cons_append]
      exact (List.perm_append_singleton _ _).symm.cons _

/-- The element `pqueue_dequeue` returns is taken away, and nothing else. -/
theorem dequeue_contents (q : PQueue α) (hpos : 0 < q.size) :
    (q.data 0 :: q.dequeue.2.contents).Perm q.contents := by
  rw [dequeue_of_pos hpos]
  exact ((heapifyLoop_contents _ _ _).cons _).trans (q.lastToRoot_contents hpos)

end Snapcastc.PQueue
