import Snapcastc.LibraryComparator

/-! Binary max-heaps laid out in an array, as functions from indices to elements. The heap parent of
a position `i > 0` is `(i - 1) / 2`. A sift is described by the state between two swaps: every heap
edge is in order except at one position, and the rules below say what a swap and a stop make of it. -/

namespace ArrayHeap

open Comparator

variable {α : Type*} {cmp : α → α → Int} {a : Nat → α} {n i j : Nat}

/-- The heap parent of a position. Position `0` is its own parent and is never compared with it. -/
def parent (i : Nat) : Nat := (i - 1) / 2

theorem parent_lt (hi : 0 < i) : parent i < i := by
  unfold parent
  omega

/-- The contents after positions `i` and `j` are exchanged. -/
def exchange (a : Nat → α) (i j : Nat) : Nat → α := a ∘ Equiv.swap i j

@[simp] theorem exchange_left : exchange a i j i = a j := by simp [exchange]

@[simp] theorem exchange_right : exchange a i j j = a i := by simp [exchange]

theorem exchange_of_ne {k : Nat} (hi : k ≠ i) (hj : k ≠ j) : exchange a i j k = a k := by
  simp [exchange, Equiv.swap_apply_of_ne_of_ne hi hj]

/-- No position among the first `n` outranks its heap parent. -/
def Ordered (cmp : α → α → Int) (a : Nat → α) (n : Nat) : Prop :=
  ∀ i, 0 < i → i < n → cmp (a i) (a (parent i)) ≤ 0

theorem Ordered.mono {m : Nat} (hord : Ordered cmp a n) (hm : m ≤ n) : Ordered cmp a m :=
  fun i hpos hi => hord i hpos (by omega)

/-- The root of an ordered heap is outranked by none of its elements. -/
theorem Ordered.le_root (hcmp : TotalPreorder cmp) (hord : Ordered cmp a n) :
    ∀ i, i < n → cmp (a i) (a 0) ≤ 0 := by
  intro i
  induction i using Nat.strong_induction_on with
  | _ i ih =>
      intro hi
      by_cases hzero : i = 0
      · subst hzero
        exact hcmp.refl _
      · have hlt := parent_lt (i := i) (by omega)
        exact hcmp.trans _ _ _ (hord i (by omega) hi) (ih (parent i) hlt (by omega))

/-- Only the edge into position `i` may be out of order, and the children of `i` do not outrank the
parent of `i`: the state in which an element at `i` is being moved up. -/
structure UpReady (cmp : α → α → Int) (a : Nat → α) (n i : Nat) : Prop where
  except : ∀ k, 0 < k → k < n → k ≠ i → cmp (a k) (a (parent k)) ≤ 0
  below : ∀ k, 0 < k → k < n → parent k = i → 0 < i → cmp (a k) (a (parent i)) ≤ 0

theorem UpReady.finish (hup : UpReady cmp a n i)
    (hstop : 0 < i → cmp (a i) (a (parent i)) ≤ 0) : Ordered cmp a n := by
  intro k hpos hk
  by_cases hki : k = i
  · subst hki
    exact hstop hpos
  · exact hup.except k hpos hk hki

/-- An element that outranks its heap parent is exchanged with it. -/
theorem UpReady.move (hcmp : TotalPreorder cmp) (hup : UpReady cmp a n i) (hpos : 0 < i)
    (hgt : 0 < cmp (a i) (a (parent i))) :
    UpReady cmp (exchange a i (parent i)) n (parent i) := by
  have hlt := parent_lt hpos
  constructor
  · intro k hkpos hk hkp
    by_cases hki : k = i
    · subst hki
      rw [exchange_left, exchange_right]
      exact hcmp.le_of_pos hgt
    · rw [exchange_of_ne hki hkp]
      by_cases hpk : parent k = i
      · rw [hpk, exchange_left]
        exact hup.below k hkpos hk hpk hpos
      · by_cases hpp : parent k = parent i
        · rw [hpp, exchange_right]
          have hle := hup.except k hkpos hk hki
          rw [hpp] at hle
          exact hcmp.trans _ _ _ hle (hcmp.le_of_pos hgt)
        · rw [exchange_of_ne hpk hpp]
          exact hup.except k hkpos hk hki
  · intro k hkpos hk hkp hppos
    have hgrand := parent_lt hppos
    rw [exchange_of_ne (show parent (parent i) ≠ i by omega)
      (show parent (parent i) ≠ parent i by omega)]
    by_cases hki : k = i
    · subst hki
      rw [exchange_left]
      exact hup.except (parent k) hppos (by omega) (by omega)
    · have hkne : k ≠ parent i := by
        have := parent_lt hkpos
        omega
      rw [exchange_of_ne hki hkne]
      have hle := hup.except k hkpos hk hki
      rw [hkp] at hle
      by_cases hi : i < n
      · exact hcmp.trans _ _ _ hle (hup.except (parent i) hppos (by omega) (by omega))
      · exact hcmp.trans _ _ _ hle (hup.except (parent i) hppos
          (by have := parent_lt hkpos; omega) (by omega))

/-- Only edges out of position `i` may be out of order, and the children of `i` do not outrank the
parent of `i`: the state in which an element at `i` is being moved down. -/
structure DownReady (cmp : α → α → Int) (a : Nat → α) (n i : Nat) : Prop where
  except : ∀ k, 0 < k → k < n → parent k ≠ i → cmp (a k) (a (parent k)) ≤ 0
  below : ∀ k, 0 < k → k < n → parent k = i → 0 < i → cmp (a k) (a (parent i)) ≤ 0

theorem DownReady.finish (hdown : DownReady cmp a n i)
    (hstop : ∀ k, 0 < k → k < n → parent k = i → cmp (a k) (a i) ≤ 0) : Ordered cmp a n := by
  intro k hpos hk
  by_cases hki : parent k = i
  · rw [hki]
    exact hstop k hpos hk hki
  · exact hdown.except k hpos hk hki

/-- The child that no child outranks is exchanged with the element moving down. -/
theorem DownReady.move (hcmp : TotalPreorder cmp) (hdown : DownReady cmp a n i) {c : Nat}
    (hpos : 0 < c) (hc : c < n) (hchild : parent c = i) (hgt : 0 < cmp (a c) (a i))
    (hmax : ∀ k, 0 < k → k < n → parent k = i → cmp (a k) (a c) ≤ 0) :
    DownReady cmp (exchange a c i) n c := by
  have hlt := parent_lt hpos
  rw [hchild] at hlt
  constructor
  · intro k hkpos hk hkp
    have hkparent := parent_lt hkpos
    by_cases hkc : k = c
    · subst hkc
      rw [exchange_left, hchild, exchange_right]
      exact hcmp.le_of_pos hgt
    · by_cases hki : k = i
      · subst hki
        rw [exchange_right, exchange_of_ne (by omega) (by omega)]
        exact hdown.below c hpos hc hchild hkpos
      · rw [exchange_of_ne hkc hki]
        by_cases hpi : parent k = i
        · rw [hpi, exchange_right]
          exact hmax k hkpos hk hpi
        · rw [exchange_of_ne hkp hpi]
          exact hdown.except k hkpos hk hpi
  · intro k hkpos hk hkp _
    have hkparent := parent_lt hkpos
    rw [hchild, exchange_right, exchange_of_ne (by omega) (by omega)]
    have hle := hdown.except k hkpos hk (by omega)
    rwa [hkp] at hle

/-- Replacing the root of an ordered heap leaves only the edges out of the root to repair. -/
theorem Ordered.downReady_root {b : Nat → α} (hord : Ordered cmp a n)
    (hsame : ∀ k, 0 < k → k < n → b k = a k) : DownReady cmp b n 0 where
  except k hpos hk hkp := by
    have hlt := parent_lt hpos
    rw [hsame k hpos hk, hsame (parent k) (by omega) (by omega)]
    exact hord k hpos hk
  below k _ _ _ h := absurd h (lt_irrefl 0)

/-- Appending an element leaves only the edge into the last position to repair. -/
theorem Ordered.upReady_last {b : Nat → α} (hord : Ordered cmp a n)
    (hsame : ∀ k, k < n → b k = a k) : UpReady cmp b (n + 1) n where
  except k hpos hk hkn := by
    have hlt := parent_lt hpos
    rw [hsame k (by omega), hsame (parent k) (by omega)]
    exact hord k hpos (by omega)
  below k hpos hk hkp _ := by
    have hlt := parent_lt hpos
    omega

end ArrayHeap
