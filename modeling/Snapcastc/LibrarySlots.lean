import Snapcastc.LibraryBytes

/-! Slots of one width in a byte buffer. What is known of the slots is a list: the entry of a slot is the
item that was written to it, or nothing. -/

namespace Slots

open Bytes

/-- What fills a slot. -/
abbrev Item (width : Nat) := { bytes : List UInt8 // bytes.length = width }

def Holds {width : Nat} (mem : Nat → UInt8) (entries : List (Option (Item width))) : Prop :=
  ∀ i (item : Item width), entries[i]? = some (some item) → load mem (i * width) width = item.val

/-- The list after its length was changed. Nothing is known of the slots that are new. -/
def resize {α : Type} (entries : List (Option α)) (n : Nat) : List (Option α) :=
  entries.take n ++ List.replicate (n - entries.length) none

@[simp] theorem resize_length {α : Type} (entries : List (Option α)) (n : Nat) :
    (resize entries n).length = n := by
  rw [resize, List.length_append, List.length_take, List.length_replicate]
  omega

/-- One slot more. -/
theorem resize_succ {α : Type} (entries : List (Option α)) :
    resize entries (entries.length + 1) = entries ++ [none] := by
  rw [resize, List.take_of_length_le (Nat.le_succ _), Nat.add_sub_cancel_left]
  rfl

/-- Slots that were added are given back. -/
theorem resize_append {α : Type} (entries more : List (Option α)) :
    resize (entries ++ more) entries.length = entries := by
  rw [resize, List.take_left, List.length_append, Nat.sub_eq_zero_of_le (Nat.le_add_right _ _)]
  exact List.append_nil entries

/-- An item that is known after the resize was known before. -/
theorem getElem?_of_resize {α : Type} {entries : List (Option α)} {n i : Nat} {a : α}
    (hentry : (resize entries n)[i]? = some (some a)) : i < n ∧ entries[i]? = some (some a) := by
  have hi : i < (resize entries n).length := (List.getElem?_eq_some_iff.mp hentry).1
  rw [resize_length] at hi
  rw [resize, List.getElem?_append] at hentry
  split at hentry
  · rw [List.getElem?_take_of_lt hi] at hentry
    exact ⟨hi, hentry⟩
  · have hnone := List.eq_of_mem_replicate (List.mem_of_getElem? hentry)
    cases hnone

variable {width : Nat} {mem mem' : Nat → UInt8} {entries : List (Option (Item width))}

/-- The bytes of a slot are before the next slots. -/
theorem slot_lt {i pos k : Nat} (hi : i < pos) (hk : k < width) : i * width + k < pos * width := calc
  i * width + k < i * width + width := Nat.add_lt_add_left hk _
  _ = (i + 1) * width := (Nat.succ_mul i width).symm
  _ ≤ pos * width := Nat.mul_le_mul_right width hi

namespace Holds

/-- The slots of a buffer hold the items of a list when each of them was an item of another list, and its
bytes are those of the slot where it was. -/
theorem transport (hholds : Holds mem entries) {entries' : List (Option (Item width))}
    (hfrom : ∀ i item, entries'[i]? = some (some item) → ∃ j, entries[j]? = some (some item) ∧
      ∀ k < width, mem' (i * width + k) = mem (j * width + k)) : Holds mem' entries' := by
  intro i item hentry
  obtain ⟨j, hentry, hbytes⟩ := hfrom i item hentry
  rw [load_congr hbytes]
  exact hholds j item hentry

/-- Other bytes than those of the slots may change. -/
theorem agree (hholds : Holds mem entries) (hagree : AgreeBelow (entries.length * width) mem mem') :
    Holds mem' entries := by
  apply hholds.transport
  intro i item hentry
  have hi := (List.getElem?_eq_some_iff.mp hentry).1
  exact ⟨i, hentry, fun k hk => hagree _ (slot_lt hi hk)⟩

theorem left {more : List (Option (Item width))} (hholds : Holds mem (entries ++ more)) :
    Holds mem entries := by
  intro i item hentry
  have hi := (List.getElem?_eq_some_iff.mp hentry).1
  apply hholds i item
  rw [List.getElem?_append_left hi]
  exact hentry

theorem resize (hholds : Holds mem entries) (n : Nat) : Holds mem (resize entries n) :=
  hholds.transport fun i _ hentry => ⟨i, (getElem?_of_resize hentry).2, fun _ _ => rfl⟩

/-- The bytes from a slot on are moved up by a slot. Nothing is known of that slot afterwards. -/
theorem moveUp (hholds : Holds mem entries) {pos count : Nat} (hcount : entries.length = pos + count) :
    Holds (move mem (pos * width + width) (pos * width) (count * width)) (entries.insertIdx pos none) := by
  apply hholds.transport
  intro i item hentry
  rw [List.getElem?_insertIdx] at hentry
  rcases Nat.lt_trichotomy i pos with hlt | rfl | hgt
  · rw [if_pos hlt] at hentry
    have hle := Nat.le_of_lt hlt
    refine ⟨i, hentry, fun k hk => move_of_lt ?_⟩
    exact (slot_lt hlt hk).trans_le (Nat.le_add_right _ _)
  · rw [if_neg (Nat.lt_irrefl i), if_pos rfl] at hentry
    split at hentry <;> cases hentry
  · rw [if_neg (Nat.lt_asymm hgt), if_neg hgt.ne'] at hentry
    obtain ⟨d, rfl⟩ := Nat.exists_eq_add_of_lt hgt
    have hd : d < count := by
      have hj := (List.getElem?_eq_some_iff.mp hentry).1
      omega
    refine ⟨pos + d, hentry, fun k hk => ?_⟩
    have hdest : (pos + d + 1) * width + k = pos * width + width + (d * width + k) := by ring
    have hsource : (pos + d) * width + k = pos * width + (d * width + k) := by ring
    rw [hdest, hsource]
    exact move_moved (slot_lt hd hk)

/-- The bytes behind a slot are moved down by a slot, over it. -/
theorem moveDown (hholds : Holds mem entries) {pos count : Nat}
    (hcount : entries.length = pos + 1 + count) :
    Holds (move mem (pos * width) (pos * width + width) (count * width)) (entries.eraseIdx pos) := by
  apply hholds.transport
  intro i item hentry
  rw [List.getElem?_eraseIdx] at hentry
  split at hentry
  · rename_i hlt
    exact ⟨i, hentry, fun k hk => move_of_lt (slot_lt hlt hk)⟩
  · rename_i hge
    obtain ⟨d, rfl⟩ := Nat.exists_eq_add_of_le (Nat.le_of_not_lt hge)
    have hd : d < count := by
      have hj := (List.getElem?_eq_some_iff.mp hentry).1
      omega
    refine ⟨pos + d + 1, hentry, fun k hk => ?_⟩
    have hdest : (pos + d) * width + k = pos * width + (d * width + k) := by ring
    have hsource : (pos + d + 1) * width + k = pos * width + width + (d * width + k) := by ring
    rw [hdest, hsource]
    exact move_moved (slot_lt hd hk)

/-- An item is written to a slot. -/
theorem write (hholds : Holds mem entries) (pos : Nat) (item : Item width) :
    Holds (store mem (pos * width) item.val) (entries.set pos (some item)) := by
  intro i other hentry
  rw [List.getElem?_set] at hentry
  split at hentry
  · rename_i hpos
    subst hpos
    split at hentry
    · obtain rfl : item = other := Option.some.inj (Option.some.inj hentry)
      have hload := (holds_store mem (pos * width) item.val).load_eq
      rwa [item.property] at hload
    · cases hentry
  · rename_i hne
    rw [← hholds i other hentry]
    apply load_congr
    intro k hk
    rcases Nat.lt_or_gt_of_ne hne with hlt | hgt
    · apply store_of_ge
      rw [item.property, ← Nat.succ_mul]
      exact (Nat.mul_le_mul_right width hlt).trans (Nat.le_add_right _ _)
    · exact store_of_lt (slot_lt hgt hk)

end Holds

/-- A slot that is opened and written to. -/
theorem set_insertIdx {α : Type} (entries : List (Option α)) {pos : Nat} (hpos : pos ≤ entries.length)
    (entry entry' : Option α) :
    (entries.insertIdx pos entry).set pos entry' = entries.insertIdx pos entry' := by
  apply List.ext_getElem?
  intro i
  rw [List.getElem?_set, List.getElem?_insertIdx, List.getElem?_insertIdx,
    List.length_insertIdx_of_le_length hpos]
  split <;> grind

end Slots
