import Mathlib

/-! Byte buffers: a buffer is a function from offsets to bytes, its contents at an offset are a list
of bytes. Integers are stored in network byte order. -/

namespace Bytes

def store (mem : Nat → UInt8) (offset : Nat) (bytes : List UInt8) : Nat → UInt8 :=
  fun i => if offset ≤ i ∧ i < offset + bytes.length then bytes.getD (i - offset) 0 else mem i

/-- A number of bytes from an offset on. -/
def load (mem : Nat → UInt8) (offset length : Nat) : List UInt8 :=
  (List.range length).map fun i => mem (offset + i)

/-- The buffer after bytes are moved within it. They are all read before the first is written. -/
def move (mem : Nat → UInt8) (dest source length : Nat) : Nat → UInt8 :=
  store mem dest (load mem source length)

/-- The bytes of a 16-bit integer in network byte order. -/
def net16 (x : UInt16) : List UInt8 :=
  [UInt8.ofNat (x.toNat / 2 ^ 8), UInt8.ofNat x.toNat]

/-- The bytes of a 32-bit integer in network byte order. -/
def net32 (x : UInt32) : List UInt8 :=
  [UInt8.ofNat (x.toNat / 2 ^ 24), UInt8.ofNat (x.toNat / 2 ^ 16), UInt8.ofNat (x.toNat / 2 ^ 8),
    UInt8.ofNat x.toNat]

/-- The 16-bit integer in network byte order at an offset. -/
def host16 (mem : Nat → UInt8) (offset : Nat) : UInt16 :=
  UInt16.ofNat ((mem offset).toNat * 2 ^ 8 + (mem (offset + 1)).toNat)

/-- The 32-bit integer in network byte order at an offset. -/
def host32 (mem : Nat → UInt8) (offset : Nat) : UInt32 :=
  UInt32.ofNat ((mem offset).toNat * 2 ^ 24 + (mem (offset + 1)).toNat * 2 ^ 16 +
    (mem (offset + 2)).toNat * 2 ^ 8 + (mem (offset + 3)).toNat)

def Holds (mem : Nat → UInt8) (offset : Nat) (bytes : List UInt8) : Prop :=
  ∀ i < bytes.length, bytes[i]? = some (mem (offset + i))

/-- The integer that is read tells its bytes. -/
theorem host16_inj {mem mem' : Nat → UInt8} {offset offset' : Nat}
    (heq : host16 mem' offset' = host16 mem offset) :
    mem' offset' = mem offset ∧ mem' (offset' + 1) = mem (offset + 1) := by
  have hvalue := congrArg UInt16.toNat heq
  have h0 := (mem offset).toNat_lt
  have h1 := (mem (offset + 1)).toNat_lt
  have h0' := (mem' offset').toNat_lt
  have h1' := (mem' (offset' + 1)).toNat_lt
  rw [host16, host16, UInt16.toNat_ofNat', UInt16.toNat_ofNat'] at hvalue
  refine ⟨UInt8.toNat_inj.mp ?_, UInt8.toNat_inj.mp ?_⟩ <;> omega

theorem host32_inj {mem mem' : Nat → UInt8} {offset offset' : Nat}
    (heq : host32 mem' offset' = host32 mem offset) :
    mem' offset' = mem offset ∧ mem' (offset' + 1) = mem (offset + 1) ∧
      mem' (offset' + 2) = mem (offset + 2) ∧ mem' (offset' + 3) = mem (offset + 3) := by
  have hvalue := congrArg UInt32.toNat heq
  have h0 := (mem offset).toNat_lt
  have h1 := (mem (offset + 1)).toNat_lt
  have h2 := (mem (offset + 2)).toNat_lt
  have h3 := (mem (offset + 3)).toNat_lt
  have h0' := (mem' offset').toNat_lt
  have h1' := (mem' (offset' + 1)).toNat_lt
  have h2' := (mem' (offset' + 2)).toNat_lt
  have h3' := (mem' (offset' + 3)).toNat_lt
  rw [host32, host32, UInt32.toNat_ofNat', UInt32.toNat_ofNat'] at hvalue
  refine ⟨UInt8.toNat_inj.mp ?_, UInt8.toNat_inj.mp ?_, UInt8.toNat_inj.mp ?_, UInt8.toNat_inj.mp ?_⟩ <;> omega

/-- The last byte of a 32-bit integer. -/
theorem host32_mod (mem : Nat → UInt8) (offset : Nat) :
    (host32 mem offset).toNat % 2 ^ 8 = (mem (offset + 3)).toNat := by
  have hlast := (mem (offset + 3)).toNat_lt
  rw [host32, UInt32.toNat_ofNat']
  omega

@[simp] theorem net16_length (x : UInt16) : (net16 x).length = 2 := rfl

@[simp] theorem net32_length (x : UInt32) : (net32 x).length = 4 := rfl

theorem store_of_lt {mem : Nat → UInt8} {offset i : Nat} {bytes : List UInt8} (hi : i < offset) :
    store mem offset bytes i = mem i := by
  rw [store, if_neg (by omega)]

theorem store_of_ge {mem : Nat → UInt8} {offset i : Nat} {bytes : List UInt8}
    (hi : offset + bytes.length ≤ i) : store mem offset bytes i = mem i := by
  rw [store, if_neg (by omega)]

@[simp] theorem load_length (mem : Nat → UInt8) (offset length : Nat) :
    (load mem offset length).length = length := by
  rw [load, List.length_map, List.length_range]

/-- What is loaded depends on the bytes that are loaded only, wherever they are. -/
theorem load_congr {mem mem' : Nat → UInt8} {offset offset' length : Nat}
    (hbytes : ∀ i < length, mem' (offset' + i) = mem (offset + i)) :
    load mem' offset' length = load mem offset length :=
  List.map_congr_left fun i hi => hbytes i (List.mem_range.mp hi)

theorem move_of_lt {mem : Nat → UInt8} {dest source length i : Nat} (hi : i < dest) :
    move mem dest source length i = mem i := store_of_lt hi

/-- What was moved is there, also when the two places overlap. -/
theorem move_moved {mem : Nat → UInt8} {dest source length i : Nat} (hi : i < length) :
    move mem dest source length (dest + i) = mem (source + i) := by
  rw [move, store, load_length, if_pos (by omega), Nat.add_sub_cancel_left]
  simp [load, hi]

/-- What was stored is there. -/
theorem holds_store (mem : Nat → UInt8) (offset : Nat) (bytes : List UInt8) :
    Holds (store mem offset bytes) offset bytes := by
  intro i hi
  rw [store, if_pos (by omega), Nat.add_sub_cancel_left, List.getD_eq_getElem _ _ hi,
    List.getElem?_eq_getElem hi]

namespace Holds

variable {mem : Nat → UInt8} {offset : Nat} {bytes : List UInt8}

/-- Storing bytes behind others keeps them. -/
theorem store_behind (hmem : Holds mem offset bytes) {offset' : Nat} (more : List UInt8)
    (hbehind : offset + bytes.length ≤ offset') : Holds (store mem offset' more) offset bytes := by
  intro i hi
  rw [store_of_lt (by omega)]
  exact hmem i hi

theorem append {more : List UInt8} (hmem : Holds mem offset bytes)
    (hmore : Holds mem (offset + bytes.length) more) : Holds mem offset (bytes ++ more) := by
  intro i hi
  rw [List.length_append] at hi
  by_cases hlt : i < bytes.length
  · rw [List.getElem?_append_left hlt]
    exact hmem i hlt
  · rw [List.getElem?_append_right (by omega), hmore (i - bytes.length) (by omega),
      Nat.add_assoc, Nat.add_sub_cancel' (by omega)]

theorem left {more : List UInt8} (hmem : Holds mem offset (bytes ++ more)) :
    Holds mem offset bytes := by
  intro i hi
  rw [← hmem i (by rw [List.length_append]; omega), List.getElem?_append_left hi]

theorem right {more : List UInt8} (hmem : Holds mem offset (bytes ++ more)) :
    Holds mem (offset + bytes.length) more := by
  intro i hi
  rw [Nat.add_assoc, ← hmem (bytes.length + i) (by rw [List.length_append]; omega),
    List.getElem?_append_right (by omega), Nat.add_sub_cancel_left]

theorem load_eq (hmem : Holds mem offset bytes) : load mem offset bytes.length = bytes := by
  apply List.ext_getElem?
  intro i
  by_cases hi : i < bytes.length
  · rw [hmem i hi]
    simp [load, hi]
  · simp [load, hi]

theorem head_eq {byte : UInt8} (hmem : Holds mem offset (byte :: bytes)) : mem offset = byte :=
  (Option.some.inj (hmem 0 (Nat.zero_lt_succ _))).symm

theorem host16_eq {x : UInt16} (hmem : Holds mem offset (net16 x)) : host16 mem offset = x := by
  have h0 := Option.some.inj (hmem 0 (by decide : 0 < 2))
  have h1 := Option.some.inj (hmem 1 (by decide : 1 < 2))
  have hx := x.toNat_lt
  rw [Nat.add_zero] at h0
  apply UInt16.toNat_inj.mp
  simp only [host16, ← h0, ← h1, UInt8.toNat_ofNat', UInt16.toNat_ofNat']
  omega

theorem host32_eq {x : UInt32} (hmem : Holds mem offset (net32 x)) : host32 mem offset = x := by
  have h0 := Option.some.inj (hmem 0 (by decide : 0 < 4))
  have h1 := Option.some.inj (hmem 1 (by decide : 1 < 4))
  have h2 := Option.some.inj (hmem 2 (by decide : 2 < 4))
  have h3 := Option.some.inj (hmem 3 (by decide : 3 < 4))
  have hx := x.toNat_lt
  rw [Nat.add_zero] at h0
  apply UInt32.toNat_inj.mp
  simp only [host32, ← h0, ← h1, ← h2, ← h3, UInt8.toNat_ofNat', UInt32.toNat_ofNat']
  omega

end Holds

/-- The two buffers agree on their first bytes. -/
def AgreeBelow (n : Nat) (mem mem' : Nat → UInt8) : Prop := ∀ i < n, mem' i = mem i

namespace AgreeBelow

variable {n : Nat} {mem mem' : Nat → UInt8}

theorem host16_eq (hagree : AgreeBelow n mem mem') {offset : Nat} (hle : offset + 2 ≤ n) :
    host16 mem' offset = host16 mem offset := by
  rw [host16, host16, hagree offset (by omega), hagree (offset + 1) (by omega)]

theorem host32_eq (hagree : AgreeBelow n mem mem') {offset : Nat} (hle : offset + 4 ≤ n) :
    host32 mem' offset = host32 mem offset := by
  rw [host32, host32, hagree offset (by omega), hagree (offset + 1) (by omega),
    hagree (offset + 2) (by omega), hagree (offset + 3) (by omega)]

theorem load_eq (hagree : AgreeBelow n mem mem') {offset length : Nat} (hle : offset + length ≤ n) :
    load mem' offset length = load mem offset length :=
  load_congr fun i hi => hagree (offset + i) (by omega)

/-- Changing one byte keeps the bytes before it. -/
theorem update (mem : Nat → UInt8) {k : Nat} (hle : n ≤ k) (byte : UInt8) :
    AgreeBelow n mem (Function.update mem k byte) :=
  fun _ hi => Function.update_of_ne (hi.trans_le hle).ne _ _

end AgreeBelow

end Bytes
