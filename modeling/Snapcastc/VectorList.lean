import Snapcastc.Vector

/-! Vectors are lists: what `VECTOR_ADD`, `VECTOR_DELETE` and `VECTOR_RESIZE` do to the elements is what
appending, erasing and changing the length do to a list. This holds as long as the sizes of the blocks
that are asked for are below `2 ^ 64`: the product of the number of elements and their size is not
checked. -/

namespace Snapcastc

open Calls

/-- The smallest power of two that is enough for a number of elements and for `MIN_VECTOR_ALLOC`. -/
def slotsFor (n : Nat) : Nat := 2 ^ Nat.clog 2 (max 4 n)

theorem le_slotsFor (n : Nat) : n ≤ slotsFor n :=
  (le_max_right 4 n).trans (Nat.le_pow_clog (by decide) _)

theorem four_le_slotsFor (n : Nat) : 4 ≤ slotsFor n :=
  (le_max_left 4 n).trans (Nat.le_pow_clog (by decide) _)

theorem slotsFor_eq (n : Nat) : slotsFor n = max (2 ^ 2) (2 ^ Nat.clog 2 n) := by
  have hfour : Nat.clog 2 4 = 2 := Nat.clog_pow 2 2 (by decide)
  rw [slotsFor, (Nat.clog_monotone 2).map_max, hfour]
  exact (pow_right_mono₀ (by decide : 1 ≤ 2)).map_max

/-- The loop ends, at the first power of two that is enough. -/
theorem growAlloc_eq {rounds k : Nat} {alloc n : UInt64} (halloc : alloc.toNat = 2 ^ k)
    (hn : n.toNat ≤ 2 ^ 63) (hk : k < 64) (hrounds : 64 ≤ rounds + k) :
    ∃ grown, growAlloc rounds alloc n = .ok grown ∧ grown.toNat = 2 ^ max k (Nat.clog 2 n.toNat) := by
  induction rounds generalizing alloc k with
  | zero => omega
  | succ rounds ih =>
      rw [growAlloc]
      by_cases hlt : alloc < n
      · have hpow : 2 ^ k < n.toNat := by
          rw [← halloc]
          exact UInt64.lt_iff_toNat_lt.mp hlt
        have hk' : k < 63 := (Nat.pow_lt_pow_iff_right (by decide : 1 < 2)).mp (hpow.trans_le hn)
        have hshift : (alloc <<< 1).toNat = 2 ^ (k + 1) := by
          rw [UInt64.toNat_shiftLeft, halloc]
          change 2 ^ k <<< 1 % 2 ^ 64 = 2 ^ (k + 1)
          rw [Nat.shiftLeft_eq, ← Nat.pow_add]
          exact Nat.mod_eq_of_lt (Nat.pow_lt_pow_right (by decide) (by omega))
        obtain ⟨grown, hrun, hgrown⟩ := ih hshift (by omega) (by omega)
        have hclog : k < Nat.clog 2 n.toNat := (Nat.lt_clog_iff_pow_lt (by decide)).mpr hpow
        refine ⟨grown, by rw [if_pos hlt]; exact hrun, hgrown.trans ?_⟩
        rw [max_eq_right hclog, max_eq_right hclog.le]
      · have hle : n.toNat ≤ 2 ^ k := by
          rw [← halloc]
          exact UInt64.le_iff_toNat_le.mp (UInt64.not_lt.mp hlt)
        refine ⟨alloc, by rw [if_neg hlt]; rfl, ?_⟩
        rw [max_eq_left (Nat.clog_le_of_le_pow hle), halloc]

namespace SnapVector

/-- The number of allocated elements that `_snap_vector_resize` does not change: none, or a power of two
of at least `MIN_VECTOR_ALLOC`. -/
def AllocationValid (allocated : UInt64) : Prop :=
  allocated = 0 ∨ minVectorAlloc ≤ allocated ∧ allocated.toNat.isPowerOfTwo

/-- The number of elements for which there has to be room: half as many more at the first allocation. -/
def target (allocated : UInt64) (n : Nat) : Nat := if allocated = 0 then n * 3 / 2 else n

/-- The loop of `_snap_vector_resize` from where it starts, with or without an allocation before. -/
theorem growAlloc_start {allocated n : UInt64} (hvalid : AllocationValid allocated) (hn : n.toNat < 2 ^ 62) :
    ∃ alloc, growAlloc 65 (if allocated = 0 then minVectorAlloc else allocated)
        (if allocated = 0 then n * 3 / 2 else n) = .ok alloc ∧ minVectorAlloc ≤ alloc ∧
      alloc.toNat.isPowerOfTwo ∧
      alloc.toNat = max allocated.toNat (slotsFor (target allocated n.toNat)) := by
  rcases hvalid with rfl | ⟨hmin, k, hpow⟩
  · have hsize : (n * 3 / 2).toNat = n.toNat * 3 / 2 := by
      rw [UInt64.toNat_div, UInt64.toNat_mul]
      change n.toNat * 3 % 2 ^ 64 / 2 = _
      rw [Nat.mod_eq_of_lt (by omega)]
    obtain ⟨alloc, hrun, halloc⟩ :=
      @growAlloc_eq 65 2 minVectorAlloc (n * 3 / 2) rfl (by omega) (by decide) (by decide)
    have hslots : alloc.toNat = slotsFor (n.toNat * 3 / 2) := by
      rw [halloc, hsize, slotsFor_eq]
      exact (pow_right_mono₀ (by decide : 1 ≤ 2)).map_max
    refine ⟨alloc, hrun, ?_, ⟨_, halloc⟩, ?_⟩
    · rw [UInt64.le_iff_toNat_le, hslots]
      exact four_le_slotsFor _
    · rw [hslots]
      exact (Nat.zero_max _).symm
  · have hfour : 2 ^ 2 ≤ 2 ^ k := by
      rw [← hpow]
      exact UInt64.le_iff_toNat_le.mp hmin
    have hne : allocated ≠ 0 := by
      rintro rfl
      exact absurd hmin (by decide)
    have hk : 2 ^ k < 2 ^ 64 := hpow ▸ allocated.toNat_lt
    have hk' : k < 64 := (Nat.pow_lt_pow_iff_right (by decide)).mp hk
    obtain ⟨alloc, hrun, halloc⟩ := @growAlloc_eq 65 k allocated n hpow (by omega) hk' (by omega)
    have hmax : alloc.toNat = max (2 ^ k) (2 ^ Nat.clog 2 n.toNat) :=
      halloc.trans (pow_right_mono₀ (by decide : 1 ≤ 2)).map_max
    refine ⟨alloc, by rw [if_neg hne, if_neg hne]; exact hrun, ?_, ⟨_, halloc⟩, ?_⟩
    · rw [UInt64.le_iff_toNat_le, hmax]
      exact hfour.trans (le_max_left _ _)
    · rw [hmax, target, if_neg hne, slotsFor_eq, hpow, ← max_assoc, max_eq_left hfour]

/-- `_snap_vector_resize` allocates when the number of allocated elements grows, and does nothing but set
the length otherwise. -/
theorem snapVectorResize_eq (answer : ReallocAnswer) {v : SnapVector}
    (hvalid : AllocationValid v.desc.allocated) {n : UInt64} (hn : n.toNat < 2 ^ 62) (elemsize : UInt64) :
    ∃ alloc : UInt64, minVectorAlloc ≤ alloc ∧ alloc.toNat.isPowerOfTwo ∧
      alloc.toNat = max v.desc.allocated.toNat (slotsFor (target v.desc.allocated n.toNat)) ∧
      v.snapVectorResize answer n elemsize =
        if alloc ≠ v.desc.allocated then
          (snapRealloc answer v.data (alloc * elemsize)).map fun data => ⟨⟨alloc, n⟩, some data⟩
        else .ok ⟨⟨v.desc.allocated, n⟩, v.data⟩ := by
  obtain ⟨alloc, hrun, hmin, hpow, halloc⟩ := growAlloc_start hvalid hn
  refine ⟨alloc, hmin, hpow, halloc, ?_⟩
  have hstart : (if v.desc.allocated = 0 then (minVectorAlloc, n * 3 / 2) else (v.desc.allocated, n)) =
      (if v.desc.allocated = 0 then minVectorAlloc else v.desc.allocated,
        if v.desc.allocated = 0 then n * 3 / 2 else n) := by
    split <;> rfl
  rw [snapVectorResize]
  dsimp only
  rw [hstart, hrun, except_ok_bind]
  by_cases hgrown : alloc ≠ v.desc.allocated
  · rw [if_pos hgrown, if_pos hgrown]
    cases snapRealloc answer v.data (alloc * elemsize) with
    | error fault => rfl
    | ok data => rfl
  · rw [if_neg hgrown, if_neg hgrown]
    rfl

theorem toNat_mul_of_le {a b : UInt64} (size : UInt64) (hle : a.toNat * b.toNat ≤ size.toNat) :
    (a * b).toNat = a.toNat * b.toNat := by
  rw [UInt64.toNat_mul]
  exact Nat.mod_eq_of_lt (hle.trans_lt size.toNat_lt)

/-- The offsets of `_snap_vector_insert` and `_snap_vector_delete` do not wrap around in a block that is
large enough: the elements before a position, its own element and those behind it fill the vector. -/
theorem offsets_eq {length pos elemsize size : UInt64} {count : Nat}
    (hcount : length.toNat = pos.toNat + 1 + count) (hroom : length.toNat * elemsize.toNat ≤ size.toNat) :
    (pos * elemsize).toNat = pos.toNat * elemsize.toNat ∧
      ((length - pos - 1) * elemsize).toNat = count * elemsize.toNat ∧
      pos.toNat * elemsize.toNat + elemsize.toNat + count * elemsize.toNat ≤ size.toNat := by
  have htotal : pos.toNat * elemsize.toNat + elemsize.toNat + count * elemsize.toNat ≤ size.toNat := by
    refine (Nat.le_of_eq ?_).trans hroom
    rw [hcount]
    ring
  have hone : (1 : UInt64).toNat = 1 := rfl
  have hpos : (length - pos).toNat = 1 + count := by
    rw [UInt64.toNat_sub_of_le _ _ (UInt64.le_iff_toNat_le.mpr (by omega)), hcount]
    omega
  have hbehind : (length - pos - 1).toNat = count := by
    rw [UInt64.toNat_sub_of_le _ _ (UInt64.le_iff_toNat_le.mpr (by omega)), hpos]
    omega
  refine ⟨toNat_mul_of_le size (by omega), ?_, htotal⟩
  rw [← hbehind]
  exact toNat_mul_of_le size (by rw [hbehind]; omega)

theorem memmove_ok {v : SnapVector} {block : Block} (hdata : v.data = some block) {dest source : Nat}
    {n : UInt64} (hdest : dest + n.toNat ≤ block.size.toNat) (hsource : source + n.toNat ≤ block.size.toNat) :
    v.memmove dest source n =
      .ok { v with data := some { block with bytes := Bytes.move block.bytes dest source n.toNat } } := by
  rw [memmove, hdata]
  exact if_pos ⟨hdest, hsource⟩

theorem memcpy_ok {v : SnapVector} {block : Block} (hdata : v.data = some block) {dest : Nat}
    {object : List UInt8} (hdest : dest + object.length ≤ block.size.toNat) :
    v.memcpy dest object =
      .ok { v with data := some { block with bytes := Bytes.store block.bytes dest object } } := by
  rw [memcpy, hdata]
  exact if_pos hdest

/-! ### The vector and its list -/

variable {elemsize : UInt64}

/-- The vector is the list. The entry of a slot to which no element was written is nothing. -/
structure Refines (v : SnapVector) (entries : List (Option (Element elemsize))) : Prop where
  length : v.desc.length.toNat = entries.length
  within : v.desc.length ≤ v.desc.allocated
  allocated : AllocationValid v.desc.allocated
  /-- The block has room for the elements that are said to be allocated, and the list is in it. -/
  data : v.desc.allocated ≠ 0 → ∃ block, v.data = some block ∧
    block.size.toNat = v.desc.allocated.toNat * elemsize.toNat ∧ Slots.Holds block.bytes entries

/-- The only way not to return. -/
def ReallocFails (answer : ReallocAnswer) (fault : Fault) : Prop :=
  answer = none ∧ fault = .exitError "realloc"

/-- The size of the block for a number of elements does not wrap around. -/
def Fits (elemsize : UInt64) (n : Nat) : Prop := slotsFor n * elemsize.toNat < 2 ^ 64

instance decidableFits (elemsize : UInt64) (n : Nat) : Decidable (Fits elemsize n) :=
  inferInstanceAs (Decidable (slotsFor n * elemsize.toNat < 2 ^ 64))

/-- `VECTOR_INIT` makes the empty list. -/
theorem refines_vectorInit (v : SnapVector) :
    (vectorInit v).Refines ([] : List (Option (Element elemsize))) where
  length := rfl
  within := UInt64.le_refl _
  allocated := .inl rfl
  data := fun hne => absurd rfl hne

namespace Refines

variable {v : SnapVector} {entries entries' : List (Option (Element elemsize))}

/-- The list is empty before the first allocation. -/
theorem eq_nil (hv : v.Refines entries) (halloc : v.desc.allocated = 0) : entries = [] := by
  have hle := UInt64.le_iff_toNat_le.mp hv.within
  rw [hv.length, halloc] at hle
  exact List.length_eq_zero_iff.mp (Nat.le_zero.mp hle)

theorem length_succ (hv : v.Refines entries) (hlength : entries.length + 1 < 2 ^ 62) :
    (v.desc.length + 1).toNat = entries.length + 1 := by
  rw [UInt64.toNat_add, hv.length]
  exact @Nat.mod_eq_of_lt (entries.length + 1) (2 ^ 64) (by omega)

theorem length_pred (hv : v.Refines entries) (hpos : 0 < entries.length) :
    (v.desc.length - 1).toNat = entries.length - 1 := by
  have hle : (1 : UInt64) ≤ v.desc.length := by
    rw [UInt64.le_iff_toNat_le, hv.length]
    exact hpos
  rw [UInt64.toNat_sub_of_le _ _ hle, hv.length]
  rfl

/-- A block that was allocated is large enough for the list. -/
theorem room (hv : v.Refines entries) (halloc : v.desc.allocated ≠ 0) : ∃ block, v.data = some block ∧
    block.size.toNat = v.desc.allocated.toNat * elemsize.toNat ∧ Slots.Holds block.bytes entries ∧
    entries.length * elemsize.toNat ≤ block.size.toNat := by
  obtain ⟨block, hdata, hsize, hholds⟩ := hv.data halloc
  refine ⟨block, hdata, hsize, hholds, ?_⟩
  rw [hsize, ← hv.length]
  exact Nat.mul_le_mul_right _ (UInt64.le_iff_toNat_le.mp hv.within)

/-- The allocation is not for more bytes than there are. -/
theorem allocated_lt (hv : v.Refines entries) : v.desc.allocated.toNat * elemsize.toNat < 2 ^ 64 := by
  by_cases halloc : v.desc.allocated = 0
  · rw [halloc]
    change 0 * elemsize.toNat < 2 ^ 64
    omega
  · obtain ⟨block, -, hsize, -⟩ := hv.data halloc
    rw [← hsize]
    exact block.size.toNat_lt

/-- The bytes of the block change, and with them the list, but not its length. -/
theorem update (hv : v.Refines entries) {block : Block} (hdata : v.data = some block)
    {bytes : Nat → UInt8} (hlength : entries'.length = entries.length) (hholds : Slots.Holds bytes entries') :
    Refines { v with data := some { block with bytes } } entries' where
  length := hv.length.trans hlength.symm
  within := hv.within
  allocated := hv.allocated
  data := fun halloc => by
    obtain ⟨_, hblock, hsize, -⟩ := hv.data halloc
    obtain rfl := Option.some.inj (hdata.symm.trans hblock)
    exact ⟨_, rfl, hsize, hholds⟩

/-- `realloc` keeps the elements in a block that is not smaller. -/
theorem realloc (hv : v.Refines entries) (fresh : Nat → UInt8) {size : UInt64}
    (hlarger : v.desc.allocated.toNat * elemsize.toNat ≤ size.toNat) :
    ∃ block, snapRealloc (some fresh) v.data size = .ok block ∧ block.size = size ∧
      Slots.Holds block.bytes entries := by
  refine ⟨_, rfl, rfl, ?_⟩
  by_cases hfirst : v.desc.allocated = 0
  · rw [hv.eq_nil hfirst]
    intro i item hentry
    cases hentry
  · obtain ⟨block, hdata, hblock, hholds, hroom⟩ := hv.room hfirst
    apply hholds.agree
    intro i hi
    rw [hdata]
    exact if_pos (by omega)

/-- What `_snap_vector_resize` does to the list. -/
theorem resize (hv : v.Refines entries) (answer : ReallocAnswer) {n : UInt64} (hn : n.toNat < 2 ^ 62)
    (hfits : Fits elemsize (target v.desc.allocated n.toNat)) :
    Meets (ReallocFails answer)
      (fun v' => v'.Refines (Slots.resize entries n.toNat) ∧ v'.desc.allocated ≠ 0)
      (v.snapVectorResize answer n elemsize) := by
  obtain ⟨alloc, hmin, hpow, halloc, hrun⟩ := snapVectorResize_eq answer hv.allocated hn elemsize
  have hne : alloc ≠ 0 := by
    rintro rfl
    exact absurd hmin (by decide)
  have hwithin : n ≤ alloc := by
    have htarget : n.toNat ≤ target v.desc.allocated n.toNat := by
      unfold target
      split <;> omega
    rw [UInt64.le_iff_toNat_le, halloc]
    exact htarget.trans ((le_slotsFor _).trans (le_max_right _ _))
  rw [hrun]
  by_cases hgrown : alloc ≠ v.desc.allocated
  · rw [if_pos hgrown]
    -- the product does not wrap around, neither for what was allocated before nor for what is enough
    have hsize : (alloc * elemsize).toNat = alloc.toNat * elemsize.toNat := by
      rw [UInt64.toNat_mul]
      apply Nat.mod_eq_of_lt
      rw [halloc]
      rcases max_choice v.desc.allocated.toNat (slotsFor (target v.desc.allocated n.toNat)) with hmax | hmax
      · rw [hmax]
        exact hv.allocated_lt
      · rw [hmax]
        exact hfits
    cases answer with
    | none => exact ⟨rfl, rfl⟩
    | some fresh =>
        have hlarger : v.desc.allocated.toNat * elemsize.toNat ≤ (alloc * elemsize).toNat := by
          rw [hsize, halloc]
          exact Nat.mul_le_mul_right _ (le_max_left _ _)
        obtain ⟨block, hblock, hfull, hholds⟩ := hv.realloc fresh hlarger
        rw [hblock]
        refine ⟨⟨(Slots.resize_length entries n.toNat).symm, hwithin, .inr ⟨hmin, hpow⟩, ?_⟩, hne⟩
        exact fun _ => ⟨block, rfl, hfull ▸ hsize, hholds.resize n.toNat⟩
  · rw [if_neg hgrown]
    have hsame := not_not.mp hgrown
    rw [hsame] at hne hwithin
    obtain ⟨block, hdata, hblock, hholds⟩ := hv.data hne
    refine ⟨⟨(Slots.resize_length entries n.toNat).symm, hwithin, hv.allocated, ?_⟩, hne⟩
    exact fun _ => ⟨block, hdata, hblock, hholds.resize n.toNat⟩

/-- What `_snap_vector_insert` does to the list, and where it says that the element is. -/
theorem insert (hv : v.Refines entries) (answer : ReallocAnswer) (element : Element elemsize) {pos : UInt64}
    (hpos : pos.toNat ≤ entries.length) (hlength : entries.length + 1 < 2 ^ 62)
    (hfits : Fits elemsize (target v.desc.allocated (entries.length + 1))) :
    Meets (ReallocFails answer)
      (fun result => result.1.Refines (entries.insertIdx pos.toNat (some element)) ∧
        result.1.desc.allocated ≠ 0 ∧ result.2 = pos.toNat * elemsize.toNat)
      (v.snapVectorInsert answer element pos) := by
  have hn := hv.length_succ hlength
  have hresize := hv.resize answer (by omega) (hn ▸ hfits)
  rw [hn, Slots.resize_succ] at hresize
  refine hresize.bind fun v₁ ⟨hv₁, halloc⟩ => ?_
  obtain ⟨block, hdata, -, hholds, hroom⟩ := hv₁.room halloc
  obtain ⟨count, hcount⟩ := Nat.exists_eq_add_of_le hpos
  have hlength₁ : v₁.desc.length.toNat = pos.toNat + 1 + count := by
    rw [hv₁.length, List.length_append, List.length_singleton]
    omega
  obtain ⟨hp, hmoved, htotal⟩ := offsets_eq hlength₁ (hv₁.length ▸ hroom)
  -- a slot is opened at the position, and the element is written to it
  have hopened := hholds.left.moveUp hcount
  have hlength₂ : (entries.insertIdx pos.toNat none).length = (entries ++ [none]).length := by
    rw [List.length_insertIdx_of_le_length hpos, List.length_append, List.length_singleton]
  have hwritten := (hv₁.update hdata hlength₂ hopened).update rfl List.length_set
    (hopened.write pos.toNat element)
  rw [Slots.set_insertIdx entries hpos] at hwritten
  dsimp only
  rw [hp, memmove_ok hdata (by omega) (by omega), except_ok_bind,
    memcpy_ok rfl (by rw [element.property]; dsimp only; omega), except_ok_bind, hmoved]
  exact ⟨hwritten, halloc, rfl⟩

/-- What `_snap_vector_delete` does to the list. -/
theorem delete (hv : v.Refines entries) (answer : ReallocAnswer) {pos : UInt64}
    (hpos : pos.toNat < entries.length) (hlength : entries.length - 1 < 2 ^ 62)
    (hfits : Fits elemsize (target v.desc.allocated (entries.length - 1))) :
    Meets (ReallocFails answer)
      (fun v' => v'.Refines (entries.eraseIdx pos.toNat) ∧ v'.desc.allocated ≠ 0)
      (v.snapVectorDelete answer pos elemsize) := by
  have halloc : v.desc.allocated ≠ 0 := by
    intro hzero
    rw [hv.eq_nil hzero] at hpos
    exact Nat.not_lt_zero _ hpos
  obtain ⟨block, hdata, -, hholds, hroom⟩ := hv.room halloc
  obtain ⟨count, hcount⟩ := Nat.exists_eq_add_of_le hpos
  obtain ⟨hp, hmoved, htotal⟩ := offsets_eq (hv.length.trans hcount) (hv.length ▸ hroom)
  -- the last slot of the list is left over until the length is changed
  have herased : (entries.eraseIdx pos.toNat).length = entries.length - 1 :=
    List.length_eraseIdx_of_lt hpos
  have hclosed := (hholds.moveDown hcount).resize ((entries.eraseIdx pos.toNat).length + 1)
  rw [Slots.resize_succ] at hclosed
  have hv₁ := hv.update hdata (by rw [List.length_append, herased, List.length_singleton]; omega) hclosed
  have hn := (hv.length_pred (by omega)).trans herased.symm
  have hresize := @resize _ _ _ hv₁ answer (v.desc.length - 1) (by omega) (by rw [hn, herased]; exact hfits)
  rw [hn, Slots.resize_append] at hresize
  rw [snapVectorDelete, hp, memmove_ok hdata (by omega) (by omega), except_ok_bind, hmoved]
  exact hresize

end Refines

theorem memmove_desc {v v' : SnapVector} {dest source : Nat} {n : UInt64}
    (hrun : v.memmove dest source n = .ok v') : v'.desc = v.desc := by
  unfold memmove at hrun
  split at hrun
  · cases hrun
  · split at hrun
    · cases hrun
      rfl
    · cases hrun

theorem memcpy_desc {v v' : SnapVector} {dest : Nat} {object : List UInt8}
    (hrun : v.memcpy dest object = .ok v') : v'.desc = v.desc := by
  unfold memcpy at hrun
  split at hrun
  · cases hrun
  · split at hrun
    · cases hrun
      rfl
    · cases hrun

/-- A resize that returns has set the number of allocated elements to what is enough, whatever the size of
the block. -/
theorem snapVectorResize_allocated {answer : ReallocAnswer} {v v' : SnapVector}
    (hvalid : AllocationValid v.desc.allocated) {n : UInt64} (hn : n.toNat < 2 ^ 62)
    (hrun : v.snapVectorResize answer n elemsize = .ok v') :
    slotsFor (target v.desc.allocated n.toNat) ≤ v'.desc.allocated.toNat := by
  obtain ⟨alloc, -, -, halloc, hresize⟩ := snapVectorResize_eq answer hvalid hn elemsize
  have henough : slotsFor (target v.desc.allocated n.toNat) ≤ alloc.toNat := by
    rw [halloc]
    exact le_max_right _ _
  rw [hresize] at hrun
  split at hrun
  · obtain ⟨data, -, rfl⟩ := except_map_ok hrun
    exact henough
  · rename_i hsame
    cases hrun
    rwa [not_not.mp hsame] at henough

end SnapVector

end Snapcastc
