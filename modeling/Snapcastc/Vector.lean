import Snapcastc.LibraryCalls
import Snapcastc.LibrarySlots
import Snapcastc.Process

/-! Dynamically sized arrays (`vector.c`, `vector.h`), with the bytes of their block. `size_t` has 64 bits. -/

namespace Snapcastc

/-- `snap_vector_desc_t`. -/
structure SnapVectorDesc where
  /-- The number of elements currently allocated. -/
  allocated : UInt64
  /-- The actual number of elements in the vector. -/
  length : UInt64

/-- A block of the heap. -/
structure Block where
  size : UInt64
  bytes : Nat → UInt8

/-- A `VECTOR`. Its data is `NULL` or a block. -/
structure SnapVector where
  desc : SnapVectorDesc
  data : Option Block

/-- What `realloc` answers: `NULL`, or a block with these bytes where it has none to take over. -/
abbrev ReallocAnswer := Option (Nat → UInt8)

/-- `snap_realloc`. It ends the process when `realloc` fails (`exit_errno`). -/
def snapRealloc (answer : ReallocAnswer) (ptr : Option Block) (size : UInt64) : Except Fault Block :=
  match answer with
  | none => throw (.exitError "realloc")
  | some fresh => pure {
      size
      bytes := fun i =>
        match ptr with
        | none => fresh i
        | some old => if i < min old.size.toNat size.toNat then old.bytes i else fresh i }

def minVectorAlloc : UInt64 := 4

/-- `while (alloc < n) alloc <<= 1;`. After 64 shifts `alloc` is 0 for good. -/
def growAlloc : Nat → UInt64 → UInt64 → Except Fault UInt64
  | 0, _, _ => throw .endless
  | rounds + 1, alloc, n => if alloc < n then growAlloc rounds (alloc <<< 1) n else pure alloc

namespace SnapVector

def snapVectorResize (answer : ReallocAnswer) (v : SnapVector) (n elemsize : UInt64) :
    Except Fault SnapVector := do
  let desc := { v.desc with length := n }
  let (alloc, n) := if desc.allocated = 0 then (minVectorAlloc, n * 3 / 2) else (desc.allocated, n)
  let alloc ← growAlloc 65 alloc n
  if alloc ≠ desc.allocated then
    let data ← snapRealloc answer v.data (alloc * elemsize)
    pure ⟨{ desc with allocated := alloc }, some data⟩
  else pure ⟨desc, v.data⟩

/-- `memmove` within the data, from one offset to another. -/
def memmove (v : SnapVector) (dest source : Nat) (n : UInt64) : Except Fault SnapVector :=
  match v.data with
  | none => throw .nullPointer
  | some block =>
      if dest + n.toNat ≤ block.size.toNat ∧ source + n.toNat ≤ block.size.toNat then
        pure { v with data := some { block with bytes := Bytes.move block.bytes dest source n.toNat } }
      else throw .outOfBounds

/-- `memcpy` of an object to an offset of the data. -/
def memcpy (v : SnapVector) (dest : Nat) (object : List UInt8) : Except Fault SnapVector :=
  match v.data with
  | none => throw .nullPointer
  | some block =>
      if dest + object.length ≤ block.size.toNat then
        pure { v with data := some { block with bytes := Bytes.store block.bytes dest object } }
      else throw .outOfBounds

/-- The bytes of an element of a type of this size. -/
abbrev Element (elemsize : UInt64) := Slots.Item elemsize.toNat

variable {elemsize : UInt64}

/-- `_snap_vector_insert`. It returns where the element is, as an offset of the data. -/
def snapVectorInsert (answer : ReallocAnswer) (v : SnapVector) (element : Element elemsize) (pos : UInt64) :
    Except Fault (SnapVector × Nat) := do
  let v ← v.snapVectorResize answer (v.desc.length + 1) elemsize
  let p := (pos * elemsize).toNat
  let v ← v.memmove (p + elemsize.toNat) p ((v.desc.length - pos - 1) * elemsize)
  let v ← v.memcpy p element.val
  pure (v, p)

def snapVectorDelete (answer : ReallocAnswer) (v : SnapVector) (pos elemsize : UInt64) :
    Except Fault SnapVector := do
  let p := (pos * elemsize).toNat
  let v ← v.memmove p (p + elemsize.toNat) ((v.desc.length - pos - 1) * elemsize)
  v.snapVectorResize answer (v.desc.length - 1) elemsize

/-- `VECTOR_INIT`. What was in the vector before does not count. -/
def vectorInit (v : SnapVector) : SnapVector :=
  { v with data := none, desc := { v.desc with length := 0, allocated := 0 } }

end SnapVector

/-- A use of one of the macros. -/
inductive VectorOp (elemsize : UInt64) where
  /-- `VECTOR_ADD`. -/
  | add (elem : SnapVector.Element elemsize)
  /-- `VECTOR_DELETE`. -/
  | delete (pos : UInt64)
  /-- `VECTOR_RESIZE`. -/
  | resize (n : UInt64)

/-- A use of a macro, with the answer of `realloc` if it asks for memory. -/
structure VectorCall (elemsize : UInt64) where
  op : VectorOp elemsize
  answer : ReallocAnswer

namespace SnapVector

variable {elemsize : UInt64}

def call (v : SnapVector) (c : VectorCall elemsize) : Except Fault SnapVector :=
  match c.op with
  | .add elem => (v.snapVectorInsert c.answer elem v.desc.length).map Prod.fst
  | .delete pos => v.snapVectorDelete c.answer pos elemsize
  | .resize n => v.snapVectorResize c.answer n elemsize

/-- A sequence of uses. -/
def run (v : SnapVector) (calls : List (VectorCall elemsize)) : Except Fault SnapVector :=
  calls.foldlM call v

end SnapVector

end Snapcastc
