import SensorMouse.Lib.Counted

/-!
# Shared buffers

The memory a `VectorImpl` keeps its items in. A buffer is the list of the item slots that fit into its
bytes, and an address is the place of a buffer in the heap. `none` is what the program does not
survive: a buffer used after it was freed, a slot outside its buffer, an item read where there is none,
constructed over a live one, or destroyed twice.
-/

namespace SensorMouse.Frameworks

open Lib.Counted

/-- `size_t`, of 32 bits. -/
def sizeT (n : Nat) : Nat := n % 4294967296

/-- `ssize_t`, of 32 bits. -/
def ssizeT (n : Int) : Int := n.bmod 4294967296

/-- What stands in front of the data: two counts and two words that are not used. -/
def sizeofSharedBuffer : Nat := 16

/-- `mItemSize` and `mFlags` of a vector; `made` is what the constructor makes. -/
structure ItemType (α : Type) where
  itemSize : Nat
  itemSize_pos : 0 < itemSize
  hasTrivialCtor : Bool
  hasTrivialDtor : Bool
  hasTrivialCopy : Bool
  made : α

/-- `slots` are the items of the data; `none` is a slot with no item. -/
structure SharedBuffer (α : Type) where
  refs : Int
  size : Nat
  slots : List (Option α)
  deriving DecidableEq, Repr

abbrev Heap (α : Type) := List (Option (SharedBuffer α))

variable {α : Type}

namespace SharedBuffer

/-- The items that fit behind the header; the request for both may wrap. -/
def room (type : ItemType α) (size : Nat) : Nat :=
  (sizeT (sizeofSharedBuffer + size) - sizeofSharedBuffer) / type.itemSize

def alloc (type : ItemType α) (heap : Heap α) (size : Nat) : Nat × Heap α :=
  (heap.length, heap ++ [some ⟨1, size, List.replicate (room type size) none⟩])

/-- What `memcpy` or `realloc` leaves in a buffer of another size. -/
def resized (type : ItemType α) (slots : List (Option α)) (size : Nat) : List (Option α) :=
  slots.take (room type size) ++ List.replicate (room type size - slots.length) none

def acquire (heap : Heap α) (a : Nat) : Option (Heap α) :=
  (cellAt heap a).map fun sb => heap.set a (some { sb with refs := sb.refs + 1 })

/-- The previous count and the heap; a buffer nobody refers to any more is freed unless it is kept. -/
def release (heap : Heap α) (a : Nat) (keepStorage : Bool) : Option (Int × Heap α) :=
  (cellAt heap a).map fun sb =>
    if sb.refs = 1 then
      (1, heap.set a (if keepStorage then some { sb with refs := 0 } else none))
    else (sb.refs, heap.set a (some { sb with refs := sb.refs - 1 }))

def dealloc (heap : Heap α) (a : Nat) : Option (Heap α) :=
  (cellAt heap a).map fun sb => if sb.refs ≠ 0 then heap else heap.set a none

/-- `granted` is whether there is memory. Without it the answer is a null pointer, and the caller goes
on with an address in front of the heap. What `realloc` gives back is at an address of its own. -/
def editResize (type : ItemType α) (heap : Heap α) (a newSize : Nat) (granted : Bool) :
    Option (Nat × Heap α) :=
  (cellAt heap a).bind fun sb =>
    if sb.refs = 1 ∧ sb.size = newSize then some (a, heap)
    else if granted = false then none
    else if sb.refs = 1 then
      some (heap.length,
        (heap ++ [some { sb with
          size := newSize
          slots := resized type sb.slots newSize }]).set a none)
    else
      (release (heap ++ [some ⟨1, newSize, resized type sb.slots newSize⟩]) a false).map
        fun (_, heap') => (heap.length, heap')

end SharedBuffer

/-! ### Items in slots -/

/-- A slot gets an item; where items are destroyed it must be empty. -/
def constructAt (type : ItemType α) (slots : List (Option α)) (k : Nat) (item : Option α) :
    Option (List (Option α)) :=
  if k < slots.length ∧ (type.hasTrivialDtor = true ∨ (slots[k]?.join).isNone = true) then
    some (slots.set k item)
  else none

/-- `_do_copy` and `do_splat`, item by item. Only a copy by `memcpy` may read an empty slot. -/
def copyItems (type : ItemType α) (slots : List (Option α)) (dest : Nat) :
    List (Option α) → Option (List (Option α))
  | [] => some slots
  | item :: rest =>
      if type.hasTrivialCopy = false ∧ item.isNone = true then none
      else (constructAt type slots dest item).bind fun slots => copyItems type slots (dest + 1) rest

def destroyItems (slots : List (Option α)) (start : Nat) : Nat → Option (List (Option α))
  | 0 => some slots
  | num + 1 =>
      if (slots[start]?.join).isSome then destroyItems (slots.set start none) (start + 1) num
      else none

/-- `_do_destroy`. -/
def doDestroy (type : ItemType α) (slots : List (Option α)) (start num : Nat) :
    Option (List (Option α)) :=
  if type.hasTrivialDtor then some slots else destroyItems slots start num

/-- One round of `do_move_forward` and `do_move_backward`. -/
def moveItem (type : ItemType α) (slots : List (Option α)) (dest start : Nat) :
    Option (List (Option α)) :=
  slots[start]?.bind fun item =>
    (copyItems type slots dest [item]).bind fun slots => doDestroy type slots start 1

/-- From the last item to the first. -/
def moveForward (type : ItemType α) (slots : List (Option α)) (dest start : Nat) :
    Nat → Option (List (Option α))
  | 0 => some slots
  | num + 1 => (moveItem type slots (dest + num) (start + num)).bind fun slots =>
      moveForward type slots dest start num

/-- From the first item to the last. -/
def moveBackward (type : ItemType α) (slots : List (Option α)) (dest start : Nat) :
    Nat → Option (List (Option α))
  | 0 => some slots
  | num + 1 => (moveItem type slots dest start).bind fun slots =>
      moveBackward type slots (dest + 1) (start + 1) num

/-- The slots of one buffer change. -/
def editSlots (heap : Heap α) (a : Nat)
    (change : List (Option α) → Option (List (Option α))) : Option (Heap α) :=
  (cellAt heap a).bind fun sb =>
    (change sb.slots).map fun slots => heap.set a (some { sb with slots := slots })

/-- The items `do_copy` reads; of no storage there are none to read. -/
def itemsAt (heap : Heap α) (storage : Option Nat) (start num : Nat) :
    Option (List (Option α)) :=
  match storage with
  | none => if num = 0 then some [] else none
  | some a => (cellAt heap a).bind fun sb =>
      if start + num ≤ sb.slots.length then some ((sb.slots.drop start).take num) else none

end SensorMouse.Frameworks
