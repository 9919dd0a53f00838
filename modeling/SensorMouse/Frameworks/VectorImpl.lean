import SensorMouse.Frameworks.SharedBuffer

/-!
# `VectorImpl`

A vector refers to a buffer and knows how many items of it are its own. Copies refer to the buffer of
the original; whoever is about to change shared items first gets a buffer of its own, or should.
-/

namespace SensorMouse.Frameworks

open Lib.Counted SharedBuffer

def noMemory : Int := -12

def badValue : Int := -22

def badIndex : Int := -75

def kMinVectorCapacity : Nat := 4

structure VectorImpl where
  storage : Option Nat := none
  count : Nat := 0
  deriving DecidableEq, Repr

/-- Where an item that a caller passes lies: outside of all vectors, or in a slot of a buffer. -/
inductive Item (α : Type) where
  | value (item : α)
  | slot (a k : Nat)
  deriving DecidableEq, Repr

/-- What the slot holds by now, if anything. -/
def Item.read {α : Type} (heap : Heap α) : Item α → Option (Option α)
  | .value item => some (some item)
  | .slot a k => (cellAt heap a).bind fun sb => sb.slots[k]?

namespace VectorImpl

variable {α : Type} (type : ItemType α)

def capacity (heap : Heap α) (v : VectorImpl) : Option Nat :=
  match v.storage with
  | none => some 0
  | some a => (cellAt heap a).map fun sb => sb.size / type.itemSize

def releaseStorage (heap : Heap α) (v : VectorImpl) : Option (Heap α) :=
  match v.storage with
  | none => some heap
  | some a => (release heap a true).bind fun (previous, heap) =>
      if previous = 1 then
        (editSlots heap a fun slots => doDestroy type slots 0 v.count).bind fun heap =>
          dealloc heap a
      else some heap

/-- `_do_copy` from the vector's storage into the buffer at `a`; an empty piece copies nothing. -/
def copyPiece (v : VectorImpl) (a : Nat) (heap : Heap α) (dest start num : Nat) : Option (Heap α) :=
  (itemsAt heap v.storage start num).bind fun items =>
    editSlots heap a fun slots => copyItems type slots dest items

/-- A new buffer takes the place of the old one. Each piece is where it goes, where it comes from and
its length. -/
def relocate (heap : Heap α) (v : VectorImpl) (size : Nat) (pieces : List (Nat × Nat × Nat)) :
    Option (Heap α × VectorImpl) :=
  let (a, heap) := alloc type heap size
  (pieces.foldlM (fun heap (dest, start, num) => copyPiece type v a heap dest start num) heap).bind
    fun heap => (releaseStorage type heap v).map fun heap => (heap, { v with storage := some a })

/-- The vector gets its buffer for itself. Without memory it goes on with the shared one. -/
def editArrayImpl (heap : Heap α) (v : VectorImpl) (granted : Bool) :
    Option (Heap α × VectorImpl) :=
  match v.storage with
  | none => some (heap, v)
  | some a => (cellAt heap a).bind fun sb =>
      if sb.refs = 1 then some (heap, v)
      else if granted then
        relocate type heap v (sizeT (sb.size / type.itemSize * type.itemSize)) [(0, 0, v.count)]
      else some (heap, v)

/-- The resize that `_grow` and `_shrink` do where items need no constructor. -/
def resizeStorage (heap : Heap α) (v : VectorImpl) (a newCapacity : Nat) (granted : Bool) :
    Option (Heap α × VectorImpl) :=
  (editResize type heap a (sizeT (newCapacity * type.itemSize)) granted).map
    fun (b, heap) => (heap, { v with storage := some b })

/-- The slots of the vector's own storage change. -/
def editStorage (heap : Heap α) (v : VectorImpl)
    (change : List (Option α) → Option (List (Option α))) : Option (Heap α × VectorImpl) :=
  v.storage.bind fun a => (editSlots heap a change).map fun heap => (heap, v)

/-- `_grow`: room for `amount` items at `position`. -/
def grow (heap : Heap α) (v : VectorImpl) (position amount : Nat) (granted : Bool) :
    Option (Heap α × VectorImpl) :=
  let start := if position > v.count then v.count else position
  let newSize := sizeT (v.count + amount)
  ((capacity type heap v).bind fun current =>
    if current < newSize then
      let newCapacity := max kMinVectorCapacity (sizeT (newSize * 3 + 1) / 2)
      match v.storage with
      | some a =>
          if v.count = start ∧ type.hasTrivialCopy = true ∧ type.hasTrivialDtor = true then
            resizeStorage type heap v a newCapacity granted
          else if granted then
            relocate type heap v (sizeT (newCapacity * type.itemSize))
              [(0, 0, start), (start + amount, start, v.count - start)]
          else some (heap, v)
      | none =>
          if granted then
            relocate type heap v (sizeT (newCapacity * type.itemSize))
              [(0, 0, start), (start + amount, start, v.count - start)]
          else some (heap, v)
    else if start < v.count then
      (editArrayImpl type heap v granted).bind fun (heap, v) =>
        editStorage heap v fun slots =>
          moveForward type slots (start + amount) start (v.count - start)
    else some (heap, v)).map fun (heap, v) => (heap, { v with count := newSize })

/-- `_shrink`: `amount` items at `position` go. -/
def shrink (heap : Heap α) (v : VectorImpl) (position amount : Nat) (granted : Bool) :
    Option (Heap α × VectorImpl) :=
  match v.storage with
  | none => some (heap, v)
  | some a =>
      let newSize := sizeT (v.count + 4294967296 - amount)
      let start := if position ≥ v.count then newSize else position
      ((capacity type heap v).bind fun current =>
        if sizeT (newSize * 3) < current then
          let newCapacity := max kMinVectorCapacity (sizeT (newSize * 2))
          if start = newSize ∧ type.hasTrivialCopy = true ∧ type.hasTrivialDtor = true then
            resizeStorage type heap v a newCapacity granted
          else if granted then
            relocate type heap v (sizeT (newCapacity * type.itemSize))
              [(0, 0, start), (start, start + amount, v.count - (start + amount))]
          else some (heap, v)
        else
          (editArrayImpl type heap v granted).bind fun (heap, v) =>
            editStorage heap v fun slots =>
              (doDestroy type slots start amount).bind fun slots =>
                moveBackward type slots start (start + amount) (v.count - (start + amount))).map
        fun (heap, v) => (heap, { v with count := newSize })

/-- What fills new slots of the buffer at `a`: copies of the item, which is read when it is copied, or
what the constructor makes. No copy changes what the next one reads, since one that is made in the
item's own slot is of that slot. -/
def fill (heap : Heap α) (a position num : Nat) : Option (Item α) → Option (Heap α)
  | some item =>
      if num = 0 then some heap
      else (item.read heap).bind fun read =>
        editSlots heap a fun slots => copyItems type slots position (List.replicate num read)
  | none =>
      if type.hasTrivialCtor then some heap
      else editSlots heap a fun slots =>
        copyItems type slots position (List.replicate num (some type.made))

/-- The index, or what is wrong with it. -/
def insertAt (heap : Heap α) (v : VectorImpl) (item : Option (Item α)) (index num : Nat)
    (granted : Bool) : Option (Heap α × VectorImpl × Int) :=
  if index > v.count then some (heap, v, badIndex)
  else (grow type heap v index num granted).bind fun (heap, v) =>
    match v.storage with
    | none => some (heap, v, noMemory)
    | some a => (fill type heap a index num item).map fun heap => (heap, v, (index : Int))

/-- `same` is whether the vector is inserted into itself; then it is read after it has grown. -/
def insertVectorAt (heap : Heap α) (v vector : VectorImpl) (same : Bool) (index : Nat)
    (granted : Bool) : Option (Heap α × VectorImpl × Int) :=
  if index > v.count then some (heap, v, badIndex)
  else (grow type heap v index vector.count granted).bind fun (heap, v) =>
    match v.storage with
    | none => some (heap, v, noMemory)
    | some a =>
        let vector := if same then v else vector
        (itemsAt heap vector.storage 0 vector.count).bind fun items =>
          (editSlots heap a fun slots => copyItems type slots index items).map
            fun heap => (heap, v, (index : Int))

def replaceAt (heap : Heap α) (v : VectorImpl) (prototype : Option (Item α)) (index : Nat)
    (granted : Bool) : Option (Heap α × VectorImpl × Int) :=
  (editArrayImpl type heap v granted).bind fun (heap, v) =>
    match v.storage with
    | none => some (heap, v, noMemory)
    | some a => ((editSlots heap a fun slots => doDestroy type slots index 1).bind fun heap =>
        fill type heap a index 1 prototype).map fun heap => (heap, v, (index : Int))

def removeItemsAt (heap : Heap α) (v : VectorImpl) (index count : Nat) (granted : Bool) :
    Option (Heap α × VectorImpl × Int) :=
  if sizeT (index + count) > v.count then some (heap, v, badValue)
  else (shrink type heap v index count granted).map fun (heap, v) => (heap, v, (index : Int))

def clear (heap : Heap α) (v : VectorImpl) (granted : Bool) : Option (Heap α × VectorImpl) :=
  shrink type heap v 0 v.count granted

def setCapacity (heap : Heap α) (v : VectorImpl) (newCapacity : Nat) (granted : Bool) :
    Option (Heap α × VectorImpl × Int) :=
  (capacity type heap v).bind fun current =>
    if ssizeT (newCapacity - v.count) ≤ 0 then some (heap, v, (current : Int))
    else if granted then
      (relocate type heap v (sizeT (newCapacity * type.itemSize)) [(0, 0, v.count)]).map
        fun (heap, v) => (heap, v, (newCapacity : Int))
    else some (heap, v, noMemory)

def finishVector (heap : Heap α) (v : VectorImpl) : Option (Heap α × VectorImpl) :=
  (releaseStorage type heap v).map fun heap => (heap, {})

/-- `operator =` of two different vectors. -/
def assign (heap : Heap α) (v rhs : VectorImpl) : Option (Heap α × VectorImpl) :=
  (releaseStorage type heap v).bind fun heap =>
    if rhs.count = 0 then some (heap, {})
    else rhs.storage.bind fun a => (acquire heap a).map fun heap => (heap, rhs)

/-- The copy constructor. -/
def copied (heap : Heap α) (rhs : VectorImpl) : Option (Heap α × VectorImpl) :=
  match rhs.storage with
  | none => some (heap, rhs)
  | some a => (acquire heap a).map fun heap => (heap, rhs)

end VectorImpl

/-! ### Runs -/

/-- The vectors of one item type, in the order they were made; a finished one is empty. -/
structure Vectors (α : Type) where
  heap : Heap α := []
  vectors : List VectorImpl := []
  deriving DecidableEq, Repr

namespace Vectors

variable {α : Type} (type : ItemType α)

/-- The item a caller passes: one of its own, or the one at `k` of vector `j`. -/
inductive Source (α : Type) where
  | value (item : α)
  | itemOf (j k : Nat)
  deriving DecidableEq, Repr

/-- `granted` is whether there is memory for what the operation asks for. -/
inductive Op (α : Type) where
  | create
  | copied (j : Nat)
  | assign (i j : Nat)
  | insertAt (i : Nat) (item : Option (Source α)) (index num : Nat) (granted : Bool)
  | insertVectorAt (i j index : Nat) (granted : Bool)
  | replaceAt (i : Nat) (prototype : Option (Source α)) (index : Nat) (granted : Bool)
  | removeItemsAt (i index count : Nat) (granted : Bool)
  | clear (i : Nat) (granted : Bool)
  | setCapacity (i newCapacity : Nat) (granted : Bool)
  | finish (i : Nat)
  deriving DecidableEq, Repr

/-- What an operation leaves of vector `i`. -/
def put (s : Vectors α) (i : Nat) (left : Heap α × VectorImpl) : Vectors α :=
  ⟨left.1, s.vectors.set i left.2⟩

def putResult (s : Vectors α) (i : Nat) (left : Heap α × VectorImpl × Int) : Vectors α :=
  s.put i (left.1, left.2.1)

/-- The pointer that is passed; to an item that is not there, there is none. -/
def pointer (s : Vectors α) : Source α → Option (Item α)
  | .value item => some (.value item)
  | .itemOf j k => s.vectors[j]?.bind fun v =>
      if k < v.count then v.storage.map fun a => .slot a k else none

/-- Without an item a null pointer is passed. -/
def argument (s : Vectors α) : Option (Source α) → Option (Option (Item α))
  | none => some none
  | some source => (s.pointer source).map some

def step (s : Vectors α) : Op α → Option (Vectors α)
  | .create => some { s with vectors := s.vectors ++ [{}] }
  | .copied j => s.vectors[j]?.bind fun rhs =>
      (VectorImpl.copied s.heap rhs).map fun (heap, v) => ⟨heap, s.vectors ++ [v]⟩
  | .assign i j => s.vectors[i]?.bind fun v => s.vectors[j]?.bind fun rhs =>
      if i = j then some s else (v.assign type s.heap rhs).map (s.put i)
  | .insertAt i item index num granted => s.vectors[i]?.bind fun v =>
      (s.argument item).bind fun item =>
        (v.insertAt type s.heap item index num granted).map (s.putResult i)
  | .insertVectorAt i j index granted => s.vectors[i]?.bind fun v => s.vectors[j]?.bind fun vector =>
      (v.insertVectorAt type s.heap vector (i = j) index granted).map (s.putResult i)
  | .replaceAt i prototype index granted => s.vectors[i]?.bind fun v =>
      (s.argument prototype).bind fun prototype =>
        (v.replaceAt type s.heap prototype index granted).map (s.putResult i)
  | .removeItemsAt i index count granted => s.vectors[i]?.bind fun v =>
      (v.removeItemsAt type s.heap index count granted).map (s.putResult i)
  | .clear i granted => s.vectors[i]?.bind fun v => (v.clear type s.heap granted).map (s.put i)
  | .setCapacity i newCapacity granted => s.vectors[i]?.bind fun v =>
      (v.setCapacity type s.heap newCapacity granted).map (s.putResult i)
  | .finish i => s.vectors[i]?.bind fun v => (v.finishVector type s.heap).map (s.put i)

end Vectors

end SensorMouse.Frameworks
