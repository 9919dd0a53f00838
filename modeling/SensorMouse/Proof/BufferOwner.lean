import SensorMouse.Frameworks.VectorImpl
import SensorMouse.Proof.ItemSlots

/-!
# Vectors with a buffer of their own

Vectors are known to each other through their buffers alone. What a vector does to itself therefore
comes to two facts: it ends up as the only one that refers to its buffer, and the buffers the others
refer to read as before. `Owned` is the two of them; the operations that provide a buffer establish
it, those that write into one keep it.
-/

namespace SensorMouse.Proof

open Lib.Counted Frameworks SharedBuffer VectorImpl

variable {α : Type} {type : ItemType α}

/-- The slots hold the items of `front`, a gap, the items of `back`, and then room to grow. -/
structure Laid (type : ItemType α) (sb : SharedBuffer α) (front : List α) (gap : Nat)
    (back : List α) : Prop where
  slots : ∃ hole spare, Free type hole ∧ Free type spare ∧ hole.length = gap ∧
    sb.slots = front.map some ++ hole ++ back.map some ++ spare
  room : sb.slots.length = sb.size / type.itemSize
  fits : sizeofSharedBuffer + sb.size < 4294967296

abbrev Holds (type : ItemType α) (sb : SharedBuffer α) (xs : List α) : Prop := Laid type sb xs 0 []

/-- The vector's items are `xs`. -/
structure Reads (type : ItemType α) (heap : Heap α) (v : VectorImpl) (xs : List α) : Prop where
  count : v.count = xs.length
  empty : v.storage = none → xs = []
  held : ∀ a, v.storage = some a → ∃ sb, cellAt heap a = some sb ∧ Holds type sb xs

/-- A buffer that is there and reads as before; only its count may differ. -/
def Same (heap heap' : Heap α) (a : Nat) : Prop :=
  ∀ sb, cellAt heap a = some sb →
    ∃ sb', cellAt heap' a = some sb' ∧ sb'.slots = sb.slots ∧ sb'.size = sb.size

/-- What the vectors other than `i` refer to reads as before. -/
def Frame (handles : List (Option Nat)) (i : Nat) (heap heap' : Heap α) : Prop :=
  ∀ j a, j ≠ i → handles[j]? = some (some a) → Same heap heap' a

/-- Vector `i` alone refers to the buffer at `a`, and `heap₀` was changed for nobody else. -/
structure Owned (handles : List (Option Nat)) (i : Nat) (heap₀ heap : Heap α) (a : Nat)
    (sb : SharedBuffer α) : Prop where
  exact : Exact SharedBuffer.refs heap (handles.set i (some a))
  frame : Frame handles i heap₀ heap
  cell : cellAt heap a = some sb
  sole : sb.refs = 1

variable {heap heap' heap'' : Heap α} {handles : List (Option Nat)} {i j a : Nat} {v : VectorImpl}
  {sb sb' : SharedBuffer α} {front back xs : List α} {gap : Nat}

theorem Laid.of_same (hlaid : Laid type sb front gap back) (hslots : sb'.slots = sb.slots)
    (hsize : sb'.size = sb.size) : Laid type sb' front gap back := by
  obtain ⟨hlayout, hroom, hfits⟩ := hlaid
  rw [← hslots] at hlayout hroom
  rw [← hsize] at hroom hfits
  exact ⟨hlayout, hroom, hfits⟩

/-- A closed gap. -/
theorem Laid.holds (hlaid : Laid type sb front 0 back) : Holds type sb (front ++ back) := by
  obtain ⟨hole, spare, -, hspare, hlength, hslots⟩ := hlaid.slots
  obtain rfl := List.eq_nil_of_length_eq_zero hlength
  exact ⟨⟨[], spare, free_nil, hspare, rfl, by simpa using hslots⟩, hlaid.room, hlaid.fits⟩

theorem Laid.slot_of_item (hholds : Holds type sb xs) {k : Nat} {x : α} (hx : xs[k]? = some x) :
    sb.slots[k]? = some (some x) := by
  obtain ⟨hole, spare, -, -, hlength, hslots⟩ := hholds.slots
  obtain rfl := List.eq_nil_of_length_eq_zero hlength
  have hlt := (List.getElem?_eq_some_iff.mp hx).1
  rw [hslots, List.append_nil, List.map_nil, List.append_nil,
    List.getElem?_append_left (by rw [List.length_map]; exact hlt), List.getElem?_map, hx]
  rfl

theorem Laid.length_le (hlaid : Laid type sb front gap back) :
    front.length + gap + back.length ≤ sb.size / type.itemSize := by
  obtain ⟨hole, spare, -, -, hlength, hslots⟩ := hlaid.slots
  have hroom := hlaid.room
  rw [hslots] at hroom
  simp only [List.length_append, List.length_map] at hroom
  omega

theorem same_of_eq (heq : cellAt heap' a = cellAt heap a) : Same heap heap' a := by
  intro sb hsb
  exact ⟨sb, heq.trans hsb, rfl, rfl⟩

theorem Same.trans (hfirst : Same heap heap' a) (hsecond : Same heap' heap'' a) :
    Same heap heap'' a := by
  intro sb hsb
  obtain ⟨sb', hsb', hslots, hsize⟩ := hfirst sb hsb
  obtain ⟨sb'', hsb'', hslots', hsize'⟩ := hsecond sb' hsb'
  exact ⟨sb'', hsb'', hslots'.trans hslots, hsize'.trans hsize⟩

theorem frame_refl (handles : List (Option Nat)) (i : Nat) (heap : Heap α) :
    Frame handles i heap heap :=
  fun _ _ _ _ => same_of_eq rfl

theorem Frame.trans (hfirst : Frame handles i heap heap') (hsecond : Frame handles i heap' heap'') :
    Frame handles i heap heap'' :=
  fun j a hne hj => (hfirst j a hne hj).trans (hsecond j a hne hj)

theorem Reads.of_same (hreads : Reads type heap v xs)
    (hsame : ∀ a, v.storage = some a → Same heap heap' a) : Reads type heap' v xs := by
  refine ⟨hreads.count, hreads.empty, fun a ha => ?_⟩
  obtain ⟨sb, hcell, hholds⟩ := hreads.held a ha
  obtain ⟨sb', hcell', hslots, hsize⟩ := hsame a ha sb hcell
  exact ⟨sb', hcell', hholds.of_same hslots hsize⟩

/-! ### Writing into a buffer of one's own -/

theorem owned_of_sole (hexact : Exact SharedBuffer.refs heap handles)
    (hi : handles[i]? = some (some a)) (hcell : cellAt heap a = some sb) (hsole : sb.refs = 1) :
    Owned handles i heap heap a sb := by
  refine ⟨?_, frame_refl handles i heap, hcell, hsole⟩
  obtain ⟨hlt, hget⟩ := List.getElem?_eq_some_iff.mp hi
  rw [← hget, List.set_getElem_self]
  exact hexact

/-- Whoever else refers to a buffer refers to another one. -/
theorem Owned.ne_of_ne (howned : Owned handles i heap heap' a sb) (hlt : i < handles.length)
    {b : Nat} (hne : j ≠ i) (hj : handles[j]? = some (some b)) : b ≠ a := by
  rintro rfl
  refine hne (howned.exact.unique howned.cell howned.sole ?_ (List.getElem?_set_self hlt))
  rw [List.getElem?_set_ne hne.symm]
  exact hj

theorem Owned.put (howned : Owned handles i heap heap' a sb) (hlt : i < handles.length)
    (hsole : sb'.refs = 1) : Owned handles i heap (heap'.set a (some sb')) a sb' := by
  refine ⟨howned.exact.edit howned.cell (hsole.trans howned.sole.symm), ?_,
    cellAt_set_self (lt_length_of_cellAt howned.cell) _, hsole⟩
  intro j b hne hj
  refine (howned.frame j b hne hj).trans (same_of_eq ?_)
  exact cellAt_set_of_ne (howned.ne_of_ne hlt hne hj) _

theorem Owned.edit (howned : Owned handles i heap heap' a sb) (hlt : i < handles.length)
    (change : List (Option α) → Option (List (Option α))) {slots : List (Option α)}
    (hchange : change sb.slots = some slots) :
    ∃ heap'', editSlots heap' a change = some heap'' ∧
      Owned handles i heap heap'' a { sb with slots := slots } := by
  refine ⟨heap'.set a (some { sb with slots := slots }), ?_, howned.put hlt howned.sole⟩
  unfold editSlots
  rw [howned.cell, Option.bind_some, hchange]
  rfl

/-! ### Giving a buffer back -/

theorem releaseStorage_of_shared (hstorage : v.storage = some a) (hcell : cellAt heap a = some sb)
    (hshared : sb.refs ≠ 1) :
    releaseStorage type heap v = some (heap.set a (some { sb with refs := sb.refs - 1 })) := by
  unfold releaseStorage
  simp only [hstorage, release, hcell, hshared, Option.map_some, if_false, Option.bind_some]

theorem releaseStorage_of_sole (hdtor : type.hasTrivialDtor = true) (hstorage : v.storage = some a)
    (hcell : cellAt heap a = some sb) (hsole : sb.refs = 1) :
    releaseStorage type heap v = some (heap.set a none) := by
  have hlt := lt_length_of_cellAt hcell
  unfold releaseStorage
  simp only [hstorage, release, editSlots, dealloc, doDestroy, hcell, hsole, hdtor, Option.map_some,
    if_true, Option.bind_some, cellAt_set_self, hlt, List.set_set]
  rfl

/-- A vector lets its buffer go; the last one destroys the items and frees it. -/
theorem releaseStorage_spec (hexact : Exact SharedBuffer.refs heap handles)
    (hi : handles[i]? = some v.storage) (hreads : Reads type heap v xs) :
    ∃ heap', releaseStorage type heap v = some heap' ∧
      Exact SharedBuffer.refs heap' (handles.set i none) ∧ Frame handles i heap heap' ∧
      ∀ b, v.storage ≠ some b → cellAt heap' b = cellAt heap b := by
  cases hstorage : v.storage with
  | none =>
      rw [hstorage] at hi
      obtain ⟨hlt, hget⟩ := List.getElem?_eq_some_iff.mp hi
      refine ⟨heap, by unfold releaseStorage; rw [hstorage], ?_, frame_refl handles i heap,
        fun _ _ => rfl⟩
      rw [← hget, List.set_getElem_self]
      exact hexact
  | some a =>
      rw [hstorage] at hi
      obtain ⟨sb, hcell, hholds⟩ := hreads.held a hstorage
      have hlt := lt_length_of_cellAt hcell
      have hother : ∀ b, some a ≠ some b → b ≠ a := by
        rintro b hne rfl
        exact hne rfl
      by_cases hsole : sb.refs = 1
      · obtain ⟨hole, spare, -, hspare, hlength, hslots⟩ := hholds.slots
        obtain rfl := List.eq_nil_of_length_eq_zero hlength
        obtain ⟨gap, -, -, hdestroy⟩ := @doDestroy_eq α type [] spare xs
        have hchange : doDestroy type sb.slots 0 v.count = some (gap ++ spare) := by
          rw [hslots, hreads.count]
          simpa using hdestroy
        refine ⟨heap.set a none, ?_, hexact.free hi hcell hsole, ?_, ?_⟩
        · unfold releaseStorage
          simp only [hstorage, release, editSlots, dealloc, hcell, hsole, Option.map_some, if_true,
            Option.bind_some, cellAt_set_self, hlt, hchange, List.set_set]
          rfl
        · intro j b hne hj
          refine same_of_eq (cellAt_set_of_ne ?_ _)
          rintro rfl
          exact hne (hexact.unique hcell hsole hj hi)
        · intro b hne
          exact cellAt_set_of_ne (hother b hne) _
      · refine ⟨_, releaseStorage_of_shared hstorage hcell hsole,
          hexact.detach hi hcell hsole rfl, ?_, ?_⟩
        · intro j b _ _
          by_cases hb : b = a
          · subst hb
            intro sb₀ hsb₀
            obtain rfl : sb = sb₀ := Option.some.inj (hcell.symm.trans hsb₀)
            exact ⟨_, cellAt_set_self hlt _, rfl, rfl⟩
          · exact same_of_eq (cellAt_set_of_ne hb _)
        · intro b hne
          exact cellAt_set_of_ne (hother b hne) _

/-! ### Getting a buffer of one's own -/

theorem room_of_fits {size : Nat} (hfits : sizeofSharedBuffer + size < 4294967296) :
    room type size = size / type.itemSize := by
  unfold room sizeT
  rw [Nat.mod_eq_of_lt hfits, Nat.add_sub_cancel_left]

/-- A new buffer, held by nobody yet: a handle behind the others refers to it for a while. -/
theorem owned_concat (hexact : Exact SharedBuffer.refs heap handles) (hsole : sb.refs = 1) :
    Owned (handles ++ [none]) handles.length heap (heap ++ [some sb]) heap.length sb := by
  refine ⟨hexact.concat_none.alloc List.getElem?_concat_length hsole, ?_,
    cellAt_concat_length heap _, hsole⟩
  intro j a hne hj
  obtain ⟨sb, hcell⟩ := hexact.concat_none.live (List.mem_of_getElem? hj)
  exact same_of_eq (cellAt_concat_of_ne (Nat.ne_of_lt (lt_length_of_cellAt hcell)) _)

theorem itemsAt_spec {before items after : List α}
    (hreads : Reads type heap v (before ++ items ++ after)) :
    itemsAt heap v.storage before.length items.length = some (items.map some) := by
  unfold itemsAt
  cases hstorage : v.storage with
  | none =>
      have hempty := hreads.empty hstorage
      obtain rfl : items = [] := by
        rw [List.append_eq_nil_iff, List.append_eq_nil_iff] at hempty
        exact hempty.1.2
      rfl
  | some a =>
      obtain ⟨sb, hcell, hholds⟩ := hreads.held a hstorage
      obtain ⟨hole, spare, -, -, hlength, hslots⟩ := hholds.slots
      obtain rfl := List.eq_nil_of_length_eq_zero hlength
      have hsplit : sb.slots =
          before.map some ++ (items.map some ++ (after.map some ++ spare)) := by
        simpa using hslots
      have hdrop : sb.slots.drop before.length = items.map some ++ (after.map some ++ spare) := by
        rw [hsplit, List.drop_left' (List.length_map _)]
      simp only [hcell, Option.bind_some]
      rw [hdrop, List.take_left' (List.length_map _), if_pos]
      rw [hsplit]
      simp

section

variable {before items after : List α} {left hole right : List (Option α)}

theorem getElem?_concat_handle (hi : handles[i]? = some v.storage) (content : Option Nat) :
    (handles ++ [content])[i]? = some v.storage := by
  rw [List.getElem?_append_left (List.getElem?_eq_some_iff.mp hi).1]
  exact hi

/-- A piece of the old storage is copied over a hole in the new one. -/
theorem copyPiece_spec (howned : Owned (handles ++ [none]) handles.length heap heap' a sb)
    (hi : handles[i]? = some v.storage) (hreads : Reads type heap v (before ++ items ++ after))
    (hslots : sb.slots = left ++ hole ++ right) (hfree : Free type hole)
    (hlength : hole.length = items.length) :
    ∃ heap'', copyPiece type v a heap' left.length before.length items.length = some heap'' ∧
      Owned (handles ++ [none]) handles.length heap heap'' a
        { sb with slots := left ++ items.map some ++ right } := by
  have hlt := (List.getElem?_eq_some_iff.mp hi).1
  have hreads' : Reads type heap' v (before ++ items ++ after) := by
    refine hreads.of_same fun b hb => howned.frame i b (Nat.ne_of_lt hlt) ?_
    rw [← hb]
    exact getElem?_concat_handle hi none
  have hcopy : copyItems type sb.slots left.length (items.map some) =
      some (left ++ items.map some ++ right) := by
    rw [hslots]
    exact copyItems_of_free items hfree hlength
  obtain ⟨heap'', hedit, howned'⟩ := howned.edit (by simp)
    (fun slots => copyItems type slots left.length (items.map some)) hcopy
  refine ⟨heap'', ?_, howned'⟩
  unfold copyPiece
  rw [itemsAt_spec hreads', Option.bind_some]
  exact hedit

/-- The vector gives its old storage back and takes the new one. -/
theorem owned_of_release (howned : Owned (handles ++ [none]) handles.length heap heap' a sb)
    (hi : handles[i]? = some v.storage) (hreads : Reads type heap v xs) :
    ∃ heap'', releaseStorage type heap' v = some heap'' ∧ Owned handles i heap heap'' a sb := by
  have hlt := (List.getElem?_eq_some_iff.mp hi).1
  have hset : (handles ++ [none]).set handles.length (some a) = handles ++ [some a] := by
    rw [List.set_append_right _ _ le_rfl, Nat.sub_self]
    rfl
  have hexact := howned.exact
  rw [hset] at hexact
  have hreads' : Reads type heap' v xs := by
    refine hreads.of_same fun b hb => howned.frame i b (Nat.ne_of_lt hlt) ?_
    rw [← hb]
    exact getElem?_concat_handle hi none
  obtain ⟨heap'', hrelease, hexact', hframe, hkept⟩ :=
    releaseStorage_spec hexact (getElem?_concat_handle hi (some a)) hreads'
  refine ⟨heap'', hrelease, hexact'.handOver hlt, ?_, ?_, howned.sole⟩
  · intro j b hne hj
    have hjlt := (List.getElem?_eq_some_iff.mp hj).1
    have hold : (handles ++ [none])[j]? = some (some b) := by
      rw [List.getElem?_append_left hjlt]
      exact hj
    have hnew : (handles ++ [some a])[j]? = some (some b) := by
      rw [List.getElem?_append_left hjlt]
      exact hj
    exact (howned.frame j b (Nat.ne_of_lt hjlt) hold).trans (hframe j b hne hnew)
  · rw [hkept a]
    · exact howned.cell
    · intro hsame
      have hold := getElem?_concat_handle hi (some a)
      rw [hsame] at hold
      exact Nat.ne_of_lt hlt
        (hexact.unique howned.cell howned.sole hold List.getElem?_concat_length)

end

section

variable {size : Nat}

theorem replicate_room (hfits : sizeofSharedBuffer + size < 4294967296)
    (hroom : front.length + gap + back.length ≤ size / type.itemSize) :
    List.replicate (room type size) (none : Option α) =
      [] ++ List.replicate front.length none ++ (List.replicate gap none ++
        List.replicate back.length none ++
          List.replicate (size / type.itemSize - (front.length + gap + back.length)) none) := by
  rw [room_of_fits hfits]
  simp only [List.nil_append, List.replicate_append_replicate]
  congr 1
  omega

/-- Items on both sides of some that go, if any, are copied to both sides of a gap, at a new address. -/
theorem relocate_spec {mid : List α}
    (hexact : Exact SharedBuffer.refs heap handles) (hi : handles[i]? = some v.storage)
    (hreads : Reads type heap v (front ++ mid ++ back))
    (hfits : sizeofSharedBuffer + size < 4294967296)
    (hroom : front.length + gap + back.length ≤ size / type.itemSize) :
    ∃ heap' a sb, relocate type heap v size [(0, 0, front.length),
        (front.length + gap, front.length + mid.length, back.length)] =
          some (heap', { v with storage := some a }) ∧
      Owned handles i heap heap' a sb ∧ Laid type sb front gap back ∧ cellAt heap a = none := by
  have halloc := @owned_concat α heap handles ⟨1, size, List.replicate (room type size) none⟩
    hexact rfl
  have hfirst : Reads type heap v ([] ++ front ++ (mid ++ back)) := by simpa using hreads
  obtain ⟨heap₁, hcopy₁, howned₁⟩ := copyPiece_spec halloc hi hfirst (replicate_room hfits hroom)
    (free_replicate front.length) List.length_replicate
  have hsecond : Reads type heap v (front ++ mid ++ back ++ []) := by simpa using hreads
  obtain ⟨heap₂, hcopy₂, howned₂⟩ := copyPiece_spec howned₁ hi hsecond
    (by simp only [List.nil_append, List.append_assoc]; rw [← List.append_assoc, ← List.append_assoc])
    (free_replicate back.length) List.length_replicate
  obtain ⟨heap', hrelease, howned'⟩ := owned_of_release howned₂ hi hreads
  refine ⟨heap', _, _, ?_, howned', ⟨⟨_, _, free_replicate gap, free_replicate _,
    List.length_replicate, rfl⟩, ?_, hfits⟩, cellAt_length heap⟩
  · simp only [List.length_append, List.length_map, List.length_replicate, List.length_nil]
      at hcopy₁ hcopy₂
    unfold relocate alloc
    simp only [List.foldlM_cons, List.foldlM_nil, Option.bind_eq_bind, Option.pure_def, hcopy₁,
      hcopy₂, hrelease, Option.bind_some, Option.map_some]
  · simp only [List.length_append, List.length_map, List.length_replicate]
    omega

/-- The whole vector moves. -/
theorem relocate_whole (hexact : Exact SharedBuffer.refs heap handles)
    (hi : handles[i]? = some v.storage) (hreads : Reads type heap v xs)
    (hfits : sizeofSharedBuffer + size < 4294967296)
    (hroom : xs.length ≤ size / type.itemSize) :
    ∃ heap' a sb, relocate type heap v size [(0, 0, v.count)] =
        some (heap', { v with storage := some a }) ∧
      Owned handles i heap heap' a sb ∧ sb.size = size ∧ Holds type sb xs := by
  have halloc := @owned_concat α heap handles ⟨1, size, List.replicate (room type size) none⟩
    hexact rfl
  have hwhole : Reads type heap v ([] ++ xs ++ []) := by simpa using hreads
  have hslots := @replicate_room α type xs [] 0 size hfits (by simpa using hroom)
  obtain ⟨heap₁, hcopy, howned⟩ := copyPiece_spec halloc hi hwhole hslots
    (free_replicate xs.length) List.length_replicate
  obtain ⟨heap', hrelease, howned'⟩ := owned_of_release howned hi hreads
  refine ⟨heap', _, _, ?_, howned', rfl, ⟨[], _, free_nil,
    free_replicate (size / type.itemSize - xs.length), rfl, ?_⟩, ?_, hfits⟩
  · simp only [List.length_nil] at hcopy
    unfold relocate alloc
    simp only [List.foldlM_cons, List.foldlM_nil, Option.bind_eq_bind, Option.pure_def,
      hreads.count, hcopy, hrelease, Option.bind_some, Option.map_some]
  · simp
  · simp only [List.length_append, List.length_map, List.length_replicate, List.length_nil]
    omega

end

theorem sizeT_of_lt {n : Nat} (hlt : n < 4294967296) : sizeT n = n := Nat.mod_eq_of_lt hlt

theorem withStorage_self (hstorage : v.storage = some a) : { v with storage := some a } = v := by
  rw [← hstorage]

/-- A vector with a buffer gets it for itself, of the same capacity. -/
theorem editArrayImpl_spec (hexact : Exact SharedBuffer.refs heap handles)
    (hi : handles[i]? = some v.storage) (hreads : Reads type heap v xs)
    (hstorage : v.storage = some a) (hcell : cellAt heap a = some sb) :
    ∃ heap' b sb', editArrayImpl type heap v true = some (heap', { v with storage := some b }) ∧
      Owned handles i heap heap' b sb' ∧ Holds type sb' xs ∧
      sb'.size / type.itemSize = sb.size / type.itemSize := by
  obtain ⟨sb₀, hcell₀, hholds⟩ := hreads.held a hstorage
  obtain rfl : sb = sb₀ := Option.some.inj (hcell.symm.trans hcell₀)
  unfold editArrayImpl
  simp only [hstorage, hcell, Option.bind_some]
  by_cases hsole : sb.refs = 1
  · rw [hstorage] at hi
    refine ⟨heap, a, sb, ?_, owned_of_sole hexact hi hcell hsole, hholds, rfl⟩
    rw [if_pos hsole, withStorage_self hstorage]
  · have hle : sb.size / type.itemSize * type.itemSize ≤ sb.size := Nat.div_mul_le_self _ _
    have hfits := hholds.fits
    have hcapacity : sb.size / type.itemSize * type.itemSize / type.itemSize =
        sb.size / type.itemSize := Nat.mul_div_cancel _ type.itemSize_pos
    have hsmall : sizeofSharedBuffer + sb.size / type.itemSize * type.itemSize < 4294967296 := by
      omega
    rw [if_neg hsole, if_pos trivial, sizeT_of_lt (by omega)]
    obtain ⟨heap', b, sb', hrelocate, howned, hsize, hholds'⟩ := relocate_whole hexact hi hreads
      hsmall (by rw [hcapacity]; simpa using hholds.length_le)
    refine ⟨heap', b, sb', hrelocate, howned, hholds', ?_⟩
    rw [hsize, hcapacity]

/-! ### Resizing, where items need neither constructor nor destructor -/

theorem free_of_trivial (hdtor : type.hasTrivialDtor = true) (slots : List (Option α)) :
    Free type slots := by
  intro hfalse
  rw [hdtor] at hfalse
  cases hfalse

/-- Items that are not destroyed may be forgotten. -/
theorem Laid.forget (hdtor : type.hasTrivialDtor = true) (hholds : Holds type sb (front ++ back)) :
    Holds type sb front := by
  obtain ⟨hole, spare, -, -, hlength, hslots⟩ := hholds.slots
  obtain rfl := List.eq_nil_of_length_eq_zero hlength
  refine ⟨⟨[], back.map some ++ spare, free_nil, free_of_trivial hdtor _, rfl, ?_⟩, hholds.room,
    hholds.fits⟩
  simpa using hslots

theorem holds_resized {size : Nat} (hdtor : type.hasTrivialDtor = true)
    (hholds : Holds type sb (front ++ back)) (hfits : sizeofSharedBuffer + size < 4294967296)
    (hroom : front.length ≤ size / type.itemSize) (refs : Int) :
    Holds type ⟨refs, size, resized type sb.slots size⟩ front := by
  obtain ⟨hole, spare, -, -, hlength, hslots⟩ := (Laid.forget hdtor hholds).slots
  obtain rfl := List.eq_nil_of_length_eq_zero hlength
  have hsplit : sb.slots = front.map some ++ spare := by simpa using hslots
  refine ⟨⟨[], spare.take (size / type.itemSize - front.length) ++
    List.replicate (size / type.itemSize - sb.slots.length) none, free_nil,
    free_of_trivial hdtor _, rfl, ?_⟩, ?_, hfits⟩
  · unfold resized
    rw [room_of_fits hfits]
    simp only [hsplit, List.take_append, List.length_map, List.length_append, List.append_nil,
      List.map_nil, List.append_assoc]
    rw [List.take_of_length_le (by simpa using hroom)]
  · unfold resized
    rw [room_of_fits hfits]
    simp only [List.length_append, List.length_take, List.length_replicate]
    omega

theorem resizeStorage_spec {n : Nat} (hdtor : type.hasTrivialDtor = true)
    (hexact : Exact SharedBuffer.refs heap handles) (hi : handles[i]? = some v.storage)
    (hreads : Reads type heap v (front ++ back)) (hstorage : v.storage = some a)
    (hcell : cellAt heap a = some sb)
    (hfits : sizeofSharedBuffer + n * type.itemSize < 4294967296) (hroom : front.length ≤ n) :
    ∃ heap' b sb', resizeStorage type heap v a n true = some (heap', { v with storage := some b }) ∧
      Owned handles i heap heap' b sb' ∧ sb'.size = n * type.itemSize ∧ Holds type sb' front ∧
      (sb.size ≠ n * type.itemSize → cellAt heap b = none) := by
  obtain ⟨sb₀, hcell₀, hholds⟩ := hreads.held a hstorage
  obtain rfl : sb = sb₀ := Option.some.inj (hcell.symm.trans hcell₀)
  have hlt := (List.getElem?_eq_some_iff.mp hi).1
  have hcapacity : n * type.itemSize / type.itemSize = n := Nat.mul_div_cancel _ type.itemSize_pos
  have hresized := holds_resized hdtor hholds hfits (by rw [hcapacity]; exact hroom)
  unfold resizeStorage editResize
  rw [sizeT_of_lt (by omega)]
  simp only [hcell, Option.bind_some]
  have hne : a ≠ heap.length := Nat.ne_of_lt (lt_length_of_cellAt hcell)
  have hconcat := @owned_concat α heap handles
    { sb with
      refs := 1
      size := n * type.itemSize
      slots := resized type sb.slots (n * type.itemSize) } hexact rfl
  by_cases hsole : sb.refs = 1
  · by_cases hsize : sb.size = n * type.itemSize
    · refine ⟨heap, a, sb, ?_, owned_of_sole hexact (hi.trans (congrArg some hstorage)) hcell hsole,
        hsize, Laid.forget hdtor hholds, fun hother => absurd hsize hother⟩
      rw [if_pos ⟨hsole, hsize⟩]
      rfl
    · obtain ⟨heap', hrelease, howned⟩ := owned_of_release hconcat hi hreads
      rw [releaseStorage_of_sole hdtor hstorage ((cellAt_concat_of_ne hne _).trans hcell) hsole]
        at hrelease
      refine ⟨heap', heap.length, _, ?_, howned, rfl, hresized 1, fun _ => cellAt_length heap⟩
      rw [if_neg fun hboth => hsize hboth.2, if_neg (by simp), if_pos hsole, hsole,
        Option.some.inj hrelease]
      rfl
  · obtain ⟨heap', hrelease, howned⟩ := owned_of_release hconcat hi hreads
    rw [releaseStorage_of_shared hstorage ((cellAt_concat_of_ne hne _).trans hcell) hsole] at hrelease
    refine ⟨heap', heap.length, _, ?_, howned, rfl, hresized 1, fun _ => cellAt_length heap⟩
    rw [if_neg fun hboth => hsole hboth.1, if_neg (by simp), if_neg hsole]
    unfold release
    rw [cellAt_concat_of_ne hne, hcell, Option.map_some, if_neg hsole]
    exact congrArg (Option.map _) (congrArg (Option.map _) hrelease)

end SensorMouse.Proof
