import SensorMouse.Proof.BufferOwner

/-!
# Growing and shrinking a vector

`_grow` leaves a gap that the caller fills, `_shrink` closes one. Both have four ways to do it, by what
the buffer has room for and by what the items need, and all four leave the same slots.
-/

namespace SensorMouse.Proof

open Lib.Counted Frameworks SharedBuffer VectorImpl

variable {α : Type} {type : ItemType α} {heap heap' : Heap α} {handles : List (Option Nat)}
  {i a : Nat} {v v' : VectorImpl} {sb : SharedBuffer α} {front mid back xs : List α} {amount : Nat}

/-- Room behind the items is a gap with nothing behind it. -/
theorem Laid.opened (hholds : Holds type sb front)
    (hroom : front.length + amount ≤ sb.size / type.itemSize) : Laid type sb front amount [] := by
  obtain ⟨hole, spare, -, hfree, hlength, hslots⟩ := hholds.slots
  obtain rfl := List.eq_nil_of_length_eq_zero hlength
  have hsplit : sb.slots = front.map some ++ spare := by simpa using hslots
  have hspare : amount ≤ spare.length := by
    have hsize := hholds.room
    rw [hsplit, List.length_append, List.length_map] at hsize
    omega
  refine ⟨⟨spare.take amount, spare.drop amount, hfree.sublist (List.take_sublist _ _),
    hfree.sublist (List.drop_sublist _ _), ?_, ?_⟩, hholds.room, hholds.fits⟩
  · rw [List.length_take, Nat.min_eq_left hspare]
  · simpa using hsplit

/-- Without a gap in front of what is behind it, there is room for one after the items. -/
theorem Laid.slots_eq (hholds : Holds type sb (front ++ back))
    (hroom : (front ++ back).length + amount ≤ sb.size / type.itemSize) :
    ∃ hole spare, Free type hole ∧ Free type spare ∧ hole.length = amount ∧
      sb.slots = front.map some ++ back.map some ++ hole ++ spare := by
  obtain ⟨hole, spare, hhole, hspare, hlength, hslots⟩ := (Laid.opened hholds hroom).slots
  exact ⟨hole, spare, hhole, hspare, hlength, by simpa using hslots⟩

/-- How much memory `_grow` asks for, in items. -/
def grownCapacity (v : VectorImpl) (amount : Nat) : Nat :=
  max kMinVectorCapacity (((v.count + amount) * 3 + 1) / 2)

theorem le_grownCapacity (v : VectorImpl) (amount : Nat) :
    v.count + amount ≤ grownCapacity v amount := by
  unfold grownCapacity
  omega

/-- The new storage of a vector that grows. -/
theorem relocate_grown (hexact : Exact SharedBuffer.refs heap handles)
    (hi : handles[i]? = some v.storage) (hreads : Reads type heap v (front ++ back))
    (hfits : sizeofSharedBuffer + grownCapacity v amount * type.itemSize < 4294967296) :
    ∃ heap' a sb, relocate type heap v (grownCapacity v amount * type.itemSize)
        [(0, 0, front.length), (front.length + amount, front.length, back.length)] =
          some (heap', { v with storage := some a }) ∧
      Owned handles i heap heap' a sb ∧ Laid type sb front amount back ∧ cellAt heap a = none := by
  have hroom : front.length + amount + back.length ≤
      grownCapacity v amount * type.itemSize / type.itemSize := by
    rw [Nat.mul_div_cancel _ type.itemSize_pos]
    have hle := le_grownCapacity v amount
    rw [hreads.count, List.length_append] at hle
    omega
  have hreads' : Reads type heap v (front ++ [] ++ back) := by simpa using hreads
  have hrelocate := relocate_spec hexact hi hreads' hfits hroom
  rw [List.length_nil, Nat.add_zero] at hrelocate
  exact hrelocate

/-- A vector that has the room lets what is behind the gap move. -/
theorem exists_moveForward (hexact : Exact SharedBuffer.refs heap handles)
    (hi : handles[i]? = some v.storage) (hreads : Reads type heap v (front ++ back))
    (hpos : 0 < amount) (hstorage : v.storage = some a) (hcell : cellAt heap a = some sb)
    (hroom : v.count + amount ≤ sb.size / type.itemSize) :
    ∃ heap' b sb', ((editArrayImpl type heap v true).bind fun grown =>
        editStorage grown.1 grown.2 fun slots =>
          moveForward type slots (front.length + amount) front.length
            (grown.2.count - front.length)) = some (heap', { v with storage := some b }) ∧
      Owned handles i heap heap' b sb' ∧ Laid type sb' front amount back := by
  have hlt := (List.getElem?_eq_some_iff.mp hi).1
  obtain ⟨heap₁, b, sb₁, hedit, howned, hholds, hcapacity⟩ :=
    editArrayImpl_spec hexact hi hreads hstorage hcell
  have hrest : v.count - front.length = back.length := by
    rw [hreads.count, List.length_append, Nat.add_sub_cancel_left]
  rw [← hcapacity, hreads.count] at hroom
  obtain ⟨hole, spare, hhole, hspare, rfl, hslots⟩ := hholds.slots_eq hroom
  obtain ⟨gap, hgap, hlength, hmove⟩ :=
    @moveForward_eq α type (front.map some) spare hole back hpos hhole
  rw [← hslots, List.length_map] at hmove
  obtain ⟨heap', hwrite, howned'⟩ := howned.edit hlt
    (fun slots => moveForward type slots (front.length + hole.length) front.length back.length)
    hmove
  refine ⟨heap', b, _, ?_, howned', ⟨gap, spare, hgap, hspare, hlength, rfl⟩, ?_, hholds.fits⟩
  · rw [hedit, Option.bind_some]
    unfold editStorage
    simp only [Option.bind_some, hrest, hwrite, Option.map_some]
  · have hroom' := hholds.room
    rw [hslots] at hroom'
    simp only [List.length_append, List.length_map] at hroom' ⊢
    omega

/-- `_grow` opens a gap, in a buffer of the vector's own. Where the gap is at the end and there is
room for it, that buffer must be the vector's own before; where there is no room the buffer is a new
one. -/
theorem grow_spec (hexact : Exact SharedBuffer.refs heap handles)
    (hi : handles[i]? = some v.storage) (hreads : Reads type heap v (front ++ back))
    (hpos : 0 < amount) (hcount : (v.count + amount) * 3 + 1 < 4294967296)
    (hfits : sizeofSharedBuffer + grownCapacity v amount * type.itemSize < 4294967296)
    (hsole : back = [] → ∀ a sb, v.storage = some a → cellAt heap a = some sb →
      v.count + amount ≤ sb.size / type.itemSize → sb.refs = 1) :
    ∃ heap' a sb, grow type heap v front.length amount true =
        some (heap', ⟨some a, v.count + amount⟩) ∧
      Owned handles i heap heap' a sb ∧ Laid type sb front amount back ∧
      ∀ old sbOld, v.storage = some old → cellAt heap old = some sbOld →
        sbOld.size / type.itemSize < v.count + amount → cellAt heap a = none := by
  have hlength : v.count = front.length + back.length := by
    rw [hreads.count, List.length_append]
  have hstart : (if front.length > v.count then v.count else front.length) = front.length :=
    if_neg (by omega)
  have hrest : v.count - front.length = back.length := by omega
  have hnew : sizeT (v.count + amount) = v.count + amount := sizeT_of_lt (by omega)
  have hgrown : max kMinVectorCapacity (sizeT ((v.count + amount) * 3 + 1) / 2) =
      grownCapacity v amount := by
    rw [sizeT_of_lt hcount]
    rfl
  have hrequest : sizeT (grownCapacity v amount * type.itemSize) =
      grownCapacity v amount * type.itemSize := sizeT_of_lt (by omega)
  unfold grow
  simp only [hstart, hrest, hnew, hgrown]
  cases hstorage : v.storage with
  | none =>
      obtain ⟨heap', a, sb, hrelocate, howned, hlaid, hfresh⟩ :=
        relocate_grown hexact hi hreads hfits
      refine ⟨heap', a, sb, ?_, howned, hlaid, fun _ _ _ _ _ => hfresh⟩
      unfold capacity
      simp only [hstorage, Option.bind_some, hrequest, hrelocate, if_true]
      rw [if_pos (by omega)]
      rfl
  | some a =>
      obtain ⟨sb, hcell, hholds⟩ := hreads.held a hstorage
      have hcapacity : capacity type heap v = some (sb.size / type.itemSize) := by
        unfold capacity
        simp only [hstorage, hcell, Option.map_some]
      rw [hcapacity]
      simp only [Option.bind_some]
      by_cases hfull : sb.size / type.itemSize < v.count + amount
      · rw [if_pos hfull]
        by_cases hplain : v.count = front.length ∧ type.hasTrivialCopy = true ∧
            type.hasTrivialDtor = true
        · obtain rfl : back = [] := List.eq_nil_of_length_eq_zero (by omega)
          have hle := le_grownCapacity v amount
          obtain ⟨heap', b, sb', hresize, howned, hsize, hholds', hfresh⟩ :=
            resizeStorage_spec hplain.2.2 hexact hi hreads hstorage hcell hfits (by omega)
          refine ⟨heap', b, sb', ?_, howned, hholds'.opened ?_, fun _ _ _ _ _ => hfresh ?_⟩
          · rw [if_pos hplain, hresize]
            rfl
          · rw [hsize, Nat.mul_div_cancel _ type.itemSize_pos]
            omega
          · intro hsame
            rw [hsame, Nat.mul_div_cancel _ type.itemSize_pos] at hfull
            omega
        · obtain ⟨heap', b, sb', hrelocate, howned, hlaid, hfresh⟩ :=
            relocate_grown hexact hi hreads hfits
          refine ⟨heap', b, sb', ?_, howned, hlaid, fun _ _ _ _ _ => hfresh⟩
          rw [if_neg hplain, if_pos trivial, hrequest, hrelocate]
          rfl
      · rw [if_neg hfull]
        have hnotFull : ∀ old sbOld, some a = some old → cellAt heap old = some sbOld →
            ¬ sbOld.size / type.itemSize < v.count + amount := by
          intro old sbOld hold hcellOld
          obtain rfl := Option.some.inj hold
          obtain rfl := Option.some.inj (hcell.symm.trans hcellOld)
          exact hfull
        by_cases hbehind : front.length < v.count
        · obtain ⟨heap', b, sb', hmove, howned, hlaid⟩ :=
            exists_moveForward hexact hi hreads hpos hstorage hcell (not_lt.mp hfull)
          refine ⟨heap', b, sb', ?_, howned, hlaid,
            fun old sbOld hold hcellOld hless => absurd hless (hnotFull old sbOld hold hcellOld)⟩
          rw [if_pos hbehind, hmove]
          rfl
        · obtain rfl : back = [] := List.eq_nil_of_length_eq_zero (by omega)
          rw [hstorage] at hi
          rw [List.append_nil] at hholds
          refine ⟨heap, a, sb, ?_, owned_of_sole hexact hi hcell
            (hsole rfl a sb hstorage hcell (not_lt.mp hfull)), hholds.opened (by omega),
            fun old sbOld hold hcellOld hless => absurd hless (hnotFull old sbOld hold hcellOld)⟩
          rw [if_neg hbehind, ← hstorage]
          rfl

/-- Vector `i` has become `v'`, reads as `xs`, and nobody else notices. -/
structure Becomes (type : ItemType α) (handles : List (Option Nat)) (i : Nat) (heap heap' : Heap α)
    (v' : VectorImpl) (xs : List α) : Prop where
  exact : Exact SharedBuffer.refs heap' (handles.set i v'.storage)
  frame : Frame handles i heap heap'
  reads : Reads type heap' v' xs

theorem Owned.becomes {n : Nat} (howned : Owned handles i heap heap' a sb) (hholds : Holds type sb xs)
    (hcount : n = xs.length) : Becomes type handles i heap heap' ⟨some a, n⟩ xs := by
  refine ⟨howned.exact, howned.frame, hcount, by simp, fun b hb => ?_⟩
  obtain rfl : a = b := Option.some.inj hb
  exact ⟨sb, howned.cell, hholds⟩

theorem becomes_self (hexact : Exact SharedBuffer.refs heap handles)
    (hi : handles[i]? = some v.storage) (hreads : Reads type heap v xs) :
    Becomes type handles i heap heap v xs := by
  obtain ⟨hlt, hget⟩ := List.getElem?_eq_some_iff.mp hi
  refine ⟨?_, frame_refl handles i heap, hreads⟩
  rw [← hget, List.set_getElem_self]
  exact hexact

/-- Items are destroyed where they are, and those behind them move up. -/
theorem exists_moveBackward (hexact : Exact SharedBuffer.refs heap handles)
    (hi : handles[i]? = some v.storage) (hreads : Reads type heap v (front ++ mid ++ back))
    (hmid : back ≠ [] → 0 < mid.length) (hstorage : v.storage = some a)
    (hcell : cellAt heap a = some sb) :
    ∃ heap' b sb', ((editArrayImpl type heap v true).bind fun shrunk =>
        editStorage shrunk.1 shrunk.2 fun slots =>
          (doDestroy type slots front.length mid.length).bind fun slots =>
            moveBackward type slots front.length (front.length + mid.length)
              (shrunk.2.count - (front.length + mid.length))) =
                some (heap', { v with storage := some b }) ∧
      Owned handles i heap heap' b sb' ∧ Holds type sb' (front ++ back) := by
  have hlt := (List.getElem?_eq_some_iff.mp hi).1
  obtain ⟨heap₁, b, sb₁, hedit, howned, hholds, hcapacity⟩ :=
    editArrayImpl_spec hexact hi hreads hstorage hcell
  have hrest : v.count - (front.length + mid.length) = back.length := by
    rw [hreads.count, List.length_append, List.length_append, Nat.add_sub_cancel_left]
  obtain ⟨hole, spare, -, hspare, hlength, hslots⟩ := hholds.slots
  obtain rfl := List.eq_nil_of_length_eq_zero hlength
  have hsplit : sb₁.slots =
      front.map some ++ mid.map some ++ (back.map some ++ spare) := by simpa using hslots
  obtain ⟨gap, hgap, hgaplength, hdestroy⟩ :=
    @doDestroy_eq α type (front.map some) (back.map some ++ spare) mid
  rw [← hsplit, List.length_map] at hdestroy
  obtain ⟨gap', hgap', hgaplength', hmove⟩ :=
    @moveBackward_eq α type (front.map some) spare gap back
      (fun hback => by rw [hgaplength]; exact hmid hback) hgap
  rw [List.length_map, hgaplength, List.append_assoc _ (back.map some)] at hmove
  have hchange : ((doDestroy type sb₁.slots front.length mid.length).bind fun slots =>
      moveBackward type slots front.length (front.length + mid.length) back.length) =
        some (front.map some ++ back.map some ++ gap' ++ spare) := by
    rw [hdestroy, Option.bind_some, hmove]
  obtain ⟨heap', hwrite, howned'⟩ := howned.edit hlt
    (fun slots => (doDestroy type slots front.length mid.length).bind fun slots =>
      moveBackward type slots front.length (front.length + mid.length) back.length) hchange
  refine ⟨heap', b, _, ?_, howned', ⟨[], gap' ++ spare, free_nil, free_append.mpr ⟨hgap', hspare⟩,
    rfl, ?_⟩, ?_, hholds.fits⟩
  · rw [hedit, Option.bind_some]
    unfold editStorage
    simp only [Option.bind_some, hrest, hwrite, Option.map_some]
  · simp
  · have hroom := hholds.room
    rw [hsplit] at hroom
    simp only [List.length_append, List.length_map] at hroom ⊢
    omega

/-- `_shrink` closes the gap that items leave. -/
theorem shrink_spec (hexact : Exact SharedBuffer.refs heap handles)
    (hi : handles[i]? = some v.storage) (hreads : Reads type heap v (front ++ mid ++ back))
    (hmid : back ≠ [] → 0 < mid.length) (hcount : (front ++ back).length * 3 < 4294967296)
    (hfits : sizeofSharedBuffer + kMinVectorCapacity * type.itemSize < 4294967296) :
    ∃ heap' v', shrink type heap v front.length mid.length true = some (heap', v') ∧
      Becomes type handles i heap heap' v' (front ++ back) := by
  cases hstorage : v.storage with
  | none =>
      have hempty := hreads.empty hstorage
      rw [List.append_eq_nil_iff, List.append_eq_nil_iff] at hempty
      obtain ⟨⟨rfl, rfl⟩, rfl⟩ := hempty
      refine ⟨heap, v, ?_, becomes_self hexact hi hreads⟩
      unfold shrink
      rw [hstorage]
  | some a =>
      obtain ⟨sb, hcell, hholds⟩ := hreads.held a hstorage
      have hlength : v.count = front.length + mid.length + back.length := by
        rw [hreads.count, List.length_append, List.length_append]
      have hle : v.count ≤ sb.size := by
        have hle := hholds.length_le
        rw [← hreads.count] at hle
        exact le_trans hle (Nat.div_le_self _ _)
      have hsize := hholds.fits
      have hnew : sizeT (v.count + 4294967296 - mid.length) = (front ++ back).length := by
        rw [List.length_append, hlength, sizeT]
        omega
      have hstart : (if front.length ≥ v.count then (front ++ back).length else front.length) =
          front.length := by
        rw [List.length_append]
        split_ifs <;> omega
      have hrest : v.count - (front.length + mid.length) = back.length := by omega
      have hcapacity : capacity type heap v = some (sb.size / type.itemSize) := by
        unfold capacity
        simp only [hstorage, hcell, Option.map_some]
      unfold shrink
      simp only [hstorage, hnew, hcapacity, hstart, Option.bind_some, sizeT_of_lt hcount, hrest,
        sizeT_of_lt (show (front ++ back).length * 2 < 4294967296 by omega)]
      generalize hkept : max kMinVectorCapacity ((front ++ back).length * 2) = kept
      by_cases hsparse : (front ++ back).length * 3 < sb.size / type.itemSize
      · have hfit : sizeofSharedBuffer + kept * type.itemSize < 4294967296 := by
          have hbytes : sb.size / type.itemSize * type.itemSize ≤ sb.size := Nat.div_mul_le_self _ _
          rcases Nat.le_total ((front ++ back).length * 2) kMinVectorCapacity with hmax | hmax
          · rw [← hkept, Nat.max_eq_left hmax]
            exact hfits
          · rw [Nat.max_eq_right hmax] at hkept
            have hmul := Nat.mul_le_mul_right type.itemSize
              (show kept ≤ sb.size / type.itemSize by omega)
            omega
        have hroom : (front ++ back).length ≤ kept := by
          rw [← hkept]
          omega
        rw [if_pos hsparse]
        by_cases hplain : front.length = (front ++ back).length ∧ type.hasTrivialCopy = true ∧
            type.hasTrivialDtor = true
        · obtain rfl : back = [] := by
            rw [List.length_append] at hplain
            exact List.eq_nil_of_length_eq_zero (by omega)
          rw [List.append_nil] at hreads hroom ⊢
          obtain ⟨heap', b, sb', hresize, howned, -, hholds', -⟩ :=
            resizeStorage_spec hplain.2.2 hexact hi hreads hstorage hcell hfit hroom
          refine ⟨heap', ⟨some b, front.length⟩, ?_, howned.becomes hholds' rfl⟩
          rw [List.append_nil] at hplain
          rw [if_pos hplain, hresize]
          rfl
        · have hroom' : front.length + 0 + back.length ≤ kept * type.itemSize / type.itemSize := by
            rw [Nat.mul_div_cancel _ type.itemSize_pos]
            rw [List.length_append] at hroom
            omega
          obtain ⟨heap', b, sb', hrelocate, howned, hlaid, -⟩ :=
            relocate_spec hexact hi hreads hfit hroom'
          refine ⟨heap', ⟨some b, (front ++ back).length⟩, ?_, howned.becomes hlaid.holds rfl⟩
          rw [Nat.add_zero] at hrelocate
          rw [if_neg hplain, if_pos trivial, sizeT_of_lt (by omega), hrelocate]
          rfl
      · obtain ⟨heap', b, sb', hmove, howned, hholds'⟩ :=
          exists_moveBackward hexact hi hreads hmid hstorage hcell
        refine ⟨heap', ⟨some b, (front ++ back).length⟩, ?_, howned.becomes hholds' rfl⟩
        rw [if_neg hsparse, hmove]
        rfl

end SensorMouse.Proof
