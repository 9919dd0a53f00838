import SensorMouse.Proof.VectorValues

/-!
# Items added behind the others

Two of the conditions that the source relies on it could have seen to itself. `_grow` gives a vector its
own buffer when it needs a larger one and when items have to move, but not when items are added behind
the others and the shared buffer has the room. And it gives the old buffer up before the item that is
added is copied, which may lie in it.
-/

namespace SensorMouse.Proof

open Lib Lib.Counted Frameworks SharedBuffer VectorImpl

variable {α : Type} {type : ItemType α} {heap : Heap α} {i j a : Nat} {v : VectorImpl}
  {sb : SharedBuffer α} {xs : List α} {s : Vectors α} {contents : List (List α)}

/-! ### Items that are added in place -/

section

variable {spare : List (Option α)} {old : Option α} {item : Item α} {x : α}

/-- With room behind the items an item is added in place, whoever else refers to the buffer. -/
theorem insertAt_in_place (hstorage : v.storage = some a) (hcell : cellAt heap a = some sb)
    (hroom : v.count < sb.size / type.itemSize) (hfits : v.count + 1 < 4294967296)
    (item : Option (Item α)) :
    insertAt type heap v item v.count 1 true =
      (fill type heap a v.count 1 item).map
        fun heap => (heap, { v with count := v.count + 1 }, (v.count : Int)) := by
  have hcapacity : capacity type heap v = some (sb.size / type.itemSize) := by
    unfold capacity
    simp only [hstorage, hcell, Option.map_some]
  have hgrow : grow type heap v v.count 1 true = some (heap, { v with count := v.count + 1 }) := by
    unfold grow
    rw [hcapacity, sizeT_of_lt hfits]
    simp only [Option.bind_some, if_neg (not_lt.mpr (Nat.succ_le_of_lt hroom)), lt_irrefl,
      if_false, Option.map_some]
  unfold insertAt
  rw [if_neg (by omega), hgrow, Option.bind_some]
  simp only [hstorage]

theorem fill_of_read (hread : item.read heap = some (some x)) (a position : Nat) :
    fill type heap a position 1 (some item) =
      editSlots heap a fun slots => copyItems type slots position [some x] := by
  simp only [fill, hread, Option.bind_some, Nat.one_ne_zero, if_false, List.replicate_one]

theorem insertAt_over_free (hread : item.read heap = some (some x)) (hstorage : v.storage = some a)
    (hcell : cellAt heap a = some sb) (hslots : sb.slots = xs.map some ++ old :: spare)
    (hcount : v.count = xs.length) (hroom : v.count < sb.size / type.itemSize)
    (hfits : v.count + 1 < 4294967296) (hfree : Free type [old]) :
    insertAt type heap v (some item) v.count 1 true =
      some (heap.set a (some { sb with slots := xs.map some ++ some x :: spare }),
        { v with count := v.count + 1 }, (v.count : Int)) := by
  have hcopy := @copyItems_of_free α type (xs.map some) spare [old] [x] hfree rfl
  rw [List.length_map, ← hcount, List.append_assoc, List.append_assoc] at hcopy
  rw [insertAt_in_place hstorage hcell hroom hfits, fill_of_read hread]
  unfold editSlots
  rw [hcell, Option.bind_some, hslots]
  exact congrArg _ (congrArg _ hcopy)

theorem insertAt_over_item (hread : item.read heap = some (some x))
    (hdtor : type.hasTrivialDtor = false) (hstorage : v.storage = some a)
    (hcell : cellAt heap a = some sb) {there : α}
    (hslots : sb.slots = xs.map some ++ some there :: spare) (hcount : v.count = xs.length)
    (hroom : v.count < sb.size / type.itemSize) (hfits : v.count + 1 < 4294967296) :
    insertAt type heap v (some item) v.count 1 true = none := by
  have hconstruct : constructAt type sb.slots v.count (some x) = none := by
    have hthere := getElem?_length_left (xs.map some) spare (some there)
    rw [List.length_map, ← hcount, ← hslots] at hthere
    unfold constructAt
    rw [hthere, hdtor]
    simp
  have hcopy : copyItems type sb.slots v.count [some x] = none := by
    rw [copyItems, if_neg (by simp), hconstruct]
    rfl
  rw [insertAt_in_place hstorage hcell hroom hfits, fill_of_read hread]
  unfold editSlots
  rw [hcell, Option.bind_some]
  exact congrArg _ (congrArg _ hcopy)

/-- The vector with the item in its next slot. -/
theorem reads_appended (hholds : Holds type sb xs) (hcell : cellAt heap a = some sb)
    (hstorage : v.storage = some a) (hcount : v.count = xs.length)
    (hslots : sb.slots = xs.map some ++ old :: spare) (hspare : Free type spare) (x : α) :
    Reads type (heap.set a (some { sb with slots := xs.map some ++ some x :: spare }))
      { v with count := v.count + 1 } (xs ++ [x]) := by
  refine ⟨by rw [List.length_append, List.length_singleton, ← hcount], fun hnone => ?_, fun b hb => ?_⟩
  · exact absurd (hstorage.symm.trans hnone) (by simp)
  · obtain rfl : a = b := Option.some.inj (hstorage.symm.trans hb)
    refine ⟨_, cellAt_set_self (lt_length_of_cellAt hcell) _,
      ⟨[], spare, free_nil, hspare, rfl, by simp⟩, ?_, hholds.fits⟩
    have hsize := hholds.room
    rw [hslots] at hsize
    simpa using hsize

/-- The slot behind the items. -/
theorem Laid.next_slot (hholds : Holds type sb xs) (hcount : v.count = xs.length)
    (hroom : v.count < sb.size / type.itemSize) :
    ∃ slot spare, sb.slots = xs.map some ++ slot :: spare ∧ Free type [slot] ∧ Free type spare := by
  obtain ⟨hole, spare, hhole, hspare, hone, hslots⟩ :=
    (hholds.opened (by rw [← hcount]; omega : xs.length + 1 ≤ _)).slots
  obtain ⟨slot, rfl⟩ := List.length_eq_one_iff.mp hone
  exact ⟨slot, spare, by simpa using hslots, hhole, hspare⟩

end

/-! ### The missing copy -/

/-- **The missing copy.** Two vectors share a buffer with room for one more item, and each adds one.
Items that are destroyed do not survive the second: it is constructed over the first. Of the others the
first vector loses the one it added and has the second's instead. -/
theorem shared_append (hrefines : Refines type s contents) (hij : i ≠ j)
    (hi : s.vectors[i]? = some v) (hj : s.vectors[j]? = some v) (hxs : contents[i]? = some xs)
    (hstorage : v.storage = some a) (hcell : cellAt s.heap a = some sb)
    (hroom : v.count < sb.size / type.itemSize) (first second : α) :
    if type.hasTrivialDtor = true then
      ∃ next v', run (Vectors.step type) s [.insertAt i (some (.value first)) v.count 1 true,
          .insertAt j (some (.value second)) v.count 1 true] = some next ∧
        next.vectors[i]? = some v' ∧ next.vectors[j]? = some v' ∧
        Reads type next.heap v' (xs ++ [second])
    else
      run (Vectors.step type) s [.insertAt i (some (.value first)) v.count 1 true,
        .insertAt j (some (.value second)) v.count 1 true] = none := by
  have hreads := hrefines.reads i v xs hi hxs
  have hcount := hreads.count
  have hilt := (List.getElem?_eq_some_iff.mp hi).1
  have hjlt := (List.getElem?_eq_some_iff.mp hj).1
  have hlt := lt_length_of_cellAt hcell
  obtain ⟨sb₀, hcell₀, hholds⟩ := hreads.held a hstorage
  obtain rfl : sb = sb₀ := Option.some.inj (hcell.symm.trans hcell₀)
  have hfits : v.count + 1 < 4294967296 := by
    have hsize := hholds.fits
    have hdiv := Nat.div_le_self sb.size type.itemSize
    omega
  obtain ⟨slot, spare, hslots, hslot, hspare⟩ := hholds.next_slot hcount hroom
  have hread : ∀ (heap : Heap α) (x : α), (Item.value x).read heap = some (some x) := fun _ _ => rfl
  have hfirst :=
    insertAt_over_free (hread s.heap first) hstorage hcell hslots hcount hroom hfits hslot
  have hadded := reads_appended hholds hcell hstorage hcount hslots hspare first
  have hcell₁ : cellAt (s.heap.set a (some { sb with slots := xs.map some ++ some first :: spare })) a =
      some { sb with slots := xs.map some ++ some first :: spare } := cellAt_set_self hlt _
  have hj₁ : (s.vectors.set i { v with count := v.count + 1 })[j]? = some v := by
    rw [List.getElem?_set_ne hij]
    exact hj
  have hrun : run (Vectors.step type) s [.insertAt i (some (.value first)) v.count 1 true,
      .insertAt j (some (.value second)) v.count 1 true] =
        (insertAt type (s.heap.set a (some { sb with slots := xs.map some ++ some first :: spare })) v
          (some (.value second)) v.count 1 true).map fun left =>
            ⟨left.1, (s.vectors.set i { v with count := v.count + 1 }).set j left.2.1⟩ := by
    simp only [run_cons, run_nil, Vectors.step, Vectors.argument, Vectors.pointer, hi,
      Option.bind_some, hfirst, Option.map_some, Vectors.putResult, Vectors.put, hj₁,
      Option.bind_fun_some]
    rfl
  rw [hrun]
  split_ifs with hdtor
  · obtain ⟨sb₁, hsame, hlonger⟩ := hadded.held a hstorage
    obtain rfl := Option.some.inj (hcell₁.symm.trans hsame)
    have hforgotten := Laid.forget hdtor hlonger
    rw [insertAt_over_free (hread _ second) hstorage hcell₁ rfl hcount hroom hfits
      (free_of_trivial hdtor _)]
    refine ⟨_, { v with count := v.count + 1 }, rfl, ?_, ?_,
      reads_appended hforgotten hcell₁ hstorage hcount rfl hspare second⟩
    · rw [List.getElem?_set_ne (Ne.symm hij), List.getElem?_set_self hilt]
    · rw [List.getElem?_set_self (by rw [List.length_set]; exact hjlt)]
  · exact Option.map_eq_none_iff.mpr (insertAt_over_item (hread _ second)
      (Bool.eq_false_iff.mpr hdtor) hstorage hcell₁ rfl hcount hroom hfits)

/-- Items without a destructor. -/
def intType : ItemType Nat := ⟨4, Nat.succ_pos 3, true, true, true, 0⟩

/-- Two vectors share a buffer of three items with room for two more, and each adds one: strings do not
survive it, and of the numbers only the second is left. -/
theorem shared_append_copied :
    (∃ (s : Vectors String) (contents : List (List String)) (v : VectorImpl)
        (sb : SharedBuffer String),
      Refines stringType s contents ∧ s.vectors[0]? = some v ∧ s.vectors[1]? = some v ∧
        contents[0]? = some ["a", "a", "a"] ∧ v.storage = some 0 ∧ cellAt s.heap 0 = some sb ∧
        v.count < sb.size / stringType.itemSize ∧
        run (Vectors.step stringType) s [.insertAt 0 (some (.value "b")) v.count 1 true,
          .insertAt 1 (some (.value "c")) v.count 1 true] = none) ∧
    ∃ (s next : Vectors Nat) (contents : List (List Nat)) (v v' : VectorImpl) (sb : SharedBuffer Nat),
      Refines intType s contents ∧ s.vectors[0]? = some v ∧ s.vectors[1]? = some v ∧
        contents[0]? = some [1, 1, 1] ∧ v.storage = some 0 ∧ cellAt s.heap 0 = some sb ∧
        v.count < sb.size / intType.itemSize ∧
        run (Vectors.step intType) s [.insertAt 0 (some (.value 2)) v.count 1 true,
          .insertAt 1 (some (.value 3)) v.count 1 true] = some next ∧
        next.vectors[0]? = some v' ∧ next.vectors[1]? = some v' ∧
        Reads intType next.heap v' [1, 1, 1, 3] := by
  constructor
  · have hsafe : StepsAlong (Vectors.step stringType) (Safe stringType) {}
        [.create, .insertAt 0 (some (.value "a")) 0 3 true, .copied 0] := by decide
    obtain ⟨s, hrun, hrefines⟩ := exists_run_of_steps (Refines stringType) hsafe
      (refines_nil stringType) fun _ _ _ hrefines hop => refines_step hrefines hop
    obtain rfl : s = ⟨[some ⟨2, 20, [some "a", some "a", some "a", none, none]⟩],
        [⟨some 0, 3⟩, ⟨some 0, 3⟩]⟩ := Option.some.inj (hrun.symm.trans (by decide))
    exact ⟨_, _, ⟨some 0, 3⟩, _, hrefines, rfl, rfl, rfl, rfl, rfl, by decide,
      shared_append hrefines (by decide : 0 ≠ 1) rfl rfl rfl rfl rfl (by decide) "b" "c"⟩
  · have hsafe : StepsAlong (Vectors.step intType) (Safe intType) {}
        [.create, .insertAt 0 (some (.value 1)) 0 3 true, .copied 0] := by decide
    obtain ⟨s, hrun, hrefines⟩ := exists_run_of_steps (Refines intType) hsafe
      (refines_nil intType) fun _ _ _ hrefines hop => refines_step hrefines hop
    obtain rfl : s = ⟨[some ⟨2, 20, [some 1, some 1, some 1, none, none]⟩],
        [⟨some 0, 3⟩, ⟨some 0, 3⟩]⟩ := Option.some.inj (hrun.symm.trans (by decide))
    obtain ⟨next, v', hnext, hzero, hone, hlost⟩ :=
      shared_append hrefines (by decide : 0 ≠ 1) rfl rfl rfl rfl rfl (by decide) 2 3
    exact ⟨_, next, _, ⟨some 0, 3⟩, v', _, hrefines, rfl, rfl, rfl, rfl, rfl, by decide, hnext, hzero,
      hone, hlost⟩

/-! ### The item that is lost -/

end SensorMouse.Proof
