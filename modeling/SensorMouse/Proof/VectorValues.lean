import SensorMouse.Lib.Run
import SensorMouse.Proof.VectorGrowth

/-!
# Vectors are values

Vectors that share a buffer are meant to look like vectors that do not: each has its own list of items,
an operation changes the list of one vector, and a copy is a list of its own from then on. This is so
in every run whose steps keep to what the source silently relies on.
-/

namespace SensorMouse.Proof

open Lib Lib.Counted Frameworks SharedBuffer VectorImpl

variable {α : Type} {type : ItemType α} {heap heap' : Heap α} {handles : List (Option Nat)}
  {i j a : Nat} {v vector : VectorImpl} {sb : SharedBuffer α} {front back xs ys items : List α}

/-! ### What an operation needs -/

/-- `amount` items can be inserted at `index`. -/
def Growable (type : ItemType α) (heap : Heap α) (v : VectorImpl) (index amount : Nat) : Prop :=
  (amount = 0 ∧ index = v.count) ∨
    (0 < amount ∧ (v.count + amount) * 3 + 1 < 4294967296 ∧
      sizeofSharedBuffer + grownCapacity v amount * type.itemSize < 4294967296 ∧
      (index = v.count → ∀ a ∈ v.storage, ∀ sb ∈ cellAt heap a,
        v.count + amount ≤ sb.size / type.itemSize → sb.refs = 1))

instance (type : ItemType α) (heap : Heap α) (v : VectorImpl) (index amount : Nat) :
    Decidable (Growable type heap v index amount) :=
  inferInstanceAs (Decidable (_ ∨ _))

/-- `amount` items can be removed at `index`. -/
def Shrinkable (type : ItemType α) (v : VectorImpl) (index amount : Nat) : Prop :=
  (index + amount < v.count → 0 < amount) ∧ (v.count - amount) * 3 < 4294967296 ∧
    sizeofSharedBuffer + kMinVectorCapacity * type.itemSize < 4294967296

instance (type : ItemType α) (v : VectorImpl) (index amount : Nat) :
    Decidable (Shrinkable type v index amount) :=
  inferInstanceAs (Decidable (_ ∧ _))

/-- What fills a new slot of vector `i` can be read when it is needed: there is a constructor to make
it, or the item lies in no storage that the vector could give up or change under it. -/
def Fillable (type : ItemType α) (s : Vectors α) (i : Nat) : Option (Vectors.Source α) → Prop
  | none => type.hasTrivialCtor = false
  | some (.value _) => True
  | some (.itemOf j k) => j < s.vectors.length ∧ ∀ w ∈ s.vectors[j]?, k < w.count ∧
      (i = j → ∀ a ∈ w.storage, ∀ sb ∈ cellAt s.heap a, sb.refs ≠ 1)

instance (type : ItemType α) (s : Vectors α) (i : Nat) :
    (source : Option (Vectors.Source α)) → Decidable (Fillable type s i source)
  | none => inferInstanceAs (Decidable (_ = _))
  | some (.value _) => isTrue trivial
  | some (.itemOf _ _) => inferInstanceAs (Decidable (_ ∧ _))

/-- What the source relies on: the vectors exist, there is memory, sizes fit their types, nothing of no
length is inserted or removed in front of items, no vector is inserted into itself, what is replaced is
there, default items are put in only where a constructor makes them, no item is passed out of storage
that the changed vector alone refers to, and a vector that adds behind its items in a buffer that has
the room is the only one that refers to it. -/
def Safe (type : ItemType α) (s : Vectors α) : Vectors.Op α → Prop
  | .create => True
  | .copied j => j < s.vectors.length
  | .assign i j => i < s.vectors.length ∧ j < s.vectors.length
  | .insertAt i item index num granted =>
      i < s.vectors.length ∧ granted = true ∧ Fillable type s i item ∧
        ∀ v ∈ s.vectors[i]?, index ≤ v.count → Growable type s.heap v index num
  | .insertVectorAt i j index granted =>
      i < s.vectors.length ∧ j < s.vectors.length ∧ i ≠ j ∧ granted = true ∧
        ∀ v ∈ s.vectors[i]?, ∀ vector ∈ s.vectors[j]?, index ≤ v.count →
          Growable type s.heap v index vector.count
  | .replaceAt i prototype index granted =>
      i < s.vectors.length ∧ granted = true ∧ Fillable type s i prototype ∧
        ∀ v ∈ s.vectors[i]?, index < v.count
  | .removeItemsAt i index count granted =>
      i < s.vectors.length ∧ granted = true ∧ index + count < 4294967296 ∧
        ∀ v ∈ s.vectors[i]?, index + count ≤ v.count → Shrinkable type v index count
  | .clear i granted =>
      i < s.vectors.length ∧ granted = true ∧
        sizeofSharedBuffer + kMinVectorCapacity * type.itemSize < 4294967296
  | .setCapacity i newCapacity _ =>
      i < s.vectors.length ∧ ∀ v ∈ s.vectors[i]?,
        v.count ≤ newCapacity + 2147483648 ∧ (v.count < newCapacity →
          sizeofSharedBuffer + newCapacity * type.itemSize < 4294967296)
  | .finish i => i < s.vectors.length

instance (type : ItemType α) (s : Vectors α) : (op : Vectors.Op α) → Decidable (Safe type s op)
  | .create => inferInstanceAs (Decidable True)
  | .copied _ => inferInstanceAs (Decidable (_ < _))
  | .assign _ _ => inferInstanceAs (Decidable (_ ∧ _))
  | .insertAt _ _ _ _ _ => inferInstanceAs (Decidable (_ ∧ _))
  | .insertVectorAt _ _ _ _ => inferInstanceAs (Decidable (_ ∧ _))
  | .replaceAt _ _ _ _ => inferInstanceAs (Decidable (_ ∧ _))
  | .removeItemsAt _ _ _ _ => inferInstanceAs (Decidable (_ ∧ _))
  | .clear _ _ => inferInstanceAs (Decidable (_ ∧ _))
  | .setCapacity _ _ _ => inferInstanceAs (Decidable (_ ∧ _))
  | .finish _ => inferInstanceAs (Decidable (_ < _))

/-! ### Vectors as lists -/

/-- The item that is passed, among the lists. -/
def passed (type : ItemType α) (contents : List (List α)) : Option (Vectors.Source α) → α
  | none => type.made
  | some (.value item) => item
  | some (.itemOf j k) => (contents.getD j [])[k]?.getD type.made

/-- What an operation does to the lists. -/
def applied (type : ItemType α) (contents : List (List α)) : Vectors.Op α → List (List α)
  | .create => contents ++ [[]]
  | .copied j => contents ++ [contents.getD j []]
  | .assign i j => contents.set i (contents.getD j [])
  | .insertAt i item index num _ => contents.modify i fun xs =>
      if index ≤ xs.length then
        xs.take index ++ List.replicate num (passed type contents item) ++ xs.drop index
      else xs
  | .insertVectorAt i j index _ => contents.modify i fun xs =>
      if index ≤ xs.length then xs.take index ++ contents.getD j [] ++ xs.drop index else xs
  | .replaceAt i prototype index _ => contents.modify i fun xs =>
      xs.set index (passed type contents prototype)
  | .removeItemsAt i index count _ => contents.modify i fun xs =>
      if index + count ≤ xs.length then xs.take index ++ xs.drop (index + count) else xs
  | .clear i _ => contents.set i []
  | .setCapacity _ _ _ => contents
  | .finish i => contents.set i []

/-- Every vector reads as its own list, and every buffer is there exactly while a vector refers to it
and counts the vectors that do. -/
structure Refines (type : ItemType α) (s : Vectors α) (contents : List (List α)) : Prop where
  exact : Exact SharedBuffer.refs s.heap (s.vectors.map VectorImpl.storage)
  length : contents.length = s.vectors.length
  reads : ∀ (j : Nat) (v : VectorImpl) (xs : List α), s.vectors[j]? = some v →
    contents[j]? = some xs → Reads type s.heap v xs

variable {s : Vectors α} {contents : List (List α)}

theorem refines_nil (type : ItemType α) : Refines type {} [] :=
  ⟨exact_nil, rfl, fun _ _ _ hv _ => by simp at hv⟩

theorem Refines.handle (hs : s.vectors[i]? = some v) :
    (s.vectors.map VectorImpl.storage)[i]? = some v.storage := by
  rw [List.getElem?_map, hs]
  rfl

theorem Refines.exists_of_lt (hrefines : Refines type s contents) (hlt : i < s.vectors.length) :
    ∃ v xs, s.vectors[i]? = some v ∧ contents[i]? = some xs ∧ Reads type s.heap v xs := by
  have hv := List.getElem?_eq_getElem hlt
  have hxs := List.getElem?_eq_getElem (hrefines.length ▸ hlt : i < contents.length)
  exact ⟨_, _, hv, hxs, hrefines.reads i _ _ hv hxs⟩

/-- What one vector has become is all that has changed. -/
theorem Refines.put {v' : VectorImpl} (hrefines : Refines type s contents)
    (hbecomes : Becomes type (s.vectors.map VectorImpl.storage) i s.heap heap' v' xs)
    (hlt : i < s.vectors.length) : Refines type (s.put i (heap', v')) (contents.set i xs) := by
  refine ⟨?_, ?_, ?_⟩
  · have hexact := hbecomes.exact
    rw [← List.map_set] at hexact
    exact hexact
  · show (contents.set i xs).length = (s.vectors.set i v').length
    rw [List.length_set, List.length_set, hrefines.length]
  · intro j w zs hw hzs
    replace hw : (s.vectors.set i v')[j]? = some w := hw
    by_cases hij : i = j
    · subst hij
      rw [List.getElem?_set_self hlt] at hw
      rw [List.getElem?_set_self (hrefines.length ▸ hlt)] at hzs
      obtain rfl := Option.some.inj hw
      obtain rfl := Option.some.inj hzs
      exact hbecomes.reads
    · rw [List.getElem?_set_ne hij] at hw hzs
      refine (hrefines.reads j w zs hw hzs).of_same fun a ha => ?_
      refine hbecomes.frame j a (Ne.symm hij) ?_
      rw [← ha]
      exact Refines.handle hw

theorem modify_eq_set {f : List α → List α} (hxs : contents[i]? = some xs) :
    contents.modify i f = contents.set i (f xs) := by
  rw [List.modify_eq_set_getElem?, hxs]
  rfl

/-! ### The operations -/

theorem editSlots_self {change : List (Option α) → Option (List (Option α))}
    (hcell : cellAt heap a = some sb) (hchange : change sb.slots = some sb.slots) :
    editSlots heap a change = some heap := by
  unfold editSlots
  rw [hcell, Option.bind_some, hchange, Option.map_some]
  obtain ⟨hlt, hget⟩ := List.getElem?_eq_some_iff.mp (Option.join_eq_some_iff.mp hcell)
  rw [← hget, List.set_getElem_self]

theorem Reads.count_lt (hreads : Reads type heap v xs) : v.count < 4294967296 := by
  rw [hreads.count]
  cases hstorage : v.storage with
  | none =>
      rw [hreads.empty hstorage]
      exact Nat.zero_lt_succ _
  | some a =>
      obtain ⟨sb, hcell, hholds⟩ := hreads.held a hstorage
      have hle : xs.length + 0 + 0 ≤ sb.size := le_trans hholds.length_le (Nat.div_le_self _ _)
      have hsize := hholds.fits
      omega

theorem Reads.exists_capacity (hreads : Reads type heap v xs) :
    ∃ current, capacity type heap v = some current ∧ v.count ≤ current := by
  unfold capacity
  rw [hreads.count]
  cases hstorage : v.storage with
  | none => exact ⟨0, rfl, by rw [hreads.empty hstorage]; exact le_rfl⟩
  | some a =>
      obtain ⟨sb, hcell, hholds⟩ := hreads.held a hstorage
      refine ⟨sb.size / type.itemSize, by simp only [hcell, Option.map_some], ?_⟩
      simpa using hholds.length_le

theorem grow_zero (hreads : Reads type heap v xs) :
    grow type heap v v.count 0 true = some (heap, v) := by
  obtain ⟨current, hcurrent, hle⟩ := hreads.exists_capacity
  unfold grow
  simp only [hcurrent, Option.bind_some, Nat.add_zero, sizeT_of_lt hreads.count_lt]
  rw [if_neg (not_lt.mpr hle), if_neg (by simp)]
  rfl

/-- Room is made for items and they are written into it; of none there may be nowhere to write to. -/
theorem exists_insert (hexact : Exact SharedBuffer.refs heap handles)
    (hi : handles[i]? = some v.storage) (hreads : Reads type heap v (front ++ back))
    (hgrow : Growable type heap v front.length items.length) :
    ∃ heap₁ v₁, grow type heap v front.length items.length true = some (heap₁, v₁) ∧
      Frame handles i heap heap₁ ∧
      ((v₁.storage = none ∧ Becomes type handles i heap heap₁ v₁ (front ++ items ++ back)) ∨
        ∃ a heap₂, v₁.storage = some a ∧
          editSlots heap₁ a (fun slots => copyItems type slots front.length (items.map some)) =
            some heap₂ ∧ Becomes type handles i heap heap₂ v₁ (front ++ items ++ back)) := by
  have hlt := (List.getElem?_eq_some_iff.mp hi).1
  rcases hgrow with ⟨hzero, hend⟩ | ⟨hpos, hcount, hfits, hsole⟩
  · obtain rfl := List.eq_nil_of_length_eq_zero hzero
    have hbecomes : Becomes type handles i heap heap v (front ++ [] ++ back) := by
      rw [List.append_nil]
      exact becomes_self hexact hi hreads
    refine ⟨heap, v, by rw [hend]; exact grow_zero hreads, frame_refl handles i heap, ?_⟩
    cases hstorage : v.storage with
    | none => exact Or.inl ⟨rfl, hbecomes⟩
    | some a =>
        obtain ⟨sb, hcell, -⟩ := hreads.held a hstorage
        exact Or.inr ⟨a, heap, rfl, editSlots_self hcell rfl, hbecomes⟩
  · obtain ⟨heap₁, a, sb, hgrown, howned, hlaid, -⟩ :=
      grow_spec hexact hi hreads hpos hcount hfits fun hback a sb ha hcell => by
        refine hsole ?_ a ha sb hcell
        rw [hreads.count, hback, List.append_nil]
    obtain ⟨hole, spare, hhole, hspare, hlength, hslots⟩ := hlaid.slots
    have hcopy : copyItems type sb.slots front.length (items.map some) =
        some (front.map some ++ items.map some ++ (back.map some ++ spare)) := by
      have hfill := @copyItems_of_free α type (front.map some) (back.map some ++ spare) hole items
        hhole hlength
      rw [List.length_map] at hfill
      rw [hslots, List.append_assoc _ (back.map some), hfill]
    obtain ⟨heap₂, hedit, howned'⟩ := howned.edit hlt
      (fun slots => copyItems type slots front.length (items.map some)) hcopy
    have hholds : Holds type { sb with
        slots := front.map some ++ items.map some ++ (back.map some ++ spare) }
          (front ++ items ++ back) := by
      refine ⟨⟨[], spare, free_nil, hspare, rfl, by simp⟩, ?_, hlaid.fits⟩
      have hroom := hlaid.room
      rw [hslots] at hroom
      simp only [List.length_append, List.length_map] at hroom ⊢
      omega
    refine ⟨heap₁, _, hgrown, howned.frame, Or.inr ⟨a, heap₂, rfl, hedit, ?_⟩⟩
    refine howned'.becomes hholds ?_
    rw [hreads.count]
    simp only [List.length_append]
    omega

/-- The item is `x`, and another vector than `i` holds on to it. -/
def Supplies (type : ItemType α) (handles : List (Option Nat)) (i : Nat) (heap : Heap α) (x : α) :
    Option (Item α) → Prop
  | none => type.hasTrivialCtor = false ∧ x = type.made
  | some (.value item) => x = item
  | some (.slot a k) => ∃ j sb, j ≠ i ∧ handles[j]? = some (some a) ∧ cellAt heap a = some sb ∧
      sb.slots[k]? = some (some x)

theorem read_of_supplies {item : Item α} {x : α}
    (hsupplies : Supplies type handles i heap x (some item)) (hframe : Frame handles i heap heap') :
    item.read heap' = some (some x) := by
  cases item with
  | value item =>
      obtain rfl : x = item := hsupplies
      rfl
  | slot a k =>
      obtain ⟨j, sb, hne, hj, hcell, hslot⟩ := hsupplies
      obtain ⟨sb', hcell', hslots, -⟩ := hframe j a hne hj sb hcell
      simp only [Item.read, hcell', Option.bind_some, hslots, hslot]

/-- What is written where a gap was left. -/
theorem fill_of_supplies {item : Option (Item α)} {x : α} {position num : Nat} {heap'' : Heap α}
    (hsupplies : Supplies type handles i heap x item) (hframe : Frame handles i heap heap')
    (hwrite : editSlots heap' a (fun slots =>
      copyItems type slots position ((List.replicate num x).map some)) = some heap'') :
    fill type heap' a position num item = some heap'' := by
  rw [List.map_replicate] at hwrite
  cases item with
  | none =>
      obtain ⟨hctor, rfl⟩ := hsupplies
      simp only [fill, hctor, Bool.false_eq_true, if_false]
      exact hwrite
  | some item =>
      by_cases hzero : num = 0
      · subst hzero
        obtain ⟨sb, hcell, -⟩ := Option.bind_eq_some_iff.mp hwrite
        rw [← hwrite]
        exact (editSlots_self hcell rfl).symm
      · simp only [fill, if_neg hzero, read_of_supplies hsupplies hframe, Option.bind_some]
        exact hwrite

section

variable (hexact : Exact SharedBuffer.refs heap handles) (hi : handles[i]? = some v.storage)
include hexact hi

theorem insertAt_spec {item : Option (Item α)} {x : α} {index num : Nat}
    (hreads : Reads type heap v xs) (hsupplies : Supplies type handles i heap x item)
    (hgrow : index ≤ v.count → Growable type heap v index num) :
    ∃ result, insertAt type heap v item index num true = some result ∧
      Becomes type handles i heap result.1 result.2.1 (if index ≤ xs.length then
        xs.take index ++ List.replicate num x ++ xs.drop index else xs) := by
  unfold insertAt
  by_cases hindex : index > v.count
  · refine ⟨(heap, v, badIndex), if_pos hindex, ?_⟩
    rw [if_neg (by rw [← hreads.count]; omega)]
    exact becomes_self hexact hi hreads
  · have hle : index ≤ xs.length := by
      rw [← hreads.count]
      omega
    have htake : (xs.take index).length = index := List.length_take_of_le hle
    rw [← List.take_append_drop index xs] at hreads
    have hgrow' : Growable type heap v (xs.take index).length
        (List.replicate num x).length := by
      rw [htake, List.length_replicate]
      exact hgrow (not_lt.mp hindex)
    obtain ⟨heap₁, v₁, hgrown, hframe, hwritten⟩ := exists_insert hexact hi hreads hgrow'
    rw [htake, List.length_replicate] at hgrown
    rw [if_neg hindex, hgrown, if_pos hle]
    rcases hwritten with ⟨hnone, hbecomes⟩ | ⟨a, heap₂, hstorage, hedit, hbecomes⟩
    · refine ⟨(heap₁, v₁, noMemory), ?_, hbecomes⟩
      simp only [Option.bind_some, hnone]
    · rw [htake] at hedit
      refine ⟨(heap₂, v₁, index), ?_, hbecomes⟩
      simp only [Option.bind_some, hstorage, fill_of_supplies hsupplies hframe hedit,
        Option.map_some]

theorem insertVectorAt_spec {index : Nat} (hreads : Reads type heap v xs) (hne : j ≠ i)
    (hj : handles[j]? = some vector.storage) (hother : Reads type heap vector ys)
    (hgrow : index ≤ v.count → Growable type heap v index vector.count) :
    ∃ result, insertVectorAt type heap v vector false index true = some result ∧
      Becomes type handles i heap result.1 result.2.1
        (if index ≤ xs.length then xs.take index ++ ys ++ xs.drop index else xs) := by
  unfold insertVectorAt
  by_cases hindex : index > v.count
  · refine ⟨(heap, v, badIndex), if_pos hindex, ?_⟩
    rw [if_neg (by rw [← hreads.count]; omega)]
    exact becomes_self hexact hi hreads
  · have hle : index ≤ xs.length := by
      rw [← hreads.count]
      omega
    have htake : (xs.take index).length = index := List.length_take_of_le hle
    rw [← List.take_append_drop index xs] at hreads
    have hgrow' : Growable type heap v (xs.take index).length ys.length := by
      rw [htake, ← hother.count]
      exact hgrow (not_lt.mp hindex)
    obtain ⟨heap₁, v₁, hgrown, hframe, hwritten⟩ := exists_insert hexact hi hreads hgrow'
    rw [htake, ← hother.count] at hgrown
    rw [if_neg hindex, hgrown, if_pos hle]
    rcases hwritten with ⟨hnone, hbecomes⟩ | ⟨a, heap₂, hstorage, hedit, hbecomes⟩
    · refine ⟨(heap₁, v₁, noMemory), ?_, hbecomes⟩
      simp only [Option.bind_some, hnone]
    · -- the other vector is read in the heap that the growing one leaves
      have hother₁ : Reads type heap₁ vector ([] ++ ys ++ []) := by
        rw [List.nil_append, List.append_nil]
        refine hother.of_same fun b hb => hframe j b hne ?_
        rw [← hb]
        exact hj
      have hitems := itemsAt_spec hother₁
      rw [List.length_nil, ← hother.count] at hitems
      rw [htake] at hedit
      refine ⟨(heap₂, v₁, index), ?_, hbecomes⟩
      simp only [Option.bind_some, hstorage, if_false, Bool.false_eq_true, hitems, hedit,
        Option.map_some]

theorem replaceAt_spec {prototype : Option (Item α)} {x : α} {index : Nat}
    (hreads : Reads type heap v xs) (hsupplies : Supplies type handles i heap x prototype)
    (hindex : index < v.count) :
    ∃ result, replaceAt type heap v prototype index true = some result ∧
      Becomes type handles i heap result.1 result.2.1 (xs.set index x) := by
  have hlt := (List.getElem?_eq_some_iff.mp hi).1
  rw [hreads.count] at hindex
  cases hstorage : v.storage with
  | none =>
      rw [hreads.empty hstorage] at hindex
      exact absurd hindex (Nat.not_lt_zero index)
  | some a =>
      obtain ⟨sb, hcell, -⟩ := hreads.held a hstorage
      obtain ⟨heap₁, b, sb₁, hedit, howned, hholds, -⟩ :=
        editArrayImpl_spec hexact hi hreads hstorage hcell
      obtain ⟨hole, spare, -, hspare, hlength, hslots⟩ := hholds.slots
      obtain rfl := List.eq_nil_of_length_eq_zero hlength
      have htake : ((xs.take index).map some).length = index := by
        rw [List.length_map, List.length_take_of_le (Nat.le_of_lt hindex)]
      have hsplit : sb₁.slots = (xs.take index).map some ++ [xs[index]].map some ++
          ((xs.drop (index + 1)).map some ++ spare) := by
        have hxs : xs = xs.take index ++ [xs[index]] ++ xs.drop (index + 1) := by simp
        rw [hslots]
        nth_rewrite 1 [hxs]
        simp only [List.map_append, List.append_nil, List.map_nil, List.append_assoc]
      obtain ⟨gap, hgap, hone, hdestroy⟩ := @doDestroy_eq α type ((xs.take index).map some)
        ((xs.drop (index + 1)).map some ++ spare) [xs[index]]
      rw [← hsplit, htake, List.length_singleton] at hdestroy
      have hcopy := @copyItems_of_free α type ((xs.take index).map some)
        ((xs.drop (index + 1)).map some ++ spare) gap (List.replicate 1 x) hgap hone
      rw [htake] at hcopy
      -- the item is read when the one that it replaces is destroyed already
      obtain ⟨heap₂, hdestroyed, howned₂⟩ := howned.edit hlt
        (fun slots => doDestroy type slots index 1) hdestroy
      obtain ⟨heap₃, hwrite, howned₃⟩ := howned₂.edit hlt
        (fun slots => copyItems type slots index ((List.replicate 1 x).map some)) hcopy
      have hfilled := fill_of_supplies hsupplies howned₂.frame hwrite
      refine ⟨(heap₃, { v with storage := some b }, index), ?_, howned₃.becomes
        ⟨⟨[], spare, free_nil, hspare, rfl, ?_⟩, ?_, hholds.fits⟩ ?_⟩
      · unfold replaceAt
        rw [hedit, Option.bind_some]
        simp only [hdestroyed, hfilled, Option.bind_some, Option.map_some]
      · rw [List.set_eq_take_append_cons_drop, if_pos hindex]
        simp
      · have hroom := hholds.room
        rw [hsplit] at hroom
        simp only [List.length_append, List.length_map, List.length_replicate,
          List.length_singleton] at hroom ⊢
        exact hroom
      · rw [List.length_set, hreads.count]

theorem removeItemsAt_spec {index count : Nat} (hreads : Reads type heap v xs)
    (hfits : index + count < 4294967296)
    (hshrink : index + count ≤ v.count → Shrinkable type v index count) :
    ∃ result, removeItemsAt type heap v index count true = some result ∧
      Becomes type handles i heap result.1 result.2.1 (if index + count ≤ xs.length then
        xs.take index ++ xs.drop (index + count) else xs) := by
  unfold removeItemsAt
  rw [sizeT_of_lt hfits]
  by_cases hindex : index + count > v.count
  · refine ⟨(heap, v, badValue), if_pos hindex, ?_⟩
    rw [if_neg (by rw [← hreads.count]; omega)]
    exact becomes_self hexact hi hreads
  · have hle : index + count ≤ xs.length := by
      rw [← hreads.count]
      omega
    have htake : (xs.take index).length = index := by
      rw [List.length_take_of_le (by omega)]
    have hmid : ((xs.drop index).take count).length = count := by
      rw [List.length_take_of_le (by rw [List.length_drop]; omega)]
    have hsplit : xs = xs.take index ++ (xs.drop index).take count ++ xs.drop (index + count) := by
      rw [List.append_assoc, ← List.drop_drop, List.take_append_drop, List.take_append_drop]
    obtain ⟨hpos, hcount, hroom⟩ := hshrink (not_lt.mp hindex)
    have hreads' := hreads
    rw [hsplit] at hreads'
    obtain ⟨heap', v', hresult, hbecomes⟩ := shrink_spec hexact hi hreads'
      (fun hback => by
        rw [hmid]
        refine hpos ?_
        have hlength := List.length_pos_iff.mpr hback
        rw [List.length_drop] at hlength
        rw [hreads.count]
        omega)
      (by
        rw [List.length_append, htake, List.length_drop, ← hreads.count]
        omega) hroom
    rw [htake, hmid] at hresult
    rw [if_neg hindex, hresult, if_pos hle]
    exact ⟨(heap', v', index), rfl, hbecomes⟩

theorem clear_spec (hreads : Reads type heap v xs)
    (hroom : sizeofSharedBuffer + kMinVectorCapacity * type.itemSize < 4294967296) :
    ∃ result, clear type heap v true = some result ∧
      Becomes type handles i heap result.1 result.2 [] := by
  have hreads' : Reads type heap v ([] ++ xs ++ []) := by
    rw [List.nil_append, List.append_nil]
    exact hreads
  obtain ⟨heap', v', hresult, hbecomes⟩ :=
    shrink_spec hexact hi hreads' (fun hback => absurd rfl hback) (Nat.zero_lt_succ _) hroom
  rw [List.length_nil, ← hreads.count] at hresult
  exact ⟨(heap', v'), hresult, hbecomes⟩

theorem setCapacity_spec {newCapacity : Nat} (granted : Bool) (hreads : Reads type heap v xs)
    (hless : v.count ≤ newCapacity + 2147483648)
    (hroom : v.count < newCapacity →
      sizeofSharedBuffer + newCapacity * type.itemSize < 4294967296) :
    ∃ result, setCapacity type heap v newCapacity granted = some result ∧
      Becomes type handles i heap result.1 result.2.1 xs := by
  have hself := becomes_self hexact hi hreads
  have hcount := hreads.count_lt
  obtain ⟨current, hcurrent, -⟩ := hreads.exists_capacity
  unfold setCapacity
  simp only [hcurrent, Option.bind_some]
  split_ifs with hkept hgranted
  · exact ⟨_, rfl, hself⟩
  · have hlarger : v.count < newCapacity := by
      unfold ssizeT at hkept
      rw [Int.bmod_def] at hkept
      split_ifs at hkept <;> omega
    have hsmall := hroom hlarger
    obtain ⟨heap', a, sb, hrelocate, howned, -, hholds⟩ := relocate_whole hexact hi hreads hsmall (by
      rw [Nat.mul_div_cancel _ type.itemSize_pos, ← hreads.count]
      omega)
    rw [sizeT_of_lt (by omega), hrelocate]
    exact ⟨_, rfl, howned.becomes hholds hreads.count⟩
  · exact ⟨_, rfl, hself⟩

theorem finishVector_spec (hreads : Reads type heap v xs) :
    ∃ result, finishVector type heap v = some result ∧
      Becomes type handles i heap result.1 result.2 [] := by
  obtain ⟨heap', hrelease, hexact', hframe, -⟩ := releaseStorage_spec hexact hi hreads
  refine ⟨(heap', {}), ?_, hexact', hframe, rfl, fun _ => rfl, by simp⟩
  unfold finishVector
  rw [hrelease]
  rfl

end

/-- One more vector refers to a buffer. -/
theorem acquire_spec (hexact : Exact SharedBuffer.refs heap handles) (hi : handles[i]? = some none)
    (hcell : cellAt heap a = some sb) :
    ∃ heap', acquire heap a = some heap' ∧
      Exact SharedBuffer.refs heap' (handles.set i (some a)) ∧ ∀ b, Same heap heap' b := by
  have hlt := lt_length_of_cellAt hcell
  refine ⟨heap.set a (some { sb with refs := sb.refs + 1 }), ?_, hexact.attach hi hcell rfl, ?_⟩
  · unfold acquire
    rw [hcell]
    rfl
  · intro b
    by_cases hb : b = a
    · subst hb
      intro sb₀ hsb₀
      obtain rfl : sb = sb₀ := Option.some.inj (hcell.symm.trans hsb₀)
      exact ⟨_, cellAt_set_self hlt _, rfl, rfl⟩
    · exact same_of_eq (cellAt_set_of_ne hb _)

theorem assign_spec (hexact : Exact SharedBuffer.refs heap handles)
    (hi : handles[i]? = some v.storage) (hreads : Reads type heap v xs) (hne : j ≠ i)
    (hj : handles[j]? = some vector.storage) (hother : Reads type heap vector ys) :
    ∃ result, assign type heap v vector = some result ∧
      Becomes type handles i heap result.1 result.2 ys := by
  have hlt := (List.getElem?_eq_some_iff.mp hi).1
  obtain ⟨heap₁, hrelease, hexact₁, hframe, -⟩ := releaseStorage_spec hexact hi hreads
  unfold assign
  rw [hrelease, Option.bind_some]
  by_cases hzero : vector.count = 0
  · obtain rfl : ys = [] := List.eq_nil_of_length_eq_zero (hother.count ▸ hzero)
    refine ⟨(heap₁, {}), if_pos hzero, hexact₁, hframe, rfl, fun _ => rfl, by simp⟩
  · rw [if_neg hzero]
    cases hstorage : vector.storage with
    | none =>
        rw [hother.count, hother.empty hstorage] at hzero
        exact absurd rfl hzero
    | some a =>
        rw [hstorage] at hj
        obtain ⟨sb, hcell, -⟩ := hother.held a hstorage
        obtain ⟨sb₁, hcell₁, -, -⟩ := hframe j a hne hj sb hcell
        obtain ⟨heap₂, hacquire, hexact₂, hsame⟩ :=
          acquire_spec hexact₁ (List.getElem?_set_self hlt) hcell₁
        rw [List.set_set] at hexact₂
        refine ⟨(heap₂, vector), ?_, hstorage ▸ hexact₂, ?_, ?_⟩
        · rw [Option.bind_some, hacquire]
          rfl
        · exact hframe.trans fun k b _ _ => hsame b
        · refine hother.of_same fun b hb => ?_
          obtain rfl : a = b := Option.some.inj (hstorage.symm.trans hb)
          exact (hframe j a hne hj).trans (hsame a)

/-! ### Steps and runs -/

theorem Refines.concat {v' : VectorImpl} {heap' : Heap α} (hrefines : Refines type s contents)
    (hexact : Exact SharedBuffer.refs heap' (s.vectors.map VectorImpl.storage ++ [v'.storage]))
    (hsame : ∀ b, Same s.heap heap' b) (hreads : Reads type heap' v' xs) :
    Refines type ⟨heap', s.vectors ++ [v']⟩ (contents ++ [xs]) := by
  refine ⟨?_, ?_, ?_⟩
  · rw [List.map_append]
    exact hexact
  · rw [List.length_append, List.length_append, hrefines.length]
    rfl
  · intro j w zs hw hzs
    rcases Nat.lt_or_ge j s.vectors.length with hlt | hge
    · rw [List.getElem?_append_left hlt] at hw
      rw [List.getElem?_append_left (hrefines.length ▸ hlt)] at hzs
      exact (hrefines.reads j w zs hw hzs).of_same fun b _ => hsame b
    · rw [List.getElem?_append_right hge] at hw
      rw [List.getElem?_append_right (hrefines.length ▸ hge), hrefines.length] at hzs
      have hzero : j - s.vectors.length = 0 := by
        simpa using (List.getElem?_eq_some_iff.mp hw).1
      rw [hzero] at hw hzs
      obtain rfl : v' = w := Option.some.inj hw
      obtain rfl : xs = zs := Option.some.inj hzs
      exact hreads

theorem copied_spec (hrefines : Refines type s contents) (hlt : j < s.vectors.length) :
    ∃ next, Vectors.step type s (.copied j) = some next ∧
      Refines type next (applied type contents (.copied j)) := by
  obtain ⟨v, xs, hv, hxs, hreads⟩ := hrefines.exists_of_lt hlt
  have hgetD : contents.getD j [] = xs := by rw [List.getD_eq_getElem?_getD, hxs]; rfl
  simp only [Vectors.step, applied, hv, hgetD, Option.bind_some]
  unfold copied
  cases hstorage : v.storage with
  | none =>
      refine ⟨⟨s.heap, s.vectors ++ [v]⟩, rfl, hrefines.concat ?_ (fun _ => same_of_eq rfl) hreads⟩
      rw [hstorage]
      exact hrefines.exact.concat_none
  | some a =>
      obtain ⟨sb, hcell, -⟩ := hreads.held a hstorage
      obtain ⟨heap', hacquire, hexact, hsame⟩ := acquire_spec hrefines.exact.concat_none
        List.getElem?_concat_length hcell
      refine ⟨⟨heap', s.vectors ++ [v]⟩, by simp only [hacquire, Option.map_some],
        hrefines.concat ?_ hsame (hreads.of_same fun b _ => hsame b)⟩
      rw [List.set_append_right _ _ le_rfl, Nat.sub_self] at hexact
      rw [hstorage]
      exact hexact

/-- What an operation makes of one vector is what it makes of its list. -/
theorem exists_put {result : Option (Heap α × VectorImpl)} (hrefines : Refines type s contents)
    (hlt : i < s.vectors.length)
    (hspec : ∃ left, result = some left ∧
      Becomes type (s.vectors.map VectorImpl.storage) i s.heap left.1 left.2 xs) :
    ∃ next, result.map (s.put i) = some next ∧ Refines type next (contents.set i xs) := by
  obtain ⟨left, rfl, hbecomes⟩ := hspec
  exact ⟨s.put i left, rfl, hrefines.put hbecomes hlt⟩

theorem exists_putResult {result : Option (Heap α × VectorImpl × Int)}
    (hrefines : Refines type s contents) (hlt : i < s.vectors.length)
    (hspec : ∃ left, result = some left ∧
      Becomes type (s.vectors.map VectorImpl.storage) i s.heap left.1 left.2.1 xs) :
    ∃ next, result.map (s.putResult i) = some next ∧ Refines type next (contents.set i xs) := by
  obtain ⟨left, rfl, hbecomes⟩ := hspec
  exact ⟨s.putResult i left, rfl, hrefines.put hbecomes hlt⟩

/-- An item that is passed is read as it is in its list. -/
theorem Refines.supplies (hrefines : Refines type s contents) {source : Option (Vectors.Source α)}
    (hfill : Fillable type s i source) :
    ∃ item, s.argument source = some item ∧
      Supplies type (s.vectors.map VectorImpl.storage) i s.heap (passed type contents source) item := by
  match source with
  | none => exact ⟨none, rfl, hfill, rfl⟩
  | some (.value item) => exact ⟨some (.value item), rfl, rfl⟩
  | some (.itemOf j k) =>
      obtain ⟨hj, hitem⟩ := hfill
      obtain ⟨w, ys, hw, hys, hreads⟩ := hrefines.exists_of_lt hj
      obtain ⟨hk, hshared⟩ := hitem w hw
      have hlength : k < ys.length := hreads.count ▸ hk
      have hpassed : passed type contents (some (.itemOf j k)) = ys[k] := by
        simp only [passed, List.getD_eq_getElem?_getD, hys, Option.getD_some,
          List.getElem?_eq_getElem hlength]
      cases hstorage : w.storage with
      | none =>
          rw [hreads.empty hstorage] at hlength
          exact absurd hlength (Nat.not_lt_zero k)
      | some a =>
          obtain ⟨sb, hcell, hholds⟩ := hreads.held a hstorage
          have hslot : sb.slots[k]? = some (some ys[k]) :=
            hholds.slot_of_item (List.getElem?_eq_getElem hlength)
          have hhandle : (s.vectors.map VectorImpl.storage)[j]? = some (some a) :=
            (Refines.handle hw).trans (congrArg some hstorage)
          refine ⟨some (.slot a k), ?_, ?_⟩
          · simp only [Vectors.argument, Vectors.pointer, hw, Option.bind_some, if_pos hk, hstorage,
              Option.map_some]
          · rw [hpassed]
            by_cases hij : i = j
            · subst hij
              obtain ⟨other, hne, hother⟩ :=
                hrefines.exact.exists_other hcell (hshared rfl a hstorage sb hcell) hhandle
              exact ⟨other, sb, hne, hother, hcell, hslot⟩
            · exact ⟨j, sb, Ne.symm hij, hhandle, hcell, hslot⟩

theorem refines_step (hrefines : Refines type s contents) {op : Vectors.Op α}
    (hsafe : Safe type s op) :
    ∃ next, Vectors.step type s op = some next ∧ Refines type next (applied type contents op) := by
  have hexact := hrefines.exact
  cases op with
  | create =>
      refine ⟨_, rfl, hrefines.concat hexact.concat_none (fun _ => same_of_eq rfl)
        ⟨rfl, fun _ => rfl, by simp⟩⟩
  | copied j => exact copied_spec hrefines hsafe
  | assign i j =>
      obtain ⟨hi, hj⟩ := hsafe
      obtain ⟨v, xs, hv, hxs, hreads⟩ := hrefines.exists_of_lt hi
      obtain ⟨vector, ys, hvector, hys, hother⟩ := hrefines.exists_of_lt hj
      have hgetD : contents.getD j [] = ys := by rw [List.getD_eq_getElem?_getD, hys]; rfl
      simp only [Vectors.step, applied, hv, hvector, hgetD, Option.bind_some]
      by_cases hij : i = j
      · subst hij
        refine ⟨s, if_pos rfl, ?_⟩
        obtain ⟨hlt, hget⟩ := List.getElem?_eq_some_iff.mp hys
        rw [← hget, List.set_getElem_self]
        exact hrefines
      · rw [if_neg hij]
        exact exists_put hrefines hi (assign_spec hexact (Refines.handle hv) hreads
          (Ne.symm hij) (Refines.handle hvector) hother)
  | insertAt i source index num granted =>
      obtain ⟨hi, rfl, hfill, hgrow⟩ := hsafe
      obtain ⟨v, xs, hv, hxs, hreads⟩ := hrefines.exists_of_lt hi
      obtain ⟨item, hitem, hsupplies⟩ := hrefines.supplies hfill
      simp only [Vectors.step, applied, hv, hitem, Option.bind_some, modify_eq_set hxs]
      exact exists_putResult hrefines hi
        (insertAt_spec hexact (Refines.handle hv) hreads hsupplies (hgrow v hv))
  | insertVectorAt i j index granted =>
      obtain ⟨hi, hj, hij, rfl, hgrow⟩ := hsafe
      obtain ⟨v, xs, hv, hxs, hreads⟩ := hrefines.exists_of_lt hi
      obtain ⟨vector, ys, hvector, hys, hother⟩ := hrefines.exists_of_lt hj
      have hgetD : contents.getD j [] = ys := by rw [List.getD_eq_getElem?_getD, hys]; rfl
      simp only [Vectors.step, applied, hv, hvector, hgetD, Option.bind_some, modify_eq_set hxs,
        hij, decide_false]
      exact exists_putResult hrefines hi (insertVectorAt_spec hexact (Refines.handle hv) hreads
        (Ne.symm hij) (Refines.handle hvector) hother (hgrow v hv vector hvector))
  | replaceAt i source index granted =>
      obtain ⟨hi, rfl, hfill, hindex⟩ := hsafe
      obtain ⟨v, xs, hv, hxs, hreads⟩ := hrefines.exists_of_lt hi
      obtain ⟨prototype, hprototype, hsupplies⟩ := hrefines.supplies hfill
      simp only [Vectors.step, applied, hv, hprototype, Option.bind_some, modify_eq_set hxs]
      exact exists_putResult hrefines hi
        (replaceAt_spec hexact (Refines.handle hv) hreads hsupplies (hindex v hv))
  | removeItemsAt i index count granted =>
      obtain ⟨hi, rfl, hfits, hshrink⟩ := hsafe
      obtain ⟨v, xs, hv, hxs, hreads⟩ := hrefines.exists_of_lt hi
      simp only [Vectors.step, applied, hv, Option.bind_some, modify_eq_set hxs]
      exact exists_putResult hrefines hi
        (removeItemsAt_spec hexact (Refines.handle hv) hreads hfits (hshrink v hv))
  | clear i granted =>
      obtain ⟨hi, rfl, hroom⟩ := hsafe
      obtain ⟨v, xs, hv, -, hreads⟩ := hrefines.exists_of_lt hi
      simp only [Vectors.step, applied, hv, Option.bind_some]
      exact exists_put hrefines hi (clear_spec hexact (Refines.handle hv) hreads hroom)
  | setCapacity i newCapacity granted =>
      obtain ⟨hi, hsafe⟩ := hsafe
      obtain ⟨v, xs, hv, hxs, hreads⟩ := hrefines.exists_of_lt hi
      obtain ⟨hless, hroom⟩ := hsafe v hv
      obtain ⟨next, hnext, hnext'⟩ := exists_putResult hrefines hi
        (setCapacity_spec hexact (Refines.handle hv) granted hreads hless hroom)
      refine ⟨next, by simp only [Vectors.step, hv, Option.bind_some, hnext], ?_⟩
      obtain ⟨hlt, hget⟩ := List.getElem?_eq_some_iff.mp hxs
      rw [← hget, List.set_getElem_self] at hnext'
      exact hnext'
  | finish i =>
      obtain ⟨v, xs, hv, -, hreads⟩ := hrefines.exists_of_lt hsafe
      simp only [Vectors.step, applied, hv, Option.bind_some]
      exact exists_put hrefines hsafe (finishVector_spec hexact (Refines.handle hv) hreads)

/-- **Value semantics.** A run whose steps keep to what the source relies on goes through: no freed
buffer is used, no item is constructed twice, read or destroyed where there is none, every vector
reads as its own list in the end, and exactly the buffers that vectors refer to are left. -/
theorem vectors_are_values (type : ItemType α) {ops : List (Vectors.Op α)}
    (hsafe : StepsAlong (Vectors.step type) (Safe type) {} ops) :
    ∃ final, run (Vectors.step type) {} ops = some final ∧
      Refines type final (ops.foldl (applied type) []) :=
  exists_run_of_steps (Refines type) hsafe (refines_nil type)
    fun _ _ _ hrefines hop => refines_step hrefines hop

/-- Strings, whose constructors and destructors have to be called. -/
def stringType : ItemType String := ⟨4, by decide, false, false, false, ""⟩

/-- Two copies change after they were made; the second item of the one comes out of the storage that
they share. -/
def copiedVectors : List (Vectors.Op String) :=
  [.create, .insertAt 0 (some (.value "a")) 0 3 true, .copied 0,
    .insertAt 0 (some (.itemOf 0 2)) 1 2 true, .replaceAt 0 (some (.value "b")) 1 true,
    .removeItemsAt 1 0 2 true, .insertVectorAt 1 0 1 true, .replaceAt 0 none 4 true,
    .replaceAt 0 (some (.itemOf 1 2)) 0 true, .assign 0 1, .setCapacity 1 9 true, .clear 0 true,
    .finish 1]

theorem vectors_are_values_copied :
    StepsAlong (Vectors.step stringType) (Safe stringType) {} copiedVectors ∧
      ∃ final, run (Vectors.step stringType) {} copiedVectors = some final ∧
        Refines stringType final (copiedVectors.foldl (applied stringType) []) :=
  ⟨by decide, vectors_are_values stringType (by decide)⟩

end SensorMouse.Proof
