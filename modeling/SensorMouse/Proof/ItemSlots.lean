import SensorMouse.Frameworks.SharedBuffer
import Mathlib.Data.List.Induction
import Mathlib.Tactic.Common

/-!
# Items in the slots of a buffer

Copies, moves and destructions of items, for slots that are split where the source points into them. A
gap is a piece of slots that items may be constructed in; a move shifts a gap from one side of the
items to the other.
-/

namespace SensorMouse.Proof

open Frameworks

variable {α : Type} {type : ItemType α} {left right gap : List (Option α)} {slot : Option α}

/-- Where items are destroyed, a free slot holds none. -/
def Free (type : ItemType α) (slots : List (Option α)) : Prop :=
  type.hasTrivialDtor = false → ∀ slot ∈ slots, slot = none

theorem free_nil : Free type [] := by
  intro _ slot hslot
  cases hslot

theorem free_append : Free type (left ++ right) ↔ Free type left ∧ Free type right := by
  constructor
  · intro hfree
    exact ⟨fun hdtor slot hslot => hfree hdtor slot (List.mem_append_left _ hslot),
      fun hdtor slot hslot => hfree hdtor slot (List.mem_append_right _ hslot)⟩
  · rintro ⟨hleft, hright⟩ hdtor slot hslot
    rcases List.mem_append.mp hslot with hmem | hmem
    · exact hleft hdtor slot hmem
    · exact hright hdtor slot hmem

theorem free_cons : Free type (slot :: gap) ↔ Free type [slot] ∧ Free type gap :=
  @free_append α type [slot] gap

theorem free_replicate (n : Nat) : Free type (List.replicate n none) := by
  intro _ slot hslot
  exact List.eq_of_mem_replicate hslot

theorem Free.sublist (hfree : Free type gap) (hsub : List.Sublist left gap) : Free type left := by
  intro hdtor slot hslot
  exact hfree hdtor slot (hsub.subset hslot)

theorem getElem?_length_left (left right : List (Option α)) (slot : Option α) :
    (left ++ slot :: right)[left.length]? = some slot := by
  rw [List.getElem?_append_right le_rfl, Nat.sub_self]
  rfl

theorem set_length_left (left right : List (Option α)) (slot item : Option α) :
    (left ++ slot :: right).set left.length item = left ++ item :: right := by
  rw [List.set_append_right _ _ le_rfl, Nat.sub_self]
  rfl

theorem constructAt_of_free (hfree : Free type [slot]) (item : Option α) :
    constructAt type (left ++ slot :: right) left.length item = some (left ++ item :: right) := by
  unfold constructAt
  rw [if_pos, set_length_left]
  refine ⟨by simp, ?_⟩
  rw [getElem?_length_left]
  cases hdtor : type.hasTrivialDtor with
  | true => exact Or.inl rfl
  | false =>
      rw [hfree hdtor slot (List.mem_singleton_self slot)]
      exact Or.inr rfl

theorem copyItems_of_free (items : List α) (hfree : Free type gap)
    (hlength : gap.length = items.length) :
    copyItems type (left ++ gap ++ right) left.length (items.map some) =
      some (left ++ items.map some ++ right) := by
  induction items generalizing left gap with
  | nil =>
      obtain rfl := List.eq_nil_of_length_eq_zero hlength
      rfl
  | cons item rest ih =>
      obtain ⟨slot, gap, rfl⟩ := List.exists_cons_of_length_eq_add_one hlength
      obtain ⟨hslot, hgap⟩ := free_cons.mp hfree
      have hnext := @ih (left ++ [some item]) gap hgap (by simpa using hlength)
      rw [List.length_append, List.length_singleton] at hnext
      rw [List.map_cons, copyItems, if_neg (by simp), List.append_assoc, List.cons_append,
        constructAt_of_free hslot, Option.bind_some]
      simpa using hnext

theorem destroyItems_eq (items : List α) :
    destroyItems (left ++ items.map some ++ right) left.length items.length =
      some (left ++ List.replicate items.length none ++ right) := by
  induction items generalizing left with
  | nil => rfl
  | cons item rest ih =>
      have hnext := @ih (left ++ [none])
      rw [List.length_append, List.length_singleton] at hnext
      rw [List.map_cons, List.length_cons, destroyItems, List.append_assoc, List.cons_append,
        getElem?_length_left, if_pos (by rfl), set_length_left]
      simpa [List.replicate_succ] using hnext

/-- Destroyed items leave a gap of their length. -/
theorem doDestroy_eq (items : List α) :
    ∃ gap, Free type gap ∧ gap.length = items.length ∧
      doDestroy type (left ++ items.map some ++ right) left.length items.length =
        some (left ++ gap ++ right) := by
  unfold doDestroy
  cases hdtor : type.hasTrivialDtor with
  | true =>
      refine ⟨items.map some, ?_, List.length_map _, rfl⟩
      intro hfalse
      rw [hdtor] at hfalse
      cases hfalse
  | false => exact ⟨_, free_replicate items.length, List.length_replicate, destroyItems_eq items⟩

/-- An item moves over a gap to its right. -/
theorem moveItem_right (item : α) (hslot : Free type [slot]) :
    ∃ vacated, Free type [vacated] ∧
      moveItem type (left ++ some item :: (gap ++ slot :: right)) (left.length + gap.length + 1)
        left.length = some (left ++ vacated :: (gap ++ some item :: right)) := by
  have hlength : (left ++ some item :: gap).length = left.length + gap.length + 1 := by
    simp
    omega
  have hcopy := @copyItems_of_free α type (left ++ some item :: gap) right [slot] [item] hslot rfl
  obtain ⟨vacated, hfree, hone, hdestroy⟩ :=
    @doDestroy_eq α type left (gap ++ some item :: right) [item]
  obtain ⟨emptied, rfl⟩ := List.length_eq_one_iff.mp hone
  refine ⟨emptied, hfree, ?_⟩
  rw [hlength] at hcopy
  unfold moveItem
  rw [getElem?_length_left, Option.bind_some]
  simp only [List.map_cons, List.map_nil, List.append_assoc, List.cons_append, List.nil_append,
    List.length_singleton] at hcopy hdestroy
  rw [hcopy, Option.bind_some, hdestroy]

/-- An item moves over a gap to its left. -/
theorem moveItem_left (item : α) (hslot : Free type [slot]) :
    ∃ vacated, Free type [vacated] ∧
      moveItem type (left ++ slot :: (gap ++ some item :: right)) left.length
        (left.length + gap.length + 1) = some (left ++ some item :: (gap ++ vacated :: right)) := by
  have hlength : ∀ moved : Option α,
      (left ++ moved :: gap).length = left.length + gap.length + 1 := by
    intro moved
    simp
    omega
  have hread := getElem?_length_left (left ++ slot :: gap) right (some item)
  have hcopy := @copyItems_of_free α type left (gap ++ some item :: right) [slot] [item] hslot rfl
  obtain ⟨vacated, hfree, hone, hdestroy⟩ :=
    @doDestroy_eq α type (left ++ some item :: gap) right [item]
  obtain ⟨emptied, rfl⟩ := List.length_eq_one_iff.mp hone
  refine ⟨emptied, hfree, ?_⟩
  rw [hlength] at hread hdestroy
  simp only [List.map_cons, List.map_nil, List.append_assoc, List.cons_append, List.nil_append,
    List.length_singleton] at hread hcopy hdestroy
  unfold moveItem
  rw [hread, Option.bind_some, hcopy, Option.bind_some, hdestroy]

/-- Items move to the right end of a gap behind them, the last one first. -/
theorem moveForward_eq (items : List α) (hpos : 0 < gap.length) (hfree : Free type gap) :
    ∃ gap', Free type gap' ∧ gap'.length = gap.length ∧
      moveForward type (left ++ items.map some ++ gap ++ right) (left.length + gap.length)
        left.length items.length = some (left ++ gap' ++ items.map some ++ right) := by
  induction items using List.reverseRecOn generalizing gap right with
  | nil => exact ⟨gap, hfree, rfl, by simp [moveForward]⟩
  | append_singleton init item ih =>
      obtain ⟨middle, slot, hsplit⟩ :=
        (List.eq_nil_or_concat gap).resolve_left (List.ne_nil_of_length_pos hpos)
      rw [List.concat_eq_append] at hsplit
      subst hsplit
      obtain ⟨hmiddle, hslot⟩ := free_append.mp hfree
      obtain ⟨vacated, hvacated, hmove⟩ :=
        @moveItem_right α type (left ++ init.map some) right middle slot item hslot
      obtain ⟨gap', hfree', hlength', hrest⟩ := @ih (some item :: right) (vacated :: middle)
        (Nat.succ_pos _) (free_cons.mpr ⟨hvacated, hmiddle⟩)
      refine ⟨gap', hfree', by simpa using hlength', ?_⟩
      have hfirst : left ++ (init ++ [item]).map some ++ (middle ++ [slot]) ++ right =
          left ++ init.map some ++ some item :: (middle ++ slot :: right) := by simp
      have hdest : left.length + (middle ++ [slot]).length + init.length =
          (left ++ init.map some).length + middle.length + 1 := by
        simp
        omega
      have hstart : left.length + init.length = (left ++ init.map some).length := by simp
      have hcount : (init ++ [item]).length = init.length + 1 := by simp
      rw [hfirst, hcount, moveForward, hdest, hstart, hmove, Option.bind_some]
      simpa using hrest

/-- Items move to the left end of a gap in front of them, the first one first. -/
theorem moveBackward_eq (items : List α) (hpos : items ≠ [] → 0 < gap.length) (hfree : Free type gap) :
    ∃ gap', Free type gap' ∧ gap'.length = gap.length ∧
      moveBackward type (left ++ gap ++ items.map some ++ right) left.length
        (left.length + gap.length) items.length = some (left ++ items.map some ++ gap' ++ right) := by
  induction items generalizing left gap with
  | nil => exact ⟨gap, hfree, rfl, by simp [moveBackward]⟩
  | cons item rest ih =>
      obtain ⟨slot, middle, rfl⟩ := List.exists_cons_of_length_pos (hpos (List.cons_ne_nil _ _))
      obtain ⟨hslot, hmiddle⟩ := free_cons.mp hfree
      obtain ⟨vacated, hvacated, hmove⟩ :=
        @moveItem_left α type left (rest.map some ++ right) middle slot item hslot
      obtain ⟨gap', hfree', hlength', hrest⟩ := @ih (left ++ [some item]) (middle ++ [vacated])
        (fun _ => by simp) (free_append.mpr ⟨hmiddle, hvacated⟩)
      refine ⟨gap', hfree', by simpa using hlength', ?_⟩
      have hfirst : left ++ slot :: middle ++ (item :: rest).map some ++ right =
          left ++ slot :: (middle ++ some item :: (rest.map some ++ right)) := by simp
      have hstart : left.length + (slot :: middle).length = left.length + middle.length + 1 := by
        simp
        omega
      have hnext : left.length + middle.length + 1 + 1 =
          (left ++ [some item]).length + (middle ++ [vacated]).length := by
        simp
        omega
      rw [hfirst, hstart, List.length_cons, moveBackward, hmove, Option.bind_some, hnext]
      simpa using hrest

end SensorMouse.Proof
