import Mathlib.Data.Nat.Basic
import Mathlib.Data.List.Count

/-!
# Reference-counted cells

Cells at addresses, and handles each of which refers to one cell or to none. The counts are exact when
a cell is there exactly while a handle refers to it, and counts the handles that do. One rule for each
way a handle and a count change together.
-/

namespace SensorMouse.Lib.Counted

variable {Cell : Type*}

/-- The cell at an address; a freed one is not there. -/
def cellAt (cells : List (Option Cell)) (a : Nat) : Option Cell := cells[a]?.join

section

variable {cells : List (Option Cell)} {a b : Nat} {cell : Cell}

theorem lt_length_of_cellAt (hcell : cellAt cells a = some cell) : a < cells.length := by
  by_contra hlt
  unfold cellAt at hcell
  rw [List.getElem?_eq_none (not_lt.mp hlt)] at hcell
  cases hcell

theorem cellAt_set_self (hlt : a < cells.length) (content : Option Cell) :
    cellAt (cells.set a content) a = content := by
  unfold cellAt
  rw [List.getElem?_set_self hlt]
  rfl

theorem cellAt_set_of_ne (hne : b ≠ a) (content : Option Cell) :
    cellAt (cells.set a content) b = cellAt cells b := by
  unfold cellAt
  rw [List.getElem?_set_ne hne.symm]

theorem cellAt_length (cells : List (Option Cell)) : cellAt cells cells.length = none := by
  unfold cellAt
  rw [List.getElem?_eq_none le_rfl]
  rfl

theorem cellAt_concat_length (cells : List (Option Cell)) (content : Option Cell) :
    cellAt (cells ++ [content]) cells.length = content := by
  unfold cellAt
  rw [List.getElem?_concat_length]
  rfl

theorem cellAt_concat_of_ne (hne : b ≠ cells.length) (content : Option Cell) :
    cellAt (cells ++ [content]) b = cellAt cells b := by
  unfold cellAt
  rcases Nat.lt_or_gt_of_ne hne with hlt | hgt
  · rw [List.getElem?_append_left hlt]
  · rw [List.getElem?_eq_none (by simp; omega), List.getElem?_eq_none (by omega)]

end

/-- The count that a cell with `n` handles has; without any it is not there. -/
def owed (n : Nat) : Option Int := if n = 0 then none else some n

/-- A cell is there exactly while a handle refers to it, and counts the handles that do. -/
def Exact (refs : Cell → Int) (cells : List (Option Cell)) (handles : List (Option Nat)) : Prop :=
  ∀ a, (cellAt cells a).map refs = owed (handles.count (some a))

theorem owed_eq_some {n : Nat} {count : Int} : owed n = some count ↔ n ≠ 0 ∧ (n : Int) = count := by
  unfold owed
  by_cases hzero : n = 0
  · simp [hzero]
  · simp [hzero]

theorem owed_eq_none {n : Nat} : owed n = none ↔ n = 0 := by
  unfold owed
  by_cases hzero : n = 0
  · simp [hzero]
  · simp [hzero]

variable {refs : Cell → Int} {cells : List (Option Cell)} {handles : List (Option Nat)} {i j a : Nat}
  {cell cell' : Cell}

theorem exact_nil : Exact refs [] [] := fun _ => rfl

/-- How a handle that is redirected changes the count of an address. -/
theorem count_set_add {old : Option Nat} (hold : handles[i]? = some old) (new : Option Nat)
    (a : Nat) :
    (handles.set i new).count (some a) + (if old = some a then 1 else 0) =
      handles.count (some a) + (if new = some a then 1 else 0) := by
  obtain ⟨hlt, hget⟩ := List.getElem?_eq_some_iff.mp hold
  have hpos : old = some a → 0 < handles.count (some a) := by
    rintro rfl
    exact List.count_pos_iff.mpr (List.mem_of_getElem? hold)
  rw [List.count_set hlt, hget]
  simp only [beq_iff_eq]
  by_cases hsame : old = some a
  · have := hpos hsame
    rw [if_pos hsame]
    omega
  · rw [if_neg hsame]
    omega

namespace Exact

theorem refs_eq (hexact : Exact refs cells handles) (hcell : cellAt cells a = some cell) :
    handles.count (some a) ≠ 0 ∧ (handles.count (some a) : Int) = refs cell := by
  have hcount := hexact a
  rw [hcell] at hcount
  exact owed_eq_some.mp hcount.symm

/-- What a handle refers to is there. -/
theorem live (hexact : Exact refs cells handles) (hmem : some a ∈ handles) :
    ∃ cell, cellAt cells a = some cell := by
  cases hcell : cellAt cells a with
  | some cell => exact ⟨cell, rfl⟩
  | none =>
      have hcount := hexact a
      rw [hcell] at hcount
      have hpos := List.count_pos_iff.mpr hmem
      have hzero := owed_eq_none.mp hcount.symm
      omega

/-- The only handle of a cell. -/
theorem unique (hexact : Exact refs cells handles) (hcell : cellAt cells a = some cell)
    (hrefs : refs cell = 1) (hi : handles[i]? = some (some a)) (hj : handles[j]? = some (some a)) :
    i = j := by
  by_contra hne
  have hcount := count_set_add hi none a
  have hmem : some a ∈ handles.set i none := by
    refine List.mem_iff_getElem?.mpr ⟨j, ?_⟩
    rw [List.getElem?_set_ne hne]
    exact hj
  have hpos := List.count_pos_iff.mpr hmem
  obtain ⟨-, heq⟩ := hexact.refs_eq hcell
  rw [if_pos rfl, if_neg (by simp)] at hcount
  omega

/-- A cell that is shared has another handle. -/
theorem exists_other (hexact : Exact refs cells handles) (hcell : cellAt cells a = some cell)
    (hshared : refs cell ≠ 1) (hi : handles[i]? = some (some a)) :
    ∃ j, j ≠ i ∧ handles[j]? = some (some a) := by
  have hcount := count_set_add hi none a
  obtain ⟨-, heq⟩ := hexact.refs_eq hcell
  rw [if_pos rfl, if_neg (by simp)] at hcount
  have hmem : some a ∈ handles.set i none := List.count_pos_iff.mp (by omega)
  obtain ⟨j, hj⟩ := List.mem_iff_getElem?.mp hmem
  have hne : j ≠ i := by
    rintro rfl
    rw [List.getElem?_set_self (List.getElem?_eq_some_iff.mp hi).1] at hj
    cases hj
  rw [List.getElem?_set_ne hne.symm] at hj
  exact ⟨j, hne, hj⟩

/-- What its only handle has left for another cell is gone. -/
theorem left {cells' : List (Option Cell)} {b : Nat} (hexact : Exact refs cells handles)
    (hi : handles[i]? = some (some a)) (hcell : cellAt cells a = some cell) (hlast : refs cell = 1)
    (hlater : Exact refs cells' (handles.set i (some b))) (hne : b ≠ a) : cellAt cells' a = none := by
  have hcount := count_set_add hi (some b) a
  rw [if_pos rfl, if_neg fun h => hne (Option.some.inj h)] at hcount
  obtain ⟨-, heq⟩ := hexact.refs_eq hcell
  have hnobody : owed ((handles.set i (some b)).count (some a)) = none := owed_eq_none.mpr (by omega)
  exact Option.map_eq_none_iff.mp ((hlater a).trans hnobody)

theorem concat_none (hexact : Exact refs cells handles) : Exact refs cells (handles ++ [none]) := by
  intro b
  rw [List.count_append, hexact b]
  simp

/-- What a cell holds may change. -/
theorem edit (hexact : Exact refs cells handles) (hcell : cellAt cells a = some cell)
    (hrefs : refs cell' = refs cell) : Exact refs (cells.set a (some cell')) handles := by
  intro b
  by_cases hb : b = a
  · subst hb
    rw [cellAt_set_self (lt_length_of_cellAt hcell), ← hexact b, hcell, Option.map_some,
      Option.map_some, hrefs]
  · rw [cellAt_set_of_ne hb]
    exact hexact b

/-- A handle that referred to nothing comes to refer to a cell that is there. -/
theorem attach (hexact : Exact refs cells handles) (hi : handles[i]? = some none)
    (hcell : cellAt cells a = some cell) (hrefs : refs cell' = refs cell + 1) :
    Exact refs (cells.set a (some cell')) (handles.set i (some a)) := by
  intro b
  have hcount := count_set_add hi (some a) b
  rw [if_neg (by simp)] at hcount
  by_cases hb : b = a
  · subst hb
    rw [if_pos rfl] at hcount
    obtain ⟨-, heq⟩ := hexact.refs_eq hcell
    rw [cellAt_set_self (lt_length_of_cellAt hcell), Option.map_some, hrefs]
    exact (owed_eq_some.mpr ⟨by omega, by omega⟩).symm
  · rw [if_neg (by simpa using Ne.symm hb)] at hcount
    rw [cellAt_set_of_ne hb, hexact b]
    exact congrArg owed hcount.symm

/-- A handle lets a cell go that others refer to. -/
theorem detach (hexact : Exact refs cells handles) (hi : handles[i]? = some (some a))
    (hcell : cellAt cells a = some cell) (hshared : refs cell ≠ 1)
    (hrefs : refs cell' = refs cell - 1) :
    Exact refs (cells.set a (some cell')) (handles.set i none) := by
  intro b
  have hcount := count_set_add hi none b
  rw [if_neg (by simp : ¬ none = some b)] at hcount
  by_cases hb : b = a
  · subst hb
    rw [if_pos rfl] at hcount
    obtain ⟨hpos, heq⟩ := hexact.refs_eq hcell
    rw [cellAt_set_self (lt_length_of_cellAt hcell), Option.map_some, hrefs]
    exact (owed_eq_some.mpr ⟨by omega, by omega⟩).symm
  · rw [if_neg (by simpa using Ne.symm hb)] at hcount
    rw [cellAt_set_of_ne hb, hexact b]
    exact congrArg owed hcount.symm

/-- The last handle lets its cell go, and the cell is freed. -/
theorem free (hexact : Exact refs cells handles) (hi : handles[i]? = some (some a))
    (hcell : cellAt cells a = some cell) (hlast : refs cell = 1) :
    Exact refs (cells.set a none) (handles.set i none) := by
  intro b
  have hcount := count_set_add hi none b
  rw [if_neg (by simp : ¬ none = some b)] at hcount
  by_cases hb : b = a
  · subst hb
    rw [if_pos rfl] at hcount
    obtain ⟨-, heq⟩ := hexact.refs_eq hcell
    rw [cellAt_set_self (lt_length_of_cellAt hcell), Option.map_none]
    exact (owed_eq_none.mpr (by omega)).symm
  · rw [if_neg (by simpa using Ne.symm hb)] at hcount
    rw [cellAt_set_of_ne hb, hexact b]
    exact congrArg owed hcount.symm

/-- A handle that referred to nothing gets a new cell. -/
theorem alloc (hexact : Exact refs cells handles) (hi : handles[i]? = some none)
    (hrefs : refs cell = 1) :
    Exact refs (cells ++ [some cell]) (handles.set i (some cells.length)) := by
  have hfresh : handles.count (some cells.length) = 0 := by
    rw [List.count_eq_zero]
    intro hmem
    obtain ⟨other, hother⟩ := hexact.live hmem
    exact absurd (lt_length_of_cellAt hother) (lt_irrefl _)
  intro b
  have hcount := count_set_add hi (some cells.length) b
  rw [if_neg (by simp)] at hcount
  by_cases hb : b = cells.length
  · subst hb
    rw [if_pos rfl] at hcount
    rw [cellAt_concat_length, Option.map_some, hrefs]
    exact (owed_eq_some.mpr ⟨by omega, by omega⟩).symm
  · rw [if_neg (by simpa using Ne.symm hb)] at hcount
    rw [cellAt_concat_of_ne hb, hexact b]
    exact congrArg owed hcount.symm

/-- A handle takes over the cell of a last one that only held it for a while. -/
theorem handOver (hexact : Exact refs cells ((handles ++ [some a]).set i none))
    (hi : i < handles.length) : Exact refs cells (handles.set i (some a)) := by
  intro b
  obtain ⟨old, hold⟩ : ∃ old, handles[i]? = some old := ⟨_, List.getElem?_eq_getElem hi⟩
  have hgone := count_set_add hold none b
  have hgiven := count_set_add hold (some a) b
  rw [hexact b, List.set_append_left _ _ hi, List.count_append, List.count_singleton]
  refine congrArg owed ?_
  simp only [reduceCtorEq, if_false, beq_iff_eq] at hgone hgiven ⊢
  omega

end Exact

end SensorMouse.Lib.Counted
