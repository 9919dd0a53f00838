import Mathlib.Data.List.Basic

/-!
# Properties of the entries of a list, by position

`Each P xs` says `P i x` of the entry `x` at every position `i`. One rule for each way a list of parts
changes: one part steps, all of them do, or one is added at the end.
-/

namespace SensorMouse.Lib

variable {α : Type*} {P Q : Nat → α → Prop} {xs : List α}

def Each (P : Nat → α → Prop) (xs : List α) : Prop := ∀ i x, xs[i]? = some x → P i x

theorem each_nil : Each P [] := by
  intro i x hx
  simp at hx

theorem Each.modify (heach : Each P xs) {i : Nat} {f : α → α}
    (hsame : ∀ j x, j ≠ i → j < xs.length → P j x → Q j x)
    (hchanged : ∀ x, i < xs.length → P i x → Q i (f x)) : Each Q (xs.modify i f) := by
  intro j y hy
  rw [List.getElem?_modify] at hy
  obtain ⟨x, hx, rfl⟩ := Option.map_eq_some_iff.mp hy
  by_cases hij : i = j
  · subst hij
    rw [if_pos rfl]
    exact hchanged x (List.getElem?_eq_some_iff.mp hx).1 (heach i x hx)
  · rw [if_neg hij]
    exact hsame j x (Ne.symm hij) (List.getElem?_eq_some_iff.mp hx).1 (heach j x hx)

theorem Each.set (heach : Each P xs) {i : Nat} {y : α}
    (hsame : ∀ j x, j ≠ i → j < xs.length → P j x → Q j x) (hchanged : Q i y) :
    Each Q (xs.set i y) := by
  rw [List.set_eq_modify]
  exact heach.modify hsame fun _ _ _ => hchanged

theorem Each.map (heach : Each P xs) {f : α → α} (hchanged : ∀ i x, x ∈ xs → P i x → Q i (f x)) :
    Each Q (xs.map f) := by
  intro i y hy
  rw [List.getElem?_map] at hy
  obtain ⟨x, hx, rfl⟩ := Option.map_eq_some_iff.mp hy
  exact hchanged i x (List.mem_of_getElem? hx) (heach i x hx)

theorem Each.concat (heach : Each P xs) {y : α} (hsame : ∀ i x, i < xs.length → P i x → Q i x)
    (hlast : Q xs.length y) : Each Q (xs ++ [y]) := by
  intro i x hx
  rcases Nat.lt_trichotomy i xs.length with hlt | rfl | hgt
  · rw [List.getElem?_append_left hlt] at hx
    exact hsame i x hlt (heach i x hx)
  · rw [List.getElem?_concat_length] at hx
    exact Option.some.inj hx ▸ hlast
  · rw [List.getElem?_eq_none (by simp; omega)] at hx
    cases hx

end SensorMouse.Lib
