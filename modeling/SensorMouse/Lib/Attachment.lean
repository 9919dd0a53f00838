import Mathlib.Data.List.Induction

/-!
# Using what is attached and detached

A history of attaching, using and detaching one thing. `Orderly` is the rule of such histories: it is
used only while it is attached.
-/

namespace SensorMouse.Lib.Attachment

inductive Move where
  | attach
  | detach
  | use
  deriving DecidableEq, Repr

def Move.apply (was : Bool) : Move → Bool
  | .attach => true
  | .detach => false
  | .use => was

/-- Whether the thing is attached after the moves. -/
def attached (moves : List Move) : Bool := moves.foldl Move.apply false

def Orderly (moves : List Move) : Prop :=
  ∀ before after, moves = before ++ .use :: after → attached before = true

theorem attached_concat (moves : List Move) (move : Move) :
    attached (moves ++ [move]) = move.apply (attached moves) := by
  unfold attached
  rw [List.foldl_append]
  rfl

theorem orderly_nil : Orderly [] := by
  intro before after hsplit
  simp at hsplit

theorem orderly_concat {moves : List Move} {move : Move} :
    Orderly (moves ++ [move]) ↔ Orderly moves ∧ (move = .use → attached moves = true) := by
  constructor
  · intro horderly
    constructor
    · intro before after hsplit
      exact horderly before (after ++ [move]) (by rw [hsplit]; simp)
    · rintro rfl
      exact horderly moves [] rfl
  · rintro ⟨hmoves, hlast⟩ before after hsplit
    rcases List.eq_nil_or_concat after with rfl | ⟨init, last, rfl⟩
    · obtain ⟨rfl, hmove⟩ := List.append_inj' hsplit rfl
      exact hlast (List.singleton_inj.mp hmove)
    · rw [List.concat_eq_append, ← List.cons_append, ← List.append_assoc] at hsplit
      exact hmoves before init (List.append_inj_left' hsplit rfl)

end SensorMouse.Lib.Attachment
