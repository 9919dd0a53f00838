import Mathlib.Computability.Language
import SensorMouse.Lib.Run

/-!
# Strokes

A stroke is one opening mark, any number of inner marks and one closing mark; a well-formed stream
is a prefix of a sequence of strokes. The languages are stated with Mathlib's operations, and
`isStrokesPrefix_iff` and `mem_strokes_iff` say what a reader of the stream has to remember: whether
a stroke is open.
-/

namespace SensorMouse.Lib

inductive Mark where
  | opens
  | within
  | closes
  deriving DecidableEq, Repr

namespace Stroke

/-- `opens within* closes`. -/
def oneStroke : Language Mark :=
  {[Mark.opens]} * KStar.kstar {[Mark.within]} * {[Mark.closes]}

/-- `(opens within* closes)*`. -/
def strokes : Language Mark := KStar.kstar oneStroke

def IsPrefixIn (language : Language Mark) (marks : List Mark) : Prop :=
  ∃ rest, marks ++ rest ∈ language

/-- Reading one mark: the state says whether a stroke is open. -/
def next : Bool → Mark → Option Bool
  | false, .opens => some true
  | true, .within => some true
  | true, .closes => some false
  | _, _ => none

theorem mem_kstar_within {marks : List Mark} :
    marks ∈ KStar.kstar ({[Mark.within]} : Language Mark) ↔
      ∃ moves, marks = List.replicate moves Mark.within := by
  rw [Language.mem_kstar]
  constructor
  · rintro ⟨words, rfl, hwords⟩
    refine ⟨words.length, ?_⟩
    induction words with
    | nil => rfl
    | cons word words ih =>
        have hword : word = [Mark.within] := hwords word (List.mem_cons_self ..)
        rw [List.flatten_cons, hword, ih fun other hother =>
          hwords other (List.mem_cons_of_mem _ hother)]
        rfl
  · rintro ⟨moves, rfl⟩
    refine ⟨List.replicate moves [Mark.within], ?_, fun word hword => List.eq_of_mem_replicate hword⟩
    induction moves with
    | zero => rfl
    | succ moves ih => rw [List.replicate_succ, List.replicate_succ, List.flatten_cons, ← ih]; rfl

theorem mem_oneStroke {marks : List Mark} :
    marks ∈ oneStroke ↔
      ∃ moves, marks = .opens :: (List.replicate moves .within ++ [.closes]) := by
  rw [oneStroke, Language.mem_mul]
  constructor
  · rintro ⟨front, hfront, last, rfl, rfl⟩
    obtain ⟨head, rfl, middle, hmiddle, rfl⟩ := Language.mem_mul.mp hfront
    obtain ⟨moves, rfl⟩ := mem_kstar_within.mp hmiddle
    exact ⟨moves, by simp⟩
  · rintro ⟨moves, rfl⟩
    refine ⟨[.opens] ++ List.replicate moves .within, ?_, [.closes], rfl, by simp⟩
    exact Language.append_mem_mul rfl (mem_kstar_within.mpr ⟨moves, rfl⟩)

/-! ### Reading a stream -/

@[simp]
theorem run_next_replicate (moves : Nat) :
    run next true (List.replicate moves .within) = some true := by
  induction moves with
  | zero => rfl
  | succ moves ih => rw [List.replicate_succ, run_cons]; exact ih

theorem run_next_of_mem_oneStroke {marks : List Mark} (hmem : marks ∈ oneStroke) :
    run next false marks = some false := by
  obtain ⟨moves, rfl⟩ := mem_oneStroke.mp hmem
  rw [run_cons]
  simp only [next, Option.bind_some]
  rw [run_append, run_next_replicate]
  rfl

theorem exists_closes_of_run_next {marks : List Mark} (hread : run next true marks = some false) :
    ∃ moves rest, marks = List.replicate moves .within ++ .closes :: rest ∧
      run next false rest = some false := by
  induction marks with
  | nil => simp at hread
  | cons mark rest ih =>
      cases mark with
      | opens => simp [run_cons, next] at hread
      | within =>
          obtain ⟨moves, tail, rfl, htail⟩ := ih hread
          exact ⟨moves + 1, tail, by rw [List.replicate_succ]; rfl, htail⟩
      | closes => exact ⟨0, rest, rfl, hread⟩

theorem mem_strokes_of_run_next :
    ∀ (bound : Nat) (marks : List Mark), marks.length ≤ bound →
      run next false marks = some false → marks ∈ strokes := by
  intro bound
  induction bound with
  | zero =>
      intro marks hlength _
      obtain rfl := List.length_eq_zero_iff.mp (Nat.le_zero.mp hlength)
      exact Language.nil_mem_kstar _
  | succ bound ih =>
      intro marks hlength hread
      cases marks with
      | nil => exact Language.nil_mem_kstar _
      | cons mark marks =>
          cases mark with
          | within => simp [run_cons, next] at hread
          | closes => simp [run_cons, next] at hread
          | opens =>
              obtain ⟨moves, rest, rfl, hrest⟩ := exists_closes_of_run_next hread
              have hshort : rest.length ≤ bound := by
                simp only [List.length_cons, List.length_append] at hlength
                omega
              obtain ⟨words, hwords, hall⟩ := Language.mem_kstar.mp (ih rest hshort hrest)
              refine Language.mem_kstar.mpr
                ⟨(.opens :: (List.replicate moves .within ++ [.closes])) :: words, ?_, ?_⟩
              · rw [List.flatten_cons, ← hwords]
                simp
              · intro word hword
                rcases List.mem_cons.mp hword with rfl | hword
                · exact mem_oneStroke.mpr ⟨moves, rfl⟩
                · exact hall word hword

/-- A stream is a sequence of whole strokes exactly when reading it ends with none open. -/
theorem mem_strokes_iff {marks : List Mark} :
    marks ∈ strokes ↔ run next false marks = some false := by
  constructor
  · intro hmem
    obtain ⟨words, rfl, hwords⟩ := Language.mem_kstar.mp hmem
    clear hmem
    induction words with
    | nil => rfl
    | cons word words ih =>
        rw [List.flatten_cons, run_append,
          run_next_of_mem_oneStroke (hwords word (List.mem_cons_self ..))]
        exact ih fun other hother => hwords other (List.mem_cons_of_mem _ hother)
  · exact mem_strokes_of_run_next marks.length marks le_rfl

/-- A stream is well formed exactly when it can be read to its end. -/
theorem isStrokesPrefix_iff {marks : List Mark} :
    IsPrefixIn strokes marks ↔ ∃ isOpen, run next false marks = some isOpen := by
  constructor
  · rintro ⟨rest, hmem⟩
    obtain ⟨isOpen, hread, -⟩ := (run_append_eq_some next).mp (mem_strokes_iff.mp hmem)
    exact ⟨isOpen, hread⟩
  · rintro ⟨isOpen, hread⟩
    cases isOpen with
    | false => exact ⟨[], mem_strokes_iff.mpr (by rwa [List.append_nil])⟩
    | true => exact ⟨[.closes], mem_strokes_iff.mpr (by rw [run_append, hread]; rfl)⟩

/-! ### The prefixes of one stroke -/

theorem isPrefixIn_oneStroke_nil : IsPrefixIn oneStroke [] :=
  ⟨[.opens, .closes], mem_oneStroke.mpr ⟨0, rfl⟩⟩

theorem isPrefixIn_oneStroke_open (moves : Nat) :
    IsPrefixIn oneStroke (.opens :: List.replicate moves .within) :=
  ⟨[.closes], mem_oneStroke.mpr ⟨moves, rfl⟩⟩

theorem isPrefixIn_of_mem {language : Language Mark} {marks : List Mark} (hmem : marks ∈ language) :
    IsPrefixIn language marks :=
  ⟨[], by rwa [List.append_nil]⟩

end Stroke

end SensorMouse.Lib
