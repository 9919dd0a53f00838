import Mathlib.Data.Rat.Floor
import Mathlib.Algebra.Order.Floor.Ring
import Mathlib.Tactic.Linarith

/-!
# What the sources take from Java

Runtime exceptions, `int` arithmetic modulo `2 ^ 32`, arrays with checked indices, and the `float`
operations the averagers use. The averagers are written over any `JavaFloat`, so what is proved of
them without naming one holds of IEEE arithmetic too; the instance on `ℚ` is exact arithmetic with
Java's saturating cast to `int`.
-/

namespace SensorMouse.Java

inductive JavaException where
  | arithmetic
  | arrayIndexOutOfBounds
  | negativeArraySize
  | illegalArgument
  deriving DecidableEq, Repr

section

variable {α β : Type}

@[simp]
theorem ok_bind (value : α) (rest : α → Except JavaException β) :
    (Except.ok value >>= rest) = rest value := rfl

theorem bind_eq_ok {first : Except JavaException α} {rest : α → Except JavaException β}
    {result : β} :
    first >>= rest = .ok result ↔ ∃ value, first = .ok value ∧ rest value = .ok result := by
  cases first with
  | error thrown =>
      constructor
      · intro hthrown
        cases hthrown
      · rintro ⟨value, hvalue, -⟩
        cases hvalue
  | ok value => simp

theorem toOption_eq_some {outcome : Except JavaException α} {value : α} :
    outcome.toOption = some value ↔ outcome = .ok value := by
  cases outcome with
  | error thrown => simp [Except.toOption]
  | ok result => simp [Except.toOption]

end

/-! ### `int` -/

def minInt : Int := -2147483648

def maxInt : Int := 2147483647

def InRange (z : Int) : Prop := minInt ≤ z ∧ z ≤ maxInt

instance (z : Int) : Decidable (InRange z) := inferInstanceAs (Decidable (_ ∧ _))

/-- The `int` a 32-bit operation leaves of an exact result. -/
def wrap (z : Int) : Int := (z + 2147483648) % 4294967296 - 2147483648

theorem wrap_of_inRange {z : Int} (hrange : InRange z) : wrap z = z := by
  obtain ⟨hlower, hupper⟩ := hrange
  simp only [minInt, maxInt] at hlower hupper
  unfold wrap
  omega

theorem wrap_inRange (z : Int) : InRange (wrap z) := by
  unfold InRange wrap minInt maxInt
  omega

def divide (dividend divisor : Int) : Except JavaException Int :=
  if divisor = 0 then .error .arithmetic else .ok (wrap (dividend.tdiv divisor))

/-! ### Arrays -/

variable {α : Type}

def newArray (length : Int) (initial : α) : Except JavaException (List α) :=
  if length < 0 then .error .negativeArraySize else .ok (List.replicate length.toNat initial)

def load (array : List α) (index : Nat) : Except JavaException α :=
  match array[index]? with
  | some value => .ok value
  | none => .error .arrayIndexOutOfBounds

def store (array : List α) (index : Nat) (value : α) : Except JavaException (List α) :=
  if index < array.length then .ok (array.set index value) else .error .arrayIndexOutOfBounds

/-- `load` and `store` at an `int`, which may be negative. -/
def loadAt (array : List α) (index : Int) : Except JavaException α :=
  if index < 0 then .error .arrayIndexOutOfBounds else load array index.toNat

def storeAt (array : List α) (index : Int) (value : α) : Except JavaException (List α) :=
  if index < 0 then .error .arrayIndexOutOfBounds else store array index.toNat value

theorem load_of_lt {array : List α} {index : Nat} (hlt : index < array.length) :
    load array index = .ok array[index] := by
  simp [load, hlt]

theorem store_of_lt {array : List α} {index : Nat} (hlt : index < array.length) (value : α) :
    store array index value = .ok (array.set index value) := by
  simp [store, hlt]

theorem load_eq_ok {array : List α} {index : Nat} {value : α} :
    load array index = .ok value ↔ array[index]? = some value := by
  unfold load
  cases array[index]? with
  | none => simp
  | some other => simp

theorem loadAt_natCast (array : List α) (index : Nat) :
    loadAt array (index : Int) = load array index := by
  unfold loadAt
  rw [if_neg (not_lt.mpr (Int.natCast_nonneg index)), Int.toNat_natCast]

theorem storeAt_natCast {array : List α} {index : Nat} (hlt : index < array.length) (value : α) :
    storeAt array (index : Int) value = .ok (array.set index value) := by
  unfold storeAt
  rw [if_neg (not_lt.mpr (Int.natCast_nonneg index)), Int.toNat_natCast, store_of_lt hlt]

/-! ### `float` -/

/-- The `float` operations of the sources; `toInt` is the cast `(int)`. -/
class JavaFloat (F : Type) extends Zero F, Add F, Mul F, IntCast F where
  toInt : F → Int
  toInt_inRange : ∀ value, InRange (toInt value)

/-- Rounding toward zero. -/
def trunc (q : ℚ) : Int := if 0 ≤ q then ⌊q⌋ else ⌈q⌉

/-- Rounding toward zero is odd. -/
theorem trunc_neg (q : ℚ) : trunc (-q) = -trunc q := by
  unfold trunc
  rcases lt_trichotomy q 0 with hneg | rfl | hpos
  · have hflipped : 0 ≤ -q := by linarith
    rw [if_pos hflipped, if_neg (not_le.mpr hneg), Int.floor_neg]
  · simp
  · have hflipped : ¬ 0 ≤ -q := by linarith
    rw [if_neg hflipped, if_pos hpos.le, Int.ceil_neg]

theorem abs_trunc_sub_lt_one (q : ℚ) : |(trunc q : ℚ) - q| < 1 := by
  unfold trunc
  rw [abs_lt]
  split_ifs
  · have hlower := Int.floor_le q
    have hupper := Int.lt_floor_add_one q
    constructor <;> linarith
  · have hlower := Int.le_ceil q
    have hupper := Int.ceil_lt_add_one q
    constructor <;> linarith

/-- Out-of-range values become the nearest `int`. -/
def saturate (z : Int) : Int := max minInt (min maxInt z)

theorem saturate_inRange (z : Int) : InRange (saturate z) := by
  simp only [InRange, minInt, maxInt, saturate]
  omega

theorem saturate_of_inRange {z : Int} (hrange : InRange z) : saturate z = z := by
  obtain ⟨hlower, hupper⟩ := hrange
  rw [saturate, min_eq_right hupper, max_eq_right hlower]

instance : JavaFloat ℚ where
  toInt q := saturate (trunc q)
  toInt_inRange q := saturate_inRange (trunc q)

end SensorMouse.Java
