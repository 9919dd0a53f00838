import SensorMouse.Proof.BlockLaw
import Mathlib.Algebra.Order.BigOperators.Group.Finset
import Mathlib.Algebra.BigOperators.Intervals
import Mathlib.Algebra.Order.BigOperators.Ring.Finset
import Mathlib.Tactic.FieldSimp
import Mathlib.Tactic.FinCases

/-!
# The distance travelled

Every answer is off the exact displacement of its block by less than one, and the blocks of a stream
add up to the stream whatever their size. So two averagers that differ in `averageNum` alone send the
cursor equally far, up to one unit for each block of either: `distance_law`.
-/

namespace SensorMouse.AverageComputerForService

open Java Lib

/-! ### Errors add up -/

theorem abs_sum_sub_sum_lt {count : Nat} (hpos : 0 < count) {rounded exact : Nat → ℚ}
    (herror : ∀ q < count, |rounded q - exact q| < 1) :
    |∑ q ∈ Finset.range count, rounded q - ∑ q ∈ Finset.range count, exact q| < count := by
  have hnonempty : (Finset.range count).Nonempty := Finset.nonempty_range_iff.mpr hpos.ne'
  calc |∑ q ∈ Finset.range count, rounded q - ∑ q ∈ Finset.range count, exact q|
      = |∑ q ∈ Finset.range count, (rounded q - exact q)| := by rw [Finset.sum_sub_distrib]
    _ ≤ ∑ q ∈ Finset.range count, |rounded q - exact q| := Finset.abs_sum_le_sum_abs _ _
    _ < ∑ _q ∈ Finset.range count, (1 : ℚ) :=
        Finset.sum_lt_sum_of_nonempty hnonempty fun q hq => herror q (Finset.mem_range.mp hq)
    _ = count := by simp

/-! ### Totals -/

/-- The total of the displacements answered on one axis. -/
def travelled (answers : List (Option (Fin 3 → Int))) (i : Fin 3) : Int :=
  (answers.filterMap fun answered => answered.map (· i)).sum

/-- The exact displacement a block asks for. -/
def exactDisplacement (m : ℚ) (o d : Int) (component : ℚ × ℚ → ℚ) (block : List (ℚ × ℚ)) : ℚ :=
  o * d * (block.map fun sample => m * component sample).sum

/-- The axes, as the averager numbers them. -/
def axis (i : Fin 3) (sample : ℚ × ℚ) : ℚ := if i = 0 then sample.1 else sample.2

def block (size : Nat) (samples : List (ℚ × ℚ)) (q : Nat) : List (ℚ × ℚ) :=
  (samples.drop (q * size)).take size

/-- No displacement of a complete block is outside the range of the cast. -/
def Unsaturated (size : Nat) (m : ℚ) (o d : Int) (samples : List (ℚ × ℚ)) : Prop :=
  ∀ q, q * size + size ≤ samples.length → ∀ i : Fin 3, i ≠ 2 →
    InRange (trunc (exactDisplacement m o d (axis i) (block size samples q)))

theorem exactDisplacement_take (m : ℚ) (o d : Int) (component : ℚ × ℚ → ℚ)
    (samples : List (ℚ × ℚ)) (size count : Nat) :
    exactDisplacement m o d component (samples.take (count * size)) =
      ∑ q ∈ Finset.range count, exactDisplacement m o d component (block size samples q) := by
  induction count with
  | zero => simp [exactDisplacement]
  | succ count ih =>
      have hsplit : samples.take ((count + 1) * size) =
          samples.take (count * size) ++ block size samples count := by
        rw [Nat.succ_mul, List.take_add]
        rfl
      rw [Finset.sum_range_succ, ← ih, hsplit]
      unfold exactDisplacement
      rw [List.map_append, List.sum_append, mul_add]

section

variable {n : Nat} {m : ℚ} {o d : Int} {samples : List (ℚ × ℚ)}
  {answers : List (Option (Fin 3 → Int))}

theorem travelled_append (first second : List (Option (Fin 3 → Int))) (i : Fin 3) :
    travelled (first ++ second) i = travelled first i + travelled second i := by
  unfold travelled
  rw [List.filterMap_append, List.sum_append]

/-- A block is answered once, by its last call. -/
theorem travelled_block (hn : 1 ≤ n)
    (hanswered : ∀ k < samples.length, ∃ result, answers[k]? = some result ∧
      Answered n m o d (samples.take (k + 1)) result)
    (hunsaturated : Unsaturated n m o d samples) {q : Nat} (hq : q * n + n ≤ samples.length)
    {i : Fin 3} (hi : i ≠ 2) :
    travelled ((answers.drop (q * n)).take n) i =
      trunc (exactDisplacement m o d (axis i) (block n samples q)) := by
  obtain ⟨values, hget, hfirst, hsecond⟩ := exists_getElem?_of_block hanswered hn hq
  have hvalue : values i = trunc (exactDisplacement m o d (axis i) (block n samples q)) := by
    have hrange := hunsaturated q hq i hi
    have haxes : i = 0 ∨ i = 1 := by
      fin_cases i <;> simp at hi ⊢
    rw [← saturate_of_inRange hrange]
    rcases haxes with rfl | rfl
    · rw [hfirst]
      rfl
    · rw [hsecond]
      rfl
  have hanswers : (answers.drop (q * n)).take n =
      List.replicate (n - 1) none ++ [some values] := by
    refine List.ext_getElem? fun k => ?_
    rcases lt_trichotomy k (n - 1) with hearly | rfl | hlate
    · have hnot : ¬ n ∣ q * n + k + 1 := by
        rw [Nat.add_assoc, Nat.dvd_add_right (Nat.dvd_mul_left n q)]
        exact Nat.not_dvd_of_pos_of_lt (Nat.succ_pos k) (by omega)
      rw [List.getElem?_take_of_lt (by omega), List.getElem?_drop,
        getElem?_of_not_dvd hanswered (by omega) hnot,
        List.getElem?_append_left (by simpa using hearly), List.getElem?_replicate_of_lt hearly]
    · have hlast : q * n + (n - 1) = q * n + n - 1 := by omega
      rw [List.getElem?_take_of_lt (by omega), List.getElem?_drop, hlast, hget,
        List.getElem?_append_right (by simp)]
      simp
    · rw [List.getElem?_eq_none (by simp; omega), List.getElem?_eq_none (by simp; omega)]
  rw [hanswers, travelled_append, ← hvalue]
  simp [travelled]

theorem travelled_take (hn : 1 ≤ n)
    (hanswered : ∀ k < samples.length, ∃ result, answers[k]? = some result ∧
      Answered n m o d (samples.take (k + 1)) result)
    (hunsaturated : Unsaturated n m o d samples) {i : Fin 3} (hi : i ≠ 2) {count : Nat}
    (hle : count * n ≤ samples.length) :
    travelled (answers.take (count * n)) i =
      ∑ q ∈ Finset.range count, trunc (exactDisplacement m o d (axis i) (block n samples q)) := by
  induction count with
  | zero => simp [travelled]
  | succ count ih =>
      rw [Nat.succ_mul] at hle ⊢
      rw [List.take_add, travelled_append, Finset.sum_range_succ, ih (by omega),
        travelled_block hn hanswered hunsaturated hle hi]

/-- The error of one averager: less than one for each block. -/
theorem abs_travelled_sub_lt (hn : 1 ≤ n) (hpos : 0 < samples.length) (hdvd : n ∣ samples.length)
    (hcount : answers.length = samples.length)
    (hanswered : ∀ k < samples.length, ∃ result, answers[k]? = some result ∧
      Answered n m o d (samples.take (k + 1)) result)
    (hunsaturated : Unsaturated n m o d samples) {i : Fin 3} (hi : i ≠ 2) :
    |(travelled answers i : ℚ) - exactDisplacement m o d (axis i) samples| <
      (samples.length : ℚ) / n := by
  obtain ⟨count, hblocks⟩ := hdvd
  rw [Nat.mul_comm] at hblocks
  have hcountPos : 0 < count := by
    by_contra hzero
    obtain rfl : count = 0 := by omega
    omega
  have htravelled := travelled_take hn hanswered hunsaturated hi hblocks.ge
  have hexact := exactDisplacement_take m o d (axis i) samples n count
  rw [← hblocks, ← hcount, List.take_length] at htravelled
  rw [← hblocks, List.take_length] at hexact
  have hnumber : (samples.length : ℚ) / n = count := by
    have hne : (n : ℚ) ≠ 0 := by
      exact_mod_cast (by omega : n ≠ 0)
    rw [hblocks, Nat.cast_mul]
    field_simp
  rw [hnumber, htravelled, hexact, Int.cast_sum]
  exact abs_sum_sub_sum_lt hcountPos fun q _ => abs_trunc_sub_lt_one _

end

/-- **The distance does not depend on the block size.** -/
theorem distance_law {n₁ n₂ : Nat} (hn₁ : 1 ≤ n₁) (hn₂ : 1 ≤ n₂) (m : ℚ) (o d : Int)
    {samples : List (ℚ × ℚ)} (hpos : 0 < samples.length) (hdvd₁ : n₁ ∣ samples.length)
    (hdvd₂ : n₂ ∣ samples.length) (hunsaturated₁ : Unsaturated n₁ m o d samples)
    (hunsaturated₂ : Unsaturated n₂ m o d samples) :
    ∃ computer₁ computer₂ answers₁ answers₂ final₁ final₂,
      create (n₁ : Int) m o d = .ok computer₁ ∧ create (n₂ : Int) m o d = .ok computer₂ ∧
      computer₁.answerAll samples = .ok (answers₁, final₁) ∧
      computer₂.answerAll samples = .ok (answers₂, final₂) ∧
      ∀ i : Fin 3, i ≠ 2 →
        |(travelled answers₁ i : ℚ) - travelled answers₂ i| <
          (samples.length : ℚ) / n₁ + samples.length / n₂ := by
  obtain ⟨computer₁, hcreate₁⟩ := exists_create n₁ m o d
  obtain ⟨computer₂, hcreate₂⟩ := exists_create n₂ m o d
  obtain ⟨answers₁, final₁, hall₁, hcount₁, hanswered₁⟩ := exists_answerAll hn₁ hcreate₁ samples
  obtain ⟨answers₂, final₂, hall₂, hcount₂, hanswered₂⟩ := exists_answerAll hn₂ hcreate₂ samples
  refine ⟨computer₁, computer₂, answers₁, answers₂, final₁, final₂, hcreate₁, hcreate₂, hall₁,
    hall₂, fun i hi => ?_⟩
  have herror₁ := abs_travelled_sub_lt hn₁ hpos hdvd₁ hcount₁ hanswered₁ hunsaturated₁ hi
  have herror₂ := abs_travelled_sub_lt hn₂ hpos hdvd₂ hcount₂ hanswered₂ hunsaturated₂ hi
  rw [abs_sub_comm] at herror₂
  calc |(travelled answers₁ i : ℚ) - travelled answers₂ i|
      ≤ |(travelled answers₁ i : ℚ) - exactDisplacement m o d (axis i) samples| +
          |exactDisplacement m o d (axis i) samples - travelled answers₂ i| :=
        abs_sub_le _ _ _
    _ < (samples.length : ℚ) / n₁ + samples.length / n₂ := add_lt_add herror₁ herror₂

/-- Two thirds of a unit, twice: sample by sample the cursor never moves, by twos it moves by one. -/
theorem distance_law_thirds :
    ∃ computer₁ computer₂ answers₁ answers₂ final₁ final₂,
      create ((1 : Nat) : Int) (2 / 3 : ℚ) 1 1 = .ok computer₁ ∧
      create ((2 : Nat) : Int) (2 / 3 : ℚ) 1 1 = .ok computer₂ ∧
      computer₁.answerAll [(1, -1), (1, -1)] = .ok (answers₁, final₁) ∧
      computer₂.answerAll [(1, -1), (1, -1)] = .ok (answers₂, final₂) ∧
      ∀ i : Fin 3, i ≠ 2 → |(travelled answers₁ i : ℚ) - travelled answers₂ i| < 2 / 1 + 2 / 2 := by
  have hblocks : ∀ size ∈ [1, 2], ∀ q < 2, ∀ i : Fin 3, i ≠ 2 →
      InRange (trunc (exactDisplacement (2 / 3) 1 1 (axis i)
        (block size [(1, -1), (1, -1)] q))) := by
    decide +kernel
  have hunsaturated : ∀ size ∈ [1, 2],
      Unsaturated size (2 / 3 : ℚ) 1 1 [(1, -1), (1, -1)] := by
    intro size hsize q hq i hi
    have hpos : 1 ≤ size := by
      simp only [List.mem_cons, List.not_mem_nil, or_false] at hsize
      omega
    refine hblocks size hsize q ?_ i hi
    have hle : q ≤ q * size := Nat.le_mul_of_pos_right q hpos
    simp only [List.length_cons, List.length_nil] at hq
    omega
  have hlaw := @distance_law 1 2 (by decide) (by decide) (2 / 3) 1 1 [(1, -1), (1, -1)]
    (by decide) (by decide) (by decide) (hunsaturated 1 (by decide)) (hunsaturated 2 (by decide))
  simpa using hlaw

end SensorMouse.AverageComputerForService
