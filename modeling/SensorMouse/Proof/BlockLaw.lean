import SensorMouse.Proof.BlockSum
import SensorMouse.Lib.Transducer
import Mathlib.Algebra.BigOperators.Ring.List
import Mathlib.Tactic.Ring

/-!
# The stream of answers

A fresh averager is given one sample after the other. Its answers are those of the blocks the stream
falls into, and a block is read from the stream alone: no answer depends on what an earlier block left
in the array.
-/

namespace SensorMouse.AverageComputerForService

open Java Lib

variable {F : Type} [JavaFloat F]

/-- The answers to a stream of samples, in order, and the averager they leave. -/
def answerAll (computer : AverageComputerForService F) (samples : List (F × F)) :
    Except JavaException (List (Option (Fin 3 → Int)) × AverageComputerForService F) :=
  outputs (fun computer (sample : F × F) => computer.computeValue sample.1 sample.2) computer samples

/-- What the call that completes `given` answers. -/
structure Answered (a : Nat) (m : F) (o d : Int) (given : List (F × F))
    (result : Option (Fin 3 → Int)) : Prop where
  none_of_not_dvd : ¬ a ∣ given.length → result = none
  some_of_dvd : a ∣ given.length → ∃ values, result = some values ∧
    values 0 = answer o d (blockSum ((Blocks.latest a given).map (·.1 * m))) ∧
    values 1 = answer o d (blockSum ((Blocks.latest a given).map (·.2 * m)))

variable {a : Nat} {m : F} {o d : Int} {samples : List (F × F)}
  {computer : AverageComputerForService F}

theorem Window.exists_answered (hwindow : Window a m o d samples computer) (hpos : 0 < a)
    (sample : F × F) :
    ∃ result next, computer.computeValue sample.1 sample.2 = .ok (result, next) ∧
      Window a m o d (samples ++ [sample]) next ∧
      Answered a m o d (samples ++ [sample]) result := by
  have hlength : (samples ++ [sample]).length = samples.length + 1 := List.length_append
  by_cases hdvd : a ∣ samples.length + 1
  · obtain ⟨values, next, hcompute, hnext, hfirst, hsecond⟩ :=
      hwindow.computeValue_of_dvd hpos sample.1 sample.2 hdvd
    refine ⟨some values, next, hcompute, hnext, fun hnot => ?_, fun _ => ?_⟩
    · rw [hlength] at hnot
      exact absurd hdvd hnot
    · exact ⟨values, rfl, hfirst, hsecond⟩
  · obtain ⟨next, hcompute, hnext⟩ := hwindow.computeValue_of_not_dvd hpos sample.1 sample.2 hdvd
    refine ⟨none, next, hcompute, hnext, fun _ => rfl, fun hcomplete => ?_⟩
    rw [hlength] at hcomplete
    exact absurd hcomplete hdvd

/-- No call of a fresh averager throws, and each is answered from the samples given so far. -/
theorem exists_answerAll (hpos : 0 < a) (hcreate : create (a : Int) m o d = .ok computer)
    (samples : List (F × F)) :
    ∃ answers final, computer.answerAll samples = .ok (answers, final) ∧
      answers.length = samples.length ∧
      ∀ k < samples.length, ∃ result, answers[k]? = some result ∧
        Answered a m o d (samples.take (k + 1)) result := by
  obtain ⟨answers, final, hanswers, -, hcount, hright⟩ :=
    exists_outputs (fun _ => True) (Window a m o d)
      (fun past sample => Answered a m o d (past ++ [sample])) (window_create hcreate)
      (fun _ _ sample _ hwindow => hwindow.exists_answered hpos sample) (fun _ _ => trivial)
  refine ⟨answers, final, hanswers, hcount, fun k hk => ?_⟩
  obtain ⟨result, hget, hresult⟩ := hright k hk
  rw [List.take_append_getElem] at hresult
  exact ⟨result, hget, hresult⟩

theorem exists_create (a : Nat) (m : F) (o d : Int) :
    ∃ computer, create (a : Int) m o d = .ok computer := by
  have hnonneg : ¬ (a : Int) < 0 := not_lt.mpr (Int.natCast_nonneg a)
  unfold create newArray
  rw [if_neg hnonneg]
  exact ⟨_, rfl⟩

/-! ### Exact arithmetic -/

theorem blockSum_rat (values : List ℚ) : blockSum values = values.sum := by
  cases values with
  | nil => rfl
  | cons first rest =>
      rw [List.sum_eq_foldl, List.foldl_cons, zero_add]
      rfl

/-- The averager multiplies by the magnification before it sums. -/
theorem answer_blockSum_rat (m : ℚ) (o d : Int) (component : ℚ × ℚ → ℚ) (block : List (ℚ × ℚ)) :
    answer o d (blockSum (block.map fun sample => component sample * m)) =
      saturate (trunc (o * d * (block.map fun sample => m * component sample).sum)) := by
  have htotal : (block.map fun sample => component sample * m).sum * (o : ℚ) * (d : ℚ) =
      o * d * (block.map fun sample => m * component sample).sum := by
    simp only [mul_comm m]
    ring
  unfold answer
  rw [blockSum_rat, htotal]
  rfl

section

variable {n : Nat} {m : ℚ} {o d : Int} {samples : List (ℚ × ℚ)}
  {answers : List (Option (Fin 3 → Int))}
  (hanswered : ∀ k < samples.length, ∃ result, answers[k]? = some result ∧
    Answered n m o d (samples.take (k + 1)) result)

include hanswered

theorem getElem?_of_not_dvd {k : Nat} (hk : k < samples.length) (hdvd : ¬ n ∣ k + 1) :
    answers[k]? = some none := by
  obtain ⟨result, hget, hresult⟩ := hanswered k hk
  have hlength : (samples.take (k + 1)).length = k + 1 := by
    rw [List.length_take, min_eq_left hk]
  rw [hget, hresult.none_of_not_dvd (by rwa [hlength])]

theorem exists_getElem?_of_block (hn : 1 ≤ n) {q : Nat} (hq : q * n + n ≤ samples.length) :
    ∃ values, answers[q * n + n - 1]? = some (some values) ∧
      values 0 = saturate (trunc (o * d *
        (((samples.drop (q * n)).take n).map fun sample => m * sample.1).sum)) ∧
      values 1 = saturate (trunc (o * d *
        (((samples.drop (q * n)).take n).map fun sample => m * sample.2).sum)) := by
  have hlast : q * n + n - 1 < samples.length := by omega
  obtain ⟨result, hget, hresult⟩ := hanswered (q * n + n - 1) hlast
  have hcall : q * n + n - 1 + 1 = q * n + n := by omega
  rw [hcall] at hresult
  have hdvd : n ∣ (samples.take (q * n + n)).length := by
    rw [List.length_take, min_eq_left hq]
    exact (Nat.dvd_mul_left n q).add (Nat.dvd_refl n)
  obtain ⟨values, rfl, hfirst, hsecond⟩ := hresult.some_of_dvd hdvd
  rw [Blocks.latest_take hq] at hfirst hsecond
  refine ⟨values, hget, ?_, ?_⟩
  · rw [hfirst, answer_blockSum_rat m o d Prod.fst]
  · rw [hsecond, answer_blockSum_rat m o d Prod.snd]

end

/-- **The block-sum law.** The `k`-th call is answered only if the block size divides `k`, and then
with the truncated sums over the latest block and nothing else. -/
theorem block_sum_law {n : Nat} (hn : 1 ≤ n) (m : ℚ) (o d : Int) (samples : List (ℚ × ℚ)) :
    ∃ computer answers final, create (n : Int) m o d = .ok computer ∧
      computer.answerAll samples = .ok (answers, final) ∧ answers.length = samples.length ∧
      (∀ k < samples.length, ¬ n ∣ k + 1 → answers[k]? = some none) ∧
      ∀ q, q * n + n ≤ samples.length →
        let block := (samples.drop (q * n)).take n
        ∃ values, answers[q * n + n - 1]? = some (some values) ∧
          values 0 = saturate (trunc (o * d * (block.map fun sample => m * sample.1).sum)) ∧
          values 1 = saturate (trunc (o * d * (block.map fun sample => m * sample.2).sum)) := by
  obtain ⟨computer, hcreate⟩ := exists_create n m o d
  obtain ⟨answers, final, hanswers, hcount, hanswered⟩ := exists_answerAll hn hcreate samples
  exact ⟨computer, answers, final, hcreate, hanswers, hcount,
    fun k hk hdvd => getElem?_of_not_dvd hanswered hk hdvd,
    fun q hq => exists_getElem?_of_block hanswered hn hq⟩

theorem block_sum_law_two :
    1 ≤ 2 ∧ ∃ computer answers final, create (2 : Nat) (1 / 2 : ℚ) 10 (-1) = .ok computer ∧
      computer.answerAll [(1, 2), (3, 4), (5, 6)] = .ok (answers, final) ∧ answers.length = 3 ∧
      answers[0]? = some none ∧
      ∃ values, answers[1]? = some (some values) ∧ values 0 = -20 ∧ values 1 = -30 := by
  obtain ⟨computer, answers, final, hcreate, hanswers, hcount, hnone, hsome⟩ :=
    @block_sum_law 2 (by decide) (1 / 2) 10 (-1) [(1, 2), (3, 4), (5, 6)]
  obtain ⟨values, hget, hfirst, hsecond⟩ := hsome 0 (by decide)
  refine ⟨by decide, computer, answers, final, hcreate, hanswers, hcount,
    hnone 0 (by decide) (by decide), values, hget, ?_, ?_⟩
  · rw [hfirst]
    decide +kernel
  · rw [hsecond]
    decide +kernel

end SensorMouse.AverageComputerForService
