import SensorMouse.Lib.Blocks
import SensorMouse.Lib.Ring
import SensorMouse.Mouse.TimeBackCompute
import Mathlib.Tactic.Linarith

/-!
# Looking back

The pointer is the number of samples modulo the length of the ring, up to where the sampling thread is
in its loop. Half a ring ahead of it stands the position sampled `timeUnit` samples ago: `lookBack_law`.
Before that many samples have been taken it stands what the ring held at first.
-/

namespace SensorMouse

open Java Lib

namespace Sampler

/-- The samples the pointer has passed; the latest may be one more. -/
def passed (sampler : Sampler) : Nat :=
  match sampler.control with
  | .writePosition _ | .increment _ => sampler.samples.length - 1
  | _ => sampler.samples.length

/-- Where the pointer stands in a ring of `size` cells. -/
def slot (sampler : Sampler) (size : Nat) : Nat :=
  match sampler.control with
  | .testPointer _ => (sampler.samples.length - 1) % size + 1
  | .resetPointer _ => size
  | _ => sampler.passed % size

/-- What the thread knows between a sample and the end of its round. -/
def Stepping (sampler : Sampler) (size : Nat) : Prop :=
  match sampler.control with
  | .writePosition _ | .increment _ | .testPointer _ => 0 < sampler.samples.length
  | .resetPointer _ => 0 < sampler.samples.length ∧ sampler.samples.length % size = 0
  | _ => True

/-- The ring holds the latest samples, and the pointer goes round it. -/
structure Rings (timeUnit : Nat) (sampler : Sampler) : Prop where
  length : sampler.compute.length = (2 * timeUnit : Nat)
  holds : Ring.Holds (2 * timeUnit) (0, 0) sampler.samples sampler.compute.positionArray
  pointer : sampler.compute.pointer = sampler.slot (2 * timeUnit)
  stepping : sampler.Stepping (2 * timeUnit)

def ControlPoint.isRecord : ControlPoint → Bool
  | .record _ => true
  | _ => false

/-- What a statement leaves alone, and whether it samples. -/
structure Advances (sampler next : Sampler) (position : Int × Int) : Prop where
  goon : next.compute.goon = sampler.compute.goon
  sleepTime : next.compute.sleepTime = sampler.compute.sleepTime
  samples : next.samples =
    if sampler.control.isRecord then sampler.samples ++ [position] else sampler.samples

variable {timeUnit : Nat} {sampler next : Sampler}

theorem Rings.length_positionArray (hrings : Rings timeUnit sampler) :
    sampler.compute.positionArray.length = 2 * timeUnit := hrings.holds.length

/-- A pointer inside the ring counts the samples it has passed. -/
theorem slot_of_lt {size : Nat} (hstepping : sampler.Stepping size) (hsize : 0 < size)
    (hlt : sampler.slot size < size) : sampler.slot size = sampler.passed % size := by
  unfold Stepping at hstepping
  unfold slot passed at *
  cases hcontrol : sampler.control with
  | testPointer i =>
      simp only [hcontrol] at hlt hstepping ⊢
      obtain ⟨n, hn⟩ : ∃ n, sampler.samples.length = n + 1 :=
        ⟨sampler.samples.length - 1, by omega⟩
      rw [hn, Nat.add_sub_cancel] at hlt ⊢
      have hnot : ¬ size ∣ n + 1 := fun hdvd =>
        absurd ((Blocks.dvd_iff_mod_add_one hsize n).mp hdvd) hlt.ne
      exact (Blocks.mod_add_one_of_not_dvd hsize hnot).symm
  | resetPointer i =>
      simp only [hcontrol] at hlt
      exact absurd hlt (lt_irrefl size)
  | testGoon | testIndex i | record i | writePosition i | increment i | sleep i | exited =>
      simp only

theorem passed_le (sampler : Sampler) : sampler.passed ≤ sampler.samples.length := by
  unfold passed
  split <;> omega

theorem length_le_passed (sampler : Sampler) : sampler.samples.length ≤ sampler.passed + 1 := by
  unfold passed
  split <;> omega

theorem Sleeps.passed_eq (hsleeps : sampler.Sleeps) : sampler.passed = sampler.samples.length := by
  obtain ⟨i, hcontrol⟩ := hsleeps
  unfold passed
  rw [hcontrol]

theorem Sleeps.slot_eq (hsleeps : sampler.Sleeps) (size : Nat) :
    sampler.slot size = sampler.samples.length % size := by
  have hpassed := hsleeps.passed_eq
  obtain ⟨i, hcontrol⟩ := hsleeps
  unfold slot
  rw [hcontrol, hpassed]

theorem wrap_of_le {n : Nat} (hle : (n : Int) ≤ maxInt) : wrap (n : Int) = n := by
  refine wrap_of_inRange ⟨?_, hle⟩
  unfold minInt
  omega

/-! ### One statement -/

/-- Where the next statement leaves the thread. -/
def nextControl (sampler : Sampler) : ControlPoint :=
  match sampler.control with
  | .testGoon => if sampler.compute.goon then .testIndex 0 else .exited
  | .testIndex i => if (i : Int) < sampler.compute.length then .record i else .testGoon
  | .record i => .writePosition i
  | .writePosition i => .increment i
  | .increment i => .testPointer i
  | .testPointer i =>
      if sampler.compute.pointer = sampler.compute.length then .resetPointer i else .sleep i
  | .resetPointer i => .sleep i
  | .sleep i => .testIndex (i + 1)
  | .exited => .exited

/-- Where it leaves the pointer. -/
def nextPointer (sampler : Sampler) : Int :=
  match sampler.control with
  | .increment _ => wrap (sampler.compute.pointer + 1)
  | .resetPointer _ => 0
  | _ => sampler.compute.pointer

/-- What a statement does outside the cells of the ring, if it does not throw. -/
theorem statement_spec {position : Int × Int} (hok : sampler.statement position = .ok next) :
    next.control = sampler.nextControl ∧ Advances sampler next position ∧
      next.compute.pointer = sampler.nextPointer ∧
      next.compute.length = sampler.compute.length := by
  unfold Sampler.statement at hok
  unfold nextControl nextPointer
  cases hcontrol : sampler.control with
  | testGoon =>
      simp only [hcontrol] at hok ⊢
      by_cases hgoon : sampler.compute.goon = true
      · rw [if_pos hgoon] at hok ⊢
        obtain rfl := Except.ok.inj hok
        exact ⟨rfl, ⟨rfl, rfl, by rw [hcontrol]; rfl⟩, rfl, rfl⟩
      · rw [if_neg hgoon] at hok ⊢
        obtain rfl := Except.ok.inj hok
        exact ⟨rfl, ⟨rfl, rfl, by rw [hcontrol]; rfl⟩, rfl, rfl⟩
  | record i =>
      simp only [hcontrol] at hok ⊢
      obtain ⟨compute, hcompute, hnext⟩ := bind_eq_ok.mp hok
      obtain ⟨array, -, harray⟩ := bind_eq_ok.mp hcompute
      obtain rfl := Except.ok.inj harray
      obtain rfl := Except.ok.inj hnext
      exact ⟨rfl, ⟨rfl, rfl, by rw [hcontrol]; rfl⟩, rfl, rfl⟩
  | writePosition i =>
      simp only [hcontrol] at hok ⊢
      obtain ⟨compute, hcompute, hnext⟩ := bind_eq_ok.mp hok
      obtain ⟨read, -, hread⟩ := bind_eq_ok.mp hcompute
      obtain rfl := Except.ok.inj hread
      obtain rfl := Except.ok.inj hnext
      exact ⟨rfl, ⟨rfl, rfl, by rw [hcontrol]; rfl⟩, rfl, rfl⟩
  | sleep i =>
      simp only [hcontrol] at hok ⊢
      by_cases hnegative : sampler.compute.sleepTime < 0
      · rw [if_pos hnegative] at hok
        cases hok
      · rw [if_neg hnegative] at hok
        obtain rfl := Except.ok.inj hok
        exact ⟨rfl, ⟨rfl, rfl, by rw [hcontrol]; rfl⟩, rfl, rfl⟩
  | testIndex i | increment i | testPointer i | resetPointer i =>
      simp only [hcontrol] at hok ⊢
      obtain rfl := Except.ok.inj hok
      exact ⟨rfl, ⟨rfl, rfl, by rw [hcontrol]; rfl⟩, rfl, rfl⟩
  | exited =>
      simp only [hcontrol] at hok ⊢
      obtain rfl := Except.ok.inj hok
      exact ⟨hcontrol, ⟨rfl, rfl, by rw [hcontrol]; rfl⟩, rfl, rfl⟩

section

variable (hrings : Rings timeUnit sampler) (hpos : 1 ≤ timeUnit) {i : Nat}

include hrings hpos

theorem Rings.record (hcontrol : sampler.control = .record i) (position : Int × Int) :
    ∃ next, sampler.statement position = .ok next ∧ Rings timeUnit next := by
  have hsize : 0 < 2 * timeUnit := by omega
  have hpointer := hrings.pointer
  have hlt : sampler.samples.length % (2 * timeUnit) < sampler.compute.positionArray.length := by
    rw [hrings.length_positionArray]
    exact Nat.mod_lt _ hsize
  unfold Sampler.statement
  simp only [slot, passed, hcontrol, TimeBackCompute.record] at hpointer ⊢
  rw [hpointer, storeAt_natCast hlt]
  refine ⟨_, rfl, hrings.length, hrings.holds.write hsize position, ?_, ?_⟩
  · simp [slot, passed]
  · simp [Stepping]

theorem Rings.writePosition (hcontrol : sampler.control = .writePosition i) (position : Int × Int) :
    ∃ next, sampler.statement position = .ok next ∧ Rings timeUnit next := by
  have hpointer := hrings.pointer
  have hstepping := hrings.stepping
  have hlt : (sampler.samples.length - 1) % (2 * timeUnit) <
      sampler.compute.positionArray.length := by
    rw [hrings.length_positionArray]
    exact Nat.mod_lt _ (by omega)
  unfold Sampler.statement
  unfold Stepping at hstepping
  simp only [slot, passed, hcontrol, TimeBackCompute.writePosition] at hpointer hstepping ⊢
  rw [hpointer, loadAt_natCast, load_of_lt hlt]
  exact ⟨_, rfl, hrings.length, hrings.holds, hpointer, hstepping⟩

theorem Rings.increment (hrange : (2 * timeUnit : Nat) ≤ maxInt)
    (hcontrol : sampler.control = .increment i) (position : Int × Int) :
    ∃ next, sampler.statement position = .ok next ∧ Rings timeUnit next := by
  have hpointer := hrings.pointer
  have hstepping := hrings.stepping
  unfold Sampler.statement
  unfold Stepping at hstepping
  simp only [slot, passed, hcontrol] at hpointer hstepping ⊢
  have hnext : wrap (sampler.compute.pointer + 1) =
      ((sampler.samples.length - 1) % (2 * timeUnit) + 1 : Nat) := by
    have hlt : (sampler.samples.length - 1) % (2 * timeUnit) < 2 * timeUnit :=
      Nat.mod_lt _ (by omega)
    rw [hpointer, ← Nat.cast_succ]
    exact wrap_of_le (by omega)
  exact ⟨_, rfl, hrings.length, hrings.holds, hnext, hstepping⟩

theorem Rings.testPointer (hcontrol : sampler.control = .testPointer i) (position : Int × Int) :
    ∃ next, sampler.statement position = .ok next ∧ Rings timeUnit next := by
  have hsize : 0 < 2 * timeUnit := by omega
  have hpointer := hrings.pointer
  have hstepping := hrings.stepping
  unfold Sampler.statement
  unfold Stepping at hstepping
  simp only [slot, hcontrol] at hpointer hstepping ⊢
  obtain ⟨n, hn⟩ : ∃ n, sampler.samples.length = n + 1 := ⟨sampler.samples.length - 1, by omega⟩
  rw [hn, Nat.add_sub_cancel] at hpointer
  -- The pointer is at the end of the ring exactly after a whole number of rounds.
  have hround : sampler.compute.pointer = sampler.compute.length ↔ 2 * timeUnit ∣ n + 1 := by
    rw [hpointer, hrings.length, Blocks.dvd_iff_mod_add_one hsize n]
    exact Nat.cast_inj
  by_cases hwrap : sampler.compute.pointer = sampler.compute.length
  · rw [if_pos hwrap]
    refine ⟨_, rfl, hrings.length, hrings.holds, hwrap.trans hrings.length, hstepping, ?_⟩
    rw [hn, Nat.mod_eq_zero_of_dvd (hround.mp hwrap)]
  · rw [if_neg hwrap]
    refine ⟨_, rfl, hrings.length, hrings.holds, ?_, trivial⟩
    simp only [slot, passed]
    rw [hpointer, hn, Blocks.mod_add_one_of_not_dvd hsize (hround.not.mp hwrap)]

end

/-- A statement keeps the ring in order; only a negative sleep throws. -/
theorem Rings.statement (hrings : Rings timeUnit sampler) (hpos : 1 ≤ timeUnit)
    (hrange : (2 * timeUnit : Nat) ≤ maxInt) (position : Int × Int) :
    (sampler.Sleeps ∧ sampler.compute.sleepTime < 0 ∧
        sampler.statement position = .error .illegalArgument) ∨
      ∃ next, sampler.statement position = .ok next ∧ Rings timeUnit next ∧
        Advances sampler next position := by
  have hadvances : (∃ next, sampler.statement position = .ok next ∧ Rings timeUnit next) →
      ∃ next, sampler.statement position = .ok next ∧ Rings timeUnit next ∧
        Advances sampler next position := by
    rintro ⟨next, hok, hnext⟩
    exact ⟨next, hok, hnext, (statement_spec hok).2.1⟩
  have hpointer := hrings.pointer
  have hstepping := hrings.stepping
  unfold slot passed at hpointer
  unfold Stepping at hstepping
  cases hcontrol : sampler.control with
  | record i => exact Or.inr (hadvances (hrings.record hpos hcontrol position))
  | writePosition i => exact Or.inr (hadvances (hrings.writePosition hpos hcontrol position))
  | increment i => exact Or.inr (hadvances (hrings.increment hpos hrange hcontrol position))
  | testPointer i => exact Or.inr (hadvances (hrings.testPointer hpos hcontrol position))
  | testGoon =>
      refine Or.inr (hadvances ?_)
      unfold Sampler.statement
      simp only [hcontrol] at hpointer ⊢
      by_cases hgoon : sampler.compute.goon = true
      · rw [if_pos hgoon]
        exact ⟨_, rfl, hrings.length, hrings.holds, hpointer, trivial⟩
      · rw [if_neg hgoon]
        exact ⟨_, rfl, hrings.length, hrings.holds, hpointer, trivial⟩
  | testIndex i =>
      refine Or.inr (hadvances ?_)
      unfold Sampler.statement
      simp only [hcontrol] at hpointer ⊢
      by_cases hlt : (i : Int) < sampler.compute.length
      · rw [if_pos hlt]
        exact ⟨_, rfl, hrings.length, hrings.holds, hpointer, trivial⟩
      · rw [if_neg hlt]
        exact ⟨_, rfl, hrings.length, hrings.holds, hpointer, trivial⟩
  | resetPointer i =>
      refine Or.inr (hadvances ?_)
      unfold Sampler.statement
      simp only [hcontrol] at hstepping ⊢
      have hslot : (0 : Int) = (sampler.samples.length % (2 * timeUnit) : Nat) := by
        rw [hstepping.2]
        rfl
      exact ⟨_, rfl, hrings.length, hrings.holds, hslot, trivial⟩
  | sleep i =>
      unfold Sampler.statement
      simp only [hcontrol] at hpointer ⊢
      by_cases hnegative : sampler.compute.sleepTime < 0
      · rw [if_pos hnegative]
        exact Or.inl ⟨⟨i, hcontrol⟩, hnegative, rfl⟩
      · right
        rw [if_neg hnegative]
        exact ⟨_, rfl, ⟨hrings.length, hrings.holds, hpointer, trivial⟩, rfl, rfl,
          by rw [hcontrol]; rfl⟩
  | exited =>
      refine Or.inr (hadvances ⟨sampler, ?_, hrings⟩)
      unfold Sampler.statement
      rw [hcontrol]
      rfl

/-! ### The position found -/

/-- What stands half a ring ahead of the pointer. -/
theorem Rings.ahead (hrings : Rings timeUnit sampler) (hpos : 1 ≤ timeUnit) :
    sampler.compute.positionArray[(sampler.passed + timeUnit) % (2 * timeUnit)]? =
      if timeUnit ≤ sampler.passed then sampler.samples[sampler.passed - timeUnit]?
      else some (0, 0) := by
  have hround : 2 * timeUnit ≤ sampler.passed + timeUnit ↔ timeUnit ≤ sampler.passed := by omega
  have hentry : sampler.passed + timeUnit - 2 * timeUnit = sampler.passed - timeUnit := by omega
  rw [hrings.holds.ahead sampler.passed_le sampler.length_le_passed (by omega) (by omega), hentry]
  exact if_congr hround rfl rfl

theorem tdiv_two (timeUnit : Nat) : ((2 * timeUnit : Nat) : Int).tdiv 2 = timeUnit := by
  rw [Nat.cast_mul, Int.mul_comm]
  exact Int.mul_tdiv_cancel _ (by decide)

/-- The index of the second read, where it is an `int`. -/
theorem index_of_le {slot : Nat} (hslot : slot < 2 * timeUnit) (hle : (slot + timeUnit : Nat) ≤ maxInt) :
    (if wrap ((slot : Int) + timeUnit) ≥ (2 * timeUnit : Nat) then
      wrap (wrap ((slot : Int) + timeUnit) - (2 * timeUnit : Nat))
    else wrap ((slot : Int) + timeUnit)) = ((slot + timeUnit) % (2 * timeUnit) : Nat) := by
  rw [← Nat.cast_add, wrap_of_le hle]
  by_cases hround : 2 * timeUnit ≤ slot + timeUnit
  · rw [if_pos (Int.ofNat_le.mpr hround), ← Nat.cast_sub hround, Nat.mod_eq_sub_mod hround,
      Nat.mod_eq_of_lt (by omega)]
    refine wrap_of_le (le_trans (Int.ofNat_le.mpr ?_) hle)
    omega
  · rw [if_neg (Int.ofNat_le.not.mpr hround), Nat.mod_eq_of_lt (by omega)]

/-- Where it is not, it wraps to a negative one. -/
theorem index_of_not_le {slot : Nat} (hslot : slot < 2 * timeUnit)
    (hrange : (2 * timeUnit : Nat) ≤ maxInt) (hle : ¬ (slot + timeUnit : Nat) ≤ maxInt) :
    wrap ((slot : Int) + timeUnit) < 0 := by
  unfold maxInt at hle hrange
  unfold wrap
  omega

/-- The reads of `getTimebackPosition`: the pointer has to be in the ring, and half a ring ahead of it
an `int`. -/
theorem getTimebackPosition_eq_ok {compute next : TimeBackCompute} {slot : Nat} {back : Int × Int}
    (hlength : compute.length = (2 * timeUnit : Nat))
    (hcells : compute.positionArray.length = 2 * timeUnit) (hpointer : compute.pointer = slot)
    (hrange : (2 * timeUnit : Nat) ≤ maxInt) :
    compute.getTimebackPosition = .ok (back, next) ↔
      (slot + timeUnit : Nat) ≤ maxInt ∧ ∃ current, compute.positionArray[slot]? = some current ∧
        compute.positionArray[(slot + timeUnit) % (2 * timeUnit)]? = some back ∧
        next = compute.logged (.writeALinePair current DataLogHelper.flagClickPosition back
          DataLogHelper.flagBackPosition) := by
  unfold TimeBackCompute.getTimebackPosition
  simp only [hlength, hpointer, tdiv_two]
  constructor
  · intro hfound
    obtain ⟨current, hcurrent, hrest⟩ := bind_eq_ok.mp hfound
    obtain ⟨found, hload, hanswer⟩ := bind_eq_ok.mp hrest
    obtain ⟨rfl, rfl⟩ := Prod.mk.inj (Except.ok.inj hanswer)
    rw [loadAt_natCast, load_eq_ok] at hcurrent
    have hin : slot < 2 * timeUnit := hcells ▸ (List.getElem?_eq_some_iff.mp hcurrent).1
    by_cases hle : (slot + timeUnit : Nat) ≤ maxInt
    · rw [index_of_le hin hle, loadAt_natCast, load_eq_ok] at hload
      exact ⟨hle, current, hcurrent, hload, rfl⟩
    · have hnegative := index_of_not_le hin hrange hle
      rw [if_neg (by omega), loadAt, if_pos hnegative] at hload
      cases hload
  · rintro ⟨hle, current, hcurrent, hback, rfl⟩
    have hin : slot < 2 * timeUnit := hcells ▸ (List.getElem?_eq_some_iff.mp hcurrent).1
    refine bind_eq_ok.mpr ⟨current, ?_, bind_eq_ok.mpr ⟨back, ?_, rfl⟩⟩
    · rw [loadAt_natCast, load_eq_ok]
      exact hcurrent
    · rw [index_of_le hin hle, loadAt_natCast, load_eq_ok]
      exact hback

theorem Rings.getTimebackPosition_eq_ok (hrings : Rings timeUnit sampler) (hpos : 1 ≤ timeUnit)
    (hrange : (2 * timeUnit : Nat) ≤ maxInt) {back : Int × Int} :
    (∃ next, sampler.compute.getTimebackPosition = .ok (back, next)) ↔
      sampler.slot (2 * timeUnit) < 2 * timeUnit ∧
        (sampler.slot (2 * timeUnit) + timeUnit : Nat) ≤ maxInt ∧
        sampler.compute.positionArray[(sampler.passed + timeUnit) % (2 * timeUnit)]? = some back := by
  have hcells := hrings.length_positionArray
  have hread (next : TimeBackCompute) := @Sampler.getTimebackPosition_eq_ok timeUnit sampler.compute
    next _ back hrings.length hcells hrings.pointer hrange
  have hslot (hin : sampler.slot (2 * timeUnit) < 2 * timeUnit) :
      (sampler.slot (2 * timeUnit) + timeUnit) % (2 * timeUnit) =
        (sampler.passed + timeUnit) % (2 * timeUnit) := by
    rw [slot_of_lt hrings.stepping (by omega) hin, Nat.mod_add_mod]
  simp only [hread]
  constructor
  · rintro ⟨next, hle, current, hcurrent, hback, -⟩
    have hin : sampler.slot (2 * timeUnit) < 2 * timeUnit :=
      hcells ▸ (List.getElem?_eq_some_iff.mp hcurrent).1
    exact ⟨hin, hle, hslot hin ▸ hback⟩
  · rintro ⟨hin, hle, hback⟩
    rw [← hslot hin] at hback
    exact ⟨_, hle, _, List.getElem?_eq_getElem (by rwa [hcells]), hback, rfl⟩

/-! ### Runs -/

/-- Looking back only writes to the log. -/
theorem getTimebackPosition_frame {compute next : TimeBackCompute} {back : Int × Int}
    (hfound : compute.getTimebackPosition = .ok (back, next)) :
    ∃ made, next = compute.logged made := by
  obtain ⟨current, -, hrest⟩ := bind_eq_ok.mp hfound
  obtain ⟨found, -, hanswer⟩ := bind_eq_ok.mp hrest
  obtain ⟨-, rfl⟩ := Prod.mk.inj (Except.ok.inj hanswer)
  exact ⟨_, rfl⟩

theorem Rings.step (hrings : Rings timeUnit sampler) (hpos : 1 ≤ timeUnit)
    (hrange : (2 * timeUnit : Nat) ≤ maxInt) {event : Event}
    (hstep : sampler.step event = some next) :
    Rings timeUnit next ∧ next.compute.sleepTime = sampler.compute.sleepTime := by
  have hperform := toOption_eq_some.mp hstep
  cases event with
  | statement position =>
      rcases hrings.statement hpos hrange position with ⟨-, -, hthrown⟩ | ⟨other, hok, hnext, hsame⟩
      · rw [Sampler.perform, hthrown] at hperform
        cases hperform
      · obtain rfl := Except.ok.inj (hok.symm.trans hperform)
        exact ⟨hnext, hsame.sleepTime⟩
  | getTimebackPosition =>
      obtain ⟨⟨back, compute⟩, hfound, hanswer⟩ := bind_eq_ok.mp hperform
      obtain ⟨made, rfl⟩ := getTimebackPosition_frame hfound
      obtain rfl := Except.ok.inj hanswer
      exact ⟨⟨hrings.length, hrings.holds, hrings.pointer, hrings.stepping⟩, rfl⟩
  | stopTimeBackCompute =>
      obtain rfl := Except.ok.inj hperform
      exact ⟨⟨hrings.length, hrings.holds, hrings.pointer, hrings.stepping⟩, rfl⟩

variable {backtime : Int} {compute : TimeBackCompute}

/-- The constructor returns only where twice the unit is an `int`. -/
theorem create_spec (hpos : 1 ≤ timeUnit) (hint : (timeUnit : Int) ≤ maxInt)
    (hcreate : TimeBackCompute.create timeUnit backtime = .ok compute) :
    (2 * timeUnit : Nat) ≤ maxInt ∧ Rings timeUnit { compute := compute } ∧
      compute.sleepTime = wrap (backtime.tdiv timeUnit) ∧ compute.goon = true := by
  unfold TimeBackCompute.create TimeBackCompute.onTimeUnitChanged at hcreate
  by_cases hle : (2 * timeUnit : Nat) ≤ maxInt
  · have hlength : wrap ((timeUnit : Int) * 2) = (2 * timeUnit : Nat) := by
      rw [← wrap_of_le hle, Nat.cast_mul, Int.mul_comm]
      rfl
    have hnonneg : ¬ ((2 * timeUnit : Nat) : Int) < 0 := not_lt.mpr (Int.natCast_nonneg _)
    have hnonzero : ¬ (timeUnit : Int) = 0 := by omega
    simp only [hlength, tdiv_two, newArray, if_neg hnonneg, divide, if_neg hnonzero,
      Int.toNat_natCast, ok_bind] at hcreate
    obtain rfl := Except.ok.inj hcreate
    have hslot : ((0 : Nat) : Int) = (0 % (2 * timeUnit) : Nat) := by rw [Nat.zero_mod]
    exact ⟨hle, ⟨rfl, Ring.holds_replicate _ _, hslot, trivial⟩, rfl, rfl⟩
  · have hnegative : wrap ((timeUnit : Int) * 2) < 0 := by
      unfold maxInt at hle hint
      unfold wrap
      omega
    simp only [newArray, if_pos hnegative] at hcreate
    cases hcreate

theorem rings_run (hpos : 1 ≤ timeUnit) (hint : (timeUnit : Int) ≤ maxInt)
    (hcreate : TimeBackCompute.create timeUnit backtime = .ok compute) {events : List Event}
    {final : Sampler} (hrun : run Sampler.step { compute := compute } events = some final) :
    Rings timeUnit final ∧ final.compute.sleepTime = compute.sleepTime := by
  obtain ⟨hrange, hrings, -⟩ := create_spec hpos hint hcreate
  refine run_invariant (fun sampler => Rings timeUnit sampler ∧
    sampler.compute.sleepTime = compute.sleepTime) ⟨hrings, rfl⟩ ?_ hrun
  rintro current label next ⟨hcurrent, hsleep⟩ hstep
  obtain ⟨hnext, hsame⟩ := hcurrent.step hpos hrange hstep
  exact ⟨hnext, hsame.trans hsleep⟩

/-! ### The law -/

/-- Samples `sleepTime` apart: how old the position sampled `timeUnit` samples ago is during the sleep
after the latest one. -/
theorem age_bounds {sleepTime backtime : Int} (hpos : 1 ≤ timeUnit)
    (hsleep : sleepTime = backtime / timeUnit) {n : Nat} (hn : timeUnit ≤ n) {first now : ℚ}
    (hfrom : first + ((n : ℚ) - 1) * sleepTime ≤ now) (hto : now ≤ first + n * sleepTime) :
    now - (first + ((n - timeUnit : Nat) : ℚ) * sleepTime) ≤ backtime ∧
      (backtime : ℚ) - timeUnit - sleepTime <
        now - (first + ((n - timeUnit : Nat) : ℚ) * sleepTime) := by
  have hunit : (0 : Int) < timeUnit := by omega
  have hfloor : (timeUnit : Int) * sleepTime ≤ backtime := by
    rw [hsleep, Int.mul_comm]
    exact Int.ediv_mul_le _ hunit.ne'
  have hceil : backtime < timeUnit * sleepTime + timeUnit := by
    rw [hsleep]
    have hlt := Int.lt_ediv_add_one_mul_self backtime hunit
    rw [add_mul, one_mul, Int.mul_comm] at hlt
    exact hlt
  have hfloor' : (timeUnit : ℚ) * sleepTime ≤ backtime := by exact_mod_cast hfloor
  have hceil' : (backtime : ℚ) < timeUnit * sleepTime + timeUnit := by exact_mod_cast hceil
  rw [Nat.cast_sub hn]
  constructor
  · linarith
  · linarith

/-- **The look-back law.** While the thread sleeps after sample `n`, the position found is the one of
`timeUnit` samples ago, exactly if the index of the read is an `int`. -/
theorem lookBack_law (hpos : 1 ≤ timeUnit) (hlength : (2 * timeUnit : Nat) ≤ maxInt)
    (hbacktime : 0 ≤ backtime) (hint : backtime ≤ maxInt)
    (hcreate : TimeBackCompute.create timeUnit backtime = .ok compute) {events : List Event}
    {final : Sampler} (hrun : run Sampler.step { compute := compute } events = some final)
    (hsleeps : final.Sleeps) (hn : timeUnit ≤ final.samples.length) :
    (∃ back next, final.compute.getTimebackPosition = .ok (back, next) ∧
      final.samples[final.samples.length - timeUnit]? = some back ∧
      final.compute.sleepTime = backtime / timeUnit ∧
      ∀ first now : ℚ,
        first + ((final.samples.length : ℚ) - 1) * final.compute.sleepTime ≤ now →
        now ≤ first + final.samples.length * final.compute.sleepTime →
        let age := now - (first + ((final.samples.length - timeUnit : Nat) : ℚ) *
          final.compute.sleepTime)
        age ≤ backtime ∧ (backtime : ℚ) - timeUnit - final.compute.sleepTime < age) ↔
      (final.samples.length % (2 * timeUnit) + timeUnit : Nat) ≤ maxInt := by
  have hunit : (timeUnit : Int) ≤ maxInt := by omega
  obtain ⟨hrings, hsame⟩ := rings_run hpos hunit hcreate hrun
  have hsleep : final.compute.sleepTime = backtime / timeUnit := by
    have hdiv : backtime / (timeUnit : Int) ≤ backtime := Int.ediv_le_self _ hbacktime
    have hnonneg : 0 ≤ backtime / (timeUnit : Int) := Int.ediv_nonneg hbacktime (by omega)
    rw [hsame, (create_spec hpos hunit hcreate).2.2.1, Int.tdiv_eq_ediv_of_nonneg hbacktime]
    refine wrap_of_inRange ⟨?_, hdiv.trans hint⟩
    unfold minInt
    omega
  have hfound (back : Int × Int) := @Rings.getTimebackPosition_eq_ok _ _ hrings hpos hlength back
  have hahead := hrings.ahead hpos
  have hslot := hsleeps.slot_eq (2 * timeUnit)
  have hlt : final.samples.length % (2 * timeUnit) < 2 * timeUnit := Nat.mod_lt _ (by omega)
  rw [hsleeps.passed_eq, if_pos hn] at hahead
  simp only [hsleeps.passed_eq, hahead, hslot] at hfound
  constructor
  · rintro ⟨back, next, hback, -⟩
    exact ((hfound back).mp ⟨next, hback⟩).2.1
  · intro hle
    have hentry : final.samples.length - timeUnit < final.samples.length := by omega
    obtain ⟨next, hback⟩ := (hfound _).mpr ⟨hlt, hle, List.getElem?_eq_getElem hentry⟩
    exact ⟨_, next, hback, List.getElem?_eq_getElem hentry, hsleep, fun first now =>
      age_bounds hpos hsleep hn⟩

/-- Two samples of a unit of two have been stepped over, and a third. -/
theorem lookBack_law_third :
    ∃ compute final back next, TimeBackCompute.create 2 7 = .ok compute ∧
      run Sampler.step { compute := compute }
        ((List.range 18).map fun k => .statement (k, k)) = some final ∧ final.Sleeps ∧
      final.compute.getTimebackPosition = .ok (back, next) ∧ back = (8, 8) ∧
      final.compute.sleepTime = 3 := by
  have hpos : 1 ≤ 2 := by decide
  obtain ⟨compute, hcreate⟩ : ∃ compute, TimeBackCompute.create 2 7 = .ok compute := ⟨_, rfl⟩
  obtain ⟨final, hrun, hsleeps, hsamples⟩ : ∃ final, run Sampler.step { compute := compute }
      ((List.range 18).map fun k => .statement (k, k)) = some final ∧ final.Sleeps ∧
        final.samples = [(2, 2), (8, 8), (14, 14)] := by
    obtain rfl := Except.ok.inj hcreate
    exact ⟨_, rfl, ⟨2, rfl⟩, rfl⟩
  obtain ⟨back, next, hback, hentry, hsleep, -⟩ :=
    (lookBack_law hpos (by decide) (by decide) (by decide) hcreate hrun hsleeps
      (by rw [hsamples]; decide)).mpr (by rw [hsamples]; decide)
  rw [hsamples] at hentry
  exact ⟨compute, final, back, next, hcreate, hrun, hsleeps, hback, (Option.some.inj hentry).symm,
    hsleep⟩

/-! ### Runs of any length -/

/-- A thread that nothing stops. -/
structure Lives (timeUnit : Nat) (sampler : Sampler) : Prop where
  rings : Rings timeUnit sampler
  goon : sampler.compute.goon = true
  sleepTime : 0 ≤ sampler.compute.sleepTime

/-- It can come to sleep after sample `n`. -/
def Reaches (timeUnit n : Nat) (sampler : Sampler) : Prop :=
  ∃ events final, run Sampler.step sampler events = some final ∧ Lives timeUnit final ∧
    final.Sleeps ∧ final.samples.length = n

section

variable {n : Nat} (hpos : 1 ≤ timeUnit) (hrange : (2 * timeUnit : Nat) ≤ maxInt)

include hpos hrange

theorem Lives.reaches_of_next (hlives : Lives timeUnit sampler)
    (hnext : ∀ next, Lives timeUnit next → next.control = sampler.nextControl →
      next.samples = (if sampler.control.isRecord then sampler.samples ++ [(0, 0)]
        else sampler.samples) → Reaches timeUnit n next) : Reaches timeUnit n sampler := by
  rcases hlives.rings.statement hpos hrange (0, 0) with ⟨-, hnegative, -⟩ | ⟨next, hok, hrings, hsame⟩
  · exact absurd hnegative (not_lt.mpr hlives.sleepTime)
  · have hnextLives : Lives timeUnit next :=
      ⟨hrings, hsame.goon.trans hlives.goon, hsame.sleepTime ▸ hlives.sleepTime⟩
    obtain ⟨events, final, hrun, hfinal⟩ :=
      hnext next hnextLives (statement_spec hok).1 hsame.samples
    refine ⟨.statement (0, 0) :: events, final, (run_cons_eq_some _).mpr ⟨next, ?_, hrun⟩, hfinal⟩
    exact toOption_eq_some.mpr hok

theorem Lives.reaches_of_testPointer (hlives : Lives timeUnit sampler) {i : Nat}
    (hcontrol : sampler.control = .testPointer i) :
    Reaches timeUnit sampler.samples.length sampler := by
  have hsleep : ∀ other : Sampler, Lives timeUnit other → other.samples = sampler.samples →
      other.control = .sleep i → Reaches timeUnit sampler.samples.length other :=
    fun other hother hsamples hsleeps =>
      ⟨[], other, rfl, hother, ⟨i, hsleeps⟩, congrArg List.length hsamples⟩
  refine hlives.reaches_of_next hpos hrange fun next hnext hnextControl hsamples => ?_
  rw [nextControl, hcontrol] at hnextControl
  rw [hcontrol] at hsamples
  by_cases hround : sampler.compute.pointer = sampler.compute.length
  · simp only [if_pos hround] at hnextControl
    refine hnext.reaches_of_next hpos hrange fun last hlast hlastControl hlastSamples => ?_
    rw [nextControl, hnextControl] at hlastControl
    rw [hnextControl] at hlastSamples
    exact hsleep last hlast (hlastSamples.trans hsamples) hlastControl
  · simp only [if_neg hround] at hnextControl
    exact hsleep next hnext hsamples hnextControl

theorem Lives.reaches_of_record (hlives : Lives timeUnit sampler) {i : Nat}
    (hcontrol : sampler.control = .record i) :
    Reaches timeUnit (sampler.samples.length + 1) sampler := by
  refine hlives.reaches_of_next hpos hrange fun wrote hwrote hwroteControl hwroteSamples => ?_
  rw [nextControl, hcontrol] at hwroteControl
  rw [hcontrol] at hwroteSamples
  refine hwrote.reaches_of_next hpos hrange fun logged hlogged hloggedControl hloggedSamples => ?_
  rw [nextControl, hwroteControl] at hloggedControl
  rw [hwroteControl] at hloggedSamples
  refine hlogged.reaches_of_next hpos hrange fun passed hpassed hpassedControl hpassedSamples => ?_
  rw [nextControl, hloggedControl] at hpassedControl
  rw [hloggedControl] at hpassedSamples
  have hlength : passed.samples.length = sampler.samples.length + 1 := by
    rw [hpassedSamples.trans (hloggedSamples.trans hwroteSamples)]
    exact List.length_append
  exact hlength ▸ hpassed.reaches_of_testPointer hpos hrange hpassedControl

theorem Lives.reaches_of_testGoon (hlives : Lives timeUnit sampler)
    (hcontrol : sampler.control = .testGoon) :
    Reaches timeUnit (sampler.samples.length + 1) sampler := by
  refine hlives.reaches_of_next hpos hrange fun tested htested htestedControl htestedSamples => ?_
  rw [nextControl, hcontrol] at htestedControl
  rw [hcontrol] at htestedSamples
  simp only [if_pos hlives.goon] at htestedControl
  refine htested.reaches_of_next hpos hrange fun next hnext hnextControl hsamples => ?_
  rw [nextControl, htestedControl] at hnextControl
  rw [htestedControl] at hsamples
  have hzero : ((0 : Nat) : Int) < tested.compute.length := by
    rw [htested.rings.length]
    exact_mod_cast (by omega : 0 < 2 * timeUnit)
  simp only [if_pos hzero] at hnextControl
  have hrecord := hnext.reaches_of_record hpos hrange hnextControl
  rwa [hsamples.trans htestedSamples] at hrecord

/-- The next sleep comes one sample later. -/
theorem Lives.reaches_of_sleeps (hlives : Lives timeUnit sampler) (hsleeps : sampler.Sleeps) :
    Reaches timeUnit (sampler.samples.length + 1) sampler := by
  obtain ⟨i, hcontrol⟩ := hsleeps
  refine hlives.reaches_of_next hpos hrange fun woken hwoken hwokenControl hwokenSamples => ?_
  rw [nextControl, hcontrol] at hwokenControl
  rw [hcontrol] at hwokenSamples
  refine hwoken.reaches_of_next hpos hrange fun next hnext hnextControl hsamples => ?_
  rw [nextControl, hwokenControl] at hnextControl
  rw [hwokenControl] at hsamples
  have hlength : next.samples.length = sampler.samples.length :=
    congrArg List.length (hsamples.trans hwokenSamples)
  by_cases hlt : ((i + 1 : Nat) : Int) < woken.compute.length
  · simp only [if_pos hlt] at hnextControl
    exact hlength ▸ hnext.reaches_of_record hpos hrange hnextControl
  · simp only [if_neg hlt] at hnextControl
    exact hlength ▸ hnext.reaches_of_testGoon hpos hrange hnextControl

/-- The thread can take any number of samples. -/
theorem Lives.reaches (hlives : Lives timeUnit sampler) (hcontrol : sampler.control = .testGoon)
    (hsamples : sampler.samples = []) (n : Nat) : Reaches timeUnit (n + 1) sampler := by
  induction n with
  | zero =>
      have hfirst := hlives.reaches_of_testGoon hpos hrange hcontrol
      rwa [hsamples] at hfirst
  | succ n ih =>
      obtain ⟨events, middle, hrun, hmiddle, hsleeps, hlength⟩ := ih
      obtain ⟨more, final, hmore, hfinal⟩ := hmiddle.reaches_of_sleeps hpos hrange hsleeps
      rw [hlength] at hfinal
      refine ⟨events ++ more, final, ?_, hfinal⟩
      rw [run_append, hrun]
      exact hmore

end

theorem exists_create (hpos : 1 ≤ timeUnit) (hrange : (2 * timeUnit : Nat) ≤ maxInt)
    (backtime : Int) : ∃ compute, TimeBackCompute.create timeUnit backtime = .ok compute := by
  have hlength : wrap ((timeUnit : Int) * 2) = (2 * timeUnit : Nat) := by
    rw [← wrap_of_le hrange, Nat.cast_mul, Int.mul_comm]
    rfl
  have hnonneg : ¬ ((2 * timeUnit : Nat) : Int) < 0 := not_lt.mpr (Int.natCast_nonneg _)
  have hnonzero : ¬ (timeUnit : Int) = 0 := by omega
  unfold TimeBackCompute.create TimeBackCompute.onTimeUnitChanged
  simp only [hlength, tdiv_two, newArray, if_neg hnonneg, divide, if_neg hnonzero, ok_bind]
  exact ⟨_, rfl⟩

/-- Three halves of the ring are more than an `int`: the read throws near the end of the ring. -/
theorem lookBack_overflows :
    ¬ ∀ (timeUnit : Nat) (backtime : Int) (compute : TimeBackCompute) (events : List Event)
        (final : Sampler), 1 ≤ timeUnit → (2 * timeUnit : Nat) ≤ maxInt → 0 ≤ backtime →
      backtime ≤ maxInt → TimeBackCompute.create timeUnit backtime = .ok compute →
      run Sampler.step { compute := compute } events = some final → final.Sleeps →
      timeUnit ≤ final.samples.length →
      ∃ back next, final.compute.getTimebackPosition = .ok (back, next) ∧
        final.samples[final.samples.length - timeUnit]? = some back := by
  intro hclaim
  have hpos : 1 ≤ 715827883 := by decide
  have hrange : (2 * 715827883 : Nat) ≤ maxInt := by decide
  obtain ⟨compute, hcreate⟩ := exists_create hpos hrange 0
  obtain ⟨-, hrings, hsleep, hgoon⟩ := create_spec hpos (by decide) hcreate
  have hlives : Lives 715827883 { compute := compute } := ⟨hrings, hgoon, by rw [hsleep]; decide⟩
  obtain ⟨events, final, hrun, hfinal, hsleeps, hsamples⟩ :=
    hlives.reaches hpos hrange rfl rfl 1431655764
  obtain ⟨back, next, hback, -⟩ := hclaim 715827883 0 compute events final hpos hrange le_rfl
    (by decide) hcreate hrun hsleeps (by rw [hsamples]; decide)
  have hindex := ((hfinal.rings.getTimebackPosition_eq_ok hpos hrange).mp ⟨next, hback⟩).2.1
  rw [hsleeps.slot_eq, hsamples] at hindex
  exact absurd hindex (by decide)

end Sampler

end SensorMouse
