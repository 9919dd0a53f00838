import SensorMouse.Mouse.SampledMouse
import SensorMouse.Proof.BlockLaw
import SensorMouse.Proof.LookBack

/-!
# Which settings are safe

The screens accept any `int`. Each of the four settings has values with which some call throws, and
`timeUnit` has them at both ends: the index of the look-back is a sum that the length of the ring does
not bound.
-/

namespace SensorMouse

open Java Lib AverageComputerForService

/-! ### The ring, one round at a time -/

namespace Sampler

/-- The pointer stands in the ring. -/
structure Turns (unit slot : Nat) (compute : TimeBackCompute) : Prop where
  length : compute.length = (2 * unit : Nat)
  cells : compute.positionArray.length = 2 * unit
  pointer : compute.pointer = slot
  lt : slot < 2 * unit

variable {unit slot : Nat} {compute : TimeBackCompute}

/-- A round moves the pointer on by one cell. -/
theorem Turns.sample (hturns : Turns unit slot compute) (hrange : (2 * unit : Nat) ≤ maxInt)
    (position : Int × Int) :
    ∃ next, compute.sample position = .ok next ∧ Turns unit ((slot + 1) % (2 * unit)) next ∧
      next.sleepTime = compute.sleepTime := by
  obtain ⟨hlength, hcells, hpointer, hlt⟩ := hturns
  have hlt' : slot < compute.positionArray.length := by rwa [hcells]
  have hset : slot < (compute.positionArray.set slot position).length := by rwa [List.length_set]
  have hnext : wrap ((slot : Int) + 1) = (slot + 1 : Nat) := by
    rw [← Nat.cast_succ]
    exact wrap_of_le (by omega)
  unfold TimeBackCompute.sample TimeBackCompute.record TimeBackCompute.writePosition
    TimeBackCompute.increment TimeBackCompute.logged
  simp only [hpointer, storeAt_natCast hlt', ok_bind, pure, Except.pure, loadAt_natCast,
    load_of_lt hset, hnext, hlength]
  by_cases hround : slot + 1 = 2 * unit
  · rw [if_pos (congrArg _ hround), hround, Nat.mod_self]
    refine ⟨_, rfl, ⟨rfl, ?_, rfl, by omega⟩, rfl⟩
    exact List.length_set.trans hcells
  · rw [if_neg (Nat.cast_injective.ne hround), Nat.mod_eq_of_lt (by omega)]
    refine ⟨_, rfl, ⟨rfl, ?_, rfl, by omega⟩, rfl⟩
    exact List.length_set.trans hcells

/-- The two reads are in the ring unless the sum of the index leaves the type. -/
theorem Turns.getTimebackPosition_iff (hturns : Turns unit slot compute)
    (hrange : (2 * unit : Nat) ≤ maxInt) :
    (∃ back next, compute.getTimebackPosition = .ok (back, next)) ↔
      (slot + unit : Nat) ≤ maxInt := by
  obtain ⟨hlength, hcells, hpointer, hlt⟩ := hturns
  have hahead : (slot + unit) % (2 * unit) < 2 * unit := Nat.mod_lt _ (by omega)
  simp only [getTimebackPosition_eq_ok hlength hcells hpointer hrange]
  constructor
  · rintro ⟨back, next, hle, -⟩
    exact hle
  · intro hle
    exact ⟨_, _, hle, _, List.getElem?_eq_getElem (by rwa [hcells]),
      List.getElem?_eq_getElem (by rwa [hcells]), rfl⟩

theorem Turns.of_logged (hturns : Turns unit slot compute) (made : DataLogHelper.Call) :
    Turns unit slot (compute.logged made) :=
  ⟨hturns.length, hturns.cells, hturns.pointer, hturns.lt⟩

/-! ### The constructor -/

/-- The unit doubled is the length of an array and half of that a divisor. -/
theorem pos_of_create {timeUnit backtime : Int} (hunit : |timeUnit| < 2 ^ 30)
    (hcreate : TimeBackCompute.create timeUnit backtime = .ok compute) : 1 ≤ timeUnit := by
  obtain ⟨hlower, hupper⟩ := abs_lt.mp hunit
  have hlength : wrap (timeUnit * 2) = timeUnit * 2 := by
    refine wrap_of_inRange ⟨?_, ?_⟩
    · unfold minInt
      omega
    · unfold maxInt
      omega
  unfold TimeBackCompute.create TimeBackCompute.onTimeUnitChanged at hcreate
  rw [hlength] at hcreate
  rcases lt_trichotomy timeUnit 0 with hneg | rfl | hpos
  · have hdouble : timeUnit * 2 < 0 := by omega
    simp only [newArray, if_pos hdouble] at hcreate
    cases hcreate
  · cases hcreate
  · exact hpos

theorem turns_create {backtime : Int} (hpos : 1 ≤ unit) (hint : (unit : Int) ≤ maxInt)
    (hcreate : TimeBackCompute.create unit backtime = .ok compute) : Turns unit 0 compute := by
  obtain ⟨-, hrings, -⟩ := create_spec hpos hint hcreate
  have hslot : (0 % (2 * unit) : Nat) = 0 := Nat.zero_mod _
  refine ⟨hrings.length, hrings.length_positionArray, ?_, by omega⟩
  rw [← hslot]
  exact hrings.pointer

/-- The quotient rounds toward zero, so it is negative only from `-timeUnit` down. -/
theorem sleepTime_nonneg_iff {backtime : Int} (hpos : 1 ≤ unit) (hrange : InRange backtime) :
    0 ≤ wrap (backtime.tdiv unit) ↔ -(unit : Int) < backtime := by
  obtain ⟨hlower, hupper⟩ := hrange
  have hunit : (0 : Int) < unit := by omega
  rcases le_or_gt 0 backtime with hnonneg | hneg
  · have hquotient : 0 ≤ backtime.tdiv unit := Int.tdiv_nonneg hnonneg hunit.le
    have hle : backtime.tdiv unit ≤ backtime := by
      rw [Int.tdiv_eq_ediv_of_nonneg hnonneg]
      exact Int.ediv_le_self _ hnonneg
    rw [wrap_of_inRange ⟨by unfold minInt; omega, hle.trans hupper⟩]
    exact iff_of_true hquotient (by omega)
  · have hflip : backtime.tdiv unit = -((-backtime) / unit) := by
      rw [← Int.tdiv_eq_ediv_of_nonneg (by omega), Int.neg_tdiv, neg_neg]
    have hnonneg : 0 ≤ -backtime / (unit : Int) := Int.ediv_nonneg (by omega) hunit.le
    have hle : -backtime / (unit : Int) ≤ -backtime := Int.ediv_le_self _ (by omega)
    rw [hflip, wrap_of_inRange ⟨by unfold minInt at *; omega, by unfold maxInt; omega⟩]
    have hsmall : -backtime / (unit : Int) ≤ 0 ↔ -backtime < unit := by
      rw [← Int.lt_add_one_iff, zero_add, Int.ediv_lt_iff_lt_mul hunit, one_mul]
    omega

end Sampler

namespace StoredSettings

/-- What the screens should check. -/
def Proper (stored : StoredSettings) : Prop :=
  1 ≤ stored.averageNum ∧ 1 ≤ stored.timeUnit ∧ -stored.timeUnit < stored.backtime ∧
    0 ≤ stored.timewait

instance (stored : StoredSettings) : Decidable stored.Proper := inferInstanceAs (Decidable (_ ∧ _))

end StoredSettings

namespace SampledMouse

variable {F : Type} [JavaFloat F]

/-! ### A call that does not throw -/

/-- What every call of a safe run finds. -/
structure Sound (size unit : Nat) (sampled : SampledMouse F) : Prop where
  window : ∃ m o d samples, Window size m o d samples sampled.mouse.computer
  timewait : 0 ≤ sampled.mouse.timewait
  turns : ∃ slot, Sampler.Turns unit slot sampled.compute
  sleepTime : 0 ≤ sampled.compute.sleepTime

variable {size unit : Nat} {sampled next : SampledMouse F} {event : Event F}

theorem Sound.sensorCallback (hsound : Sound size unit sampled) (hsize : 1 ≤ size) (x y z : F) :
    ∃ mouse, sampled.mouse.sensorCallback sampled.isPortrait x y z = .ok mouse ∧
      Sound size unit { sampled with mouse := mouse } := by
  obtain ⟨⟨m, o, d, samples, hwindow⟩, hwait, hturns, hsleep⟩ := hsound
  by_cases haccepts : sampled.mouse.Accepts
  · obtain ⟨position, computer, hcompute, hnext, -⟩ := hwindow.exists_answered hsize (x, y)
    refine ⟨_, (MouseManager.sensorCallback_eq_ok haccepts).mpr ⟨position, computer, hcompute, rfl⟩,
      ?_⟩
    cases position with
    | none => exact ⟨⟨m, o, d, _, hnext⟩, hwait, hturns, hsleep⟩
    | some values => exact ⟨⟨m, o, d, _, hnext⟩, hwait, hturns, hsleep⟩
  · exact ⟨sampled.mouse, MouseManager.sensorCallback_of_not_accepts haccepts _ x y z,
      ⟨m, o, d, samples, hwindow⟩, hwait, hturns, hsleep⟩

omit [JavaFloat F] in
/-- A round ends with a sleep that is not refused. -/
theorem exists_iterate {slot : Nat} (hturns : Sampler.Turns unit slot sampled.compute)
    (hrange : (2 * unit : Nat) ≤ maxInt) (hsleep : 0 ≤ sampled.compute.sleepTime) :
    ∃ compute, sampled.iterate = .ok { sampled with compute := compute } ∧
      Sampler.Turns unit ((slot + 1) % (2 * unit)) compute ∧ 0 ≤ compute.sleepTime := by
  obtain ⟨compute, hsample, hnext, hsame⟩ := hturns.sample hrange sampled.mouse.getPositon
  have hsleep' : 0 ≤ compute.sleepTime := hsame ▸ hsleep
  refine ⟨compute, ?_, hnext, hsleep'⟩
  unfold SampledMouse.iterate
  rw [hsample, ok_bind, if_neg (not_lt.mpr hsleep')]

/-- The invariant of safe runs: no call throws, and the next finds the same. -/
theorem Sound.perform (hsound : Sound size unit sampled) (hsize : 1 ≤ size)
    (hrange : (3 * unit : Nat) ≤ maxInt) (event : Event F) :
    ∃ next, sampled.perform event = .ok next ∧ Sound size unit next := by
  have hdouble : (2 * unit : Nat) ≤ maxInt := le_trans (Int.ofNat_le.mpr (by omega)) hrange
  cases event with
  | sensorCallback x y z =>
      obtain ⟨mouse, hmouse, hnext⟩ := hsound.sensorCallback hsize x y z
      exact ⟨_, bind_eq_ok.mpr ⟨mouse, hmouse, rfl⟩, hnext⟩
  | iterate =>
      obtain ⟨hwindow, hwait, ⟨slot, hturns⟩, hsleep⟩ := hsound
      obtain ⟨compute, hiterate, hnext, hsleep'⟩ := exists_iterate hturns hdouble hsleep
      exact ⟨_, hiterate, hwindow, hwait, ⟨_, hnext⟩, hsleep'⟩
  | getTimebackPosition =>
      obtain ⟨hwindow, hwait, ⟨slot, hturns⟩, hsleep⟩ := hsound
      have hindex : (slot + unit : Nat) ≤ maxInt := by
        have hlt := hturns.lt
        exact le_trans (Int.ofNat_le.mpr (by omega)) hrange
      obtain ⟨back, compute, hfound⟩ := (hturns.getTimebackPosition_iff hdouble).mpr hindex
      obtain ⟨made, rfl⟩ := Sampler.getTimebackPosition_frame hfound
      exact ⟨_, bind_eq_ok.mpr ⟨_, hfound, rfl⟩, hwindow, hwait, ⟨slot, hturns.of_logged made⟩,
        hsleep⟩
  | lockMouseAWhile x y =>
      obtain ⟨hwindow, hwait, hturns, hsleep⟩ := hsound
      refine ⟨_, bind_eq_ok.mpr ⟨_, MouseManager.lockMouseAWhile_eq_ok.mpr ⟨fun _ => hwait, rfl⟩,
        rfl⟩, ?_⟩
      exact ⟨hwindow, hwait, hturns, hsleep⟩
  | unlock entry =>
      exact ⟨_, rfl, hsound.window, hsound.timewait, hsound.turns, hsound.sleepTime⟩

theorem sound_run (hsize : 1 ≤ size) (hrange : (3 * unit : Nat) ≤ maxInt)
    {start final : SampledMouse F} {events : List (Event F)} (hstart : Sound size unit start)
    (hrun : run step start events = some final) : Sound size unit final := by
  refine run_invariant (Sound size unit) hstart (fun current event next hcurrent hstep => ?_) hrun
  obtain ⟨other, hother, hsound⟩ := hcurrent.perform hsize hrange event
  obtain rfl := Except.ok.inj (hother.symm.trans (perform_of_step hstep))
  exact hsound

/-! ### A call that does -/

/-- The sampler alone brings the pointer to every cell of the ring. -/
theorem reaches_slot (hturns : Sampler.Turns unit 0 sampled.compute)
    (hsleep : 0 ≤ sampled.compute.sleepTime) (hrange : (2 * unit : Nat) ≤ maxInt) {slot : Nat}
    (hlt : slot < 2 * unit) :
    ∃ final, run step sampled (List.replicate slot .iterate) = some final ∧
      Sampler.Turns unit slot final.compute ∧ 0 ≤ final.compute.sleepTime := by
  induction slot with
  | zero => exact ⟨sampled, rfl, hturns, hsleep⟩
  | succ slot ih =>
      obtain ⟨middle, hrun, hmiddle, hmiddleSleep⟩ := ih (by omega)
      obtain ⟨compute, hiterate, hnext, hnextSleep⟩ := exists_iterate hmiddle hrange hmiddleSleep
      rw [Nat.mod_eq_of_lt hlt] at hnext
      refine ⟨{ middle with compute := compute }, ?_, hnext, hnextSleep⟩
      rw [List.replicate_succ']
      exact (run_concat_eq_some _).mpr ⟨middle, hrun, toOption_eq_some.mpr hiterate⟩

theorem pos_of_sensorCallback {m : F} {o d : Int}
    (hwindow : Window size m o d [] sampled.mouse.computer) (haccepts : sampled.mouse.Accepts)
    {x y z : F} (hperform : sampled.perform (.sensorCallback x y z) = .ok next) : 0 < size := by
  obtain ⟨mouse, hmouse, -⟩ := bind_eq_ok.mp hperform
  obtain ⟨position, computer, hvalue, -⟩ := (MouseManager.sensorCallback_eq_ok haccepts).mp hmouse
  exact hwindow.pos_of_computeValue hvalue

theorem sleepTime_nonneg_of_iterate {slot : Nat} (hturns : Sampler.Turns unit slot sampled.compute)
    (hrange : (2 * unit : Nat) ≤ maxInt) (hperform : sampled.perform .iterate = .ok next) :
    0 ≤ sampled.compute.sleepTime := by
  obtain ⟨compute, hsample, -, hsame⟩ := hturns.sample hrange sampled.mouse.getPositon
  obtain ⟨other, hother, hslept⟩ := bind_eq_ok.mp hperform
  obtain rfl := Except.ok.inj (hsample.symm.trans hother)
  rw [← hsame]
  by_contra hneg
  rw [if_pos (not_le.mp hneg)] at hslept
  cases hslept

theorem timewait_nonneg_of_lockMouseAWhile {x y : Int}
    (hperform : sampled.perform (.lockMouseAWhile x y) = .ok next) :
    0 ≤ sampled.mouse.timewait := by
  obtain ⟨mouse, hmouse, -⟩ := bind_eq_ok.mp hperform
  exact (MouseManager.lockMouseAWhile_eq_ok.mp hmouse).1 rfl

theorem index_of_getTimebackPosition {slot : Nat} (hturns : Sampler.Turns unit slot sampled.compute)
    (hrange : (2 * unit : Nat) ≤ maxInt)
    (hperform : sampled.perform .getTimebackPosition = .ok next) :
    (slot + unit : Nat) ≤ maxInt := by
  obtain ⟨⟨back, compute⟩, hfound, -⟩ := bind_eq_ok.mp hperform
  exact (hturns.getTimebackPosition_iff hrange).mp ⟨back, compute, hfound⟩

/-! ### The settings -/

section

variable (screenWidth screenHeight : Int) (magnification : F) (offset direction : Int)
  (isPortrait : Bool) (stored : StoredSettings)

/-- The constructors return, and after every run every further call does. -/
def NeverRaises : Prop :=
  ∃ start, create screenWidth screenHeight magnification offset direction isPortrait stored =
      .ok start ∧
    ∀ (events : List (Event F)) (final : SampledMouse F), run step start events = some final →
      ∀ event, ∃ next, final.perform event = .ok next

end

variable {screenWidth screenHeight : Int} {magnification : F} {offset direction : Int}
  {isPortrait : Bool} {stored : StoredSettings}

theorem create_eq_ok :
    create screenWidth screenHeight magnification offset direction isPortrait stored = .ok sampled ↔
      ∃ mouse compute, MouseManager.create screenWidth screenHeight stored.averageNum magnification
          offset direction stored.timeUnit stored.backtime stored.timewait = .ok mouse ∧
        TimeBackCompute.create stored.timeUnit stored.backtime = .ok compute ∧
        sampled = { isPortrait := isPortrait, mouse := mouse.startMouse, compute := compute } := by
  have hasked (mouse : MouseManager F) (hmouse : MouseManager.create screenWidth screenHeight
      stored.averageNum magnification offset direction stored.timeUnit stored.backtime
      stored.timewait = .ok mouse) :
      mouse.timeUnit = stored.timeUnit ∧ mouse.backtime = stored.backtime := by
    obtain ⟨computer, -, hbuilt⟩ := bind_eq_ok.mp hmouse
    obtain rfl := Except.ok.inj hbuilt
    exact ⟨rfl, rfl⟩
  constructor
  · intro hcreate
    obtain ⟨mouse, hmouse, hrest⟩ := bind_eq_ok.mp hcreate
    obtain ⟨compute, hcompute, hsampled⟩ := bind_eq_ok.mp hrest
    rw [(hasked mouse hmouse).1, (hasked mouse hmouse).2] at hcompute
    exact ⟨mouse, compute, hmouse, hcompute, (Except.ok.inj hsampled).symm⟩
  · rintro ⟨mouse, compute, hmouse, hcompute, rfl⟩
    rw [← (hasked mouse hmouse).1, ← (hasked mouse hmouse).2] at hcompute
    exact bind_eq_ok.mpr ⟨mouse, hmouse, bind_eq_ok.mpr ⟨compute, hcompute, rfl⟩⟩

/-- What the constructors leave, where they return. -/
theorem spec_of_create {n : Nat} (hnum : stored.averageNum = n) (hunit : stored.timeUnit = unit)
    (hpos : 1 ≤ unit)
    (hcreate : create screenWidth screenHeight magnification offset direction isPortrait stored =
      .ok sampled) :
    Window n magnification offset direction [] sampled.mouse.computer ∧ sampled.mouse.Accepts ∧
      sampled.mouse.timewait = stored.timewait ∧ Sampler.Turns unit 0 sampled.compute ∧
      (0 ≤ sampled.compute.sleepTime ↔ -stored.timeUnit < stored.backtime) := by
  obtain ⟨mouse, compute, hmouse, hcompute, rfl⟩ := create_eq_ok.mp hcreate
  obtain ⟨computer, hcomputer, hbuilt⟩ := bind_eq_ok.mp hmouse
  obtain rfl := Except.ok.inj hbuilt
  have hint : (unit : Int) ≤ maxInt := hunit ▸ stored.timeUnit_inRange.2
  rw [hnum] at hcomputer
  rw [hunit] at hcompute ⊢
  refine ⟨window_create hcomputer, rfl, rfl, Sampler.turns_create hpos hint hcompute, ?_⟩
  rw [(Sampler.create_spec hpos hint hcompute).2.2.1]
  exact Sampler.sleepTime_nonneg_iff hpos stored.backtime_inRange

theorem proper_of_neverRaises (hunit : |stored.timeUnit| < 2 ^ 30)
    (hnever : NeverRaises screenWidth screenHeight magnification offset direction isPortrait stored) :
    stored.Proper ∧ stored.timeUnit ≤ 715827882 := by
  obtain ⟨start, hcreate, hnever⟩ := hnever
  obtain ⟨mouse, compute, hmouse, hcompute, -⟩ := create_eq_ok.mp hcreate
  have hnonneg := MouseManager.nonneg_of_create hmouse
  have hpos := Sampler.pos_of_create hunit hcompute
  obtain ⟨n, hnum⟩ := Int.eq_ofNat_of_zero_le hnonneg
  obtain ⟨unit, htime⟩ := Int.eq_ofNat_of_zero_le (le_trans (by decide) hpos)
  have hpos' : 1 ≤ unit := by omega
  obtain ⟨hwindow, haccepts, hwait, hturns, hsleep⟩ := spec_of_create hnum htime hpos' hcreate
  have hrange : (2 * unit : Nat) ≤ maxInt := by
    obtain ⟨-, hupper⟩ := abs_lt.mp hunit
    unfold maxInt
    omega
  obtain ⟨sampledNext, hsampled⟩ := hnever [] start rfl (.sensorCallback 0 0 0)
  obtain ⟨iterated, hiterated⟩ := hnever [] start rfl .iterate
  obtain ⟨locked, hlocked⟩ := hnever [] start rfl (.lockMouseAWhile 0 0)
  have hnumPos : 0 < n := pos_of_sensorCallback hwindow haccepts hsampled
  have hslept := sleepTime_nonneg_of_iterate hturns hrange hiterated
  have hwaits := timewait_nonneg_of_lockMouseAWhile hlocked
  -- The last cell of the ring is where the sum of the index is largest.
  have hin : 2 * unit - 1 < 2 * unit := by omega
  obtain ⟨last, hrun, hlast, -⟩ := reaches_slot hturns hslept hrange hin
  obtain ⟨found, hfound⟩ := hnever _ last hrun .getTimebackPosition
  have hindex := index_of_getTimebackPosition hlast hrange hfound
  refine ⟨⟨by omega, hpos, hsleep.mp hslept, hwait ▸ hwaits⟩, ?_⟩
  unfold maxInt at hindex
  omega

theorem neverRaises_of_proper (hproper : stored.Proper) (hsmall : stored.timeUnit ≤ 715827882) :
    NeverRaises screenWidth screenHeight magnification offset direction isPortrait stored := by
  obtain ⟨hnum, hunit, hback, hwaits⟩ := hproper
  obtain ⟨n, hn⟩ := Int.eq_ofNat_of_zero_le (le_trans (by decide) hnum)
  obtain ⟨unit, htime⟩ := Int.eq_ofNat_of_zero_le (le_trans (by decide) hunit)
  have hrange : (3 * unit : Nat) ≤ maxInt := by
    unfold maxInt
    omega
  have hpos : 1 ≤ unit := by omega
  obtain ⟨computer, hcomputer⟩ := AverageComputerForService.exists_create n magnification offset
    direction
  obtain ⟨compute, hcompute⟩ := Sampler.exists_create hpos
    (le_trans (Int.ofNat_le.mpr (by omega)) hrange) stored.backtime
  rw [← hn] at hcomputer
  rw [← htime] at hcompute
  have hmouse : ∃ mouse, MouseManager.create screenWidth screenHeight stored.averageNum magnification
      offset direction stored.timeUnit stored.backtime stored.timewait = .ok mouse :=
    ⟨_, bind_eq_ok.mpr ⟨computer, hcomputer, rfl⟩⟩
  obtain ⟨mouse, hmouse⟩ := hmouse
  obtain ⟨start, hcreate⟩ : ∃ start, create screenWidth screenHeight magnification offset direction
      isPortrait stored = .ok start :=
    ⟨_, create_eq_ok.mpr ⟨mouse, compute, hmouse, hcompute, rfl⟩⟩
  obtain ⟨hwindow, -, hwait, hturns, hsleep⟩ := spec_of_create hn htime hpos hcreate
  have hsound : Sound n unit start :=
    ⟨⟨_, _, _, _, hwindow⟩, hwait ▸ hwaits, ⟨0, hturns⟩, hsleep.mpr hback⟩
  refine ⟨start, hcreate, fun events final hrun event => ?_⟩
  obtain ⟨next, hnext, -⟩ := (sound_run (by omega) hrange hsound hrun).perform (by omega) hrange event
  exact ⟨next, hnext⟩

theorem neverRaises_iff (hunit : |stored.timeUnit| < 2 ^ 30) :
    NeverRaises screenWidth screenHeight magnification offset direction isPortrait stored ↔
      stored.Proper ∧ stored.timeUnit ≤ 715827882 :=
  ⟨proper_of_neverRaises hunit, fun ⟨hproper, hsmall⟩ => neverRaises_of_proper hproper hsmall⟩

/-- **The safe settings.** They are the ones `Proper` lists, except that a `timeUnit` above a third of
`2 ^ 31` is not safe either. -/
theorem safe_settings_iff (hunit : |stored.timeUnit| < 2 ^ 30) :
    (NeverRaises screenWidth screenHeight magnification offset direction isPortrait stored ↔
      1 ≤ stored.averageNum ∧ 1 ≤ stored.timeUnit ∧ -stored.timeUnit < stored.backtime ∧
        0 ≤ stored.timewait) ↔
      stored.timeUnit ≤ 715827882 ∨ stored.averageNum < 1 ∨ stored.backtime ≤ -stored.timeUnit ∨
        stored.timewait < 0 := by
  have hproper : stored.Proper ↔ 1 ≤ stored.averageNum ∧ 1 ≤ stored.timeUnit ∧
      -stored.timeUnit < stored.backtime ∧ 0 ≤ stored.timewait := Iff.rfl
  rw [neverRaises_iff hunit, hproper]
  constructor
  · intro hsame
    by_contra hnot
    have hlarge : ¬ stored.timeUnit ≤ 715827882 := fun hsmall => hnot (Or.inl hsmall)
    exact hlarge (hsame.mpr ⟨by omega, by omega, by omega, by omega⟩).2
  · intro hcondition
    constructor
    · rintro ⟨hsettings, -⟩
      exact hsettings
    · intro hsettings
      exact ⟨hsettings, by omega⟩

def usualSettings : StoredSettings where
  averageNum := 10
  timeUnit := 20
  backtime := 200
  timewait := 1000

theorem safe_settings_iff_usual :
    NeverRaises 480 800 (1 / 2 : ℚ) 10 (-1) true usualSettings := by
  have hsame := (@safe_settings_iff ℚ _ 480 800 (1 / 2) 10 (-1) true usualSettings (by decide)).mpr
    (by decide)
  exact hsame.mpr (by decide)

/-- The smallest `timeUnit` with which the index leaves the type. -/
def largeSettings : StoredSettings where
  averageNum := 1
  timeUnit := 715827883
  backtime := 0
  timewait := 0

theorem large_settings_raise :
    ¬ ∀ (screenWidth screenHeight : Int) (magnification : ℚ) (offset direction : Int)
        (isPortrait : Bool) (stored : StoredSettings), |stored.timeUnit| < 2 ^ 30 →
      (NeverRaises screenWidth screenHeight magnification offset direction isPortrait stored ↔
        1 ≤ stored.averageNum ∧ 1 ≤ stored.timeUnit ∧ -stored.timeUnit < stored.backtime ∧
          0 ≤ stored.timewait) := by
  intro hclaim
  have hsame := hclaim 480 800 1 1 1 true largeSettings (by decide)
  have hnever := hsame.mpr (by decide)
  exact absurd ((neverRaises_iff (by decide)).mp hnever).2 (by decide)

end SampledMouse

end SensorMouse
