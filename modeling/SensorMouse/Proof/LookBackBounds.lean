import SensorMouse.Proof.LookBack

/-!
# The bounds of the look-back read

The test at the end of each round of the sampling loop keeps the pointer in the ring, but only from
one round to the next. Between the `pointer++` that passes the last cell and the `pointer = 0` it
stands one past the end, where the main thread may read. In the longest rings there is a second
place: where half a ring ahead of the pointer is not an `int`, the index is negative.
-/

namespace SensorMouse

open Java Lib

namespace TimeBackCompute

variable {compute next : TimeBackCompute}

/-- The `index` of `getTimebackPosition`. -/
def backIndex (compute : TimeBackCompute) : Int :=
  let index := wrap (compute.pointer + compute.length.tdiv 2)
  if index ≥ compute.length then wrap (index - compute.length) else index

theorem getTimebackPosition_eq (compute : TimeBackCompute) :
    compute.getTimebackPosition = (do
      let currentPosition ← loadAt compute.positionArray compute.pointer
      let backPosition ← loadAt compute.positionArray compute.backIndex
      pure (backPosition, compute.logged (.writeALinePair currentPosition
        DataLogHelper.flagClickPosition backPosition DataLogHelper.flagBackPosition))) := rfl

/-- Both cells that `getTimebackPosition` reads are cells of the ring. -/
structure ReadsInBounds (compute : TimeBackCompute) : Prop where
  pointer : 0 ≤ compute.pointer ∧ compute.pointer < compute.length
  backIndex : 0 ≤ compute.backIndex ∧ compute.backIndex < compute.length

theorem ReadsInBounds.of_eq (hbounds : compute.ReadsInBounds)
    (hpointer : next.pointer = compute.pointer) (hlength : next.length = compute.length) :
    next.ReadsInBounds := by
  constructor
  · rw [hpointer, hlength]
    exact hbounds.pointer
  · unfold TimeBackCompute.backIndex
    rw [hpointer, hlength]
    exact hbounds.backIndex

end TimeBackCompute

namespace Sampler

variable {timeUnit slot : Nat} {sampler next : Sampler}

theorem readsInBounds_of_slot {compute : TimeBackCompute} (hpos : 1 ≤ timeUnit)
    (hrange : (2 * timeUnit : Nat) ≤ maxInt) (hlength : compute.length = (2 * timeUnit : Nat))
    (hpointer : compute.pointer = slot) :
    compute.ReadsInBounds ↔ slot < 2 * timeUnit ∧ (slot + timeUnit : Nat) ≤ maxInt := by
  have hindex : compute.backIndex =
      if wrap ((slot : Int) + timeUnit) ≥ (2 * timeUnit : Nat) then
        wrap (wrap ((slot : Int) + timeUnit) - (2 * timeUnit : Nat))
      else wrap ((slot : Int) + timeUnit) := by
    unfold TimeBackCompute.backIndex
    rw [hlength, hpointer, tdiv_two]
  constructor
  · rintro ⟨⟨-, hbelow⟩, hnonneg, -⟩
    rw [hpointer, hlength] at hbelow
    have hslot : slot < 2 * timeUnit := Int.ofNat_lt.mp hbelow
    refine ⟨hslot, ?_⟩
    by_contra hbeyond
    have hnegative := index_of_not_le hslot hrange hbeyond
    rw [hindex, if_neg (by omega)] at hnonneg
    exact absurd hnegative (not_lt.mpr hnonneg)
  · rintro ⟨hslot, hle⟩
    have hcell : (slot + timeUnit) % (2 * timeUnit) < 2 * timeUnit := Nat.mod_lt _ (by omega)
    constructor
    · rw [hpointer, hlength]
      exact ⟨Int.natCast_nonneg slot, Int.ofNat_lt.mpr hslot⟩
    · rw [hindex, hlength, index_of_le hslot hle]
      exact ⟨Int.natCast_nonneg _, Int.ofNat_lt.mpr hcell⟩

/-- Where the read is in bounds, at every statement. -/
theorem Rings.readsInBounds_iff (hrings : Rings timeUnit sampler) (hpos : 1 ≤ timeUnit)
    (hrange : (2 * timeUnit : Nat) ≤ maxInt) :
    sampler.compute.ReadsInBounds ↔
      sampler.slot (2 * timeUnit) < 2 * timeUnit ∧
        (sampler.slot (2 * timeUnit) + timeUnit : Nat) ≤ maxInt :=
  readsInBounds_of_slot hpos hrange hrings.length hrings.pointer

/-- A read out of bounds throws, and nothing else makes one throw. -/
theorem Rings.readsInBounds_iff_answers (hrings : Rings timeUnit sampler) (hpos : 1 ≤ timeUnit)
    (hrange : (2 * timeUnit : Nat) ≤ maxInt) :
    sampler.compute.ReadsInBounds ↔
      ∃ back next, sampler.compute.getTimebackPosition = .ok (back, next) := by
  rw [hrings.readsInBounds_iff hpos hrange]
  simp only [hrings.getTimebackPosition_eq_ok hpos hrange]
  constructor
  · rintro ⟨hslot, hle⟩
    have hcell : (sampler.passed + timeUnit) % (2 * timeUnit) <
        sampler.compute.positionArray.length := by
      rw [hrings.length_positionArray]
      exact Nat.mod_lt _ (by omega)
    exact ⟨_, hslot, hle, List.getElem?_eq_getElem hcell⟩
  · rintro ⟨back, hslot, hle, -⟩
    exact ⟨hslot, hle⟩

/-! ### One step -/

def ControlPoint.isIncrement : ControlPoint → Bool
  | .increment _ => true
  | _ => false

def Event.isStatement : Event → Bool
  | .statement _ => true
  | _ => false

/-- The step does not pass the last sample of a round of the ring, and half a ring ahead of where it
leaves the pointer is an `int`. -/
def StaysInRing (timeUnit : Nat) (sampler : Sampler) (event : Event) : Prop :=
  event.isStatement = true → sampler.control.isIncrement = true →
    ¬ 2 * timeUnit ∣ sampler.samples.length ∧
      (sampler.samples.length % (2 * timeUnit) + timeUnit : Nat) ≤ maxInt

instance : Decidable (StaysInRing timeUnit sampler event) :=
  inferInstanceAs (Decidable (_ → _ → _))

/-- Only `pointer++` and `pointer = 0` move the pointer. -/
theorem statement_frame {position : Int × Int} (hok : sampler.statement position = .ok next)
    (hincrement : sampler.control.isIncrement = false)
    (hreset : ∀ i, sampler.control ≠ .resetPointer i) :
    next.compute.pointer = sampler.compute.pointer ∧
      next.compute.length = sampler.compute.length := by
  obtain ⟨-, -, hpointer, hlength⟩ := statement_spec hok
  refine ⟨hpointer.trans ?_, hlength⟩
  unfold nextPointer
  cases hcontrol : sampler.control with
  | increment i =>
      rw [hcontrol] at hincrement
      cases hincrement
  | resetPointer i => exact absurd hcontrol (hreset i)
  | testGoon | testIndex i | record i | writePosition i | testPointer i | sleep i | exited => rfl

section

variable (hrings : Rings timeUnit sampler) (hpos : 1 ≤ timeUnit)
  (hrange : (2 * timeUnit : Nat) ≤ maxInt)

include hrings hpos hrange

/-- Before its reset a pointer past the end is out of bounds. -/
theorem Rings.not_resetPointer (hbounds : sampler.compute.ReadsInBounds) (i : Nat) :
    sampler.control ≠ .resetPointer i := by
  intro hcontrol
  have hslot := ((hrings.readsInBounds_iff hpos hrange).mp hbounds).1
  unfold slot at hslot
  rw [hcontrol] at hslot
  exact absurd hslot (lt_irrefl _)

theorem Rings.readsInBounds_increment {position : Int × Int}
    (hok : sampler.statement position = .ok next) (hincrement : sampler.control.isIncrement = true)
    (hnext : Rings timeUnit next) :
    next.compute.ReadsInBounds ↔
      ¬ 2 * timeUnit ∣ sampler.samples.length ∧
        (sampler.samples.length % (2 * timeUnit) + timeUnit : Nat) ≤ maxInt := by
  have hsize : 0 < 2 * timeUnit := by omega
  obtain ⟨hcontrol', hadvances, -⟩ := statement_spec hok
  obtain ⟨i, hcontrol⟩ : ∃ i, sampler.control = .increment i := by
    cases hcontrol : sampler.control with
    | increment i => exact ⟨i, rfl⟩
    | testGoon | testIndex i | record i | writePosition i | testPointer i | resetPointer i
    | sleep i | exited =>
        rw [hcontrol] at hincrement
        cases hincrement
  have hstepping := hrings.stepping
  have hsamples := hadvances.samples
  unfold Stepping at hstepping
  unfold nextControl at hcontrol'
  simp only [hcontrol] at hstepping hsamples hcontrol'
  obtain ⟨n, hn⟩ : ∃ n, sampler.samples.length = n + 1 := ⟨sampler.samples.length - 1, by omega⟩
  have hslot : next.slot (2 * timeUnit) = n % (2 * timeUnit) + 1 := by
    unfold slot
    simp only [hcontrol']
    rw [hsamples]
    simp [ControlPoint.isRecord, hn]
  rw [hnext.readsInBounds_iff hpos hrange, hslot, hn]
  by_cases hround : 2 * timeUnit ∣ n + 1
  · have hlast := (Blocks.dvd_iff_mod_add_one hsize n).mp hround
    refine iff_of_false (fun hbelow => ?_) fun hnot => hnot.1 hround
    exact absurd hbelow.1 (not_lt.mpr hlast.ge)
  · rw [Blocks.mod_add_one_of_not_dvd hsize hround]
    refine and_congr_left fun _ => iff_of_true ?_ hround
    have hlt : (n + 1) % (2 * timeUnit) < 2 * timeUnit := Nat.mod_lt _ hsize
    rwa [Blocks.mod_add_one_of_not_dvd hsize hround] at hlt

/-- Out of a state in bounds exactly the guarded steps lead to one. -/
theorem Rings.readsInBounds_step (hbounds : sampler.compute.ReadsInBounds) {event : Event}
    (hstep : sampler.step event = some next) :
    next.compute.ReadsInBounds ↔ StaysInRing timeUnit sampler event := by
  have hnext := (hrings.step hpos hrange hstep).1
  have hperform := toOption_eq_some.mp hstep
  cases event with
  | statement position =>
      by_cases hincrement : sampler.control.isIncrement = true
      · rw [hrings.readsInBounds_increment hpos hrange hperform hincrement hnext]
        exact ⟨fun hstays _ _ => hstays, fun hstays => hstays rfl hincrement⟩
      · have hother := Bool.eq_false_of_not_eq_true hincrement
        obtain ⟨hpointer, hlength⟩ :=
          statement_frame hperform hother (hrings.not_resetPointer hpos hrange hbounds)
        exact iff_of_true (hbounds.of_eq hpointer hlength) fun _ hcontrol =>
          absurd hcontrol hincrement
  | getTimebackPosition =>
      obtain ⟨⟨back, compute⟩, hfound, hanswer⟩ := bind_eq_ok.mp hperform
      obtain ⟨made, rfl⟩ := getTimebackPosition_frame hfound
      obtain rfl := Except.ok.inj hanswer
      refine iff_of_true ?_ fun hstatement => absurd hstatement Bool.false_ne_true
      exact ⟨hbounds.pointer, hbounds.backIndex⟩
  | stopTimeBackCompute =>
      obtain rfl := Except.ok.inj hperform
      refine iff_of_true ?_ fun hstatement => absurd hstatement Bool.false_ne_true
      exact ⟨hbounds.pointer, hbounds.backIndex⟩

end

/-! ### Runs -/

variable {backtime : Int} {compute : TimeBackCompute}

/-- **Exactness.** The look-back read is in bounds in every state of a run exactly if no step of it
passes the end of the ring. -/
theorem lookBack_inBounds_iff (hpos : 1 ≤ timeUnit) (hint : (timeUnit : Int) ≤ maxInt)
    (hcreate : TimeBackCompute.create timeUnit backtime = .ok compute) {events : List Event}
    {final : Sampler} (hrun : run Sampler.step { compute := compute } events = some final) :
    StatesAlong Sampler.step (fun sampler => sampler.compute.ReadsInBounds) { compute := compute }
        events ↔
      StepsAlong Sampler.step (StaysInRing timeUnit) { compute := compute } events := by
  obtain ⟨hrange, hrings, -⟩ := create_spec hpos hint hcreate
  refine statesAlong_iff_stepsAlong_of_inv hrings ?_ ?_ ?_ hrun
  · have hslot : Sampler.slot { compute := compute } (2 * timeUnit) = 0 := Nat.zero_mod _
    rw [hrings.readsInBounds_iff hpos hrange, hslot, Nat.zero_add]
    exact ⟨by omega, hint⟩
  · exact fun current event next hcurrent hstep => (hcurrent.step hpos hrange hstep).1
  · exact fun current event next hcurrent hbounds hstep =>
      hcurrent.readsInBounds_step hpos hrange hbounds hstep

/-- Three samples of a ring of four, and a look back. -/
theorem lookBack_inBounds_iff_three :
    ∃ compute, TimeBackCompute.create 2 7 = .ok compute ∧
      StatesAlong Sampler.step (fun sampler => sampler.compute.ReadsInBounds)
        { compute := compute }
        ((List.range 17).map (fun k => .statement (k, k)) ++ [.getTimebackPosition]) := by
  obtain ⟨compute, hcreate⟩ : ∃ compute, TimeBackCompute.create 2 7 = .ok compute := ⟨_, rfl⟩
  obtain ⟨final, hrun⟩ : ∃ final, run Sampler.step { compute := compute }
      ((List.range 17).map (fun k => .statement (k, k)) ++ [.getTimebackPosition]) = some final := by
    obtain rfl := Except.ok.inj hcreate
    exact ⟨_, rfl⟩
  refine ⟨compute, hcreate, (lookBack_inBounds_iff (by decide) (by decide) hcreate hrun).mpr ?_⟩
  obtain rfl := Except.ok.inj hcreate
  decide

/-- The second sample of a ring of two: `pointer++` has left it, and its end is not tested yet. -/
theorem lookBack_out_of_bounds :
    ¬ ∀ (timeUnit : Nat) (backtime : Int) (compute : TimeBackCompute) (events : List Event)
        (final : Sampler), 1 ≤ timeUnit → (timeUnit : Int) ≤ maxInt →
      TimeBackCompute.create timeUnit backtime = .ok compute →
      run Sampler.step { compute := compute } events = some final →
      final.compute.ReadsInBounds := by
  intro hclaim
  obtain ⟨compute, hcreate⟩ : ∃ compute, TimeBackCompute.create 1 7 = .ok compute := ⟨_, rfl⟩
  obtain ⟨final, hrun, hpointer⟩ : ∃ final, run Sampler.step { compute := compute }
      ((List.range 11).map fun k => .statement (k, k)) = some final ∧
        ¬ final.compute.pointer < final.compute.length := by
    obtain rfl := Except.ok.inj hcreate
    exact ⟨_, rfl, by decide⟩
  exact hpointer (hclaim 1 7 compute _ final (by decide) (by decide) hcreate hrun).pointer.2

end Sampler

end SensorMouse
