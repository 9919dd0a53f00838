import SensorMouse.Button.ButtonEventListener
import SensorMouse.Proof.LookBack

/-!
# Where a press clicks

A press whose runnable runs in state `DOWN` clicks at the position the ring finds. Until `timeUnit`
samples have been passed that is the origin, whether the cursor has been there or not.
-/

namespace SensorMouse

open Android Java Lib

namespace ButtonEventListener

def downPoint : Call → Option (Int × Int)
  | .pushMotionEvent action x y => if action = MotionEvent.actionDown then some (x, y) else none
  | _ => none

/-- The points of the `DOWN`s a dispatch of `sendEventRunnable` pushes. -/
def sendDownPoints (listener : ButtonEventListener) (back cursor : Position) : List (Int × Int) :=
  ((listener.sendEventRunnable back cursor).calls.drop listener.calls.length).filterMap downPoint

theorem sendDownPoints_of_down {listener : ButtonEventListener}
    (hdown : listener.eventSendState = .down) (back cursor : Position) :
    listener.sendDownPoints back cursor = [(back.x, back.y)] := by
  unfold sendDownPoints sendEventRunnable
  simp only [hdown, call, pushMotionEvent, postDelayed, List.append_assoc, List.drop_left']
  rfl

end ButtonEventListener

namespace Sampler

variable {timeUnit : Nat} {backtime : Int} {compute : TimeBackCompute} {final : Sampler}

/-- Before `timeUnit` samples have been passed, the read does not throw and finds the origin. -/
theorem Rings.getTimebackPosition_of_cold (hrings : Rings timeUnit final) (hpos : 1 ≤ timeUnit)
    (hrange : (2 * timeUnit : Nat) ≤ maxInt) (hcold : final.passed < timeUnit) :
    ∃ next, final.compute.getTimebackPosition = .ok ((0, 0), next) := by
  have hslot : final.slot (2 * timeUnit) < 2 * timeUnit ∧
      final.slot (2 * timeUnit) + timeUnit ≤ 2 * timeUnit := by
    have hstepping := hrings.stepping
    have hpassed : final.passed % (2 * timeUnit) = final.passed := Nat.mod_eq_of_lt (by omega)
    unfold Stepping at hstepping
    unfold slot
    unfold passed at hcold
    cases hcontrol : final.control with
    | testPointer i =>
        simp only [hcontrol] at hcold hstepping ⊢
        have hlt : (final.samples.length - 1) % (2 * timeUnit) = final.samples.length - 1 :=
          Nat.mod_eq_of_lt (by omega)
        omega
    | resetPointer i =>
        simp only [hcontrol] at hcold hstepping ⊢
        have hself : final.samples.length % (2 * timeUnit) = final.samples.length :=
          Nat.mod_eq_of_lt (by omega)
        omega
    | testGoon | testIndex i | record i | writePosition i | increment i | sleep i | exited =>
        unfold passed at hpassed ⊢
        simp only [hcontrol] at hcold hpassed ⊢
        omega
  refine (hrings.getTimebackPosition_eq_ok hpos hrange).mpr ⟨hslot.1, ?_, ?_⟩
  · exact le_trans (Int.ofNat_le.mpr hslot.2) hrange
  · rw [hrings.ahead hpos, if_neg (not_le.mpr hcold)]

theorem Rings.mem_samples_of_warm (hrings : Rings timeUnit final) (hpos : 1 ≤ timeUnit)
    (hrange : (2 * timeUnit : Nat) ≤ maxInt) (hwarm : timeUnit ≤ final.passed) {back : Int × Int}
    {next : TimeBackCompute} (hback : final.compute.getTimebackPosition = .ok (back, next)) :
    final.samples[final.passed - timeUnit]? = some back := by
  obtain ⟨-, -, hentry⟩ := (hrings.getTimebackPosition_eq_ok hpos hrange).mp ⟨next, hback⟩
  rwa [hrings.ahead hpos, if_pos hwarm] at hentry

/-- **The place of a click.** A press clicks where the cursor has been recorded exactly if `timeUnit`
samples have been passed, or the origin is itself among the recorded positions. -/
theorem down_recorded_iff (hpos : 1 ≤ timeUnit) (hint : (timeUnit : Int) ≤ maxInt)
    (hcreate : TimeBackCompute.create timeUnit backtime = .ok compute) {events : List Event}
    (hrun : run Sampler.step { compute := compute } events = some final)
    {listener : ButtonEventListener} (hdown : listener.eventSendState = .down)
    (cursor : Position) :
    (∀ back next, final.compute.getTimebackPosition = .ok (back, next) →
      ∀ point ∈ listener.sendDownPoints ⟨back.1, back.2⟩ cursor, point ∈ final.samples) ↔
      timeUnit ≤ final.passed ∨ (0, 0) ∈ final.samples := by
  obtain ⟨hrange, -⟩ := create_spec hpos hint hcreate
  obtain ⟨hrings, -⟩ := rings_run hpos hint hcreate hrun
  simp only [ButtonEventListener.sendDownPoints_of_down hdown, List.mem_singleton, forall_eq]
  by_cases hwarm : timeUnit ≤ final.passed
  · refine iff_of_true (fun back next hback => ?_) (Or.inl hwarm)
    exact List.mem_of_getElem? (hrings.mem_samples_of_warm hpos hrange hwarm hback)
  · obtain ⟨next, hcold⟩ := hrings.getTimebackPosition_of_cold hpos hrange (not_le.mp hwarm)
    constructor
    · intro hrecorded
      exact Or.inr (hrecorded (0, 0) next hcold)
    · rintro (hpassed | horigin) back other hback
      · exact absurd hpassed hwarm
      · rw [hcold] at hback
        obtain ⟨rfl, -⟩ := Prod.mk.inj (Except.ok.inj hback)
        exact horigin

/-- One sample at the middle of the screen, before a tap. -/
theorem exists_firstSample :
    ∃ compute final, TimeBackCompute.create 10 300 = .ok compute ∧
      run Sampler.step { compute := compute } (List.replicate 6 (.statement (240, 430))) =
        some final ∧ final.samples = [(240, 430)] ∧ final.passed = 1 := by
  obtain ⟨compute, hcreate⟩ : ∃ compute, TimeBackCompute.create 10 300 = .ok compute := ⟨_, rfl⟩
  refine ⟨compute, ?_⟩
  obtain rfl := Except.ok.inj hcreate
  exact ⟨_, rfl, rfl, rfl, rfl⟩

theorem down_recorded_iff_firstSample :
    ∃ compute final, TimeBackCompute.create 10 300 = .ok compute ∧
      run Sampler.step { compute := compute } (List.replicate 6 (.statement (240, 430))) =
        some final ∧ final.samples = [(240, 430)] ∧
      ¬ ∀ back next, final.compute.getTimebackPosition = .ok (back, next) →
        ∀ point ∈ ({ eventSendState := .down } : ButtonEventListener).sendDownPoints
          ⟨back.1, back.2⟩ ⟨240, 430⟩, point ∈ final.samples := by
  obtain ⟨compute, final, hcreate, hrun, hsamples, hpassed⟩ := exists_firstSample
  have hpos : 1 ≤ 10 := by decide
  refine ⟨compute, final, hcreate, hrun, hsamples, ?_⟩
  rw [down_recorded_iff hpos (by decide) hcreate hrun rfl, hpassed, hsamples]
  decide

theorem down_not_recorded :
    ¬ ∀ (timeUnit : Nat) (backtime : Int) (compute : TimeBackCompute) (events : List Event)
        (final : Sampler) (listener : ButtonEventListener) (cursor : Position), 1 ≤ timeUnit →
      TimeBackCompute.create timeUnit backtime = .ok compute →
      run Sampler.step { compute := compute } events = some final → 1 ≤ final.samples.length →
      listener.eventSendState = .down →
      ∀ back next, final.compute.getTimebackPosition = .ok (back, next) →
        ∀ point ∈ listener.sendDownPoints ⟨back.1, back.2⟩ cursor, point ∈ final.samples := by
  intro hclaim
  obtain ⟨compute, final, hcreate, hrun, hsamples, hpassed⟩ := exists_firstSample
  have hpos : 1 ≤ 10 := by decide
  obtain ⟨hrings, -⟩ := rings_run hpos (by decide) hcreate hrun
  obtain ⟨next, hcold⟩ := hrings.getTimebackPosition_of_cold hpos (by decide)
    (by rw [hpassed]; decide)
  have hpoint := hclaim 10 300 compute _ final { eventSendState := .down } ⟨240, 430⟩ (by decide)
    hcreate hrun (by rw [hsamples]; decide) rfl (0, 0) next hcold (0, 0)
    (by rw [ButtonEventListener.sendDownPoints_of_down rfl]; decide)
  rw [hsamples] at hpoint
  exact absurd hpoint (by decide)

end Sampler

end SensorMouse
