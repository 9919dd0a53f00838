import SensorMouse.Proof.LookBack

/-!
# The click in the log

`run` moves the pointer on before it sleeps. So the cell `getTimebackPosition` takes for the current
position is the next one to be written, and it holds the oldest sample of the ring.
-/

namespace SensorMouse

open Java Lib

namespace Sampler

variable {timeUnit : Nat} {backtime : Int} {compute : TimeBackCompute} {final : Sampler}

/-- At the pointer of a sleeping sampler stands the sample of one round ago. -/
theorem Rings.atPointer (hrings : Rings timeUnit final) (hsleeps : final.Sleeps)
    (hpos : 1 ≤ timeUnit) (hn : 2 * timeUnit ≤ final.samples.length) :
    final.compute.positionArray[final.slot (2 * timeUnit)]? =
      final.samples[final.samples.length - 2 * timeUnit]? := by
  have hround : (final.samples.length - 2 * timeUnit) % (2 * timeUnit) =
      final.samples.length % (2 * timeUnit) := (Nat.mod_eq_sub_mod hn).symm
  rw [hsleeps.slot_eq, ← hround]
  exact hrings.holds.recent _ (by omega) (by omega)

/-- What a look-back during a sleep answers, and what it logs. -/
theorem Rings.getTimebackPosition_of_sleeps (hrings : Rings timeUnit final) (hsleeps : final.Sleeps)
    (hpos : 1 ≤ timeUnit) (hrange : (2 * timeUnit : Nat) ≤ maxInt)
    (hn : 2 * timeUnit ≤ final.samples.length) {back : Int × Int} {next : TimeBackCompute} :
    final.compute.getTimebackPosition = .ok (back, next) ↔
      (final.samples.length % (2 * timeUnit) + timeUnit : Nat) ≤ maxInt ∧ ∃ oldest,
        final.samples[final.samples.length - 2 * timeUnit]? = some oldest ∧
        final.samples[final.samples.length - timeUnit]? = some back ∧
        next = final.compute.logged (.writeALinePair oldest DataLogHelper.flagClickPosition back
          DataLogHelper.flagBackPosition) := by
  have hahead := hrings.ahead hpos
  have hslot : final.slot (2 * timeUnit) + timeUnit =
      final.samples.length % (2 * timeUnit) + timeUnit := by
    rw [hsleeps.slot_eq]
  rw [hsleeps.passed_eq, if_pos (by omega)] at hahead
  rw [Sampler.getTimebackPosition_eq_ok hrings.length hrings.length_positionArray hrings.pointer
      hrange, hrings.atPointer hsleeps hpos hn, hslot, Nat.mod_add_mod, hahead]

/-- The look-back logs the latest sample as the click, and what it answers as the position found. -/
def LogsClick (sampler : Sampler) : Prop :=
  ∃ recent back next, sampler.samples[sampler.samples.length - 1]? = some recent ∧
    sampler.compute.getTimebackPosition = .ok (back, next) ∧
    next.logCalls = sampler.compute.logCalls ++
      [.writeALinePair recent DataLogHelper.flagClickPosition back DataLogHelper.flagBackPosition]

theorem Rings.logsClick_iff (hrings : Rings timeUnit final) (hsleeps : final.Sleeps)
    (hpos : 1 ≤ timeUnit) (hrange : (2 * timeUnit : Nat) ≤ maxInt)
    (hn : 2 * timeUnit ≤ final.samples.length) :
    final.LogsClick ↔ (final.samples.length % (2 * timeUnit) + timeUnit : Nat) ≤ maxInt ∧
      final.samples[final.samples.length - 2 * timeUnit]? =
        final.samples[final.samples.length - 1]? := by
  unfold LogsClick
  simp only [hrings.getTimebackPosition_of_sleeps hsleeps hpos hrange hn]
  constructor
  · rintro ⟨recent, back, next, hrecent, ⟨hle, oldest, holdest, -, rfl⟩, hlogged⟩
    have hmade := List.append_cancel_left hlogged
    obtain rfl : oldest = recent := by
      simp only [List.cons.injEq, DataLogHelper.Call.writeALinePair.injEq] at hmade
      exact hmade.1.1
    exact ⟨hle, holdest.trans hrecent.symm⟩
  · rintro ⟨hle, hsame⟩
    have hlast : final.samples.length - 1 < final.samples.length := by omega
    have hback : final.samples.length - timeUnit < final.samples.length := by omega
    have hrecent := List.getElem?_eq_getElem hlast
    exact ⟨_, _, _, hrecent, ⟨hle, _, hsame.trans hrecent, List.getElem?_eq_getElem hback, rfl⟩, rfl⟩

/-- **The click in the log.** A look-back during the sleep after sample `n` logs that sample as the
click exactly if the sample of one round earlier was at the same point, and if the look-back returns
at all. -/
theorem click_log_iff (hpos : 1 ≤ timeUnit) (hint : (timeUnit : Int) ≤ maxInt)
    (hcreate : TimeBackCompute.create timeUnit backtime = .ok compute) {events : List Event}
    (hrun : run Sampler.step { compute := compute } events = some final) (hsleeps : final.Sleeps)
    (hn : 2 * timeUnit ≤ final.samples.length) :
    final.LogsClick ↔ (final.samples.length % (2 * timeUnit) + timeUnit : Nat) ≤ maxInt ∧
      final.samples[final.samples.length - 2 * timeUnit]? =
        final.samples[final.samples.length - 1]? := by
  obtain ⟨hrange, -⟩ := create_spec hpos hint hcreate
  obtain ⟨hrings, -⟩ := rings_run hpos hint hcreate hrun
  exact hrings.logsClick_iff hsleeps hpos hrange hn

/-- A hand that holds still hides the difference. -/
theorem click_log_iff_still :
    ∃ compute final, TimeBackCompute.create 1 7 = .ok compute ∧
      run Sampler.step { compute := compute } (List.replicate 13 (.statement (5, 6))) = some final ∧
      final.LogsClick := by
  have hpos : 1 ≤ 1 := le_rfl
  obtain ⟨compute, hcreate⟩ : ∃ compute, TimeBackCompute.create 1 7 = .ok compute := ⟨_, rfl⟩
  obtain ⟨final, hrun, hsleeps, hsamples⟩ : ∃ final, run Sampler.step { compute := compute }
      (List.replicate 13 (.statement (5, 6))) = some final ∧ final.Sleeps ∧
        final.samples = [(5, 6), (5, 6)] := by
    obtain rfl := Except.ok.inj hcreate
    exact ⟨_, rfl, ⟨1, rfl⟩, rfl⟩
  refine ⟨compute, final, hcreate, hrun, ?_⟩
  rw [click_log_iff hpos (by decide) hcreate hrun hsleeps (by rw [hsamples]; decide), hsamples]
  decide

theorem click_not_logged :
    ¬ ∀ (timeUnit : Nat) (backtime : Int) (compute : TimeBackCompute) (events : List Event)
        (final : Sampler), 1 ≤ timeUnit → (timeUnit : Int) ≤ maxInt →
      TimeBackCompute.create timeUnit backtime = .ok compute →
      run Sampler.step { compute := compute } events = some final → final.Sleeps →
      2 * timeUnit ≤ final.samples.length → final.LogsClick := by
  intro hclaim
  have hpos : 1 ≤ 1 := le_rfl
  obtain ⟨compute, hcreate⟩ : ∃ compute, TimeBackCompute.create 1 7 = .ok compute := ⟨_, rfl⟩
  obtain ⟨final, hrun, hsleeps, hsamples⟩ : ∃ final, run Sampler.step { compute := compute }
      ((List.range 13).map fun k => .statement (k, k)) = some final ∧ final.Sleeps ∧
        final.samples = [(2, 2), (8, 8)] := by
    obtain rfl := Except.ok.inj hcreate
    exact ⟨_, rfl, ⟨1, rfl⟩, rfl⟩
  obtain ⟨hrange, -⟩ := create_spec hpos (by decide) hcreate
  obtain ⟨hrings, -⟩ := rings_run hpos (by decide) hcreate hrun
  have hlong : 2 * 1 ≤ final.samples.length := by
    rw [hsamples]
    decide
  have hlogs := hclaim 1 7 compute _ final hpos (by decide) hcreate hrun hsleeps hlong
  rw [hrings.logsClick_iff hsleeps hpos hrange hlong, hsamples] at hlogs
  exact absurd hlogs.2 (by decide)

end Sampler

end SensorMouse
