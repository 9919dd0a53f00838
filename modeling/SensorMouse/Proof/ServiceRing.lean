import SensorMouse.Proof.CursorBox
import SensorMouse.Proof.LookBack
import SensorMouse.Proof.ServiceStep

/-!
# The ring of a running service

Whatever `timeunit` the intent asks for, the constructor returns only with a ring of an even, positive
number of cells. `Steady` is what every state of a run then has: the ring in order, the screen as the
display answered it, and the cursor's height an `int`.
-/

namespace SensorMouse

open Java Lib

namespace Sampler

variable {timeUnit backtime : Int} {compute : TimeBackCompute}

/-- Only the length of the ring is taken from `timeUnit`. -/
theorem create_congr {other : Int} (hlength : wrap (timeUnit * 2) = wrap (other * 2))
    (backtime : Int) :
    TimeBackCompute.create timeUnit backtime = TimeBackCompute.create other backtime := by
  unfold TimeBackCompute.create TimeBackCompute.onTimeUnitChanged
  rw [hlength]

theorem exists_unit_of_create (hcreate : TimeBackCompute.create timeUnit backtime = .ok compute) :
    ∃ unit : Nat, 1 ≤ unit ∧ (2 * unit : Nat) ≤ maxInt ∧ Rings unit { compute := compute } := by
  obtain ⟨-, hlength⟩ := wrap_inRange (timeUnit * 2)
  have hnonneg : 0 ≤ wrap (timeUnit * 2) := by
    by_contra hnegative
    unfold TimeBackCompute.create at hcreate
    simp only [newArray, if_pos (not_le.mp hnegative)] at hcreate
    cases hcreate
  obtain ⟨unit, hunit⟩ : ∃ unit : Nat, wrap (timeUnit * 2) = (2 * unit : Nat) := by
    refine ⟨(wrap (timeUnit * 2)).toNat / 2, ?_⟩
    unfold wrap at hnonneg ⊢
    omega
  rw [hunit] at hlength
  have hsame : wrap (timeUnit * 2) = wrap ((unit : Int) * 2) := by
    rw [hunit, Int.mul_comm, ← wrap_of_le hlength]
    rfl
  have hpos : 1 ≤ unit := by
    by_contra hzero
    have hempty : wrap (timeUnit * 2) = 0 := by
      rw [hunit]
      omega
    unfold TimeBackCompute.create TimeBackCompute.onTimeUnitChanged at hcreate
    simp only [hempty] at hcreate
    cases hcreate
  rw [create_congr hsame] at hcreate
  have hint : (unit : Int) ≤ maxInt := by omega
  exact ⟨unit, hpos, (create_spec hpos hint hcreate).1, (create_spec hpos hint hcreate).2.1⟩

end Sampler

namespace MouseManager

theorem clampTo_inRange {screenWidth screenHeight x y : Int} (hheight : InRange screenHeight)
    (hy : InRange y) : InRange (clampTo screenWidth screenHeight x y).2 := by
  have hzero : InRange 0 := by decide
  unfold clampTo
  split_ifs
  · exact hy
  · exact hy
  · exact hzero
  · exact hheight
  · exact hy

end MouseManager

/-- What `getPositon` answers for a cursor at `position`. -/
def shown (position : Int × Int) : Int × Int := (position.1, wrap (position.2 + 30))

/-- What the lock asks for when the cursor was shown at `point`. -/
def unshown (point : Int × Int) : Int × Int := (point.1, wrap (point.2 - 30))

theorem shown_unshown {point : Int × Int} (hrange : InRange point.2) : shown (unshown point) = point := by
  obtain ⟨hlower, hupper⟩ := hrange
  have hback : wrap (wrap (point.2 - 30) + 30) = point.2 := by
    unfold minInt at hlower
    unfold maxInt at hupper
    unfold wrap
    omega
  unfold shown unshown
  rw [hback]

theorem inRange_unshown (point : Int × Int) : InRange (unshown point).2 := wrap_inRange _

namespace ControllerService

variable {F : Type} [JavaFloat F] {service next : ControllerService F}
  {screenWidth screenHeight : Int} {unit : Nat}

/-- The look-back distance, in samples. -/
def lookBackUnit (service : ControllerService F) : Nat := service.sampler.compute.length.toNat / 2

structure Steady (screenWidth screenHeight : Int) (unit : Nat) (service : ControllerService F) :
    Prop where
  rings : Sampler.Rings unit service.sampler
  screenWidth : service.mouseManager.screenWidth = screenWidth
  screenHeight : service.mouseManager.screenHeight = screenHeight
  cursor : InRange service.mouseManager.y
  samples : ∀ position ∈ service.sampler.samples, InRange position.2

omit [JavaFloat F] in
theorem lookBackUnit_eq (hrings : Sampler.Rings unit service.sampler) :
    service.lookBackUnit = unit := by
  unfold lookBackUnit
  rw [hrings.length, Int.toNat_natCast]
  omega

omit [JavaFloat F] in
/-- The cursor's move is the only part of an update that matters here. -/
theorem Steady.moved (hsteady : Steady screenWidth screenHeight unit service)
    (hheight : InRange screenHeight) {x y : Int} (hy : InRange y)
    (hsampler : next.sampler = service.sampler)
    (hscreenWidth : next.mouseManager.screenWidth = service.mouseManager.screenWidth)
    (hscreenHeight : next.mouseManager.screenHeight = service.mouseManager.screenHeight)
    (hposition : next.mouseManager.y = (service.mouseManager.clamped x y).2) :
    Steady screenWidth screenHeight unit next where
  rings := hsampler ▸ hsteady.rings
  screenWidth := hscreenWidth.trans hsteady.screenWidth
  screenHeight := hscreenHeight.trans hsteady.screenHeight
  cursor := by
    rw [hposition]
    exact MouseManager.clampTo_inRange (hsteady.screenHeight ▸ hheight) hy
  samples := hsampler ▸ hsteady.samples

theorem Steady.sensorCallback (hsteady : Steady screenWidth screenHeight unit service)
    (hheight : InRange screenHeight) {isPortrait : Bool} {x y z : F} {mouse : MouseManager F}
    (hmouse : service.mouseManager.sensorCallback isPortrait x y z = .ok mouse) :
    Steady screenWidth screenHeight unit { service with mouseManager := mouse } := by
  rcases MouseManager.exists_of_sensorCallback hmouse with
    ⟨computer, rfl⟩ | ⟨-, computer, position, rfl⟩
  · exact ⟨hsteady.rings, hsteady.screenWidth, hsteady.screenHeight, hsteady.cursor,
      hsteady.samples⟩
  · cases isPortrait with
    | true => exact hsteady.moved hheight (wrap_inRange _) rfl rfl rfl rfl
    | false => exact hsteady.moved hheight (wrap_inRange _) rfl rfl rfl rfl

theorem Steady.step (hsteady : Steady screenWidth screenHeight unit service) (hpos : 1 ≤ unit)
    (hrange : (2 * unit : Nat) ≤ maxInt) (hheight : InRange screenHeight) {event : Event F}
    (hstep : service.step event = some next) : Steady screenWidth screenHeight unit next := by
  obtain ⟨hrings, hwidth, hscreen, hcursor, hsamples⟩ := hsteady
  cases stepped_of_step hstep with
  | @lookBack entry back compute manager hlooks hback hmanager =>
      obtain ⟨made, rfl⟩ := Sampler.getTimebackPosition_frame hback
      obtain ⟨switch, timers, thrown, hobeyed⟩ :=
        service.obey_lookBack manager (service.sampler.compute.logged made) back
      rw [hobeyed]
      refine ⟨⟨hrings.length, hrings.holds, hrings.pointer, hrings.stepping⟩, hwidth, hscreen, ?_,
        hsamples⟩
      exact MouseManager.clampTo_inRange (hscreen ▸ hheight) (wrap_inRange _)
  | sensorCallback hmouse =>
      exact Steady.sensorCallback ⟨hrings, hwidth, hscreen, hcursor, hsamples⟩ hheight hmouse
  | @sample sampler hsampler =>
      rcases hrings.statement hpos hrange service.mouseManager.getPositon with
        ⟨-, -, hthrown⟩ | ⟨other, hok, hnext, hadvances⟩
      · rw [hthrown] at hsampler
        cases hsampler
      · obtain rfl := Except.ok.inj (hok.symm.trans hsampler)
        refine ⟨hnext, hwidth, hscreen, hcursor, ?_⟩
        dsimp only
        rw [hadvances.samples]
        intro position hmem
        split_ifs at hmem
        · rcases List.mem_append.mp hmem with hold | hnew
          · exact hsamples position hold
          · rw [List.mem_singleton.mp hnew]
            exact wrap_inRange _
        · exact hsamples position hmem
  | onDestroy hidle =>
      obtain ⟨⟨hsameWidth, hsameHeight⟩, -, hsameY⟩ := service.mouseManager.stopMouse_frame
      exact ⟨hrings, hsameWidth.trans hwidth, hsameHeight.trans hscreen, hsameY ▸ hcursor, hsamples⟩
  | button | lookBackThrows | sensorCallbackThrows | unlock | sampleThrows | tick =>
      exact ⟨hrings, hwidth, hscreen, hcursor, hsamples⟩

theorem exists_steady_of_onStartCommand {intent : Intent F} (hheight : InRange screenHeight)
    (hnonneg : 0 ≤ screenHeight)
    (hstart : onStartCommand screenWidth screenHeight intent = .ok service) :
    ∃ unit, (1 ≤ unit ∧ (2 * unit : Nat) ≤ maxInt) ∧
      Steady screenWidth screenHeight unit service := by
  obtain ⟨computer, period, back, wait, compute, hcompute, rfl⟩ := exists_of_onStartCommand hstart
  obtain ⟨unit, hpos, hrange, hrings⟩ := Sampler.exists_unit_of_create hcompute
  refine ⟨unit, ⟨hpos, hrange⟩, hrings, rfl, rfl, ?_, by simp⟩
  obtain ⟨-, hupper⟩ := hheight
  change InRange (screenHeight.tdiv 2)
  rw [Int.tdiv_eq_ediv_of_nonneg hnonneg]
  unfold InRange minInt
  omega

theorem steady_run {start final : ControllerService F} {events : List (Event F)}
    (hpos : 1 ≤ unit) (hrange : (2 * unit : Nat) ≤ maxInt) (hheight : InRange screenHeight)
    (hstart : Steady screenWidth screenHeight unit start) (hrun : run step start events = some final) :
    Steady screenWidth screenHeight unit final :=
  run_invariant (Steady screenWidth screenHeight unit) hstart
    (fun _ _ _ hcurrent hstep => hcurrent.step hpos hrange hheight hstep) hrun

end ControllerService

end SensorMouse
