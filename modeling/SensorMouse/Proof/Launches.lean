import SensorMouse.Proof.DetachedUpdate
import SensorMouse.Proof.Instances

/-!
# What launches leave behind

`onDestroy` removes both views and the sensor's listener of the instance it stops, so these are always
given back. The sampling thread is only stopped by `ButtonEventListener.finalize`, and the static
reference to the latest instance keeps its listener from ever being finalized: its thread loops on.
-/

namespace SensorMouse

open Java Lib Lib.Attachment

namespace Sampler

/-- The thread has reached the end of `run`, or can reach it by statements of its own. -/
def CanExit (sampler : Sampler) : Prop :=
  ∃ (positions : List (Int × Int)) (final : Sampler),
    run Sampler.step sampler (positions.map .statement) = some final ∧ final.control = .exited

theorem Loops.not_canExit {sampler : Sampler} (hloops : sampler.Loops) : ¬ sampler.CanExit := by
  rintro ⟨positions, final, hrun, hexited⟩
  have hfinal : final.Loops := by
    refine run_invariant_of_labels Loops (fun label => ∃ position, label = .statement position) ?_
      hloops ?_ hrun
    · intro label hmem
      obtain ⟨position, -, rfl⟩ := List.mem_map.mp hmem
      exact ⟨position, rfl⟩
    · rintro current label next ⟨position, rfl⟩ hcurrent hstep
      exact hcurrent.statement (toOption_eq_some.mp hstep)
  exact hfinal.2 hexited

theorem loops_create {timeUnit backtime : Int} {compute : TimeBackCompute}
    (hcreate : TimeBackCompute.create timeUnit backtime = .ok compute) :
    Loops { compute := compute } := by
  obtain ⟨first, -, hchanged⟩ := bind_eq_ok.mp hcreate
  obtain ⟨sleepTime, -, hrest⟩ := bind_eq_ok.mp hchanged
  obtain ⟨array, -, hcompute⟩ := bind_eq_ok.mp hrest
  obtain rfl := Except.ok.inj hcompute
  exact ⟨rfl, by simp⟩

end Sampler

/-- The thread has reached the end of `run`, or can reach it by steps of its own. -/
def EventQueueHandler.CanExit (handler : EventQueueHandler) : Prop :=
  ∃ (readings : List Int) (final : EventQueueHandler),
    run EventQueueHandler.step handler (readings.map .consume) = some final ∧ final.control = .exited

namespace ServiceProcess

variable {F : Type} [JavaFloat F] {process : ServiceProcess F}

/-- The views and the sensor's listener of an instance are given back. -/
structure Detached (launched : Launched F) : Prop where
  cursorView : attached launched.service.mouseManager.viewMoves = false
  buttonView : attached launched.service.buttonManager.viewMoves = false
  sensor : attached launched.service.mouseManager.sensorMoves = false

/-- An instance has given back all it took. -/
structure GivenBack (launched : Launched F) : Prop extends Detached launched where
  receiver : launched.receiver = false
  sampling : launched.service.sampler.CanExit
  injecting : launched.service.buttonManager.eventHandler.CanExit

/-- The number of views, listeners, receivers and endless threads that are left is zero. -/
def GivesBack (process : ServiceProcess F) : Prop :=
  ∀ launched ∈ process.instances, GivenBack launched

/-- An instance holds its views and its sensor exactly while it runs, and the thread of the latest one
is never stopped. -/
structure Held (live latest : Bool) (launched : Launched F) : Prop where
  knows : launched.service.Knows
  mouse : launched.service.mouseManager.alreadyAdded = live
  button : launched.service.buttonManager.alreadyAdded = live
  sensor : attached launched.service.mouseManager.sensorMoves = live
  loops : latest = true → launched.service.sampler.Loops

omit [JavaFloat F] in
theorem Held.detached {latest : Bool} {launched : Launched F} (hheld : Held false latest launched) :
    Detached launched where
  cursorView := hheld.knows.1.trans hheld.mouse
  buttonView := hheld.knows.2.trans hheld.button
  sensor := hheld.sensor

theorem held_launched {screenWidth screenHeight : Int} {intent : Intent F}
    {service : ControllerService F}
    (hstart : ControllerService.onStartCommand screenWidth screenHeight intent = .ok service) :
    Held true true { service := service } := by
  obtain ⟨hknows, -⟩ := ControllerService.knows_onStartCommand hstart
  obtain ⟨computer, period, back, wait, compute, hcompute, rfl⟩ :=
    ControllerService.exists_of_onStartCommand hstart
  exact ⟨hknows, rfl, rfl, rfl, fun _ => Sampler.loops_create hcompute⟩

omit [JavaFloat F] in
theorem Held.destroyed {launched : Launched F} (hheld : Held true true launched) :
    Held false true { launched with service := launched.service.onDestroy } := by
  obtain ⟨⟨hmouseKnows, hbuttonKnows⟩, hmouse, hbutton, hsensor, hloops⟩ := hheld
  refine ⟨⟨hmouseKnows.stopMouse.1, hbuttonKnows.stopButton.1⟩, ?_, ?_, ?_, hloops⟩
  · unfold ControllerService.onDestroy MouseManager.stopMouse
    dsimp only
    rw [if_pos hmouse]
    rfl
  · unfold ControllerService.onDestroy ButtonManager.stopButton
    dsimp only
    rw [if_pos hbutton]
    rfl
  · have hmoves : launched.service.mouseManager.stopMouse.sensorMoves =
        launched.service.mouseManager.sensorMoves ++ [.detach] := by
      unfold MouseManager.stopMouse MouseManager.sensorMoves
      rw [if_pos hmouse]
      simp [MouseManager.call, MouseManager.Call.sensorMove, List.filterMap_cons]
    change attached launched.service.mouseManager.stopMouse.sensorMoves = false
    rw [hmoves, attached_concat]
    rfl

theorem heldRule : @InstanceRule F _ Held where
  launched := held_launched
  own := by
    intro live latest launched event service hevent hstep hheld
    have hkeeps := ControllerService.keeps_of_step hevent hstep
    exact ⟨(hheld.knows.step hstep).1, hkeeps.mouse.alreadyAdded.trans hheld.mouse,
      hkeeps.button.trans hheld.button, by rw [hkeeps.mouse.sensorMoves, hheld.sensor],
      fun hlatest => hkeeps.loops (hheld.loops hlatest)⟩
  destroyed := Held.destroyed
  superseded hheld := ⟨hheld.knows, hheld.mouse, hheld.button, hheld.sensor, by simp⟩
  unregistered hheld := ⟨hheld.knows, hheld.mouse, hheld.button, hheld.sensor, hheld.loops⟩
  finalized hheld := ⟨hheld.knows, hheld.mouse, hheld.button, hheld.sensor, by simp⟩

theorem length_pos_of_launch {portrait : Bool} {display : Int × Int} {events : List (Event F)}
    {intent : Intent F} (hmem : .launch intent ∈ events)
    (hrun : run step (created portrait display) events = some process) :
    0 < process.instances.length := by
  refine run_history (fun past current => (∃ intent, .launch intent ∈ past) →
    0 < current.instances.length) ?_ ?_ hrun ⟨intent, hmem⟩
  · rintro ⟨intent, hnone⟩
    cases hnone
  · intro past current event next _ hpast hstep hlaunched
    have hearlier : (∀ intent, event ≠ .launch intent) → 0 < current.instances.length := by
      intro hother
      obtain ⟨intent, hlaunch⟩ := hlaunched
      rcases List.mem_append.mp hlaunch with hold | hnew
      · exact hpast ⟨intent, hold⟩
      · exact absurd (List.mem_singleton.mp hnew).symm (hother intent)
    cases stepped_of_step hstep with
    | launch hstart => simp
    | stopService =>
        rw [(stopService_frame current).2]
        exact hearlier (by simp)
    | rotate | onConfigurationChanged => exact hearlier (by simp)
    | own hgiven hevent hinstance hservice =>
        rw [List.length_set]
        refine hearlier ?_
        rintro other rfl
        cases hgiven
    | tick elapsed hadvance =>
        rw [List.length_map]
        exact hearlier (by simp)
    | unregisterReceiver hdestroyed =>
        rw [List.length_modify]
        exact hearlier (by simp)
    | finalize hinstance hunreachable =>
        rw [List.length_set]
        exact hearlier (by simp)

omit [JavaFloat F] in
/-- The latest instance's thread goes on, whether the instance runs or not. -/
theorem exists_loops {running : Bool}
    (heach : Each (At Held running process.instances.length) process.instances)
    (hpos : 0 < process.instances.length) :
    ∃ launched ∈ process.instances, launched.service.sampler.Loops := by
  rcases List.eq_nil_or_concat process.instances with hnil | ⟨init, last, hlast⟩
  · rw [hnil] at hpos
    exact absurd hpos (Nat.lt_irrefl 0)
  · have hheld := heach init.length last (by rw [hlast]; simp)
    rw [hlast, List.length_concat] at hheld
    exact ⟨last, by rw [hlast]; simp, (at_last.mp hheld).loops rfl⟩

/-- **No launch gives everything back.** However many launches there have been, once the last of them is
stopped the views and the sensor's listeners have all been given back, and something else has not: the
sampling thread of the last launch can no longer end. -/
theorem launches_never_give_back {portrait : Bool} {display : Int × Int} {events : List (Event F)}
    {intent : Intent F} (hlaunched : .launch intent ∈ events)
    (hrun : run step (created portrait display) events = some process)
    (hstopped : process.running = false) :
    (∀ launched ∈ process.instances, Detached launched) ∧ ¬ process.GivesBack := by
  have heach := instances_run heldRule hrun
  rw [hstopped] at heach
  constructor
  · intro launched hmem
    obtain ⟨i, hi⟩ := List.mem_iff_getElem?.mp hmem
    have hheld := heach i launched hi
    unfold At at hheld
    rw [Bool.false_and] at hheld
    exact hheld.detached
  · intro hgivesBack
    obtain ⟨launched, hmem, hloops⟩ := exists_loops heach (length_pos_of_launch hlaunched hrun)
    exact hloops.not_canExit (hgivesBack launched hmem).sampling

/-- Two launches and a tap. -/
def relaunchEvents : List (Event ℚ) :=
  [.launch {}, .own 0 .sample, .launch {}, .own 1 (.touch ⟨.down, 0, 0⟩), .own 1 .touchActionUp,
    .tick 100, .own 1 (.dispatch ⟨0, 100, .sendEvent⟩), .own 1 (.offer 100), .own 1 .notify,
    .own 1 (.offer 100), .own 1 .notify, .stopService]

theorem exists_relaunch :
    ∃ process : ServiceProcess ℚ, run step (created true (480, 800)) relaunchEvents = some process ∧
      process.running = false := by
  have hfacts : (run step (created (F := ℚ) true (480, 800)) relaunchEvents).map
      (fun process => process.running) = some false := by decide +kernel
  exact Option.map_eq_some_iff.mp hfacts

theorem launches_never_give_back_relaunch :
    ∃ process : ServiceProcess ℚ, run step (created true (480, 800)) relaunchEvents = some process ∧
      (∀ launched ∈ process.instances, Detached launched) ∧ ¬ process.GivesBack := by
  obtain ⟨process, hrun, hstopped⟩ := exists_relaunch
  have hmem : Event.launch {} ∈ relaunchEvents := by simp [relaunchEvents]
  exact ⟨process, hrun, launches_never_give_back hmem hrun hstopped⟩

theorem sampling_thread_left :
    ¬ ∀ (portrait : Bool) (display : Int × Int) (events : List (Event ℚ)) (intent : Intent ℚ)
        (process : ServiceProcess ℚ), .launch intent ∈ events →
      run step (created portrait display) events = some process → process.running = false →
      process.GivesBack := by
  intro hclaim
  obtain ⟨process, hrun, hstopped⟩ := exists_relaunch
  have hmem : Event.launch {} ∈ relaunchEvents := by simp [relaunchEvents]
  have hgivesBack := hclaim true (480, 800) relaunchEvents {} process hmem hrun hstopped
  obtain ⟨launched, hinstance, hloops⟩ :=
    exists_loops (instances_run heldRule hrun) (length_pos_of_launch hmem hrun)
  exact hloops.not_canExit (hgivesBack launched hinstance).sampling

end ServiceProcess

end SensorMouse
