import SensorMouse.Activity.ServiceProcess
import SensorMouse.Lib.Attachment
import SensorMouse.Lib.Each
import SensorMouse.Proof.LookBack
import SensorMouse.Proof.ServiceStep

/-!
# The instances of a process

What an instance does by itself never touches whether its views are added, its screen or whether its
sampling thread is to go on. So what holds of an instance depends on two things only, whether it runs
and whether it is the latest: `InstanceRule` lists what has to be shown, and `instances_run` is the
induction.
-/

namespace SensorMouse

open Java Lib Lib.Attachment

namespace Sampler

variable {sampler next : Sampler}

/-- A thread that is to go on goes on. -/
def Loops (sampler : Sampler) : Prop := sampler.compute.goon = true ∧ sampler.control ≠ .exited

theorem Loops.statement (hloops : sampler.Loops) {position : Int × Int}
    (hok : sampler.statement position = .ok next) : next.Loops := by
  obtain ⟨hgoon, hrunning⟩ := hloops
  obtain ⟨hnext, hadvances, -⟩ := statement_spec hok
  refine ⟨hadvances.goon.trans hgoon, ?_⟩
  rw [hnext, nextControl, hgoon]
  cases hcontrol : sampler.control with
  | exited => exact absurd hcontrol hrunning
  | testGoon | record | writePosition | increment | resetPointer | sleep => simp
  | testIndex | testPointer =>
      dsimp only
      split_ifs <;> simp

end Sampler

namespace MouseManager

def Call.sensorMove : Call → Option Move
  | .register => some .attach
  | .unRegister => some .detach
  | .addView | .removeView | .updateViewLayout _ _ => none

variable {F : Type} {mouse : MouseManager F}

/-- What has happened to the registration with the sensor. -/
def sensorMoves (mouse : MouseManager F) : List Move := mouse.calls.filterMap Call.sensorMove

theorem sensorMoves_update (mouse : MouseManager F) (x y : Int) :
    (mouse.updateMousePosition x y).sensorMoves = mouse.sensorMoves := by
  unfold sensorMoves updateMousePosition call
  simp [Call.sensorMove]

/-- What only `startMouse` and `stopMouse` change, and the screen. -/
structure Fixed (mouse next : MouseManager F) : Prop where
  alreadyAdded : next.alreadyAdded = mouse.alreadyAdded
  sensorMoves : next.sensorMoves = mouse.sensorMoves
  screenWidth : next.screenWidth = mouse.screenWidth
  screenHeight : next.screenHeight = mouse.screenHeight

theorem Fixed.refl (mouse : MouseManager F) : Fixed mouse mouse := ⟨rfl, rfl, rfl, rfl⟩

theorem fixed_sensorCallback [JavaFloat F] {next : MouseManager F} {isPortrait : Bool} {x y z : F}
    (hmouse : mouse.sensorCallback isPortrait x y z = .ok next) : Fixed mouse next := by
  rcases exists_of_sensorCallback hmouse with ⟨computer, rfl⟩ | ⟨-, computer, position, rfl⟩
  · exact ⟨rfl, rfl, rfl, rfl⟩
  · exact ⟨rfl, sensorMoves_update { mouse with computer := computer } _ _, rfl, rfl⟩

end MouseManager

theorem ButtonManager.alreadyAdded_of_step {manager next : ButtonManager} {event : ButtonManager.Event}
    (hevent : event ≠ .stopButton) (hstep : manager.step event = some next) :
    next.alreadyAdded = manager.alreadyAdded := by
  cases stepped_of_step hstep with
  | tick | heard | offer | notify | consume => rfl
  | @handleMessage entry hidle hpending =>
      obtain ⟨right, -, -, -, hadded⟩ := handleMessage_frame
        { manager with handler := manager.handler.take entry } entry.item
      exact hadded
  | stopButton hidle => exact absurd rfl hevent

namespace ControllerService

variable {F : Type} {service next : ControllerService F}

structure Keeps (service next : ControllerService F) : Prop where
  mouse : MouseManager.Fixed service.mouseManager next.mouseManager
  button : next.buttonManager.alreadyAdded = service.buttonManager.alreadyAdded
  loops : service.sampler.Loops → next.sampler.Loops

/-- Only `onDestroy` stops anything. -/
theorem keeps_of_step [JavaFloat F] {event : Event F} (hevent : event ≠ .onDestroy)
    (hstep : service.step event = some next) : Keeps service next := by
  cases stepped_of_step hstep with
  | @button _ given manager hgiven hlooks hmanager =>
      refine ⟨MouseManager.Fixed.refl _, ButtonManager.alreadyAdded_of_step ?_ hmanager, id⟩
      rintro rfl
      cases event <;> cases hgiven
  | @lookBack entry back compute manager hlooks hback hmanager =>
      obtain ⟨made, rfl⟩ := Sampler.getTimebackPosition_frame hback
      obtain ⟨switch, timers, thrown, hobeyed⟩ :=
        service.obey_lookBack manager (service.sampler.compute.logged made) back
      rw [hobeyed]
      exact ⟨⟨rfl, MouseManager.sensorMoves_update service.mouseManager _ _, rfl, rfl⟩,
        ButtonManager.alreadyAdded_of_step (by simp) hmanager, id⟩
  | sensorCallback hmouse => exact ⟨MouseManager.fixed_sensorCallback hmouse, rfl, id⟩
  | sample hsampler => exact ⟨MouseManager.Fixed.refl _, rfl, fun hloops => hloops.statement hsampler⟩
  | onDestroy hidle => exact absurd rfl hevent
  | unlock | tick | lookBackThrows | sensorCallbackThrows | sampleThrows =>
      exact ⟨⟨rfl, rfl, rfl, rfl⟩, rfl, id⟩

end ControllerService

namespace ServiceProcess

variable {F : Type} [JavaFloat F] {process next : ServiceProcess F}

omit [JavaFloat F] in
/-- What `stopService` leaves alone. -/
theorem stopService_frame (process : ServiceProcess F) :
    (process.stopService.portrait = process.portrait ∧
      process.stopService.display = process.display ∧
      process.stopService.isPortrait = process.isPortrait) ∧
      process.stopService.instances.length = process.instances.length := by
  unfold stopService
  split_ifs
  · exact ⟨⟨rfl, rfl, rfl⟩, List.length_modify ..⟩
  · exact ⟨⟨rfl, rfl, rfl⟩, rfl⟩

/-- The instance an event concerns, and what it is to the instance. -/
def toInstance (process : ServiceProcess F) : Event F → Option (Nat × ControllerService.Event F)
  | .onSensorChanged i x y z => some (i, .sensorCallback process.isPortrait x y z)
  | .own i event => some (i, event)
  | _ => none

/-- What a step can do, with the condition under which it can. -/
inductive Stepped (process : ServiceProcess F) : Event F → ServiceProcess F → Prop where
  | launch {intent : Intent F} {service : ControllerService F}
      (hstart : ControllerService.onStartCommand process.screenWidth process.screenHeight intent =
        .ok service) :
      Stepped process (.launch intent) { process.stopService with
        instances := process.stopService.instances ++ [{ service := service }]
        running := true }
  | stopService : Stepped process .stopService process.stopService
  | rotate : Stepped process .rotate { process with portrait := !process.portrait }
  | onConfigurationChanged (hrunning : process.running = true) :
      Stepped process .onConfigurationChanged process.onConfigurationChanged
  | own {event : Event F} {i : Nat} {given : ControllerService.Event F} {launched : Launched F}
      {service : ControllerService F} (hgiven : process.toInstance event = some (i, given))
      (hevent : given ≠ .onDestroy) (hlaunched : process.instances[i]? = some launched)
      (hstep : launched.service.step given = some service) :
      Stepped process event { process with
        instances := process.instances.set i { launched with service := service } }
  | tick (elapsed : Nat)
      (hstep : ∀ launched ∈ process.instances,
        launched.service.step (.tick elapsed) = some (launched.service.advance elapsed)) :
      Stepped process (.tick elapsed) { process with
        instances := process.instances.map fun launched =>
          { launched with service := launched.service.advance elapsed } }
  | unregisterReceiver {i : Nat}
      (hdestroyed : i + 1 < process.instances.length ∨ process.running = false) :
      Stepped process (.unregisterReceiver i) { process with
        instances := process.instances.modify i fun launched => { launched with receiver := false } }
  | finalize {i : Nat} {launched : Launched F} (hlaunched : process.instances[i]? = some launched)
      (hunreachable : ¬ process.Refers i launched) :
      Stepped process (.finalize i) { process with
        instances := process.instances.set i
          { launched with service := finalized launched.service } }

theorem stepped_of_stepInstance {event : Event F} {i : Nat} {given : ControllerService.Event F}
    (hgiven : process.toInstance event = some (i, given)) (hevent : given ≠ .onDestroy)
    (hstep : process.stepInstance i given = some next) : Stepped process event next := by
  unfold stepInstance at hstep
  cases hlaunched : process.instances[i]? with
  | none => simp [hlaunched] at hstep
  | some launched =>
      simp only [hlaunched] at hstep
      obtain ⟨service, hservice, rfl⟩ := Option.map_eq_some_iff.mp hstep
      exact .own hgiven hevent hlaunched hservice

theorem stepped_of_step {event : Event F} (hstep : process.step event = some next) :
    Stepped process event next := by
  obtain ⟨hthrown, hperform⟩ := Option.ite_none_left_eq_some.mp hstep
  cases event with
  | launch intent =>
      obtain ⟨-, hlaunch⟩ := Option.ite_none_right_eq_some.mp hperform
      obtain ⟨service, hservice, hnext⟩ := bind_eq_ok.mp (toOption_eq_some.mp hlaunch)
      obtain rfl := Except.ok.inj hnext
      obtain ⟨⟨hportrait, hdisplay, -⟩, -⟩ := stopService_frame process
      refine .launch ?_
      unfold screenWidth screenHeight at hservice ⊢
      rwa [hportrait, hdisplay] at hservice
  | stopService =>
      obtain ⟨-, hstop⟩ := Option.ite_none_right_eq_some.mp hperform
      obtain rfl := Option.some.inj hstop
      exact .stopService
  | rotate =>
      obtain rfl := Option.some.inj hperform
      exact .rotate
  | onConfigurationChanged =>
      obtain ⟨⟨hrunning, -⟩, hnext⟩ := Option.ite_none_right_eq_some.mp hperform
      obtain rfl := Option.some.inj hnext
      exact .onConfigurationChanged hrunning
  | onSensorChanged i x y z =>
      obtain ⟨-, hinstance⟩ := Option.ite_none_right_eq_some.mp hperform
      exact stepped_of_stepInstance rfl (by simp) hinstance
  | own i event =>
      obtain ⟨⟨hown, -⟩, hinstance⟩ := Option.ite_none_right_eq_some.mp hperform
      refine stepped_of_stepInstance rfl ?_ hinstance
      rintro rfl
      exact hown
  | tick elapsed =>
      obtain rfl := Option.some.inj hperform
      refine .tick elapsed fun launched hmem => ?_
      have hnone : ¬ launched.service.thrown.isSome = true := fun hsome =>
        hthrown (List.any_eq_true.mpr ⟨launched, hmem, hsome⟩)
      unfold ControllerService.step
      rw [if_neg hnone]
      rfl
  | unregisterReceiver i =>
      obtain ⟨hdestroyed, hnext⟩ := Option.ite_none_right_eq_some.mp hperform
      obtain rfl := Option.some.inj hnext
      exact .unregisterReceiver hdestroyed
  | finalize i =>
      unfold perform at hperform
      cases hlaunched : process.instances[i]? with
      | none => simp [hlaunched] at hperform
      | some launched =>
          simp only [hlaunched] at hperform
          obtain ⟨hunreachable, hnext⟩ := Option.ite_none_left_eq_some.mp hperform
          obtain rfl := Option.some.inj hnext
          exact .finalize hlaunched hunreachable

/-! ### The induction -/

/-- A property of an instance, given whether it runs and whether it is the latest, with what each step
owes it. -/
structure InstanceRule (P : Bool → Bool → Launched F → Prop) : Prop where
  launched : ∀ {screenWidth screenHeight intent service},
    ControllerService.onStartCommand screenWidth screenHeight intent = .ok service →
      P true true { service := service }
  own : ∀ {live latest launched event service}, event ≠ .onDestroy →
    launched.service.step event = some service → P live latest launched →
      P live latest { launched with service := service }
  destroyed : ∀ {launched}, P true true launched →
    P false true { launched with service := launched.service.onDestroy }
  superseded : ∀ {launched}, P false true launched → P false false launched
  unregistered : ∀ {latest launched}, P false latest launched →
    P false latest { launched with receiver := false }
  finalized : ∀ {launched}, P false false launched →
    P false false { launched with service := finalized launched.service }

/-- The property at each position, for `running` and the number of instances. -/
def At (P : Bool → Bool → Launched F → Prop) (running : Bool) (count i : Nat)
    (launched : Launched F) : Prop :=
  P (running && decide (i + 1 = count)) (decide (i + 1 = count)) launched

variable {P : Bool → Bool → Launched F → Prop}

omit [JavaFloat F] in
theorem at_of_lt {running : Bool} {count i : Nat} {launched : Launched F} (hlt : i + 1 < count) :
    At P running count i launched ↔ P false false launched := by
  unfold At
  rw [decide_eq_false hlt.ne, Bool.and_false]

omit [JavaFloat F] in
theorem at_last {running : Bool} {i : Nat} {launched : Launched F} :
    At P running (i + 1) i launched ↔ P running true launched := by
  unfold At
  rw [decide_eq_true rfl, Bool.and_true]

theorem InstanceRule.stopService (hrule : InstanceRule P)
    (heach : Each (At P process.running process.instances.length) process.instances) :
    Each (At P false process.instances.length) process.stopService.instances ∧
      process.stopService.running = false := by
  unfold ServiceProcess.stopService
  by_cases hrunning : process.running = true
  · rw [if_pos hrunning]
    rw [hrunning] at heach
    refine ⟨heach.modify (fun j launched hne hlt hold => ?_) (fun launched hlt hold => ?_), rfl⟩
    · exact (at_of_lt (by omega)).mpr ((at_of_lt (by omega)).mp hold)
    · have hcount : process.instances.length = process.instances.length - 1 + 1 := by omega
      rw [hcount] at hold ⊢
      exact at_last.mpr (hrule.destroyed (at_last.mp hold))
  · rw [if_neg hrunning]
    rw [Bool.not_eq_true] at hrunning
    exact ⟨hrunning ▸ heach, hrunning⟩

theorem InstanceRule.step (hrule : InstanceRule P)
    (heach : Each (At P process.running process.instances.length) process.instances)
    {event : Event F} (hstep : process.step event = some next) :
    Each (At P next.running next.instances.length) next.instances := by
  cases stepped_of_step hstep with
  | @launch intent service hstart =>
      obtain ⟨hstopped, -⟩ := hrule.stopService heach
      have hlength := (stopService_frame process).2
      dsimp only
      rw [List.length_append, List.length_singleton, hlength]
      refine hstopped.concat (fun i launched hlt hold => ?_) ?_
      · rw [hlength] at hlt
        refine (at_of_lt (by omega)).mpr ?_
        by_cases hlast : i + 1 = process.instances.length
        · rw [← hlast] at hold
          exact hrule.superseded (at_last.mp hold)
        · exact (at_of_lt (by omega)).mp hold
      · rw [hlength]
        exact at_last.mpr (hrule.launched hstart)
  | stopService =>
      obtain ⟨hstopped, hrunning⟩ := hrule.stopService heach
      rw [hrunning, (stopService_frame process).2]
      exact hstopped
  | rotate => exact heach
  | onConfigurationChanged hrunning => exact heach
  | @own _ i given launched service hgiven hevent hlaunched hservice =>
      dsimp only
      rw [List.length_set]
      exact heach.set (fun j other _ _ hold => hold)
        (hrule.own hevent hservice (heach i launched hlaunched))
  | tick elapsed hadvance =>
      dsimp only
      rw [List.length_map]
      exact heach.map fun i launched hmem hold => hrule.own (by simp) (hadvance launched hmem) hold
  | @unregisterReceiver i hdestroyed =>
      dsimp only
      rw [List.length_modify]
      refine heach.modify (fun j other _ _ hold => hold) fun launched hlt hold => ?_
      have hstopped : (process.running && decide (i + 1 = process.instances.length)) = false := by
        rcases hdestroyed with hearlier | hrunning
        · rw [decide_eq_false hearlier.ne, Bool.and_false]
        · rw [hrunning, Bool.false_and]
      unfold At at hold ⊢
      rw [hstopped] at hold ⊢
      exact hrule.unregistered hold
  | @finalize i launched hlaunched hunreachable =>
      have hearlier : i + 1 < process.instances.length := by
        have hlt := (List.getElem?_eq_some_iff.mp hlaunched).1
        have hne : i + 1 ≠ process.instances.length := fun hlast => hunreachable (Or.inl hlast)
        omega
      dsimp only
      rw [List.length_set]
      refine heach.set (fun j other _ _ hold => hold) ((at_of_lt hearlier).mpr ?_)
      exact hrule.finalized ((at_of_lt hearlier).mp (heach i launched hlaunched))

/-- A process in which nothing has been launched. -/
def created (portrait : Bool) (display : Int × Int) : ServiceProcess F :=
  { portrait := portrait, display := display }

theorem instances_run (hrule : InstanceRule P) {portrait : Bool} {display : Int × Int}
    {events : List (Event F)} (hrun : run step (created portrait display) events = some process) :
    Each (At P process.running process.instances.length) process.instances :=
  run_invariant (fun process => Each (At P process.running process.instances.length) process.instances)
    each_nil (fun _ _ _ hcurrent hstep => hrule.step hcurrent hstep) hrun

end ServiceProcess

end SensorMouse
