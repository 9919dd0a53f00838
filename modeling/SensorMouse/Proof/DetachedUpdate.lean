import SensorMouse.Lib.Attachment
import SensorMouse.Proof.ServiceStep

/-!
# Updates of views that are gone

Of the calls to `updateViewLayout` only those of `sensorCallback` come after a test of `alreadyAdded`.
The lock of a pending `sendEventRunnable` and the messages that move the button do not test it, and
`onDestroy` removes neither. A run updates attached views only exactly if none of these runs late:
`updates_attached_iff`.
-/

namespace SensorMouse

open Java Lib Lib.Attachment

/-! ### The cursor's view -/

namespace MouseManager

def Call.move : Call → Option Move
  | .addView => some .attach
  | .removeView => some .detach
  | .updateViewLayout _ _ => some .use
  | .register | .unRegister => none

/-- What has happened to the view. -/
def viewMoves {F : Type} (mouse : MouseManager F) : List Move := mouse.calls.filterMap Call.move

/-- `alreadyAdded` says whether the view is attached. -/
def Knows {F : Type} (mouse : MouseManager F) : Prop := attached mouse.viewMoves = mouse.alreadyAdded

variable {F : Type} {mouse next : MouseManager F}

theorem viewMoves_of_calls_concat {made : Call} (hcalls : next.calls = mouse.calls ++ [made]) :
    next.viewMoves = mouse.viewMoves ++ made.move.toList := by
  unfold viewMoves
  rw [hcalls, List.filterMap_append]
  cases hmove : made.move <;> simp [hmove]

theorem viewMoves_of_calls_eq (hcalls : next.calls = mouse.calls) :
    next.viewMoves = mouse.viewMoves := by
  unfold viewMoves
  rw [hcalls]

theorem Knows.of_eq (hknows : mouse.Knows) (hcalls : next.calls = mouse.calls)
    (hadded : next.alreadyAdded = mouse.alreadyAdded) : next.Knows := by
  unfold Knows
  rw [viewMoves_of_calls_eq hcalls, hadded]
  exact hknows

/-- An update, whatever else the step does. -/
theorem Knows.update (hknows : mouse.Knows) {x y : Int}
    (hcalls : next.calls = mouse.calls ++ [.updateViewLayout x y])
    (hadded : next.alreadyAdded = mouse.alreadyAdded) :
    next.Knows ∧
      (Orderly next.viewMoves ↔ Orderly mouse.viewMoves ∧ mouse.alreadyAdded = true) := by
  have hmoves : next.viewMoves = mouse.viewMoves ++ [.use] := viewMoves_of_calls_concat hcalls
  unfold Knows
  rw [hmoves, attached_concat, orderly_concat, hadded, hknows]
  exact ⟨rfl, and_congr_right fun _ => by simp⟩

theorem Knows.stopMouse (hknows : mouse.Knows) :
    mouse.stopMouse.Knows ∧ (Orderly mouse.stopMouse.viewMoves ↔ Orderly mouse.viewMoves) := by
  unfold MouseManager.stopMouse
  by_cases hadded : mouse.alreadyAdded = true
  · have hmoves : ({ mouse with alreadyAdded := false }.call .removeView |>.call
        .unRegister).viewMoves = mouse.viewMoves ++ [.detach] := by
      simp [viewMoves, call, Call.move]
    rw [if_pos hadded, Knows, hmoves, attached_concat, orderly_concat]
    exact ⟨rfl, by simp⟩
  · rw [if_neg hadded]
    have hmoves : (mouse.call .unRegister).viewMoves = mouse.viewMoves := by
      simp [viewMoves, call, Call.move]
    rw [Knows, hmoves]
    exact ⟨hknows, Iff.rfl⟩

/-- The test of `sensorCallback` is enough. -/
theorem Knows.sensorCallback [JavaFloat F] (hknows : mouse.Knows) {isPortrait : Bool} {x y z : F}
    (hmouse : mouse.sensorCallback isPortrait x y z = .ok next) :
    next.Knows ∧ (Orderly next.viewMoves ↔ Orderly mouse.viewMoves) := by
  rcases exists_of_sensorCallback hmouse with ⟨computer, rfl⟩ | ⟨haccepts, computer, position, rfl⟩
  · exact ⟨hknows.of_eq rfl rfl, Iff.rfl⟩
  · have hadded : mouse.alreadyAdded = true := (Bool.and_eq_true_iff.mp haccepts).2
    obtain ⟨hnext, horderly⟩ := @Knows.update F mouse
      ({ mouse with computer := computer }.applied isPortrait (some position)) hknows _ _ rfl rfl
    exact ⟨hnext, horderly.trans (and_iff_left hadded)⟩

end MouseManager

/-! ### The button's view -/

namespace ButtonManager

def Call.move : Call → Move
  | .addView => .attach
  | .removeView => .detach
  | .updateViewLayout _ => .use

def viewMoves (manager : ButtonManager) : List Move := manager.calls.map Call.move

def Knows (manager : ButtonManager) : Prop := attached manager.viewMoves = manager.alreadyAdded

/-- The messages that move the button to the other side. -/
def MovesButton (what : Int) : Prop :=
  what = EventQueueHandler.sendB2Left ∨ what = EventQueueHandler.sendB2Right

instance (what : Int) : Decidable (MovesButton what) := inferInstanceAs (Decidable (_ ∨ _))

def UpdatesAttached (manager : ButtonManager) : Event → Prop
  | .handleMessage entry => MovesButton entry.item → manager.alreadyAdded = true
  | _ => True

variable {manager next : ButtonManager}

theorem Knows.handleMessage (hknows : manager.Knows) (what : Int) :
    (manager.handleMessage what).Knows ∧ (Orderly (manager.handleMessage what).viewMoves ↔
      Orderly manager.viewMoves ∧ (MovesButton what → manager.alreadyAdded = true)) := by
  have hupdate {next : ButtonManager} (hmoves : next.viewMoves = manager.viewMoves ++ [.use])
      (hadded : next.alreadyAdded = manager.alreadyAdded) (hmove : MovesButton what) :
      next.Knows ∧ (Orderly next.viewMoves ↔
        Orderly manager.viewMoves ∧ (MovesButton what → manager.alreadyAdded = true)) := by
    unfold Knows
    rw [hmoves, attached_concat, orderly_concat, hadded, hknows]
    exact ⟨rfl, by simp [hmove]⟩
  unfold ButtonManager.handleMessage
  by_cases hleft : what = EventQueueHandler.sendB2Left
  · rw [if_pos hleft]
    exact hupdate (by simp [viewMoves, call, Call.move]) rfl (Or.inl hleft)
  · by_cases hright : what = EventQueueHandler.sendB2Right
    · rw [if_neg hleft, if_pos hright]
      exact hupdate (by simp [viewMoves, call, Call.move]) rfl (Or.inr hright)
    · rw [if_neg hleft, if_neg hright]
      exact ⟨hknows, by simp [MovesButton, hleft, hright]⟩

theorem Knows.stopButton (hknows : manager.Knows) :
    manager.stopButton.Knows ∧ (Orderly manager.stopButton.viewMoves ↔ Orderly manager.viewMoves) := by
  unfold ButtonManager.stopButton
  by_cases hadded : manager.alreadyAdded = true
  · have hmoves : { { manager with alreadyAdded := false }.call .removeView with
        eventHandler := { manager.eventHandler with goon := false } }.viewMoves =
          manager.viewMoves ++ [.detach] := by
      simp [viewMoves, call, Call.move]
    rw [if_pos hadded]
    unfold Knows
    dsimp only [call] at hmoves ⊢
    rw [hmoves, attached_concat, orderly_concat]
    exact ⟨rfl, by simp⟩
  · rw [if_neg hadded]
    exact ⟨hknows, Iff.rfl⟩

theorem Knows.step (hknows : manager.Knows) {event : Event} (hstep : manager.step event = some next) :
    next.Knows ∧ (Orderly next.viewMoves ↔
      Orderly manager.viewMoves ∧ manager.UpdatesAttached event) := by
  cases stepped_of_step hstep with
  | @handleMessage entry hidle hpending =>
      have htaken : { manager with handler := manager.handler.take entry }.Knows := hknows
      exact htaken.handleMessage entry.item
  | stopButton hidle =>
      obtain ⟨hnext, horderly⟩ := hknows.stopButton
      exact ⟨hnext, horderly.trans (and_iff_left trivial).symm⟩
  | tick | heard | offer | notify | consume =>
      exact ⟨hknows, (and_iff_left trivial).symm⟩

end ButtonManager

namespace ControllerService

variable {F : Type} [JavaFloat F] {service next : ControllerService F}

/-- The two updates that are made without a test find their view attached. -/
def UpdatesAttached (service : ControllerService F) : Event F → Prop
  | .dispatch entry => service.LooksBack entry →
      service.sampler.compute.getTimebackPosition.isOk = true →
      service.mouseManager.alreadyAdded = true
  | .handleMessage entry => service.buttonManager.UpdatesAttached (.handleMessage entry)
  | _ => True

instance decidableUpdatesAttached (service : ControllerService F) :
    (event : Event F) → Decidable (service.UpdatesAttached event)
  | .dispatch _ => inferInstanceAs (Decidable (_ → _ → _))
  | .handleMessage _ => inferInstanceAs (Decidable (_ → _))
  | .touch _ | .touchActionUp | .offer _ | .notify | .consume _ | .sensorCallback _ _ _ _
  | .unlock _ | .sample | .tick _ | .onDestroy => isTrue trivial

/-- Every update of either view happens while that view is attached. -/
def ViewsOrderly (service : ControllerService F) : Prop :=
  Orderly service.mouseManager.viewMoves ∧ Orderly service.buttonManager.viewMoves

/-- Both managers know whether their views are attached. -/
def Knows (service : ControllerService F) : Prop :=
  service.mouseManager.Knows ∧ service.buttonManager.Knows

omit [JavaFloat F] in
theorem updatesAttached_of_toButton {event : Event F} {given : ButtonManager.Event}
    (hgiven : service.toButton event = some given) (hlooks : ¬ service.IsLookBack event) :
    service.UpdatesAttached event ↔ service.buttonManager.UpdatesAttached given := by
  cases event with
  | dispatch entry =>
      obtain rfl := Option.some.inj hgiven
      exact iff_of_true (fun hdown => absurd hdown hlooks) trivial
  | handleMessage | touch | touchActionUp | offer | notify | consume =>
      obtain rfl := Option.some.inj hgiven
      exact Iff.rfl
  | sensorCallback | unlock | sample | tick | onDestroy => cases hgiven

theorem Knows.step (hknows : service.Knows) {event : Event F}
    (hstep : service.step event = some next) :
    next.Knows ∧ (next.ViewsOrderly ↔ service.ViewsOrderly ∧ service.UpdatesAttached event) := by
  obtain ⟨hmouse, hbutton⟩ := hknows
  unfold ViewsOrderly
  cases stepped_of_step hstep with
  | button hgiven hlooks hmanager =>
      obtain ⟨hnext, horderly⟩ := hbutton.step hmanager
      refine ⟨⟨hmouse, hnext⟩, ?_⟩
      rw [horderly, updatesAttached_of_toButton hgiven hlooks, and_assoc]
  | @lookBack entry back compute manager hlooks hback hmanager =>
      obtain ⟨hnext, horderly⟩ := hbutton.step hmanager
      obtain ⟨switch, timers, thrown, hobeyed⟩ := service.obey_lookBack manager compute back
      rw [hobeyed]
      obtain ⟨hmoved, hmouseOrderly⟩ := @MouseManager.Knows.update F service.mouseManager
        { service.mouseManager.updateMousePosition back.1 (wrap (back.2 - 30)) with
          updateSwitch := switch
          timers := timers } hmouse _ _ rfl rfl
      have hguard : service.UpdatesAttached (.dispatch entry) ↔
          service.mouseManager.alreadyAdded = true := by
        unfold UpdatesAttached
        simp [hlooks, hback, Except.isOk, Except.toBool]
      have hbuttonOrderly : Orderly manager.viewMoves ↔ Orderly service.buttonManager.viewMoves :=
        horderly.trans (and_iff_left trivial)
      refine ⟨⟨hmoved, hnext⟩, ?_⟩
      rw [hguard, hmouseOrderly, hbuttonOrderly, and_right_comm]
  | lookBackThrows hlooks hthrown =>
      refine ⟨⟨hmouse, hbutton⟩, (and_iff_left fun _ hok => ?_).symm⟩
      rw [hthrown] at hok
      cases hok
  | sensorCallback hcallback =>
      obtain ⟨hnext, horderly⟩ := hmouse.sensorCallback hcallback
      refine ⟨⟨hnext, hbutton⟩, ?_⟩
      rw [horderly]
      exact (and_iff_left trivial).symm
  | onDestroy hidle =>
      obtain ⟨hmouseNext, hmouseOrderly⟩ := hmouse.stopMouse
      obtain ⟨hbuttonNext, hbuttonOrderly⟩ := hbutton.stopButton
      refine ⟨⟨hmouseNext, hbuttonNext⟩, ?_⟩
      unfold ControllerService.onDestroy
      rw [hmouseOrderly, hbuttonOrderly]
      exact (and_iff_left trivial).symm
  | sensorCallbackThrows | unlock | sample | sampleThrows | tick =>
      exact ⟨⟨hmouse, hbutton⟩, (and_iff_left trivial).symm⟩

theorem knows_onStartCommand {screenWidth screenHeight : Int} {intent : Intent F}
    (hstart : onStartCommand screenWidth screenHeight intent = .ok service) :
    service.Knows ∧ service.ViewsOrderly := by
  obtain ⟨computer, period, back, wait, compute, -, rfl⟩ := exists_of_onStartCommand hstart
  have hattached : Orderly [.attach] :=
    (@orderly_concat [] .attach).mpr ⟨orderly_nil, by simp⟩
  exact ⟨⟨rfl, rfl⟩, hattached, hattached⟩

/-- **Exactly when no detached view is updated.** Both views are updated only while they are attached
exactly if no runnable looks back after the cursor's view is removed and no message moves the button
after the button's view is. -/
theorem updates_attached_iff {screenWidth screenHeight : Int} {intent : Intent F}
    {start final : ControllerService F} {events : List (Event F)}
    (hstart : onStartCommand screenWidth screenHeight intent = .ok start)
    (hrun : run step start events = some final) :
    final.ViewsOrderly ↔ StepsAlong step UpdatesAttached start events := by
  obtain ⟨hknows, horderly⟩ := knows_onStartCommand hstart
  exact holds_iff_stepsAlong hknows horderly
    (fun current event next hcurrent hstep => hcurrent.step hstep) hrun

/-- A tap, and the stop while the cursor is locked: the timer runs after it. -/
def stoppedTapEvents : List (Event ℚ) :=
  [.touch ⟨.down, 0, 0⟩, .tick 100, .dispatch ⟨0, 100, .sendEvent⟩, .offer 100, .notify, .tick 50,
    .onDestroy, .tick 1000, .unlock ⟨0, 1100, ()⟩]

theorem updates_attached_iff_stoppedTap :
    ∃ start final : ControllerService ℚ, onStartCommand 480 800 {} = .ok start ∧
      run step start stoppedTapEvents = some final ∧ final.ViewsOrderly := by
  have hfacts : ((onStartCommand (F := ℚ) 480 800 {}).toOption.bind fun start =>
      (run step start stoppedTapEvents).map fun _ =>
        decide (StepsAlong step UpdatesAttached start stoppedTapEvents)) = some true := by
    decide +kernel
  obtain ⟨start, final, hstart, hrun, hsteps⟩ := exists_run_of_bind_eq _ hfacts
  have hcreate := toOption_eq_some.mp hstart
  exact ⟨start, final, hcreate, hrun, (updates_attached_iff hcreate hrun).mpr hsteps⟩

/-- A tap whose runnable is still pending at the stop. -/
def lateTapEvents : List (Event ℚ) :=
  [.touch ⟨.down, 0, 0⟩, .tick 50, .onDestroy, .tick 50, .dispatch ⟨0, 100, .sendEvent⟩]

theorem detached_view_updated :
    ¬ ∀ (screenWidth screenHeight : Int) (intent : Intent ℚ) (start final : ControllerService ℚ)
        (events : List (Event ℚ)), onStartCommand screenWidth screenHeight intent = .ok start →
      run step start events = some final → StepsAlong step Timely start events →
      final.ViewsOrderly := by
  intro hclaim
  have hfacts : ((onStartCommand (F := ℚ) 480 800 {}).toOption.bind fun start =>
      (run step start lateTapEvents).map fun final =>
        decide (StepsAlong step Timely start lateTapEvents ∧
          final.mouseManager.viewMoves = [.attach, .detach, .use])) = some true := by
    decide +kernel
  obtain ⟨start, final, hstart, hrun, htimely, hmoves⟩ := exists_run_of_bind_eq _ hfacts
  have horderly := (hclaim 480 800 {} start final lateTapEvents (toOption_eq_some.mp hstart) hrun
    htimely).1
  exact absurd (horderly [.attach, .detach] [] hmoves) (by decide)

end ControllerService

end SensorMouse
