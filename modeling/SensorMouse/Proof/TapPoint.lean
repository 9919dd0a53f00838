import SensorMouse.Proof.ClickPoint
import SensorMouse.Proof.StaleMessages
import SensorMouse.Proof.StillPress

/-!
# Quick taps and slow taps

A press that is still held when its runnable is dispatched clicks where the ring looks back to; one
that has been released by then clicks where the cursor is. Until the dispatch the two runs differ in
the send state alone, so the two points are the same exactly if the cursor is shown where it was
recorded `timeUnit` samples before: `tap_point_law`.
-/

namespace SensorMouse

open Android Java Lib

namespace ButtonEventListener

/-- The same press with its release already received. -/
def released (listener : ButtonEventListener) : ButtonEventListener :=
  { listener with eventSendState := .downAndUp, pressed := false }

/-- The points of the `DOWN`s pushed after the first `base` calls. -/
def downPointsSince (base : Nat) (listener : ButtonEventListener) : List (Int × Int) :=
  (listener.calls.drop base).filterMap downPoint

variable {listener : ButtonEventListener}

theorem onReceive_of_down (hdown : listener.eventSendState = .down) :
    listener.onReceive = listener.released := by
  simp [onReceive, released, hdown, SendState.toInt]

/-- A touch that leaves a press in `DOWN` does the same to the released one. -/
theorem onTouch_released {touched : TouchEvent} (hpress : touched.action ≠ .down)
    (hdown : listener.eventSendState = .down)
    (hstays : (listener.onTouch touched).eventSendState = .down) :
    listener.released.onTouch touched = (listener.onTouch touched).released := by
  obtain ⟨action, x, y⟩ := touched
  cases action with
  | down => exact absurd rfl hpress
  | other => rfl
  | move =>
      let moved : ButtonEventListener := { listener with
        lengthX := x - listener.downX
        lengthY := y - listener.downY }
      have hmoved : listener.onTouch ⟨.move, x, y⟩ = moved.cancelIfMoved.startModeIfRecognised := rfl
      have hreleased : listener.released.onTouch ⟨.move, x, y⟩ = moved.released := by
        simp [onTouch, onTouchMove, cancelIfMoved, startModeIfRecognised, released, moved]
      rw [hmoved] at hstays ⊢
      rw [hreleased]
      by_cases hfar : |moved.lengthX| > buttonMoveOffset ∨ |moved.lengthY| > buttonMoveOffset
      · have hcancel : moved.cancelIfMoved.eventSendState = .cancel := by
          simp [cancelIfMoved, moved, hdown, hfar]
        have hstate : moved.cancelIfMoved.startModeIfRecognised.eventSendState = .cancel := by
          unfold startModeIfRecognised
          rw [if_pos hcancel]
          cases recognise moved.cancelIfMoved.isRight moved.cancelIfMoved.lengthX
            moved.cancelIfMoved.lengthY <;> exact hcancel
        rw [hstate] at hstays
        cases hstays
      · have hkept : moved.cancelIfMoved = moved := by
          simp [cancelIfMoved, hfar]
        have hnone : moved.startModeIfRecognised = moved := by
          simp [startModeIfRecognised, moved, hdown]
        rw [hkept, hnone]

theorem dispatch_ne_down (entry : Entry Callback) (back cursor : Position) :
    (listener.dispatch entry back cursor).eventSendState ≠ .down := by
  cases hitem : entry.item with
  | mode what =>
      rw [eventSendState_dispatch_mode listener hitem]
      decide
  | sendEvent =>
      simp only [dispatch, runCallback, hitem, sendEventRunnable]
      cases hstate : listener.eventSendState with
      | downed =>
          dsimp only
          split_ifs <;> simp [postDelayed, pushMotionEvent, call]
      | init | cancel | mode => simp
      | up | down | downAndUp => simp [postDelayed, pushMotionEvent, call]

/-- As long as a press stays in `DOWN`, the released one takes the same steps. -/
theorem step_released {next : ButtonEventListener} {event : Event} (hpress : ¬ event.IsPress)
    (hstep : listener.step event = some next) (hdown : next.eventSendState = .down) :
    listener.released.step event = some next.released ∧ next.calls = listener.calls := by
  obtain ⟨hstate, hcalls, -⟩ := down_of_step hpress hstep hdown
  refine ⟨?_, hcalls⟩
  cases event with
  | touch touched =>
      obtain rfl : listener.onTouch touched = next := Option.some.inj hstep
      exact congrArg some (onTouch_released hpress hstate hdown)
  | touchActionUp =>
      obtain rfl : listener.onReceive = next := Option.some.inj hstep
      rw [onReceive_of_down hstate] at hdown
      cases hdown
  | tick elapsed =>
      obtain rfl := Option.some.inj hstep
      rfl
  | dispatch entry back cursor =>
      obtain ⟨-, hnext⟩ := Option.ite_none_right_eq_some.mp hstep
      obtain rfl : listener.dispatch entry back cursor = next := Option.some.inj hnext
      exact absurd hdown (dispatch_ne_down entry back cursor)

theorem downPointsSince_dispatch {entry : Entry Callback} (hitem : entry.item = .sendEvent)
    (back cursor : Position) :
    downPointsSince listener.calls.length (listener.dispatch entry back cursor) =
      (listener.sent back cursor).filterMap downPoint := by
  let taken : ButtonEventListener := { listener with handler := listener.handler.take entry }
  have hcalls : (listener.dispatch entry back cursor).calls =
      listener.calls ++ listener.sent back cursor := by
    simp only [dispatch, runCallback, hitem]
    exact calls_sendEventRunnable_eq taken back cursor
  rw [downPointsSince, hcalls, List.drop_left]

end ButtonEventListener

namespace ButtonManager

def released (manager : ButtonManager) : ButtonManager :=
  { manager with buttonEventListener := manager.buttonEventListener.released }

/-- Time aside, the listener is heard whenever the button is idle. -/
theorem step_listener {manager : ButtonManager} {event : ButtonEventListener.Event}
    (hidle : manager.Idle) (htimed : ∀ elapsed, event ≠ .tick elapsed) :
    manager.step (.listener event) =
      (manager.buttonEventListener.step event).map manager.heard := by
  cases event with
  | tick elapsed => exact absurd rfl (htimed elapsed)
  | touch | touchActionUp | dispatch => exact if_pos hidle

theorem step_released {manager next : ButtonManager} {event : Event}
    (hpress : ∀ heard, event = .listener heard → ¬ heard.IsPress)
    (hstep : manager.step event = some next)
    (hdown : next.buttonEventListener.eventSendState = .down) :
    manager.released.step event = some next.released ∧
      next.buttonEventListener.calls = manager.buttonEventListener.calls := by
  cases stepped_of_step hstep with
  | tick elapsed => exact ⟨rfl, rfl⟩
  | @heard event listener hidle hlistener =>
      obtain ⟨hreleased, hcalls⟩ :=
        ButtonEventListener.step_released (hpress event rfl) hlistener hdown
      refine ⟨?_, hcalls⟩
      have hidle' : manager.released.Idle := hidle
      cases event with
      | tick elapsed =>
          have hnext : manager.advance elapsed = manager.heard listener := Option.some.inj hstep
          rw [← hnext]
          rfl
      | touch | touchActionUp | dispatch =>
          refine (step_listener hidle' fun elapsed htick => ?_).trans
            (congrArg (Option.map manager.released.heard) hreleased)
          cases htick
  | @offer now action x y rest handler hunoffered howed hhandler =>
      have hunoffered' : manager.released.unoffered = (action, x, y) :: rest := hunoffered
      have howed' : manager.released.eventHandler.owedNotifies = 0 := howed
      have hhandler' : manager.released.eventHandler.step (.offer now action x y) = some handler :=
        hhandler
      refine ⟨?_, rfl⟩
      simp only [step, hunoffered', if_pos howed', hhandler']
      rfl
  | notify hhandler => exact ⟨congrArg (Option.map _) hhandler, rfl⟩
  | consume hhandler => exact ⟨congrArg (Option.map _) hhandler, rfl⟩
  | @handleMessage entry hidle hpending =>
      have hboth : manager.released.Idle ∧ entry ∈ manager.released.handler.pending :=
        ⟨hidle, hpending⟩
      obtain ⟨right, hlistener, -⟩ := handleMessage_frame
        { manager with handler := manager.handler.take entry } entry.item
      refine ⟨?_, by rw [hlistener]; rfl⟩
      rw [step, if_pos hboth]
      unfold handleMessage
      split_ifs <;> rfl
  | stopButton hidle =>
      have hidle' : manager.released.Idle := hidle
      refine ⟨?_, by rw [buttonEventListener_stopButton]⟩
      rw [step, if_pos hidle']
      unfold stopButton
      have hadded : manager.released.alreadyAdded = manager.alreadyAdded := rfl
      rw [hadded]
      split_ifs <;> rfl

end ButtonManager

namespace ControllerService

open ButtonEventListener (Callback downPointsSince)

variable {F : Type} [JavaFloat F] {service next : ControllerService F}
  {screenWidth screenHeight : Int} {unit : Nat} {entry : Entry Callback}

/-- The service whose listener has already received the release. -/
def released (service : ControllerService F) : ControllerService F :=
  { service with buttonManager := service.buttonManager.released }

/-- The state of the listener. -/
def sendState (service : ControllerService F) : ButtonEventListener.SendState :=
  service.buttonManager.buttonEventListener.eventSendState

theorem sendState_of_step {event : Event F} (hpress : ¬ IsPress event)
    (hstep : service.step event = some next) (hdown : next.sendState = .down) :
    service.sendState = .down := by
  unfold sendState at hdown ⊢
  rcases listener_of_step hstep with ⟨right, hlistener⟩ | ⟨back, heard, hhears, hlistener⟩
  · rw [hlistener] at hdown
    exact hdown
  · exact (ButtonEventListener.down_of_step (not_isPress_of_hears hpress hhears) hlistener hdown).1

theorem perform_of_toButton {event : Event F} {given : ButtonManager.Event}
    (hgiven : service.toButton event = some given) (hlooks : ¬ service.IsLookBack event) :
    service.perform event = service.stepButton given := by
  cases event with
  | dispatch entry =>
      obtain rfl := Option.some.inj hgiven
      exact if_neg hlooks
  | touch | touchActionUp | handleMessage | offer | notify | consume =>
      obtain rfl := Option.some.inj hgiven
      rfl
  | sensorCallback | unlock | sample | tick | onDestroy => cases hgiven

omit [JavaFloat F] in
theorem not_isLookBack_released (event : Event F) : ¬ service.released.IsLookBack event := by
  cases event with
  | dispatch entry => exact fun hlooks => nomatch hlooks.2
  | touch | touchActionUp | handleMessage | offer | notify | consume | sensorCallback | unlock
  | sample | tick | onDestroy => exact id

omit [JavaFloat F] in
theorem stepButton_of_same {given : ButtonManager.Event} {manager : ButtonManager}
    (hstep : service.buttonManager.step given = some manager)
    (hcalls : manager.buttonEventListener.calls =
      service.buttonManager.buttonEventListener.calls) :
    service.stepButton given = some { service with buttonManager := manager } := by
  have hmade : manager.buttonEventListener.calls =
      service.buttonManager.buttonEventListener.calls ++ [] := by
    rw [hcalls, List.append_nil]
  rw [stepButton, hstep, Option.map_some, follow_eq hmade]
  rfl

/-- As long as the press stays in `DOWN`, the released one takes the same steps. -/
theorem step_released {event : Event F} (hpress : ¬ IsPress event)
    (hstep : service.step event = some next) (hlive : next.thrown.isSome = false)
    (hdown : next.sendState = .down) : service.released.step event = some next.released := by
  obtain ⟨hthrown, -⟩ := Option.ite_none_left_eq_some.mp hstep
  have hthrown' : ¬ service.released.thrown.isSome := hthrown
  rw [step, if_neg hthrown']
  cases stepped_of_step hstep with
  | @button event given manager hgiven hlooks hmanager =>
      have hquiet : ∀ heard, given = .listener heard → ¬ heard.IsPress := by
        rintro heard rfl
        cases event with
        | touch | touchActionUp | dispatch =>
            obtain rfl := ButtonManager.Event.listener.inj (Option.some.inj hgiven)
            exact hpress
        | handleMessage | offer | notify | consume => cases hgiven
        | sensorCallback | unlock | sample | tick | onDestroy => cases hgiven
      obtain ⟨hreleased, hcalls⟩ := ButtonManager.step_released hquiet hmanager hdown
      have hgiven' : service.released.toButton event = some given := hgiven
      rw [perform_of_toButton hgiven' (not_isLookBack_released event)]
      exact stepButton_of_same hreleased hcalls
  | @lookBack entry back compute manager hlooks hback hmanager =>
      obtain ⟨switch, timers, thrown, hobeyed⟩ := service.obey_lookBack manager compute back
      rw [hobeyed] at hdown
      cases ButtonManager.stepped_of_step hmanager with
      | heard hidle hlistener =>
          obtain ⟨-, hnext⟩ := Option.ite_none_right_eq_some.mp hlistener
          obtain rfl := Option.some.inj hnext
          exact absurd hdown (ButtonEventListener.dispatch_ne_down entry _ _)
  | lookBackThrows | sensorCallbackThrows | sampleThrows => cases hlive
  | @sensorCallback isPortrait x y z mouse hmouse =>
      obtain ⟨-, hperform⟩ := Option.ite_none_left_eq_some.mp hstep
      obtain ⟨hidle, -⟩ := Option.ite_none_right_eq_some.mp hperform
      have hidle' : service.released.buttonManager.Idle := hidle
      have hmouse' : service.released.mouseManager.sensorCallback isPortrait x y z = .ok mouse :=
        hmouse
      simp only [perform, if_pos hidle', hmouse']
      rfl
  | @unlock entry hpending => exact if_pos hpending
  | @sample sampler hsampler =>
      have hsampler' : service.released.sampler.statement
          service.released.mouseManager.getPositon = .ok sampler := hsampler
      simp only [perform, hsampler']
      rfl
  | tick elapsed => rfl
  | onDestroy hidle =>
      have hidle' : service.released.buttonManager.Idle := hidle
      have hstopped : service.released.onDestroy = service.onDestroy.released := by
        unfold onDestroy released ButtonManager.released ButtonManager.stopButton
        dsimp only
        split_ifs <;> rfl
      simp only [perform, if_pos hidle', hstopped]

theorem run_released {start final : ControllerService F} {events : List (Event F)}
    (hpress : ∀ event ∈ events, ¬ IsPress event) (hrun : run step start events = some final)
    (hlive : final.thrown.isSome = false) (hdown : final.sendState = .down) :
    run step start.released events = some final.released ∧ start.sendState = .down ∧
      start.thrown.isSome = false := by
  induction events generalizing start with
  | nil =>
      obtain rfl : start = final := by simpa using hrun
      exact ⟨rfl, hdown, hlive⟩
  | cons event rest ih =>
      obtain ⟨next, hnext, hrest⟩ := (run_cons_eq_some step).mp hrun
      obtain ⟨hreleased, hnextDown, hnextLive⟩ :=
        ih (fun other hother => hpress other (List.mem_cons_of_mem _ hother)) hrest
      have hevent := hpress event (List.mem_cons_self ..)
      obtain ⟨hthrown, -⟩ := Option.ite_none_left_eq_some.mp hnext
      refine ⟨?_, sendState_of_step hevent hnext hnextDown, by simpa using hthrown⟩
      rw [run_cons, step_released hevent hnext hnextLive hnextDown]
      exact hreleased

/-- In `DOWN` the release changes nothing but the send state. -/
theorem step_touchActionUp (hdown : service.sendState = .down)
    (hstep : service.step .touchActionUp = some next) : next = service.released := by
  cases stepped_of_step hstep with
  | @button _ given manager hgiven hlooks hmanager =>
      obtain rfl := Option.some.inj hgiven
      cases ButtonManager.stepped_of_step hmanager with
      | @heard _ listener hidle hlistener =>
          have hreceived := ButtonEventListener.onReceive_of_down hdown
          obtain rfl : service.buttonManager.buttonEventListener.onReceive = listener :=
            Option.some.inj hlistener
          rw [hreceived]
          simp [released, ButtonManager.released, ButtonManager.heard, ButtonEventListener.released]

/-! ### The law -/

/-- The `DOWN`s a step of the service has pushed. -/
def downPointsOf (service next : ControllerService F) : List (Int × Int) :=
  downPointsSince service.buttonManager.buttonEventListener.calls.length
    next.buttonManager.buttonEventListener

/-- Both taps have injected one `DOWN`, at the position `getTimebackPosition` answers. -/
def SameTapPoint (slow slowNext quick quickNext : ControllerService F) : Prop :=
  ∃ back, (∃ compute, slow.sampler.compute.getTimebackPosition = .ok (back, compute)) ∧
    slow.downPointsOf slowNext = [back] ∧ quick.downPointsOf quickNext = [back]

/-- The ring can be read, and the cursor is shown where the sampling thread recorded it `timeUnit`
samples before; while it has not recorded so many, at the origin. -/
def ShownWhereRecorded (service : ControllerService F) : Prop :=
  service.sampler.compute.pointer < service.sampler.compute.length ∧
    service.sampler.compute.pointer + service.lookBackUnit ≤ maxInt ∧
    service.mouseManager.getPositon =
      if service.lookBackUnit ≤ service.recorded.length then
        service.recorded.getD (service.recorded.length - service.lookBackUnit) (0, 0)
      else (0, 0)

instance (service : ControllerService F) : Decidable service.ShownWhereRecorded :=
  inferInstanceAs (Decidable (_ ∧ _ ∧ _))

omit [JavaFloat F] in
theorem lookBack_eq_cursor_iff (hrings : Sampler.Rings unit service.sampler) (hpos : 1 ≤ unit)
    (hrange : (2 * unit : Nat) ≤ maxInt) :
    (∃ compute, service.sampler.compute.getTimebackPosition =
      .ok (service.mouseManager.getPositon, compute)) ↔ service.ShownWhereRecorded := by
  have hpassed : service.sampler.passed ≤ service.sampler.samples.length :=
    service.sampler.passed_le
  have hentry : (if unit ≤ service.sampler.passed then
        service.sampler.samples[service.sampler.passed - unit]? else some (0, 0)) =
      some (if unit ≤ service.recorded.length then
        service.recorded.getD (service.recorded.length - unit) (0, 0) else (0, 0)) := by
    rw [length_recorded]
    split_ifs with hwarm
    · have hlt : service.sampler.passed - unit < service.recorded.length := by
        rw [length_recorded]
        omega
      rw [List.getD_eq_getElem?_getD, List.getElem?_eq_getElem hlt, Option.getD_some,
        ← List.getElem?_eq_getElem hlt]
      unfold recorded
      rw [List.getElem?_take_of_lt (by omega)]
    · rfl
  rw [hrings.getTimebackPosition_eq_ok hpos hrange, hrings.ahead hpos, hentry,
    ShownWhereRecorded, lookBackUnit_eq hrings, hrings.pointer, hrings.length, Option.some.injEq]
  exact and_congr Int.ofNat_lt.symm (and_congr (by rw [Nat.cast_add]) eq_comm)

theorem downPointsOf_lookBack (hlooks : service.LooksBack entry)
    (hstep : service.step (.dispatch entry) = some next) {back : Int × Int}
    {compute : TimeBackCompute}
    (hback : service.sampler.compute.getTimebackPosition = .ok (back, compute)) :
    service.downPointsOf next = [back] := by
  obtain ⟨hitem, hdown⟩ := hlooks
  cases stepped_of_step hstep with
  | button hgiven hnot hmanager => exact absurd ⟨hitem, hdown⟩ hnot
  | lookBackThrows hlooks hthrown =>
      rw [hthrown] at hback
      cases hback
  | @lookBack _ other found manager hlooks hfound hmanager =>
      obtain ⟨rfl, rfl⟩ := Prod.mk.inj (Except.ok.inj (hfound.symm.trans hback))
      obtain ⟨switch, timers, thrown, hobeyed⟩ := service.obey_lookBack manager found other
      rw [hobeyed]
      cases ButtonManager.stepped_of_step hmanager with
      | heard hidle hlistener =>
          obtain ⟨-, hnext⟩ := Option.ite_none_right_eq_some.mp hlistener
          obtain rfl := Option.some.inj hnext
          refine (ButtonEventListener.downPointsSince_dispatch hitem _ _).trans ?_
          simp only [ButtonEventListener.sent, hdown]
          rfl

theorem downPointsOf_released (hitem : entry.item = .sendEvent)
    (hstep : service.released.step (.dispatch entry) = some next) :
    service.released.downPointsOf next = [service.mouseManager.getPositon] := by
  cases stepped_of_step hstep with
  | @button _ given manager hgiven hnot hmanager =>
      obtain rfl := Option.some.inj hgiven
      cases ButtonManager.stepped_of_step hmanager with
      | heard hidle hlistener =>
          obtain ⟨-, hnext⟩ := Option.ite_none_right_eq_some.mp hlistener
          obtain rfl := Option.some.inj hnext
          refine (ButtonEventListener.downPointsSince_dispatch hitem _ _).trans ?_
          rfl
  | lookBack hlooks => exact absurd hlooks (not_isLookBack_released (.dispatch entry))
  | lookBackThrows hlooks => exact absurd hlooks (not_isLookBack_released (.dispatch entry))

/-- **Quick and slow taps.** One press runs with its release arriving before its runnable is dispatched,
and without: the two `DOWN`s are injected at the same point, the one the ring finds, exactly if the
cursor is shown where it was recorded `timeUnit` samples before. -/
theorem tap_point_law {intent : Intent F}
    {start pressed slow slowNext quick quickNext : ControllerService F}
    {past before after : List (Event F)} {press : ButtonEventListener.TouchEvent}
    (hheight : 0 ≤ screenHeight) (hint : screenHeight ≤ maxInt)
    (hstart : onStartCommand screenWidth screenHeight intent = .ok start)
    (hpast : run step start past = some pressed)
    (hbefore : ∀ event ∈ before ++ after, ¬ IsPress event)
    (hslow : run step pressed (.touch press :: (before ++ after)) = some slow)
    (hquick : run step pressed (.touch press :: (before ++ .touchActionUp :: after)) = some quick)
    (hlooks : slow.LooksBack entry) (hslowNext : slow.step (.dispatch entry) = some slowNext)
    (hquickNext : quick.step (.dispatch entry) = some quickNext) :
    SameTapPoint slow slowNext quick quickNext ↔ slow.ShownWhereRecorded := by
  have hscreen : InRange screenHeight := ⟨by unfold minInt; omega, hint⟩
  obtain ⟨unit, ⟨hpos, hrange⟩, hsteady⟩ :=
    exists_steady_of_onStartCommand hscreen hheight hstart
  have hrings : Sampler.Rings unit slow.sampler :=
    (steady_run hpos hrange hscreen (steady_run hpos hrange hscreen hsteady hpast) hslow).rings
  obtain ⟨hthrown, -⟩ := Option.ite_none_left_eq_some.mp hslowNext
  -- The released run is the other one but for the send state.
  have hsame : quick = slow.released := by
    rw [← List.cons_append] at hslow hquick
    obtain ⟨middle, hmiddle, hafter⟩ := (run_append_eq_some step).mp hslow
    obtain ⟨middle', hmiddle', hrest⟩ := (run_append_eq_some step).mp hquick
    obtain rfl : middle = middle' := Option.some.inj (hmiddle.symm.trans hmiddle')
    obtain ⟨received, hreceived, hquickAfter⟩ := (run_cons_eq_some step).mp hrest
    obtain ⟨hreleased, hdown, -⟩ := run_released
      (fun event hevent => hbefore event (List.mem_append_right _ hevent)) hafter
      (by simpa using hthrown) hlooks.2
    rw [step_touchActionUp hdown hreceived, hreleased] at hquickAfter
    exact (Option.some.inj hquickAfter).symm
  subst hsame
  have hquickPoints := downPointsOf_released hlooks.1 hquickNext
  rw [← lookBack_eq_cursor_iff hrings hpos hrange]
  constructor
  · rintro ⟨back, hback, -, hquickBack⟩
    rw [hquickPoints, List.singleton_inj] at hquickBack
    rwa [hquickBack]
  · rintro ⟨compute, hback⟩
    exact ⟨_, ⟨compute, hback⟩, downPointsOf_lookBack hlooks hslowNext hback, hquickPoints⟩

/-- The cursor has moved by 50 since the only sample. -/
def movedPast : List (Event ℚ) := List.replicate 6 .sample ++ [.sensorCallback true 0 50 0]

/-- A tap after `movedPast`, its release coming after the runnable and before it. -/
theorem exists_movedTap :
    ∃ start pressed slow slowNext quick quickNext : ControllerService ℚ,
      onStartCommand 480 800 clickIntent = .ok start ∧ run step start movedPast = some pressed ∧
      run step pressed [.touch ⟨.down, 0, 0⟩, .tick 100] = some slow ∧
      run step pressed [.touch ⟨.down, 0, 0⟩, .touchActionUp, .tick 100] = some quick ∧
      slow.step (.dispatch ⟨0, 100, .sendEvent⟩) = some slowNext ∧
      quick.step (.dispatch ⟨0, 100, .sendEvent⟩) = some quickNext ∧
      pressed.buttonManager.buttonEventListener.handler.pending = [] ∧
      slow.LooksBack ⟨0, 100, .sendEvent⟩ ∧ ¬ slow.ShownWhereRecorded ∧
      slow.downPointsOf slowNext = [(240, 430)] ∧ quick.downPointsOf quickNext = [(290, 430)] := by
  have hfacts : ((onStartCommand 480 800 clickIntent).toOption.bind fun start =>
      (run step start movedPast).bind fun pressed =>
      (run step pressed [.touch ⟨.down, 0, 0⟩, .tick 100]).bind fun slow =>
      (run step pressed [.touch ⟨.down, 0, 0⟩, .touchActionUp, .tick 100]).bind fun quick =>
      (slow.step (.dispatch ⟨0, 100, .sendEvent⟩)).bind fun slowNext =>
      (quick.step (.dispatch ⟨0, 100, .sendEvent⟩)).map fun quickNext =>
        decide (pressed.buttonManager.buttonEventListener.handler.pending = [] ∧
          slow.LooksBack ⟨0, 100, .sendEvent⟩ ∧ ¬ slow.ShownWhereRecorded ∧
          slow.downPointsOf slowNext = [(240, 430)] ∧
          quick.downPointsOf quickNext = [(290, 430)])) = some true := by
    decide +kernel
  obtain ⟨start, hstart, hrest⟩ := Option.bind_eq_some_iff.mp hfacts
  obtain ⟨pressed, hpast, hrest⟩ := Option.bind_eq_some_iff.mp hrest
  obtain ⟨slow, hslow, hrest⟩ := Option.bind_eq_some_iff.mp hrest
  obtain ⟨quick, hquick, hrest⟩ := Option.bind_eq_some_iff.mp hrest
  obtain ⟨slowNext, hslowNext, hrest⟩ := Option.bind_eq_some_iff.mp hrest
  obtain ⟨quickNext, hquickNext, hall⟩ := Option.map_eq_some_iff.mp hrest
  obtain ⟨hpending, hlooks, hshown, hslowPoints, hquickPoints⟩ := of_decide_eq_true hall
  exact ⟨start, pressed, slow, slowNext, quick, quickNext, toOption_eq_some.mp hstart, hpast, hslow,
    hquick, hslowNext, hquickNext, hpending, hlooks, hshown, hslowPoints, hquickPoints⟩

theorem tap_point_law_movedTap :
    ∃ start pressed slow slowNext quick quickNext : ControllerService ℚ,
      onStartCommand 480 800 clickIntent = .ok start ∧ run step start movedPast = some pressed ∧
      run step pressed [.touch ⟨.down, 0, 0⟩, .tick 100] = some slow ∧
      run step pressed [.touch ⟨.down, 0, 0⟩, .touchActionUp, .tick 100] = some quick ∧
      slow.step (.dispatch ⟨0, 100, .sendEvent⟩) = some slowNext ∧
      quick.step (.dispatch ⟨0, 100, .sendEvent⟩) = some quickNext ∧
      ¬ SameTapPoint slow slowNext quick quickNext := by
  obtain ⟨start, pressed, slow, slowNext, quick, quickNext, hstart, hpast, hslow, hquick, hslowNext,
    hquickNext, -, hlooks, hshown, -⟩ := exists_movedTap
  have hquiet : ∀ event ∈ ([] ++ [.tick 100] : List (Event ℚ)), ¬ IsPress event := by
    simp [IsPress]
  exact ⟨start, pressed, slow, slowNext, quick, quickNext, hstart, hpast, hslow, hquick, hslowNext,
    hquickNext, fun hsame => hshown ((tap_point_law (by decide) (by decide) hstart hpast hquiet hslow
      hquick hlooks hslowNext hquickNext).mp hsame)⟩

theorem quick_tap_elsewhere :
    ¬ ∀ (screenWidth screenHeight : Int) (intent : Intent ℚ)
        (start pressed slow slowNext quick quickNext : ControllerService ℚ)
        (past before after : List (Event ℚ)) (press : ButtonEventListener.TouchEvent)
        (entry : Entry Callback), 0 ≤ screenHeight → screenHeight ≤ maxInt →
      onStartCommand screenWidth screenHeight intent = .ok start →
      run step start past = some pressed →
      pressed.buttonManager.buttonEventListener.handler.pending = [] → press.action = .down →
      (∀ event ∈ before ++ after, ¬ IsPress event) →
      run step pressed (.touch press :: (before ++ after)) = some slow →
      run step pressed (.touch press :: (before ++ .touchActionUp :: after)) = some quick →
      slow.LooksBack entry → slow.step (.dispatch entry) = some slowNext →
      quick.step (.dispatch entry) = some quickNext →
      SameTapPoint slow slowNext quick quickNext := by
  intro hclaim
  obtain ⟨start, pressed, slow, slowNext, quick, quickNext, hstart, hpast, hslow, hquick, hslowNext,
    hquickNext, hpending, hlooks, -, hslowPoints, hquickPoints⟩ := exists_movedTap
  have hquiet : ∀ event ∈ ([] ++ [.tick 100] : List (Event ℚ)), ¬ IsPress event := by
    simp [IsPress]
  obtain ⟨back, -, hslowBack, hquickBack⟩ := hclaim 480 800 clickIntent start pressed slow slowNext
    quick quickNext movedPast [] [.tick 100] ⟨.down, 0, 0⟩ ⟨0, 100, .sendEvent⟩ (by decide)
    (by decide) hstart hpast hpending rfl hquiet hslow hquick hlooks hslowNext hquickNext
  rw [hslowPoints] at hslowBack
  rw [hquickPoints, ← hslowBack] at hquickBack
  exact absurd hquickBack (by decide)

end ControllerService

end SensorMouse
