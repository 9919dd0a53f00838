import SensorMouse.Activity.ControllerService
import SensorMouse.Proof.ListenerView

/-!
# One step of the service

The listener calls the cursor's lock in one place only, the dispatch of `sendEventRunnable` in state
`DOWN`. So a step of the service moves one of its parts, except that one, which looks back into the
ring, steps the button and locks the cursor: `stepped_of_step`.
-/

namespace SensorMouse

open Android Java Lib

namespace ButtonEventListener

/-! ### The calls of one step -/

def Call.isLock : Call → Bool
  | .lockMouseAWhile _ _ _ => true
  | _ => false

/-- The calls of a dispatch of `sendEventRunnable`, in their order. -/
def sent (listener : ButtonEventListener) (back cursor : Position) : List Call :=
  match listener.eventSendState with
  | .down =>
      [.getTimebackPosition, .pushMotionEvent MotionEvent.actionDown back.x back.y,
        .lockMouseAWhile back.x (wrap (back.y - 30)) true]
  | .up => [.pushMotionEvent MotionEvent.actionUp cursor.x cursor.y]
  | .downAndUp =>
      [.pushMotionEvent MotionEvent.actionDown cursor.x cursor.y,
        .pushMotionEvent MotionEvent.actionUp cursor.x cursor.y]
  | .downed =>
      if movedBeyond dragOffset listener.senderX cursor.x ||
          movedBeyond dragOffset listener.senderY cursor.y then
        [.pushMotionEvent MotionEvent.actionMove cursor.x cursor.y]
      else []
  | _ => []

/-- What a mode message makes: no lock and no pointer event. -/
def Call.OfMode (made : Call) : Prop := made.isLock = false ∧ made.mark = none

theorem calls_sendEventRunnable_eq (listener : ButtonEventListener) (back cursor : Position) :
    (listener.sendEventRunnable back cursor).calls = listener.calls ++ listener.sent back cursor := by
  unfold sendEventRunnable sent
  cases listener.eventSendState with
  | init | cancel | mode => exact (List.append_nil _).symm
  | up => rfl
  | downAndUp => simp [pushMotionEvent, call]
  | down => simp [pushMotionEvent, call, postDelayed]
  | downed =>
      dsimp only
      split_ifs
      · rfl
      · exact (List.append_nil _).symm

theorem ofMode_of_command {action : Int} (hmem : action ∈ gestureCommands) (x y : Int) :
    (Call.pushMotionEvent action x y).OfMode := ⟨rfl, mark_of_isCommand hmem x y⟩

theorem calls_scanMove (listener : ButtonEventListener) {command : Option Int}
    (hcommand : ∀ action ∈ command, action ∈ gestureCommands) :
    ∃ made, (listener.scanMove command).calls = listener.calls ++ made ∧
      ∀ call ∈ made, call.OfMode := by
  unfold scanMove
  dsimp only
  split_ifs
  · cases command with
    | none => exact ⟨[], (List.append_nil _).symm, by simp⟩
    | some action =>
        refine ⟨[.pushMotionEvent action 0 0], rfl, ?_⟩
        simpa using ofMode_of_command (hcommand action rfl) 0 0
  · exact ⟨[], (List.append_nil _).symm, by simp⟩

theorem calls_handleMessage_eq (listener : ButtonEventListener) (what : ModeMessage)
    (cursor : Position) :
    ∃ made, (listener.handleMessage what cursor).calls = listener.calls ++ made ∧
      ∀ call ∈ made, call.OfMode := by
  have hscans : listener.modeFlag = .key ∨ listener.modeFlag = .photo →
      ∃ made, (listener.handleMessage what cursor).calls = listener.calls ++ made ∧
        ∀ call ∈ made, call.OfMode := by
    intro hflag
    cases what with
    | start =>
        obtain ⟨toast, startX, startY, hstart⟩ := handleMessage_start hflag cursor
        rw [hstart]
        exact ⟨[.showToast toast], rfl, by simp [Call.OfMode, Call.isLock, Call.mark]⟩
    | move =>
        obtain ⟨lengthX, lengthY, hmove⟩ := handleMessage_move hflag cursor
        rw [hmove]
        refine calls_scanMove { listener with eventSendState := .mode } ?_
        split_ifs
        · exact mem_gestureCommands_of_keyCommand
        · exact mem_gestureCommands_of_photoCommand
  cases hflag : listener.modeFlag with
  | init => exact ⟨[], by rw [handleMessage_init hflag, List.append_nil], by simp⟩
  | b2Left =>
      refine ⟨[.pushMotionEvent EventQueueHandler.sendB2Left 0 0], ?_, ?_⟩
      · rw [handleMessage_b2Left hflag]
        rfl
      · simpa using ofMode_of_command (by decide) 0 0
  | b2Right =>
      refine ⟨[.pushMotionEvent EventQueueHandler.sendB2Right 0 0], ?_, ?_⟩
      · rw [handleMessage_b2Right hflag]
        rfl
      · simpa using ofMode_of_command (by decide) 0 0
  | key => exact hscans (Or.inl hflag)
  | photo => exact hscans (Or.inr hflag)

/-- What a step of the listener makes. -/
def Makes (listener : ButtonEventListener) : Event → List Call → Prop
  | .dispatch entry back cursor, made =>
      match entry.item with
      | .sendEvent => made = listener.sent back cursor
      | .mode _ => ∀ call ∈ made, call.OfMode
  | _, made => made = []

theorem makes_of_step {listener next : ButtonEventListener} {event : Event}
    (hstep : listener.step event = some next) :
    ∃ made, next.calls = listener.calls ++ made ∧ listener.Makes event made := by
  cases event with
  | touch event =>
      obtain rfl : listener.onTouch event = next := Option.some.inj hstep
      exact ⟨[], by rw [calls_onTouch, List.append_nil], rfl⟩
  | touchActionUp =>
      obtain rfl : listener.onReceive = next := Option.some.inj hstep
      exact ⟨[], by rw [calls_onReceive, List.append_nil], rfl⟩
  | tick elapsed =>
      obtain rfl := Option.some.inj hstep
      exact ⟨[], (List.append_nil _).symm, rfl⟩
  | dispatch entry back cursor =>
      obtain ⟨-, hnext⟩ := Option.ite_none_right_eq_some.mp hstep
      obtain rfl : listener.dispatch entry back cursor = next := Option.some.inj hnext
      let taken : ButtonEventListener := { listener with handler := listener.handler.take entry }
      cases hitem : entry.item with
      | sendEvent =>
          simp only [Makes, dispatch, runCallback, hitem]
          exact ⟨_, calls_sendEventRunnable_eq taken back cursor, rfl⟩
      | mode what =>
          simp only [Makes, dispatch, runCallback, hitem]
          exact calls_handleMessage_eq taken what cursor

end ButtonEventListener

namespace ButtonManager

/-- Only a step of the listener makes calls of the listener. -/
def Makes (manager : ButtonManager) : Event → List ButtonEventListener.Call → Prop
  | .listener event, made => manager.buttonEventListener.Makes event made
  | _, made => made = []

theorem makes_of_step {manager next : ButtonManager} {event : Event}
    (hstep : manager.step event = some next) :
    ∃ made, next.buttonEventListener.calls = manager.buttonEventListener.calls ++ made ∧
      manager.Makes event made := by
  have hnone : next.buttonEventListener.calls = manager.buttonEventListener.calls →
      next.buttonEventListener.calls = manager.buttonEventListener.calls ++ [] := by
    intro hsame
    rw [hsame, List.append_nil]
  cases stepped_of_step hstep with
  | tick elapsed => exact ⟨[], hnone rfl, rfl⟩
  | heard hidle hlistener => exact ButtonEventListener.makes_of_step hlistener
  | offer hunoffered howed hhandler => exact ⟨[], hnone rfl, rfl⟩
  | notify hhandler => exact ⟨[], hnone rfl, rfl⟩
  | consume hhandler => exact ⟨[], hnone rfl, rfl⟩
  | @handleMessage entry hidle hpending =>
      obtain ⟨right, hlistener, -⟩ := handleMessage_frame
        { manager with handler := manager.handler.take entry } entry.item
      refine ⟨[], hnone ?_, rfl⟩
      rw [hlistener]
      rfl
  | stopButton hidle =>
      exact ⟨[], hnone (by rw [buttonEventListener_stopButton]), rfl⟩

end ButtonManager

namespace ControllerService

variable {F : Type} [JavaFloat F] {service next : ControllerService F}

/-! ### The start -/

theorem exists_of_onStartCommand {screenWidth screenHeight : Int} {intent : Intent F}
    (hstart : onStartCommand screenWidth screenHeight intent = .ok service) :
    ∃ computer unit back wait compute, TimeBackCompute.create unit back = .ok compute ∧
      service = {
        mouseManager := MouseManager.startMouse {
          screenWidth := screenWidth
          screenHeight := screenHeight
          x := screenWidth.tdiv 2
          y := screenHeight.tdiv 2
          computer := computer
          timeUnit := unit
          backtime := back
          timewait := wait }
        buttonManager := ({} : ButtonManager).startButton
        sampler := { compute := compute } } := by
  obtain ⟨mouse, hmouse, hrest⟩ := bind_eq_ok.mp hstart
  obtain ⟨compute, hcompute, hservice⟩ := bind_eq_ok.mp hrest
  obtain ⟨computer, -, hcreated⟩ := bind_eq_ok.mp hmouse
  obtain rfl := Except.ok.inj hcreated
  exact ⟨computer, _, _, _, compute, hcompute, (Except.ok.inj hservice).symm⟩

/-! ### What the cursor is asked -/

omit [JavaFloat F] in
theorem foldl_obey_of_not_lock {made : List ButtonEventListener.Call}
    (hnone : ∀ call ∈ made, call.isLock = false) : made.foldl obey service = service := by
  induction made generalizing service with
  | nil => rfl
  | cons call rest ih =>
      have hsame : service.obey call = service := by
        have hcall := hnone call (List.mem_cons_self ..)
        cases call with
        | lockMouseAWhile x y wait => cases hcall
        | getTimebackPosition | pushMotionEvent action x y | showToast index => rfl
      rw [List.foldl_cons, hsame]
      exact ih fun other hother => hnone other (List.mem_cons_of_mem _ hother)

omit [JavaFloat F] in
/-- A lock moves the cursor, whether its timer throws or not. -/
theorem obey_lock (x y : Int) (wait : Bool) :
    ∃ switch timers thrown, service.obey (.lockMouseAWhile x y wait) =
      { service with
        mouseManager := { service.mouseManager.updateMousePosition x y with
          updateSwitch := switch
          timers := timers }
        thrown := thrown } := by
  unfold obey MouseManager.lockMouseAWhile
  cases wait with
  | false => exact ⟨_, _, _, rfl⟩
  | true =>
      dsimp only
      by_cases hwait : (service.mouseManager.updateMousePosition x y).timewait < 0
      · simp only [if_pos hwait, ↓reduceIte]
        exact ⟨_, _, _, rfl⟩
      · simp only [if_neg hwait, ↓reduceIte]
        exact ⟨_, _, _, rfl⟩

omit [JavaFloat F] in
/-- What is left once a dispatch has looked back. -/
theorem obey_lookBack (service : ControllerService F) (manager : ButtonManager)
    (compute : TimeBackCompute) (back : Int × Int) :
    ∃ switch timers thrown, { service with
        buttonManager := manager
        sampler := { service.sampler with compute := compute } }.obey
          (.lockMouseAWhile back.1 (wrap (back.2 - 30)) true) =
      { service with
        mouseManager := { service.mouseManager.updateMousePosition back.1 (wrap (back.2 - 30)) with
          updateSwitch := switch
          timers := timers }
        buttonManager := manager
        sampler := { service.sampler with compute := compute }
        thrown := thrown } :=
  obey_lock _ _ _

omit [JavaFloat F] in
theorem follow_eq {manager : ButtonManager} {made : List ButtonEventListener.Call}
    (hmade : manager.buttonEventListener.calls =
      service.buttonManager.buttonEventListener.calls ++ made) :
    service.follow manager = made.foldl obey { service with buttonManager := manager } := by
  unfold follow
  rw [hmade, List.drop_left]

/-- What the button is given of an event. -/
def toButton (service : ControllerService F) : Event F → Option ButtonManager.Event
  | .touch event => some (.listener (.touch event))
  | .touchActionUp => some (.listener .touchActionUp)
  | .dispatch entry => some (.listener (.dispatch entry service.cursor service.cursor))
  | .handleMessage entry => some (.handleMessage entry)
  | .offer now => some (.offer now)
  | .notify => some .notify
  | .consume now => some (.consume now)
  | _ => none

def IsLookBack (service : ControllerService F) : Event F → Prop
  | .dispatch entry => service.LooksBack entry
  | _ => False

/-- What a step can do, with the condition under which it can. -/
inductive Stepped (service : ControllerService F) : Event F → ControllerService F → Prop where
  | button {event : Event F} {given : ButtonManager.Event} {manager : ButtonManager}
      (hgiven : service.toButton event = some given) (hlooks : ¬ service.IsLookBack event)
      (hstep : service.buttonManager.step given = some manager) :
      Stepped service event { service with buttonManager := manager }
  | lookBack {entry : Entry ButtonEventListener.Callback} {back : Int × Int}
      {compute : TimeBackCompute} {manager : ButtonManager} (hlooks : service.LooksBack entry)
      (hback : service.sampler.compute.getTimebackPosition = .ok (back, compute))
      (hstep : service.buttonManager.step
        (.listener (.dispatch entry ⟨back.1, back.2⟩ service.cursor)) = some manager) :
      Stepped service (.dispatch entry)
        ({ service with
          buttonManager := manager
          sampler := { service.sampler with compute := compute } }.obey
            (.lockMouseAWhile back.1 (wrap (back.2 - 30)) true))
  | lookBackThrows {entry : Entry ButtonEventListener.Callback} {thrown : JavaException}
      (hlooks : service.LooksBack entry)
      (hthrown : service.sampler.compute.getTimebackPosition = .error thrown) :
      Stepped service (.dispatch entry) (service.throws thrown)
  | sensorCallback {isPortrait : Bool} {x y z : F} {mouse : MouseManager F}
      (hmouse : service.mouseManager.sensorCallback isPortrait x y z = .ok mouse) :
      Stepped service (.sensorCallback isPortrait x y z) { service with mouseManager := mouse }
  | sensorCallbackThrows {isPortrait : Bool} {x y z : F} {thrown : JavaException}
      (hthrown : service.mouseManager.sensorCallback isPortrait x y z = .error thrown) :
      Stepped service (.sensorCallback isPortrait x y z) (service.throws thrown)
  | unlock {entry : Entry Unit} (hpending : entry ∈ service.mouseManager.timers.pending) :
      Stepped service (.unlock entry)
        { service with mouseManager := service.mouseManager.unlock entry }
  | sample {sampler : Sampler}
      (hsampler : service.sampler.statement service.mouseManager.getPositon = .ok sampler) :
      Stepped service .sample { service with sampler := sampler }
  | sampleThrows {thrown : JavaException}
      (hthrown : service.sampler.statement service.mouseManager.getPositon = .error thrown) :
      Stepped service .sample (service.throws thrown)
  | tick (elapsed : Nat) : Stepped service (.tick elapsed) (service.advance elapsed)
  | onDestroy (hidle : service.buttonManager.Idle) : Stepped service .onDestroy service.onDestroy

omit [JavaFloat F] in
theorem exists_of_stepButton {given : ButtonManager.Event}
    (hstep : service.stepButton given = some next) :
    ∃ manager made, service.buttonManager.step given = some manager ∧
      service.buttonManager.Makes given made ∧
      next = made.foldl obey { service with buttonManager := manager } := by
  obtain ⟨manager, hmanager, rfl⟩ := Option.map_eq_some_iff.mp hstep
  obtain ⟨made, hcalls, hmakes⟩ := ButtonManager.makes_of_step hmanager
  exact ⟨manager, made, hmanager, hmakes, follow_eq hcalls⟩

omit [JavaFloat F] in
/-- A step of the button that makes no lock leaves the rest of the service alone. -/
theorem exists_of_stepButton_of_quiet {given : ButtonManager.Event}
    (hquiet : ∀ made, service.buttonManager.Makes given made → ∀ call ∈ made, call.isLock = false)
    (hstep : service.stepButton given = some next) :
    ∃ manager, service.buttonManager.step given = some manager ∧
      next = { service with buttonManager := manager } := by
  obtain ⟨manager, made, hmanager, hmakes, rfl⟩ := exists_of_stepButton hstep
  exact ⟨manager, hmanager, foldl_obey_of_not_lock (hquiet made hmakes)⟩

omit [JavaFloat F] in
theorem quiet_of_not_looksBack {entry : Entry ButtonEventListener.Callback}
    (hlooks : ¬ service.LooksBack entry) (back cursor : Position)
    {made : List ButtonEventListener.Call}
    (hmakes : service.buttonManager.Makes (.listener (.dispatch entry back cursor)) made) :
    ∀ call ∈ made, call.isLock = false := by
  unfold ButtonManager.Makes ButtonEventListener.Makes at hmakes
  cases hitem : entry.item with
  | mode what =>
      simp only [hitem] at hmakes
      exact fun call hcall => (hmakes call hcall).1
  | sendEvent =>
      simp only [hitem] at hmakes
      have hstate : service.buttonManager.buttonEventListener.eventSendState ≠ .down :=
        fun hdown => hlooks ⟨hitem, hdown⟩
      rw [hmakes]
      unfold ButtonEventListener.sent
      cases hsend : service.buttonManager.buttonEventListener.eventSendState with
      | down => exact absurd hsend hstate
      | init | cancel | mode | up | downAndUp => simp [ButtonEventListener.Call.isLock]
      | downed =>
          dsimp only
          split_ifs <;> simp [ButtonEventListener.Call.isLock]

theorem stepped_of_dispatch {entry : Entry ButtonEventListener.Callback}
    (hstep : service.dispatch entry = some next) : Stepped service (.dispatch entry) next := by
  unfold dispatch at hstep
  by_cases hlooks : service.LooksBack entry
  · rw [if_pos hlooks] at hstep
    cases hback : service.sampler.compute.getTimebackPosition with
    | error thrown =>
        simp only [hback] at hstep
        obtain ⟨-, hnext⟩ := Option.ite_none_right_eq_some.mp hstep
        obtain rfl := Option.some.inj hnext
        exact .lookBackThrows hlooks hback
    | ok answer =>
        obtain ⟨back, compute⟩ := answer
        simp only [hback] at hstep
        obtain ⟨manager, made, hmanager, hmakes, rfl⟩ := exists_of_stepButton hstep
        obtain ⟨hitem, hdown⟩ := hlooks
        simp only [ButtonManager.Makes, ButtonEventListener.Makes, hitem,
          ButtonEventListener.sent, hdown] at hmakes
        subst hmakes
        exact .lookBack ⟨hitem, hdown⟩ hback hmanager
  · rw [if_neg hlooks] at hstep
    obtain ⟨manager, hmanager, rfl⟩ :=
      exists_of_stepButton_of_quiet (fun made => quiet_of_not_looksBack hlooks _ _) hstep
    exact .button rfl hlooks hmanager

theorem stepped_of_step {event : Event F} (hstep : service.step event = some next) :
    Stepped service event next := by
  obtain ⟨-, hperform⟩ := Option.ite_none_left_eq_some.mp hstep
  have hbutton {given : ButtonManager.Event} (hgiven : service.toButton event = some given)
      (hnone : ∀ made, service.buttonManager.Makes given made → made = [])
      (hlooks : ¬ service.IsLookBack event) (hgives : service.stepButton given = some next) :
      Stepped service event next := by
    obtain ⟨manager, hmanager, rfl⟩ := exists_of_stepButton_of_quiet
      (fun made hmakes call hcall => by simp [hnone made hmakes] at hcall) hgives
    exact .button hgiven hlooks hmanager
  cases event with
  | touch | touchActionUp | handleMessage | offer | notify | consume =>
      exact hbutton rfl (fun _ hmakes => hmakes) id hperform
  | dispatch entry => exact stepped_of_dispatch hperform
  | sensorCallback isPortrait x y z =>
      obtain ⟨-, hcallback⟩ := Option.ite_none_right_eq_some.mp hperform
      cases hmouse : service.mouseManager.sensorCallback isPortrait x y z with
      | ok mouse =>
          simp only [hmouse] at hcallback
          obtain rfl := Option.some.inj hcallback
          exact .sensorCallback hmouse
      | error thrown =>
          simp only [hmouse] at hcallback
          obtain rfl := Option.some.inj hcallback
          exact .sensorCallbackThrows hmouse
  | unlock entry =>
      obtain ⟨hpending, hnext⟩ := Option.ite_none_right_eq_some.mp hperform
      obtain rfl := Option.some.inj hnext
      exact .unlock hpending
  | sample =>
      simp only [perform] at hperform
      cases hsampler : service.sampler.statement service.mouseManager.getPositon with
      | ok sampler =>
          simp only [hsampler] at hperform
          obtain rfl := Option.some.inj hperform
          exact .sample hsampler
      | error thrown =>
          simp only [hsampler] at hperform
          obtain rfl := Option.some.inj hperform
          exact .sampleThrows hsampler
  | tick elapsed =>
      obtain rfl := Option.some.inj hperform
      exact .tick elapsed
  | onDestroy =>
      obtain ⟨hidle, hnext⟩ := Option.ite_none_right_eq_some.mp hperform
      obtain rfl := Option.some.inj hnext
      exact .onDestroy hidle

/-- What the listener hears of an event; `back` is what the ring answers. -/
def hears (service : ControllerService F) (back : Position) :
    Event F → Option ButtonEventListener.Event
  | .touch event => some (.touch event)
  | .touchActionUp => some .touchActionUp
  | .dispatch entry => some (.dispatch entry back service.cursor)
  | .tick elapsed => some (.tick elapsed)
  | _ => none

/-- A step of the service is one of the listener, or moves it to the other side at most. -/
theorem listener_of_step {event : Event F} (hstep : service.step event = some next) :
    (∃ right, next.buttonManager.buttonEventListener =
        service.buttonManager.buttonEventListener.setRight right) ∨
      ∃ back heard, service.hears back event = some heard ∧
        service.buttonManager.buttonEventListener.step heard =
          some next.buttonManager.buttonEventListener := by
  have hsame : next.buttonManager.buttonEventListener =
      service.buttonManager.buttonEventListener →
      ∃ right, next.buttonManager.buttonEventListener =
        service.buttonManager.buttonEventListener.setRight right :=
    fun heq => ⟨service.buttonManager.buttonEventListener.isRight, heq⟩
  cases stepped_of_step hstep with
  | @button event given manager hgiven hlooks hmanager =>
      cases ButtonManager.stepped_of_step hmanager with
      | @heard heardEvent listener hidle hlistener =>
          refine Or.inr ⟨service.cursor, heardEvent, ?_, hlistener⟩
          cases event with
          | touch | touchActionUp | dispatch =>
              obtain rfl := ButtonManager.Event.listener.inj (Option.some.inj hgiven)
              rfl
          | handleMessage | offer | notify | consume => cases hgiven
          | sensorCallback | unlock | sample | tick | onDestroy => cases hgiven
      | tick elapsed => cases event <;> cases hgiven
      | @handleMessage entry hidle hpending =>
          obtain ⟨right, hlistener, -⟩ := ButtonManager.handleMessage_frame
            { service.buttonManager with
              handler := service.buttonManager.handler.take entry } entry.item
          exact Or.inl ⟨right, hlistener⟩
      | offer | notify | consume => exact Or.inl (hsame rfl)
      | stopButton hidle => cases event <;> cases hgiven
  | @lookBack entry back compute manager hlooks hback hmanager =>
      obtain ⟨switch, timers, thrown, hobeyed⟩ := service.obey_lookBack manager compute back
      rw [hobeyed]
      cases ButtonManager.stepped_of_step hmanager with
      | heard hidle hlistener => exact Or.inr ⟨⟨back.1, back.2⟩, _, rfl, hlistener⟩
  | tick elapsed => exact Or.inr ⟨service.cursor, _, rfl, rfl⟩
  | onDestroy hidle =>
      exact Or.inl (hsame service.buttonManager.buttonEventListener_stopButton)
  | lookBackThrows | sensorCallback | sensorCallbackThrows | unlock | sample | sampleThrows =>
      exact Or.inl (hsame rfl)

end ControllerService

end SensorMouse
