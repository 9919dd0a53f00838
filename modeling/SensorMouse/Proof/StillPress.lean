import SensorMouse.Proof.ServiceRing

/-!
# A press that does not move

The first dispatch of an isolated press pushes `DOWN` at the position the ring finds and moves the cursor
back to where it was recorded; the lock undoes the shift of `getPositon` exactly, and inside the screen
the clamp changes nothing. So until a sample is accepted the cursor is shown where the press began, and
the release clicks there: `still_press_law`.
-/

namespace SensorMouse

open Android Java Lib

namespace ButtonEventListener

/-- Everything pushed after the first `base` calls. -/
def pushesSince (base : Nat) (listener : ButtonEventListener) : List (Int × Int × Int) :=
  (listener.calls.drop base).filterMap ButtonManager.pushOf

variable {base : Nat} {listener next : ButtonEventListener} {event : Event}

theorem View.down_of_act {seen : View} {action : Action} (hpress : action ≠ .press)
    (hdown : (seen.act action).state = .down) :
    seen.state = .down ∧ (seen.act action).modes = seen.modes := by
  cases action with
  | press => exact absurd rfl hpress
  | idle => exact ⟨hdown, rfl⟩
  | mode outcome => cases outcome <;> cases hdown
  | release =>
      cases hstate : seen.state <;> simp [act, View.release, hstate] at hdown
  | send moved =>
      cases hstate : seen.state <;> simp [act, View.send, hstate] at hdown
  | move cancels starts =>
      rcases state_move seen cancels starts with hsame | ⟨-, hcancel⟩
      · have hseen : seen.state = .down := hsame.symm.trans hdown
        refine ⟨hseen, ?_⟩
        cases cancels with
        | false => cases starts <;> simp [act, View.move, View.start, hseen]
        | true => cases starts <;> simp [act, View.move, View.cancel, View.start, hseen] at hdown
      · rw [act, hcancel] at hdown
        cases hdown

/-- Only an `ACTION_DOWN` leads to `DOWN`; until the next dispatch nothing is called. -/
theorem down_of_step (hpress : ¬ event.IsPress) (hstep : listener.step event = some next)
    (hdown : next.eventSendState = .down) :
    listener.eventSendState = .down ∧ next.calls = listener.calls ∧
      next.handler.count Callback.isMode = listener.handler.count Callback.isMode := by
  obtain ⟨action, hshows, -, hview⟩ := view_step (Nat.zero_le _) hstep
  have hact : ((view 0 listener).act action).state = .down := by
    rw [← hview]
    exact hdown
  have hnot : action ≠ .press := by
    rintro rfl
    cases hshows with
    | press haction => exact hpress haction
  obtain ⟨hstate, hmodes⟩ := View.down_of_act hnot hact
  rw [← hview] at hmodes
  refine ⟨hstate, ?_, hmodes⟩
  obtain ⟨made, hcalls, hmakes⟩ := makes_of_step hstep
  cases event with
  | touch | touchActionUp | tick => rw [hcalls, show made = [] from hmakes, List.append_nil]
  | dispatch entry back cursor =>
      cases hshows with
      | mode hitem outcome => cases outcome <;> cases hact
      | send hitem moved =>
          have hseen : (view 0 listener).state = .down := hstate
          simp [View.act, View.send, hseen] at hact

/-- The press has clicked at `point`: its `DOWN` has been pushed there, and once the release has been
processed its `UP`. -/
structure Clicked (base : Nat) (point : Int × Int) (listener : ButtonEventListener) : Prop where
  base_le : base ≤ listener.calls.length
  modes : listener.handler.count Callback.isMode = 0
  pushed :
    match listener.eventSendState with
    | .downed | .up => (listener.senderX = point.1 ∧ listener.senderY = point.2) ∧
        pushesSince base listener = [(MotionEvent.actionDown, point)]
    | .init => pushesSince base listener =
        [(MotionEvent.actionDown, point), (MotionEvent.actionUp, point)]
    | _ => False

theorem pushesSince_append (hbase : base ≤ listener.calls.length) {made : List Call}
    (hcalls : next.calls = listener.calls ++ made) :
    pushesSince base next = pushesSince base listener ++ made.filterMap ButtonManager.pushOf := by
  unfold pushesSince
  rw [hcalls, List.drop_append_of_le_length hbase, List.filterMap_append]

theorem not_movedBeyond_self (z : Int) : movedBeyond dragOffset z z = false := by
  unfold movedBeyond
  rw [sub_self]
  decide

theorem onTouch_of_clicked (hdown : listener.eventSendState ≠ .down)
    (hcancel : listener.eventSendState ≠ .cancel) {touched : TouchEvent}
    (hpress : touched.action ≠ .down) :
    ∃ lengthX lengthY, listener.onTouch touched =
      { listener with lengthX := lengthX, lengthY := lengthY } := by
  unfold onTouch
  cases haction : touched.action with
  | down => exact absurd haction hpress
  | other => exact ⟨listener.lengthX, listener.lengthY, rfl⟩
  | move =>
      refine ⟨touched.x - listener.downX, touched.y - listener.downY, ?_⟩
      simp [onTouchMove, cancelIfMoved, startModeIfRecognised, hdown, hcancel]

theorem Clicked.send {point : Int × Int} (hclicked : Clicked base point listener)
    (back : Position) :
    Clicked base point (listener.sendEventRunnable back ⟨point.1, point.2⟩) := by
  obtain ⟨hbase, hmodes, hpushed⟩ := hclicked
  have hcalls := calls_sendEventRunnable_eq listener back ⟨point.1, point.2⟩
  have hpushes := pushesSince_append hbase hcalls
  have hlength : base ≤ (listener.sendEventRunnable back ⟨point.1, point.2⟩).calls.length := by
    rw [hcalls, List.length_append]
    omega
  cases hstate : listener.eventSendState with
  | down | cancel | mode | downAndUp => simp only [hstate] at hpushed
  | init =>
      have hsame : listener.sendEventRunnable back ⟨point.1, point.2⟩ = listener := by
        simp [sendEventRunnable, hstate]
      rw [hsame]
      exact ⟨hbase, hmodes, hpushed⟩
  | up =>
      simp only [hstate] at hpushed
      have hsent : listener.sent back ⟨point.1, point.2⟩ =
          [.pushMotionEvent MotionEvent.actionUp point.1 point.2] := by
        simp [sent, hstate]
      rw [hsent, hpushed.2] at hpushes
      refine ⟨hlength, ?_, ?_⟩
      · simpa [sendEventRunnable, hstate, pushMotionEvent, call] using hmodes
      · rw [hpushes]
        simp [sendEventRunnable, hstate, pushMotionEvent, call, ButtonManager.pushOf]
  | downed =>
      simp only [hstate] at hpushed
      obtain ⟨⟨hx, hy⟩, hdownPushed⟩ := hpushed
      have hsame : listener.sendEventRunnable back ⟨point.1, point.2⟩ =
          listener.postDelayed .sendEvent sendMoveDelay := by
        simp [sendEventRunnable, hstate, hx, hy, not_movedBeyond_self]
      rw [hsame]
      refine ⟨hbase, ?_, ?_⟩
      · simpa [postDelayed, Callback.isMode] using hmodes
      · simp only [postDelayed, hstate]
        exact ⟨⟨hx, hy⟩, hdownPushed⟩

theorem clicked_dispatch {entry : Entry Callback} (hbase : base ≤ listener.calls.length)
    (hmodes : listener.handler.count Callback.isMode = 0) (hnone : pushesSince base listener = [])
    (hdown : listener.eventSendState = .down) (hitem : entry.item = .sendEvent)
    (hmem : entry ∈ listener.handler.pending) (back cursor : Position) :
    Clicked base (back.x, back.y) (listener.dispatch entry back cursor) := by
  have htaken := DelayQueue.count_take hmem Callback.isMode
  have hcount : (listener.handler.take entry).count Callback.isMode = 0 := by omega
  have hsent : listener.dispatch entry back cursor =
      { listener with
        handler := (listener.handler.take entry).post .sendEvent sendDownDelay
        eventSendState := .downed
        senderX := back.x
        senderY := back.y
        calls := listener.calls ++ [.getTimebackPosition,
          .pushMotionEvent MotionEvent.actionDown back.x back.y,
          .lockMouseAWhile back.x (wrap (back.y - 30)) true] } := by
    simp [dispatch, runCallback, hitem, sendEventRunnable, hdown, call, pushMotionEvent, postDelayed]
  have hpushes : pushesSince base (listener.dispatch entry back cursor) =
      [(MotionEvent.actionDown, back.x, back.y)] := by
    rw [hsent, pushesSince_append hbase rfl, hnone]
    rfl
  rw [hsent] at hpushes ⊢
  refine ⟨?_, ?_, ⟨rfl, rfl⟩, hpushes⟩
  · rw [List.length_append]
    omega
  · rw [DelayQueue.count_post, hcount]
    rfl

theorem Clicked.state_ne {point : Int × Int} (hclicked : Clicked base point listener) :
    listener.eventSendState ≠ .down ∧ listener.eventSendState ≠ .cancel := by
  have hpushed := hclicked.pushed
  constructor
  · intro hdown
    simp only [hdown] at hpushed
  · intro hcancel
    simp only [hcancel] at hpushed

theorem Clicked.onReceive {point : Int × Int} (hclicked : Clicked base point listener) :
    Clicked base point listener.onReceive := by
  obtain ⟨hbase, hmodes, hpushed⟩ := hclicked
  unfold ButtonEventListener.onReceive
  cases hstate : listener.eventSendState with
  | down | cancel | mode | downAndUp => simp only [hstate] at hpushed
  | init | up | downed =>
      simp only [hstate] at hpushed
      exact ⟨hbase, hmodes, hpushed⟩

/-- Until the next press the click stays where it is, as long as the cursor is shown there. -/
theorem Clicked.step {point : Int × Int} (hclicked : Clicked base point listener)
    (hpress : ¬ event.IsPress)
    (hcursor : ∀ entry back cursor, event = .dispatch entry back cursor → cursor = ⟨point.1, point.2⟩)
    (hstep : listener.step event = some next) : Clicked base point next := by
  obtain ⟨hdown, hcancel⟩ := hclicked.state_ne
  obtain ⟨hbase, hmodes, hpushed⟩ := hclicked
  cases event with
  | touch touched =>
      obtain rfl : listener.onTouch touched = next := Option.some.inj hstep
      obtain ⟨lengthX, lengthY, hsame⟩ := onTouch_of_clicked hdown hcancel hpress
      rw [hsame]
      exact ⟨hbase, hmodes, hpushed⟩
  | touchActionUp =>
      obtain rfl : listener.onReceive = next := Option.some.inj hstep
      exact Clicked.onReceive ⟨hbase, hmodes, hpushed⟩
  | tick elapsed =>
      obtain rfl := Option.some.inj hstep
      exact ⟨hbase, hmodes, hpushed⟩
  | dispatch entry back cursor =>
      obtain ⟨hmem, hnext⟩ := Option.ite_none_right_eq_some.mp hstep
      obtain rfl : listener.dispatch entry back cursor = next := Option.some.inj hnext
      obtain rfl := hcursor entry back cursor rfl
      cases hitem : entry.item with
      | mode what =>
          have hpending := DelayQueue.count_pos_of_mem hmem
            (show Callback.isMode entry.item = true by rw [hitem]; rfl)
          omega
      | sendEvent =>
          have htaken := DelayQueue.count_take hmem Callback.isMode
          have hcount : (listener.handler.take entry).count Callback.isMode = 0 := by omega
          simp only [dispatch, runCallback, hitem]
          exact @Clicked.send base { listener with handler := listener.handler.take entry } point
            ⟨hbase, hcount, hpushed⟩ back

end ButtonEventListener

namespace ControllerService

open ButtonEventListener (Clicked pushesSince Callback)

variable {F : Type} [JavaFloat F] {service next : ControllerService F} {base : Nat}
  {screenWidth screenHeight : Int} {unit : Nat}

def IsPress : Event F → Prop
  | .touch event => event.action = .down
  | _ => False

/-- No sensor sample moves the cursor. -/
def AcceptsNone (service : ControllerService F) : Event F → Prop
  | .sensorCallback _ _ _ _ => ¬ service.mouseManager.Accepts
  | _ => True

instance decidableAcceptsNone (service : ControllerService F) :
    (event : Event F) → Decidable (service.AcceptsNone event)
  | .sensorCallback _ _ _ _ => inferInstanceAs (Decidable (¬ _))
  | .touch _ | .touchActionUp | .dispatch _ | .handleMessage _ | .offer _ | .notify | .consume _
  | .unlock _ | .sample | .tick _ | .onDestroy => isTrue trivial

/-- The positions the sampling thread has recorded; it is done with one when the pointer passes it. -/
def recorded (service : ControllerService F) : List (Int × Int) :=
  service.sampler.samples.take service.sampler.passed

/-- A point at which a cursor inside the screen is shown. -/
def ShownInside (screenWidth screenHeight : Int) (point : Int × Int) : Prop :=
  ∃ position, ((0 ≤ position.1 ∧ position.1 ≤ screenWidth) ∧
    (0 ≤ position.2 ∧ position.2 ≤ screenHeight)) ∧ shown position = point

omit [JavaFloat F] in
theorem not_isPress_of_hears {back : Position} {event : Event F}
    {heard : ButtonEventListener.Event} (hpress : ¬ IsPress event)
    (hhears : service.hears back event = some heard) : ¬ heard.IsPress := by
  cases event with
  | touch | touchActionUp | dispatch | tick =>
      obtain rfl := Option.some.inj hhears
      exact hpress
  | handleMessage | offer | notify | consume | sensorCallback | unlock | sample | onDestroy =>
      cases hhears

/-! ### Until the first dispatch -/

/-- A press that has not been dispatched or cancelled has pushed nothing. -/
def Awaits (base : Nat) (service : ControllerService F) : Prop :=
  base ≤ service.buttonManager.buttonEventListener.calls.length ∧
    (service.buttonManager.buttonEventListener.eventSendState = .down →
      pushesSince base service.buttonManager.buttonEventListener = [] ∧
        service.buttonManager.buttonEventListener.handler.count Callback.isMode = 0)

theorem Awaits.step (hawaits : Awaits base service) {event : Event F} (hpress : ¬ IsPress event)
    (hstep : service.step event = some next) : Awaits base next := by
  obtain ⟨hbase, hdown⟩ := hawaits
  unfold Awaits
  rcases listener_of_step hstep with ⟨right, hlistener⟩ | ⟨back, heard, hhears, hlistener⟩
  · rw [hlistener]
    exact ⟨hbase, hdown⟩
  · refine ⟨hbase.trans (ButtonEventListener.calls_prefix_of_step hlistener).length_le, ?_⟩
    intro hnext
    obtain ⟨hstate, hcalls, hmodes⟩ :=
      ButtonEventListener.down_of_step (not_isPress_of_hears hpress hhears) hlistener hnext
    unfold pushesSince
    rw [hcalls, hmodes]
    exact hdown hstate

theorem awaits_press {press : ButtonEventListener.TouchEvent} (hpress : press.action = .down)
    (hmodes : service.buttonManager.buttonEventListener.handler.count Callback.isMode = 0)
    (hstep : service.step (.touch press) = some next) :
    Awaits service.buttonManager.buttonEventListener.calls.length next := by
  rcases listener_of_step hstep with ⟨right, hlistener⟩ | ⟨back, heard, hhears, hlistener⟩
  · unfold Awaits
    rw [hlistener]
    exact ⟨le_rfl, fun _ => ⟨by simp [pushesSince, ButtonEventListener.setRight], hmodes⟩⟩
  · obtain rfl := Option.some.inj hhears
    have hview := ButtonEventListener.view_onTouch_press hpress 0
      service.buttonManager.buttonEventListener
    have hcalls := ButtonEventListener.calls_onTouch service.buttonManager.buttonEventListener press
    obtain hnext := Option.some.inj hlistener
    unfold Awaits
    rw [← hnext, hcalls]
    refine ⟨le_rfl, fun _ => ⟨?_, ?_⟩⟩
    · unfold pushesSince
      rw [hcalls, List.drop_length]
      rfl
    · have hsame := congrArg ButtonEventListener.View.modes hview
      exact hsame.trans hmodes

/-! ### The first dispatch -/

omit [JavaFloat F] in
theorem length_recorded (service : ControllerService F) :
    service.recorded.length = service.sampler.passed := by
  unfold recorded
  rw [List.length_take, min_eq_left service.sampler.passed_le]

omit [JavaFloat F] in
/-- A full ring finds the oldest of the latest `unit` recorded positions. -/
theorem Steady.recorded_of_warm (hsteady : Steady screenWidth screenHeight unit service)
    (hpos : 1 ≤ unit) (hrange : (2 * unit : Nat) ≤ maxInt)
    (hwarm : unit ≤ service.recorded.length) {back : Int × Int} {compute : TimeBackCompute}
    (hback : service.sampler.compute.getTimebackPosition = .ok (back, compute)) :
    service.recorded[service.recorded.length - unit]? = some back := by
  rw [length_recorded] at hwarm ⊢
  obtain ⟨-, -, hentry⟩ :=
    (hsteady.rings.getTimebackPosition_eq_ok hpos hrange).mp ⟨compute, hback⟩
  rw [hsteady.rings.ahead hpos, if_pos hwarm] at hentry
  unfold recorded
  rw [List.getElem?_take_of_lt (by omega)]
  exact hentry

omit [JavaFloat F] in
/-- Locked to where it was recorded, the cursor is shown there again. -/
theorem getPositon_locked {mouse : MouseManager F} {point : Int × Int}
    (hheight : InRange mouse.screenHeight)
    (hinside : ShownInside mouse.screenWidth mouse.screenHeight point) :
    (mouse.updateMousePosition point.1 (wrap (point.2 - 30))).getPositon = point := by
  obtain ⟨⟨x, y⟩, ⟨⟨hx, hxWidth⟩, hy, hyHeight⟩, rfl⟩ := hinside
  obtain ⟨-, hupper⟩ := hheight
  dsimp only at hx hxWidth hy hyHeight
  have hback : wrap (wrap (y + 30) - 30) = y := by
    unfold maxInt at hupper
    unfold wrap
    omega
  have hclamped : mouse.clamped x y = (x, y) := by
    unfold MouseManager.clamped MouseManager.clampTo
    rw [if_neg (by omega), if_neg (by omega), if_neg (by omega), if_neg (by omega)]
  unfold MouseManager.updateMousePosition MouseManager.getPositon shown
  dsimp only [MouseManager.call]
  rw [hback, hclamped]

theorem clicked_of_lookBack (hsteady : Steady screenWidth screenHeight unit service)
    (hpos : 1 ≤ unit) (hrange : (2 * unit : Nat) ≤ maxInt) (hheight : InRange screenHeight)
    (hawaits : Awaits base service) {entry : Entry Callback} (hlooks : service.LooksBack entry)
    (hwarm : unit ≤ service.recorded.length)
    (hinside : ∀ point ∈ service.recorded.drop (service.recorded.length - unit),
      ShownInside screenWidth screenHeight point)
    (hstep : service.step (.dispatch entry) = some next) :
    (next.buttonManager.buttonEventListener.eventSendState = .down ∧ next.thrown.isSome = true) ∨
      ∃ point compute, service.sampler.compute.getTimebackPosition = .ok (point, compute) ∧
        service.recorded[service.recorded.length - unit]? = some point ∧
        next.mouseManager.getPositon = point ∧
        Clicked base point next.buttonManager.buttonEventListener := by
  obtain ⟨hitem, hdown⟩ := hlooks
  obtain ⟨hbase, hpressed⟩ := hawaits
  obtain ⟨hnone, hmodes⟩ := hpressed hdown
  cases stepped_of_step hstep with
  | button hgiven hnot hmanager => exact absurd ⟨hitem, hdown⟩ hnot
  | lookBackThrows hlooks hthrown => exact Or.inl ⟨hdown, rfl⟩
  | @lookBack _ back compute manager hlooks hback hmanager =>
      have hentry := hsteady.recorded_of_warm hpos hrange hwarm hback
      have hshown : ShownInside screenWidth screenHeight back := by
        refine hinside back (List.mem_of_getElem? (i := 0) ?_)
        rw [List.getElem?_drop, Nat.add_zero]
        exact hentry
      rw [← hsteady.screenWidth, ← hsteady.screenHeight] at hshown
      have hcursor := getPositon_locked (hsteady.screenHeight ▸ hheight) hshown
      obtain ⟨switch, timers, thrown, hobeyed⟩ := service.obey_lookBack manager compute back
      rw [hobeyed]
      refine Or.inr ⟨back, compute, hback, hentry, hcursor, ?_⟩
      cases ButtonManager.stepped_of_step hmanager with
      | @heard _ listener hidle hlistener =>
          obtain ⟨hmem, hnext⟩ := Option.ite_none_right_eq_some.mp hlistener
          obtain rfl := Option.some.inj hnext
          exact ButtonEventListener.clicked_dispatch hbase hmodes hnone hdown hitem hmem
            ⟨back.1, back.2⟩ service.cursor

/-! ### Until the release is processed -/

theorem getPositon_of_step {event : Event F} (hlooks : ¬ service.IsLookBack event)
    (hnone : service.AcceptsNone event) (hstep : service.step event = some next) :
    next.mouseManager.getPositon = service.mouseManager.getPositon := by
  cases stepped_of_step hstep with
  | lookBack hdown hback hmanager => exact absurd hdown hlooks
  | sensorCallback hmouse =>
      rw [MouseManager.sensorCallback_of_not_accepts hnone] at hmouse
      obtain rfl := Except.ok.inj hmouse
      rfl
  | onDestroy hidle =>
      obtain ⟨-, hx, hy⟩ := service.mouseManager.stopMouse_frame
      unfold ControllerService.onDestroy MouseManager.getPositon
      rw [hx, hy]
  | button | lookBackThrows | sensorCallbackThrows | unlock | sample | sampleThrows | tick => rfl

/-- The cursor is still shown where the press has clicked. -/
def Still (base : Nat) (point : Int × Int) (service : ControllerService F) : Prop :=
  service.mouseManager.getPositon = point ∧
    Clicked base point service.buttonManager.buttonEventListener

theorem Still.step {point : Int × Int} (hstill : Still base point service) {event : Event F}
    (hpress : ¬ IsPress event) (hnone : service.AcceptsNone event)
    (hstep : service.step event = some next) : Still base point next := by
  obtain ⟨hcursor, hclicked⟩ := hstill
  have hlooks : ¬ service.IsLookBack event := by
    cases event with
    | dispatch entry => exact fun hdown => hclicked.state_ne.1 hdown.2
    | touch | touchActionUp | handleMessage | offer | notify | consume | sensorCallback | unlock
    | sample | tick | onDestroy => exact id
  refine ⟨(getPositon_of_step hlooks hnone hstep).trans hcursor, ?_⟩
  rcases listener_of_step hstep with ⟨right, hlistener⟩ | ⟨back, heard, hhears, hlistener⟩
  · rw [hlistener]
    exact ⟨hclicked.base_le, hclicked.modes, hclicked.pushed⟩
  · refine hclicked.step (not_isPress_of_hears hpress hhears) ?_ hlistener
    rintro entry other cursor rfl
    cases event with
    | dispatch entry =>
        obtain ⟨-, -, rfl⟩ := ButtonEventListener.Event.dispatch.inj (Option.some.inj hhears)
        unfold ControllerService.cursor
        rw [hcursor]
    | touch | touchActionUp | tick => cases Option.some.inj hhears
    | handleMessage | offer | notify | consume | sensorCallback | unlock | sample | onDestroy =>
        cases hhears

/-- **A still press is a click.** An isolated press is first dispatched when the ring has `timeUnit`
positions recorded with the cursor inside the screen, and no sample is accepted from then until its
release is processed: what it has pushed is `DOWN` and `UP` at the position the ring found, and the
cursor was shown there all the time. -/
theorem still_press_law {intent : Intent F} {start pressed ready clicked final : ControllerService F}
    {past before during : List (Event F)} {press : ButtonEventListener.TouchEvent}
    {entry : Entry Callback} (hheight : 1 ≤ screenHeight) (hint : screenHeight ≤ maxInt)
    (hstart : onStartCommand screenWidth screenHeight intent = .ok start)
    (hpast : run step start past = some pressed)
    (hmodes : pressed.buttonManager.buttonEventListener.handler.count Callback.isMode = 0)
    (hpress : press.action = .down) (hbefore : ∀ event ∈ before, ¬ IsPress event)
    (hready : run step pressed (.touch press :: before) = some ready)
    (hlooks : ready.LooksBack entry) (hwarm : ready.lookBackUnit ≤ ready.recorded.length)
    (hinside : ∀ point ∈ ready.recorded.drop (ready.recorded.length - ready.lookBackUnit),
      ShownInside screenWidth screenHeight point)
    (hclicked : ready.step (.dispatch entry) = some clicked)
    (hduring : ∀ event ∈ during, ¬ IsPress event)
    (hstill : StepsAlong step AcceptsNone clicked during)
    (hrun : run step clicked during = some final)
    (hprocessed : final.buttonManager.buttonEventListener.eventSendState = .init) :
    ∃ point compute, ready.sampler.compute.getTimebackPosition = .ok (point, compute) ∧
      ready.recorded[ready.recorded.length - ready.lookBackUnit]? = some point ∧
      pushesSince pressed.buttonManager.buttonEventListener.calls.length
          final.buttonManager.buttonEventListener =
        [(MotionEvent.actionDown, point), (MotionEvent.actionUp, point)] ∧
      StatesAlong step (fun service => service.mouseManager.getPositon = point) clicked during := by
  have hscreen : InRange screenHeight := ⟨by unfold minInt; omega, hint⟩
  obtain ⟨unit, ⟨hpos, hrange⟩, hsteady⟩ :=
    exists_steady_of_onStartCommand hscreen (by omega) hstart
  have hsteadyReady : Steady screenWidth screenHeight unit ready :=
    steady_run hpos hrange hscreen (steady_run hpos hrange hscreen hsteady hpast) hready
  rw [lookBackUnit_eq hsteadyReady.rings] at hwarm hinside ⊢
  obtain ⟨down, hdown, hrest⟩ := (run_cons_eq_some step).mp hready
  have hawaits : Awaits pressed.buttonManager.buttonEventListener.calls.length ready :=
    run_invariant_of_labels (Awaits _) (fun event => ¬ IsPress event) hbefore
      (awaits_press hpress hmodes hdown)
      (fun _ _ _ hevent hcurrent hstep => hcurrent.step hevent hstep) hrest
  rcases clicked_of_lookBack hsteadyReady hpos hrange hscreen hawaits hlooks hwarm hinside hclicked
    with ⟨hstate, hthrown⟩ | ⟨point, compute, hback, hentry, hcursor, hpushed⟩
  · cases during with
    | nil =>
        obtain rfl : clicked = final := by simpa using hrun
        rw [hstate] at hprocessed
        cases hprocessed
    | cons event rest =>
        obtain ⟨next, hnext, -⟩ := (run_cons_eq_some step).mp hrun
        rw [step, if_pos hthrown] at hnext
        cases hnext
  · have hguard : StepsAlong step (fun service event => ¬ IsPress event ∧ service.AcceptsNone event)
        clicked during := by
      intro earlier event later service hsplit hservice
      exact ⟨hduring event (by rw [hsplit]; simp), hstill earlier event later service hsplit hservice⟩
    have hstates : StatesAlong step (Still pressed.buttonManager.buttonEventListener.calls.length
        point) clicked during := by
      rintro earlier later service rfl hservice
      exact run_invariant_of_steps (Still _ point) (stepsAlong_append hservice hguard).1
        ⟨hcursor, hpushed⟩
        (fun _ _ _ hevent hcurrent hstep => hcurrent.step hevent.1 hevent.2 hstep) hservice
    refine ⟨point, compute, hback, hentry, ?_, fun earlier later service hsplit hservice =>
      (hstates earlier later service hsplit hservice).1⟩
    have hfinal := (hstates.last hrun).2.pushed
    simp only [hprocessed] at hfinal
    exact hfinal

/-- A ring of two cells, and the first sample. -/
def clickIntent : Intent ℚ := { averageNum := some 1, timeunit := some 1 }

/-- The runnable runs once more before the release, and the lock has not ended. -/
def heldClickEvents : List (Event ℚ) :=
  [.offer 100, .notify, .tick 100, .dispatch ⟨1, 200, .sendEvent⟩, .touchActionUp, .sample, .tick 20,
    .sensorCallback true 0 50 0, .dispatch ⟨2, 220, .sendEvent⟩]

theorem still_press_law_heldClick :
    ∃ start pressed ready clicked final : ControllerService ℚ,
      onStartCommand 480 800 clickIntent = .ok start ∧
      run step start (List.replicate 6 .sample) = some pressed ∧
      run step pressed [.touch ⟨.down, 0, 0⟩, .tick 100] = some ready ∧
      ready.step (.dispatch ⟨0, 100, .sendEvent⟩) = some clicked ∧
      run step clicked heldClickEvents = some final ∧
      ∃ point compute, ready.sampler.compute.getTimebackPosition = .ok (point, compute) ∧
        ready.recorded[ready.recorded.length - ready.lookBackUnit]? = some point ∧
        pushesSince pressed.buttonManager.buttonEventListener.calls.length
            final.buttonManager.buttonEventListener =
          [(MotionEvent.actionDown, point), (MotionEvent.actionUp, point)] ∧
        StatesAlong step (fun service => service.mouseManager.getPositon = point) clicked
          heldClickEvents := by
  have hfacts : ((onStartCommand 480 800 clickIntent).toOption.bind fun start =>
      (run step start (List.replicate 6 .sample)).bind fun pressed =>
      (run step pressed [.touch ⟨.down, 0, 0⟩, .tick 100]).bind fun ready =>
      (ready.step (.dispatch ⟨0, 100, .sendEvent⟩)).bind fun clicked =>
      (run step clicked heldClickEvents).map fun final =>
        decide (pressed.buttonManager.buttonEventListener.handler.count Callback.isMode = 0 ∧
          ready.LooksBack ⟨0, 100, .sendEvent⟩ ∧
          ready.lookBackUnit = 1 ∧ ready.recorded = [(240, 430)] ∧
          StepsAlong step AcceptsNone clicked heldClickEvents ∧
          final.buttonManager.buttonEventListener.eventSendState = .init)) = some true := by
    decide +kernel
  obtain ⟨start, hstart, hrest⟩ := Option.bind_eq_some_iff.mp hfacts
  obtain ⟨pressed, hpast, hrest⟩ := Option.bind_eq_some_iff.mp hrest
  obtain ⟨ready, hready, hrest⟩ := Option.bind_eq_some_iff.mp hrest
  obtain ⟨clicked, hclicked, hrest⟩ := Option.bind_eq_some_iff.mp hrest
  obtain ⟨final, hrun, hall⟩ := Option.map_eq_some_iff.mp hrest
  obtain ⟨hmodes, hlooks, hunit, hrecorded, hstill, hprocessed⟩ := of_decide_eq_true hall
  have hcreate := toOption_eq_some.mp hstart
  have hwarm : ready.lookBackUnit ≤ ready.recorded.length := by
    rw [hunit, hrecorded]
    decide
  have hinside : ∀ point ∈ ready.recorded.drop (ready.recorded.length - ready.lookBackUnit),
      ShownInside 480 800 point := by
    rw [hunit, hrecorded]
    intro point hmem
    obtain rfl := List.mem_singleton.mp hmem
    exact ⟨(240, 400), by decide, by decide⟩
  exact ⟨start, pressed, ready, clicked, final, hcreate, hpast, hready, hclicked, hrun,
    still_press_law (by decide) (by decide) hcreate hpast hmodes rfl (by simp [IsPress]) hready
      hlooks hwarm hinside hclicked (by simp [heldClickEvents, IsPress]) hstill hrun hprocessed⟩

end ControllerService

end SensorMouse
