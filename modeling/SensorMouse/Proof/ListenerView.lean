import SensorMouse.Button.ButtonEventListener
import SensorMouse.Lib.Run
import SensorMouse.Lib.Stroke

/-!
# The listener seen from outside

What the listener owes and what it has pushed, with positions, gesture recognition and the message
queue's order forgotten: the send state, how many runnables and mode messages are pending, and the
pointer marks and gesture commands pushed after the first `base` calls. `view_step` says that every
step of the listener is one action of this smaller machine; the results about pointer streams,
presses and gestures are proved on the smaller machine.
-/

namespace SensorMouse.ButtonEventListener

open Android Lib

def Call.mark : Call → Option Mark
  | .pushMotionEvent action _ _ =>
      if action = MotionEvent.actionDown then some .opens
      else if action = MotionEvent.actionMove then some .within
      else if action = MotionEvent.actionUp then some .closes
      else none
  | _ => none

/-- The four keys, the two zoom gestures and the two button codes. -/
def gestureCommands : List Int :=
  [-KeyEvent.keycodeHome, -KeyEvent.keycodeBack, -KeyEvent.keycodeSearch, -KeyEvent.keycodeMenu,
    EventQueueHandler.sendZoom, EventQueueHandler.sendPinch, EventQueueHandler.sendB2Left,
    EventQueueHandler.sendB2Right]

def Call.isCommand : Call → Bool
  | .pushMotionEvent action _ _ => gestureCommands.contains action
  | _ => false

theorem nonneg_of_mark {action x y : Int} {mark : Mark}
    (hmark : (Call.pushMotionEvent action x y).mark = some mark) : 0 ≤ action := by
  unfold Call.mark MotionEvent.actionDown MotionEvent.actionMove MotionEvent.actionUp at hmark
  by_contra hneg
  have hdown : action ≠ 0 := by omega
  have hmove : action ≠ 2 := by omega
  have hup : action ≠ 1 := by omega
  simp [hdown, hmove, hup] at hmark

theorem neg_of_mem_gestureCommands {action : Int} (hmem : action ∈ gestureCommands) : action < 0 := by
  have hall : ∀ command ∈ gestureCommands, command < 0 := by decide
  exact hall action hmem

@[simp]
theorem mark_actionDown (x y : Int) :
    (Call.pushMotionEvent MotionEvent.actionDown x y).mark = some .opens := rfl

@[simp]
theorem mark_actionMove (x y : Int) :
    (Call.pushMotionEvent MotionEvent.actionMove x y).mark = some .within := rfl

@[simp]
theorem mark_actionUp (x y : Int) :
    (Call.pushMotionEvent MotionEvent.actionUp x y).mark = some .closes := rfl

theorem isCommand_of_mark {made : Call} {mark : Mark} (hmark : made.mark = some mark) :
    made.isCommand = false := by
  cases made with
  | pushMotionEvent action x y =>
      have hnonneg : 0 ≤ action := nonneg_of_mark hmark
      have hnot : action ∉ gestureCommands := fun hmem => by
        have := neg_of_mem_gestureCommands hmem
        omega
      simpa [Call.isCommand] using hnot
  | getTimebackPosition => rfl
  | lockMouseAWhile x y wait => rfl
  | showToast index => rfl

@[simp]
theorem isCommand_actionDown (x y : Int) :
    (Call.pushMotionEvent MotionEvent.actionDown x y).isCommand = false :=
  isCommand_of_mark (mark_actionDown x y)

@[simp]
theorem isCommand_actionMove (x y : Int) :
    (Call.pushMotionEvent MotionEvent.actionMove x y).isCommand = false :=
  isCommand_of_mark (mark_actionMove x y)

@[simp]
theorem isCommand_actionUp (x y : Int) :
    (Call.pushMotionEvent MotionEvent.actionUp x y).isCommand = false :=
  isCommand_of_mark (mark_actionUp x y)

theorem mark_of_isCommand {action : Int} (hmem : action ∈ gestureCommands) (x y : Int) :
    (Call.pushMotionEvent action x y).mark = none := by
  cases hmark : (Call.pushMotionEvent action x y).mark with
  | none => rfl
  | some mark =>
      have hnonneg := nonneg_of_mark hmark
      have hneg := neg_of_mem_gestureCommands hmem
      omega

structure View where
  state : SendState
  sends : Nat
  modes : Nat
  marks : List Mark
  commands : Nat
  deriving DecidableEq, Repr

/-- The view of a listener, counting what was called after the first `base` calls. -/
def view (base : Nat) (listener : ButtonEventListener) : View where
  state := listener.eventSendState
  sends := listener.handler.count Callback.isSendEvent
  modes := listener.handler.count Callback.isMode
  marks := (listener.calls.drop base).filterMap Call.mark
  commands := (listener.calls.drop base).countP Call.isCommand

/-! ### The smaller machine -/

/-- What the dispatch of a mode message comes to. -/
inductive Outcome where
  | silent
  | repost
  | command
  deriving DecidableEq, Repr

/-- The actions of the smaller machine; what the view does not decide is part of the action. -/
inductive Action where
  | press
  | move (cancels starts : Bool)
  | release
  | idle
  | send (moved : Bool)
  | mode (outcome : Outcome)
  deriving DecidableEq, Repr

namespace View

def press (seen : View) : View :=
  { seen with state := .down, sends := seen.sends + 1 }

def cancel (seen : View) : View :=
  if seen.state = .down then { seen with state := .cancel, sends := 0 } else seen

def start (seen : View) : View :=
  if seen.state = .cancel then { seen with modes := seen.modes + 1 } else seen

def move (seen : View) (cancels starts : Bool) : View :=
  let moved := if cancels then seen.cancel else seen
  if starts then moved.start else moved

def release (seen : View) : View :=
  match seen.state with
  | .downed => { seen with state := .up }
  | .down => { seen with state := .downAndUp }
  | _ => seen

/-- The runnable, already taken from the queue. -/
def send (seen : View) (moved : Bool) : View :=
  match seen.state with
  | .down => { seen with state := .downed, sends := seen.sends + 1, marks := seen.marks ++ [.opens] }
  | .up => { seen with state := .init, marks := seen.marks ++ [.closes] }
  | .downAndUp => { seen with state := .init, marks := seen.marks ++ [.opens, .closes] }
  | .downed =>
      { seen with
        sends := seen.sends + 1
        marks := if moved then seen.marks ++ [.within] else seen.marks }
  | _ => seen

def mode (seen : View) : Outcome → View
  | .silent => { seen with state := .mode }
  | .repost => { seen with state := .mode, modes := seen.modes + 1 }
  | .command => { seen with state := .mode, commands := seen.commands + 1 }

def act (seen : View) : Action → View
  | .press => seen.press
  | .move cancels starts => seen.move cancels starts
  | .release => seen.release
  | .idle => seen
  | .send moved => { seen with sends := seen.sends - 1 }.send moved
  | .mode outcome => { seen with modes := seen.modes - 1 }.mode outcome

/-- A callback can be dispatched only while one of its kind is pending. -/
def Enabled (seen : View) : Action → Prop
  | .send _ => 0 < seen.sends
  | .mode _ => 0 < seen.modes
  | _ => True

/-- What cancelling and starting a gesture keep, an `ACTION_MOVE` keeps. -/
theorem move_of_keeps (Holds : View → Prop) {seen : View} (hseen : Holds seen) (cancels : Bool)
    {starts : Bool} (hcancel : ∀ seen, Holds seen → Holds seen.cancel)
    (hstart : starts = true → ∀ seen, Holds seen → Holds seen.start) :
    Holds (seen.move cancels starts) := by
  have hmoved : Holds (if cancels then seen.cancel else seen) := by
    cases cancels with
    | false => exact hseen
    | true => exact hcancel seen hseen
  unfold View.move
  cases starts with
  | false => exact hmoved
  | true => exact hstart rfl _ hmoved

theorem marks_move (seen : View) (cancels starts : Bool) :
    (seen.move cancels starts).marks = seen.marks := by
  refine move_of_keeps (fun moved => moved.marks = seen.marks) rfl cancels ?_ ?_
  · intro moved hmoved
    unfold View.cancel
    split_ifs <;> exact hmoved
  · intro _ moved hmoved
    unfold View.start
    split_ifs <;> exact hmoved

theorem state_move (seen : View) (cancels starts : Bool) :
    (seen.move cancels starts).state = seen.state ∨
      (seen.state = .down ∧ (seen.move cancels starts).state = .cancel) := by
  refine move_of_keeps (fun moved => moved.state = seen.state ∨
    (seen.state = .down ∧ moved.state = .cancel)) (Or.inl rfl) cancels ?_ ?_
  · intro moved hmoved
    unfold View.cancel
    split_ifs with hdown
    · rcases hmoved with hsame | ⟨-, hcancel⟩
      · exact Or.inr ⟨hsame.symm.trans hdown, rfl⟩
      · rw [hcancel] at hdown
        cases hdown
    · exact hmoved
  · intro _ moved hmoved
    unfold View.start
    split_ifs <;> exact hmoved

end View

/-! ### Each function is an action -/

theorem view_onTouchDown (base : Nat) (listener : ButtonEventListener) (x y : ℚ) :
    view base (listener.onTouchDown x y) = (view base listener).press := by
  simp [view, onTouchDown, postDelayed, View.press, Callback.isSendEvent, Callback.isMode]

theorem view_onTouch_press {press : TouchEvent} (hpress : press.action = .down) (base : Nat)
    (listener : ButtonEventListener) :
    view base (listener.onTouch press) = (view base listener).press := by
  unfold onTouch
  rw [hpress]
  exact view_onTouchDown base listener press.x press.y

theorem view_cancelIfMoved (base : Nat) (listener : ButtonEventListener) :
    ∃ cancels : Bool, view base listener.cancelIfMoved =
      if cancels then (view base listener).cancel else view base listener := by
  unfold cancelIfMoved
  split_ifs with hmoved
  · have hsends : (listener.handler.remove Callback.isSendEvent).count Callback.isSendEvent = 0 :=
      DelayQueue.count_remove_of_imp _ fun _ hsend => hsend
    have hkept : ∀ item : Callback, item.isMode → item.isSendEvent = false := by
      intro item hmode
      cases item with
      | sendEvent => simp [Callback.isMode] at hmode
      | mode what => simp [Callback.isSendEvent]
    have hmodes : (listener.handler.remove Callback.isSendEvent).count Callback.isMode =
        listener.handler.count Callback.isMode :=
      DelayQueue.count_remove_of_disjoint _ hkept
    exact ⟨true, by simp [view, View.cancel, hmoved.1, hsends, hmodes]⟩
  · exact ⟨false, by simp⟩

theorem view_startModeIfRecognised (base : Nat) (listener : ButtonEventListener) :
    view base listener.startModeIfRecognised =
      if (recognise listener.isRight listener.lengthX listener.lengthY).isSome then
        (view base listener).start
      else view base listener := by
  unfold startModeIfRecognised View.start
  by_cases hstate : listener.eventSendState = .cancel
  · cases hflag : recognise listener.isRight listener.lengthX listener.lengthY <;>
      simp [hstate, view, postDelayed, Callback.isMode, Callback.isSendEvent]
  · simp [hstate, view]

/-- The part of `ACTION_MOVE` that decides whether the press is cancelled. -/
def measured (listener : ButtonEventListener) (x y : ℚ) : ButtonEventListener :=
  { listener with lengthX := x - listener.downX, lengthY := y - listener.downY }.cancelIfMoved

def SendsStart (listener : ButtonEventListener) (event : TouchEvent) : Prop :=
  event.action = .move ∧
    let moved := listener.measured event.x event.y
    moved.eventSendState = .cancel ∧
      (recognise moved.isRight moved.lengthX moved.lengthY).isSome

instance (listener : ButtonEventListener) (event : TouchEvent) :
    Decidable (listener.SendsStart event) :=
  inferInstanceAs (Decidable (_ ∧ _ ∧ _))

theorem view_onTouchMove (base : Nat) (listener : ButtonEventListener) (x y : ℚ) :
    ∃ cancels : Bool, view base (listener.onTouchMove x y) =
      (view base listener).move cancels (listener.SendsStart ⟨.move, x, y⟩) := by
  obtain ⟨cancels, hcancel⟩ := view_cancelIfMoved base
    { listener with lengthX := x - listener.downX, lengthY := y - listener.downY }
  refine ⟨cancels, ?_⟩
  have hmeasured : view base (listener.measured x y) =
      if cancels then (view base listener).cancel else view base listener := hcancel
  have hstart := view_startModeIfRecognised base (listener.measured x y)
  have hstate : (view base (listener.measured x y)).state =
      (listener.measured x y).eventSendState := rfl
  unfold onTouchMove View.move
  rw [← hmeasured]
  refine hstart.trans ?_
  by_cases hcanceled : (listener.measured x y).eventSendState = .cancel
  · simp [SendsStart, hcanceled]
  · simp [SendsStart, hcanceled, View.start, hstate]

theorem view_onReceive (base : Nat) (listener : ButtonEventListener) :
    view base listener.onReceive = (view base listener).release := by
  unfold onReceive View.release view
  cases hstate : listener.eventSendState <;> simp [SendState.toInt, hstate]

theorem view_sendEventRunnable {base : Nat} {listener : ButtonEventListener}
    (hbase : base ≤ listener.calls.length) (back cursor : Position) :
    ∃ moved : Bool, view base (listener.sendEventRunnable back cursor) =
      (view base listener).send moved := by
  refine ⟨movedBeyond dragOffset listener.senderX cursor.x ||
    movedBeyond dragOffset listener.senderY cursor.y, ?_⟩
  unfold sendEventRunnable View.send
  cases hstate : listener.eventSendState with
  | init | cancel | mode => simp [view, hstate]
  | down =>
      have hlock : (Call.lockMouseAWhile back.x (Java.wrap (back.y - 30)) true).isCommand = false := rfl
      have hback : Call.getTimebackPosition.isCommand = false := rfl
      simp [view, hstate, pushMotionEvent, call, postDelayed, List.drop_append_of_le_length hbase,
        Callback.isSendEvent, Callback.isMode, hlock, hback]
      rfl
  | up | downAndUp =>
      simp [view, hstate, pushMotionEvent, call, List.drop_append_of_le_length hbase]
  | downed =>
      by_cases hmoved : (movedBeyond dragOffset listener.senderX cursor.x ||
        movedBeyond dragOffset listener.senderY cursor.y) = true
      · simp [view, hstate, hmoved, pushMotionEvent, call, postDelayed,
          List.drop_append_of_le_length hbase, Callback.isSendEvent, Callback.isMode]
      · simp [view, hstate, hmoved, postDelayed, Callback.isSendEvent, Callback.isMode]

theorem view_scanMove {base : Nat} {listener : ButtonEventListener}
    (hbase : base ≤ listener.calls.length) (hstate : listener.eventSendState = .mode)
    {command : Option Int} (hcommand : ∀ action ∈ command, action ∈ gestureCommands) :
    ∃ outcome, view base (listener.scanMove command) = (view base listener).mode outcome := by
  unfold scanMove
  by_cases hcount : listener.modeStateCount + 1 < modeCounterThreshold
  · cases command with
    | none =>
        refine ⟨.repost, ?_⟩
        simp [hcount, view, View.mode, hstate, postDelayed, Callback.isSendEvent, Callback.isMode]
    | some action =>
        have hmem : action ∈ gestureCommands := hcommand action rfl
        have hmark := mark_of_isCommand hmem 0 0
        have hcounted : (Call.pushMotionEvent action 0 0).isCommand = true := by
          simpa [Call.isCommand] using hmem
        refine ⟨.command, ?_⟩
        simp [hcount, view, View.mode, hstate, pushMotionEvent, call,
          List.drop_append_of_le_length hbase, hmark, hcounted]
  · exact ⟨.silent, by simp [hcount, view, View.mode, hstate]⟩

theorem mem_gestureCommands_of_keyCommand {lengthX lengthY : Int} :
    ∀ action ∈ keyCommand lengthX lengthY, action ∈ gestureCommands := by
  intro action hcommand
  unfold keyCommand at hcommand
  split_ifs at hcommand <;> cases hcommand <;> decide

theorem mem_gestureCommands_of_photoCommand {lengthY : Int} :
    ∀ action ∈ photoCommand lengthY, action ∈ gestureCommands := by
  intro action hcommand
  unfold photoCommand at hcommand
  split_ifs at hcommand <;> cases hcommand <;> decide

theorem view_handleScan {base : Nat} {listener : ButtonEventListener}
    (hbase : base ≤ listener.calls.length)
    (hflag : listener.modeFlag = .key ∨ listener.modeFlag = .photo) (what : ModeMessage)
    (cursor : Position) :
    ∃ outcome, view base (listener.handleMessage what cursor) =
      (view base listener).mode outcome := by
  cases what with
  | start =>
      obtain ⟨toast, startX, startY, hstart⟩ := handleMessage_start hflag cursor
      have htoast : (Call.showToast toast).isCommand = false := rfl
      have hmark : (Call.showToast toast).mark = none := rfl
      refine ⟨.repost, ?_⟩
      rw [hstart]
      simp [view, View.mode, call, postDelayed, List.drop_append_of_le_length hbase,
        Callback.isSendEvent, Callback.isMode, htoast, hmark]
  | move =>
      obtain ⟨lengthX, lengthY, hmove⟩ := handleMessage_move hflag cursor
      have hcommand : ∀ action ∈ (if listener.modeFlag = ModeFlag.key then
          keyCommand lengthX lengthY else photoCommand lengthY), action ∈ gestureCommands := by
        split_ifs
        · exact mem_gestureCommands_of_keyCommand
        · exact mem_gestureCommands_of_photoCommand
      have hscanned : base ≤ { listener with eventSendState := .mode }.calls.length := hbase
      obtain ⟨outcome, hview⟩ := view_scanMove hscanned rfl hcommand
      refine ⟨outcome, ?_⟩
      rw [hmove, hview]
      cases outcome <;> rfl

theorem view_handleMessage {base : Nat} {listener : ButtonEventListener}
    (hbase : base ≤ listener.calls.length) (what : ModeMessage) (cursor : Position) :
    ∃ outcome, view base (listener.handleMessage what cursor) =
      (view base listener).mode outcome := by
  cases hflag : listener.modeFlag with
  | init => exact ⟨.silent, by rw [handleMessage_init hflag]; rfl⟩
  | key => exact view_handleScan hbase (Or.inl hflag) what cursor
  | photo => exact view_handleScan hbase (Or.inr hflag) what cursor
  | b2Left =>
      refine ⟨.command, ?_⟩
      rw [handleMessage_b2Left hflag]
      simp [view, View.mode, pushMotionEvent, call, List.drop_append_of_le_length hbase]
      decide
  | b2Right =>
      refine ⟨.command, ?_⟩
      rw [handleMessage_b2Right hflag]
      simp [view, View.mode, pushMotionEvent, call, List.drop_append_of_le_length hbase]
      decide

/-! ### Each step is an action -/

/-- The action an event shows as, in the state `listener`. -/
inductive Shows (listener : ButtonEventListener) : Event → Action → Prop where
  | press {event : TouchEvent} (haction : event.action = .down) :
      Shows listener (.touch event) .press
  | move {event : TouchEvent} (haction : event.action = .move) (cancels : Bool) :
      Shows listener (.touch event) (.move cancels (listener.SendsStart event))
  | other {event : TouchEvent} (haction : event.action = .other) :
      Shows listener (.touch event) .idle
  | release : Shows listener .touchActionUp .release
  | tick (elapsed : Nat) : Shows listener (.tick elapsed) .idle
  | send {entry : Entry Callback} {back cursor : Position} (hitem : entry.item = .sendEvent)
      (moved : Bool) : Shows listener (.dispatch entry back cursor) (.send moved)
  | mode {entry : Entry Callback} {back cursor : Position} {what : ModeMessage}
      (hitem : entry.item = .mode what) (outcome : Outcome) :
      Shows listener (.dispatch entry back cursor) (.mode outcome)

theorem calls_onTouch (listener : ButtonEventListener) (event : TouchEvent) :
    (listener.onTouch event).calls = listener.calls := by
  have hcancel : ∀ moved : ButtonEventListener, moved.cancelIfMoved.calls = moved.calls := by
    intro moved
    unfold cancelIfMoved
    split_ifs <;> rfl
  have hstart : ∀ moved : ButtonEventListener, moved.startModeIfRecognised.calls = moved.calls := by
    intro moved
    unfold startModeIfRecognised
    split_ifs
    · cases recognise moved.isRight moved.lengthX moved.lengthY <;> rfl
    · rfl
  unfold onTouch
  cases event.action with
  | down => rfl
  | move => exact (hstart _).trans (hcancel _)
  | other => rfl

theorem calls_onReceive (listener : ButtonEventListener) :
    listener.onReceive.calls = listener.calls := by
  unfold onReceive
  split_ifs <;> rfl

theorem calls_sendEventRunnable (listener : ButtonEventListener) (back cursor : Position) :
    listener.calls <+: (listener.sendEventRunnable back cursor).calls := by
  unfold sendEventRunnable
  cases listener.eventSendState with
  | downed =>
      dsimp only
      split_ifs <;> simp [pushMotionEvent, call, postDelayed]
  | _ => simp [pushMotionEvent, call, postDelayed]

theorem calls_handleMessage (listener : ButtonEventListener) (what : ModeMessage)
    (cursor : Position) : listener.calls <+: (listener.handleMessage what cursor).calls := by
  have hscan : ∀ (scanned : ButtonEventListener) (command : Option Int),
      scanned.calls <+: (scanned.scanMove command).calls := by
    intro scanned command
    unfold scanMove
    dsimp only
    split_ifs
    · cases command <;> simp [pushMotionEvent, call, postDelayed]
    · exact List.prefix_rfl
  unfold handleMessage
  cases listener.modeFlag with
  | init => exact List.prefix_rfl
  | b2Left | b2Right => simp [pushMotionEvent, call]
  | key | photo =>
      cases what with
      | start => simp [call, postDelayed]
      | move =>
          refine List.IsPrefix.trans ?_ (hscan _ _)
          exact List.prefix_rfl

theorem calls_prefix_of_step {listener next : ButtonEventListener} {event : Event}
    (hstep : listener.step event = some next) : listener.calls <+: next.calls := by
  cases event with
  | touch event =>
      obtain rfl : listener.onTouch event = next := Option.some.inj hstep
      rw [calls_onTouch]
  | touchActionUp =>
      obtain rfl : listener.onReceive = next := Option.some.inj hstep
      rw [calls_onReceive]
  | tick elapsed =>
      obtain rfl := Option.some.inj hstep
      exact List.prefix_rfl
  | dispatch entry back cursor =>
      simp only [step] at hstep
      split_ifs at hstep
      obtain rfl : listener.dispatch entry back cursor = next := Option.some.inj hstep
      unfold dispatch runCallback
      let taken : ButtonEventListener :=
        { listener with handler := listener.handler.take entry }
      cases entry.item with
      | sendEvent => exact calls_sendEventRunnable taken back cursor
      | mode what => exact calls_handleMessage taken what cursor

theorem view_dispatch {base : Nat} {listener : ButtonEventListener} {entry : Entry Callback}
    (hbase : base ≤ listener.calls.length) (hmem : entry ∈ listener.handler.pending)
    (back cursor : Position) :
    ∃ action, Shows listener (.dispatch entry back cursor) action ∧
      (view base listener).Enabled action ∧
      view base (listener.dispatch entry back cursor) = (view base listener).act action := by
  have hsends := DelayQueue.count_take hmem Callback.isSendEvent
  have hmodes := DelayQueue.count_take hmem Callback.isMode
  have htakenBase :
      base ≤ { listener with handler := listener.handler.take entry }.calls.length := hbase
  unfold dispatch runCallback
  cases hitem : entry.item with
  | sendEvent =>
      obtain ⟨moved, hview⟩ := view_sendEventRunnable htakenBase back cursor
      rw [hitem] at hsends hmodes
      have htaken : view base { listener with handler := listener.handler.take entry } =
          { view base listener with sends := (view base listener).sends - 1 } := by
        simp only [view, View.mk.injEq, true_and, and_true]
        simp [Callback.isSendEvent, Callback.isMode] at hsends hmodes
        omega
      refine ⟨.send moved, .send hitem moved, ?_, ?_⟩
      · exact DelayQueue.count_pos_of_mem hmem (by rw [hitem]; rfl)
      · rw [hview, htaken]
        rfl
  | mode what =>
      obtain ⟨outcome, hview⟩ := view_handleMessage htakenBase what cursor
      rw [hitem] at hsends hmodes
      have htaken : view base { listener with handler := listener.handler.take entry } =
          { view base listener with modes := (view base listener).modes - 1 } := by
        simp only [view, View.mk.injEq, true_and, and_true]
        simp [Callback.isSendEvent, Callback.isMode] at hsends hmodes
        omega
      refine ⟨.mode outcome, .mode hitem outcome, ?_, ?_⟩
      · exact DelayQueue.count_pos_of_mem hmem (by rw [hitem]; rfl)
      · rw [hview, htaken]
        rfl

/-- **Every step of the listener is an action of the smaller machine.** -/
theorem view_step {base : Nat} {listener next : ButtonEventListener} {event : Event}
    (hbase : base ≤ listener.calls.length) (hstep : listener.step event = some next) :
    ∃ action, Shows listener event action ∧ (view base listener).Enabled action ∧
      view base next = (view base listener).act action := by
  cases event with
  | touch event =>
      obtain rfl : listener.onTouch event = next := Option.some.inj hstep
      unfold onTouch
      cases haction : event.action with
      | down => exact ⟨.press, .press haction, trivial, view_onTouchDown base listener _ _⟩
      | move =>
          obtain ⟨cancels, hview⟩ := view_onTouchMove base listener event.x event.y
          refine ⟨_, .move haction cancels, trivial, ?_⟩
          have hevent : event = ⟨.move, event.x, event.y⟩ := by rw [← haction]
          rw [hevent]
          exact hview
      | other => exact ⟨.idle, .other haction, trivial, rfl⟩
  | touchActionUp =>
      obtain rfl : listener.onReceive = next := Option.some.inj hstep
      exact ⟨.release, .release, trivial, view_onReceive base listener⟩
  | tick elapsed =>
      obtain rfl := Option.some.inj hstep
      exact ⟨.idle, .tick elapsed, trivial, rfl⟩
  | dispatch entry back cursor =>
      simp only [step] at hstep
      split_ifs at hstep with hmem
      obtain rfl : listener.dispatch entry back cursor = next := Option.some.inj hstep
      exact view_dispatch hbase hmem back cursor

end SensorMouse.ButtonEventListener
