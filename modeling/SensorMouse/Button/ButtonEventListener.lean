import Mathlib.Data.Rat.Defs
import Mathlib.Algebra.Order.Ring.Rat
import Mathlib.Algebra.Order.Group.Abs
import SensorMouse.Android
import SensorMouse.Java
import SensorMouse.Lib.DelayQueue
import SensorMouse.Button.EventQueueHandler

/-!
# The button's listener

`onTouch`, the `TOUCH_ACTION_UP` receiver, `sendEventRunnable` and `modeHandler` share one thread and
one message queue. Each is a function on the listener's state; the calls it makes on other objects
are appended to `calls`, and what it reads from `TimeBackCompute` and `MouseManager` is an argument.
-/

namespace SensorMouse

open Android Java Lib

structure Position where
  x : Int
  y : Int
  deriving DecidableEq, Repr

namespace ButtonEventListener

inductive SendState where
  | init
  | down
  | up
  | downAndUp
  | downed
  | cancel
  | mode
  deriving DecidableEq, Repr

/-- The `STATE_*` constants, which `onReceive` compares. -/
def SendState.toInt : SendState → Int
  | .init => -1
  | .down => 0
  | .up => 1
  | .downAndUp => 2
  | .downed => 3
  | .cancel => 4
  | .mode => 10

inductive ModeFlag where
  | init
  | key
  | photo
  | b2Left
  | b2Right
  deriving DecidableEq, Repr

inductive ModeMessage where
  | start
  | move
  deriving DecidableEq, Repr

/-- What can wait in the message queue: `sendEventRunnable` and the messages of `modeHandler`. -/
inductive Callback where
  | sendEvent
  | mode (what : ModeMessage)
  deriving DecidableEq, Repr

def Callback.isSendEvent : Callback → Bool
  | .sendEvent => true
  | .mode _ => false

def Callback.isMode : Callback → Bool
  | .sendEvent => false
  | .mode _ => true

inductive Call where
  | getTimebackPosition
  | pushMotionEvent (action x y : Int)
  | lockMouseAWhile (x y : Int) (wait : Bool)
  | showToast (index : Nat)
  deriving DecidableEq, Repr

inductive TouchAction where
  | down
  | move
  | other
  deriving DecidableEq, Repr

structure TouchEvent where
  action : TouchAction
  x : ℚ
  y : ℚ
  deriving DecidableEq, Repr

def buttonMoveOffset : ℚ := 8
def modeScanDelay : Nat := 50
def modeCounterThreshold : Nat := 40
def modeMouseOffsetThreshold : Int := 60
def sendDownDelay : Nat := 100
def sendMoveDelay : Nat := 20
def dragOffset : Int := 10

end ButtonEventListener

open ButtonEventListener in
/-- `senderX` and `senderY` are the runnable's own `downX` and `downY`; `modeStateCount`, `startX` and
`startY` belong to `modeHandler`. -/
structure ButtonEventListener where
  eventSendState : SendState := .init
  modeFlag : ModeFlag := .init
  isRight : Bool := true
  pressed : Bool := false
  downX : ℚ := 0
  downY : ℚ := 0
  lengthX : ℚ := 0
  lengthY : ℚ := 0
  senderX : Int := 0
  senderY : Int := 0
  modeStateCount : Nat := 0
  startX : Int := 0
  startY : Int := 0
  handler : DelayQueue Callback := {}
  calls : List Call := []
  deriving DecidableEq, Repr

namespace ButtonEventListener

def call (listener : ButtonEventListener) (made : Call) : ButtonEventListener :=
  { listener with calls := listener.calls ++ [made] }

def pushMotionEvent (listener : ButtonEventListener) (action x y : Int) : ButtonEventListener :=
  listener.call (.pushMotionEvent action x y)

def postDelayed (listener : ButtonEventListener) (callback : Callback) (delay : Nat) :
    ButtonEventListener :=
  { listener with handler := listener.handler.post callback delay }

def setRight (listener : ButtonEventListener) (right : Bool) : ButtonEventListener :=
  { listener with isRight := right }

/-! ### `onTouch` -/

/-- The gesture a cancelled press has made by its displacement, if any. -/
def recognise (isRight : Bool) (lengthX lengthY : ℚ) : Option ModeFlag :=
  if (isRight ∧ lengthX - lengthY > 30) ∨ (¬ isRight ∧ -lengthX - lengthY > 30) then
    some .key
  else if lengthY > 50 ∧ lengthY > |lengthX| * 2 then
    some .photo
  else if |lengthX| > |lengthY| * 2 then
    if lengthX > 30 then some .b2Right
    else if lengthX < -30 ∧ |lengthY| < |lengthX| then some .b2Left
    else none
  else none

def onTouchDown (listener : ButtonEventListener) (x y : ℚ) : ButtonEventListener :=
  { listener with
    downX := x
    downY := y
    lengthX := -1
    lengthY := -1
    pressed := true
    eventSendState := .down
    modeFlag := .init }.postDelayed .sendEvent 100

/-- The first `if` of `ACTION_MOVE`: a press that moves before its runnable ran is cancelled. -/
def cancelIfMoved (listener : ButtonEventListener) : ButtonEventListener :=
  if listener.eventSendState = .down ∧
      (|listener.lengthX| > buttonMoveOffset ∨ |listener.lengthY| > buttonMoveOffset) then
    { listener with
      handler := listener.handler.remove Callback.isSendEvent
      eventSendState := .cancel }
  else listener

/-- The second `if` of `ACTION_MOVE`. -/
def startModeIfRecognised (listener : ButtonEventListener) : ButtonEventListener :=
  if listener.eventSendState = .cancel then
    match recognise listener.isRight listener.lengthX listener.lengthY with
    | some flag => { listener with modeFlag := flag }.postDelayed (.mode .start) 0
    | none => listener
  else listener

def onTouchMove (listener : ButtonEventListener) (x y : ℚ) : ButtonEventListener :=
  { listener with
    lengthX := x - listener.downX
    lengthY := y - listener.downY }.cancelIfMoved.startModeIfRecognised

def onTouch (listener : ButtonEventListener) (event : TouchEvent) : ButtonEventListener :=
  match event.action with
  | .down => listener.onTouchDown event.x event.y
  | .move => listener.onTouchMove event.x event.y
  | .other => listener

/-! ### `receiver` -/

def onReceive (listener : ButtonEventListener) : ButtonEventListener :=
  if listener.eventSendState.toInt < SendState.mode.toInt then
    { listener with
      eventSendState :=
        if listener.eventSendState = .downed then .up
        else if listener.eventSendState = .down then .downAndUp
        else listener.eventSendState
      pressed := false }
  else listener

/-! ### `sendEventRunnable` -/

/-- `Math.abs(a - b) > offset` on `int`s. -/
def movedBeyond (offset a b : Int) : Bool :=
  decide (offset < wrap |wrap (a - b)|)

/-- `back` is what `getTimebackPosition` answers, `cursor` what `getPositon` does. -/
def sendEventRunnable (listener : ButtonEventListener) (back cursor : Position) :
    ButtonEventListener :=
  match listener.eventSendState with
  | .down =>
      ({ listener with
          eventSendState := .downed
          senderX := back.x
          senderY := back.y }.call .getTimebackPosition
        |>.pushMotionEvent MotionEvent.actionDown back.x back.y
        |>.call (.lockMouseAWhile back.x (wrap (back.y - 30)) true)
        |>.postDelayed .sendEvent sendDownDelay)
  | .up =>
      { listener with eventSendState := .init }.pushMotionEvent MotionEvent.actionUp cursor.x cursor.y
  | .downAndUp =>
      ({ listener with eventSendState := .init }.pushMotionEvent MotionEvent.actionDown cursor.x cursor.y
        |>.pushMotionEvent MotionEvent.actionUp cursor.x cursor.y)
  | .downed =>
      (if movedBeyond dragOffset listener.senderX cursor.x ||
          movedBeyond dragOffset listener.senderY cursor.y then
        listener.pushMotionEvent MotionEvent.actionMove cursor.x cursor.y
      else listener).postDelayed .sendEvent sendMoveDelay
  | _ => listener

/-! ### `modeHandler` -/

/-- The key of a displacement from the start point, x before y. -/
def keyCommand (lengthX lengthY : Int) : Option Int :=
  if lengthX > modeMouseOffsetThreshold then some (-KeyEvent.keycodeHome)
  else if lengthX < -modeMouseOffsetThreshold then some (-KeyEvent.keycodeBack)
  else if lengthY > modeMouseOffsetThreshold then some (-KeyEvent.keycodeSearch)
  else if lengthY < -modeMouseOffsetThreshold then some (-KeyEvent.keycodeMenu)
  else none

def photoCommand (lengthY : Int) : Option Int :=
  if lengthY > modeMouseOffsetThreshold then some EventQueueHandler.sendPinch
  else if lengthY < -modeMouseOffsetThreshold then some EventQueueHandler.sendZoom
  else none

/-- `MODE_STATE_MOVE` of a scan, `command` being what the displacement asks for. -/
def scanMove (listener : ButtonEventListener) (command : Option Int) : ButtonEventListener :=
  let listener := { listener with modeStateCount := listener.modeStateCount + 1 }
  if listener.modeStateCount < modeCounterThreshold then
    match command with
    | some action => listener.pushMotionEvent action 0 0
    | none => listener.postDelayed (.mode .move) modeScanDelay
  else listener

def handleMessage (listener : ButtonEventListener) (what : ModeMessage) (cursor : Position) :
    ButtonEventListener :=
  let listener := { listener with eventSendState := .mode }
  match listener.modeFlag with
  | .key =>
      match what with
      | .start =>
          ({ listener with modeStateCount := 0, startX := cursor.x, startY := cursor.y }.call
            (.showToast 0)).postDelayed (.mode .move) modeScanDelay
      | .move =>
          listener.scanMove
            (keyCommand (wrap (cursor.x - listener.startX)) (wrap (cursor.y - listener.startY)))
  | .photo =>
      match what with
      | .start =>
          ({ listener with modeStateCount := 0, startY := cursor.y }.call
            (.showToast 1)).postDelayed (.mode .move) modeScanDelay
      | .move => listener.scanMove (photoCommand (wrap (cursor.y - listener.startY)))
  | .b2Left => listener.pushMotionEvent EventQueueHandler.sendB2Left 0 0
  | .b2Right => listener.pushMotionEvent EventQueueHandler.sendB2Right 0 0
  | .init => listener

section

variable {listener : ButtonEventListener}

theorem handleMessage_init (hflag : listener.modeFlag = .init) (what : ModeMessage)
    (cursor : Position) :
    listener.handleMessage what cursor = { listener with eventSendState := .mode } := by
  simp [handleMessage, hflag]

theorem handleMessage_b2Left (hflag : listener.modeFlag = .b2Left) (what : ModeMessage)
    (cursor : Position) :
    listener.handleMessage what cursor =
      { listener with eventSendState := .mode }.pushMotionEvent EventQueueHandler.sendB2Left 0 0 := by
  simp [handleMessage, hflag]

theorem handleMessage_b2Right (hflag : listener.modeFlag = .b2Right) (what : ModeMessage)
    (cursor : Position) :
    listener.handleMessage what cursor =
      { listener with
        eventSendState := .mode }.pushMotionEvent EventQueueHandler.sendB2Right 0 0 := by
  simp [handleMessage, hflag]

theorem handleMessage_key_start (hflag : listener.modeFlag = .key) (cursor : Position) :
    listener.handleMessage .start cursor =
      ({ listener with
        eventSendState := .mode
        modeStateCount := 0
        startX := cursor.x
        startY := cursor.y }.call (.showToast 0)).postDelayed (.mode .move) modeScanDelay := by
  simp [handleMessage, hflag]

theorem handleMessage_photo_start (hflag : listener.modeFlag = .photo) (cursor : Position) :
    listener.handleMessage .start cursor =
      ({ listener with
        eventSendState := .mode
        modeStateCount := 0
        startY := cursor.y }.call (.showToast 1)).postDelayed (.mode .move) modeScanDelay := by
  simp [handleMessage, hflag]

theorem handleMessage_key_move (hflag : listener.modeFlag = .key) (cursor : Position) :
    listener.handleMessage .move cursor =
      { listener with eventSendState := .mode }.scanMove
        (keyCommand (wrap (cursor.x - listener.startX)) (wrap (cursor.y - listener.startY))) := by
  simp [handleMessage, hflag]

theorem handleMessage_photo_move (hflag : listener.modeFlag = .photo) (cursor : Position) :
    listener.handleMessage .move cursor =
      { listener with eventSendState := .mode }.scanMove
        (photoCommand (wrap (cursor.y - listener.startY))) := by
  simp [handleMessage, hflag]

/-- `KEY` and `PHOTO` scan alike: what differs is the toast, the start point and the command. -/
theorem handleMessage_start (hflag : listener.modeFlag = .key ∨ listener.modeFlag = .photo)
    (cursor : Position) :
    ∃ toast startX startY, listener.handleMessage .start cursor =
      ({ listener with
        eventSendState := .mode
        modeStateCount := 0
        startX := startX
        startY := startY }.call (.showToast toast)).postDelayed (.mode .move) modeScanDelay := by
  rcases hflag with hflag | hflag
  · exact ⟨0, cursor.x, cursor.y, handleMessage_key_start hflag cursor⟩
  · exact ⟨1, listener.startX, cursor.y, handleMessage_photo_start hflag cursor⟩

theorem handleMessage_move (hflag : listener.modeFlag = .key ∨ listener.modeFlag = .photo)
    (cursor : Position) :
    ∃ lengthX lengthY, listener.handleMessage .move cursor =
      { listener with eventSendState := .mode }.scanMove
        (if listener.modeFlag = ModeFlag.key then keyCommand lengthX lengthY
          else photoCommand lengthY) := by
  refine ⟨wrap (cursor.x - listener.startX), wrap (cursor.y - listener.startY), ?_⟩
  rcases hflag with hflag | hflag
  · rw [handleMessage_key_move hflag, if_pos hflag]
  · rw [handleMessage_photo_move hflag, if_neg (by rw [hflag]; decide)]

end

/-! ### The thread -/

inductive Event where
  | touch (event : TouchEvent)
  | touchActionUp
  | tick (elapsed : Nat)
  /-- The message queue dispatches `entry`; `back` and `cursor` are the positions it may read. -/
  | dispatch (entry : Entry Callback) (back cursor : Position)
  deriving DecidableEq, Repr

def Event.IsPress : Event → Prop
  | .touch event => event.action = .down
  | _ => False

instance : (event : Event) → Decidable event.IsPress
  | .touch event => inferInstanceAs (Decidable (event.action = .down))
  | .touchActionUp => inferInstanceAs (Decidable False)
  | .tick _ => inferInstanceAs (Decidable False)
  | .dispatch .. => inferInstanceAs (Decidable False)

def runCallback (listener : ButtonEventListener) (back cursor : Position) :
    Callback → ButtonEventListener
  | .sendEvent => listener.sendEventRunnable back cursor
  | .mode what => listener.handleMessage what cursor

def dispatch (listener : ButtonEventListener) (entry : Entry Callback) (back cursor : Position) :
    ButtonEventListener :=
  { listener with handler := listener.handler.take entry }.runCallback back cursor entry.item

/-- One step with no assumption on which pending entry is dispatched, or when. -/
def step (listener : ButtonEventListener) : Event → Option ButtonEventListener
  | .touch event => some (listener.onTouch event)
  | .touchActionUp => some listener.onReceive
  | .tick elapsed => some { listener with handler := listener.handler.advance elapsed }
  | .dispatch entry back cursor =>
      if entry ∈ listener.handler.pending then some (listener.dispatch entry back cursor) else none

/-- The same thread, dispatching no entry before its due time and the earliest due time first. -/
def timedStep (listener : ButtonEventListener) : Event → Option ButtonEventListener
  | .dispatch entry back cursor =>
      if listener.handler.IsNext entry then some (listener.dispatch entry back cursor) else none
  | event => listener.step event

theorem step_of_timedStep {listener next : ButtonEventListener} {event : Event}
    (hstep : listener.timedStep event = some next) : listener.step event = some next := by
  cases event with
  | touch event => exact hstep
  | touchActionUp => exact hstep
  | tick elapsed => exact hstep
  | dispatch entry back cursor =>
      simp only [timedStep] at hstep
      split_ifs at hstep with hnext
      simp only [step, hnext.1, ↓reduceIte]
      exact hstep

end ButtonEventListener

end SensorMouse
