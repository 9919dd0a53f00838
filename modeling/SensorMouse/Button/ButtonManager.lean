import SensorMouse.Button.ButtonEventListener
import SensorMouse.Lib.Run

/-!
# The button, its listener and its thread

`ButtonManager` owns the overlay button, the listener and the injecting thread. A callback of the
listener runs on the main thread up to its end; the pushes it makes are `offer` and `notify` steps
between which the injecting thread may run, and the main thread does nothing else until they are done.
-/

namespace SensorMouse

open Java Lib

namespace ButtonManager

/-- The side of the screen, `params.gravity`; the top is part of both. -/
inductive Gravity where
  | left
  | right
  deriving DecidableEq, Repr

/-- The calls on the window manager. -/
inductive Call where
  | addView
  | removeView
  | updateViewLayout (gravity : Gravity)
  deriving DecidableEq, Repr

end ButtonManager

/-- `handler` holds the messages of `ButtonManager.handler`; `unoffered` are the pushes, each with its
action and point, that the main thread has still to offer. -/
structure ButtonManager where
  alreadyAdded : Bool := false
  gravity : ButtonManager.Gravity := .left
  eventHandler : EventQueueHandler := {}
  buttonEventListener : ButtonEventListener := {}
  handler : DelayQueue Int := {}
  unoffered : List (Int × Int × Int) := []
  calls : List ButtonManager.Call := []
  deriving DecidableEq, Repr

namespace ButtonManager

def call (manager : ButtonManager) (made : Call) : ButtonManager :=
  { manager with calls := manager.calls ++ [made] }

def startButton (manager : ButtonManager) : ButtonManager :=
  let manager :=
    if manager.alreadyAdded then manager
    else { manager with alreadyAdded := true, eventHandler := {} }.call .addView
  { manager with buttonEventListener := {} }

def stopButton (manager : ButtonManager) : ButtonManager :=
  if manager.alreadyAdded then
    let manager := { manager with alreadyAdded := false }.call .removeView
    { manager with eventHandler := { manager.eventHandler with goon := false } }
  else manager

/-- `handler.handleMessage`. -/
def handleMessage (manager : ButtonManager) (what : Int) : ButtonManager :=
  if what = EventQueueHandler.sendB2Left then
    { manager with
      buttonEventListener := manager.buttonEventListener.setRight false
      gravity := .right }.call (.updateViewLayout .right)
  else if what = EventQueueHandler.sendB2Right then
    { manager with
      buttonEventListener := manager.buttonEventListener.setRight true
      gravity := .left }.call (.updateViewLayout .left)
  else manager

/-! ### The threads -/

inductive Event where
  | listener (event : ButtonEventListener.Event)
  /-- The main thread offers its next push; `now` is its reading of `uptimeMillis`. -/
  | offer (now : Int)
  | notify
  | consume (now : Int)
  | handleMessage (entry : Entry Int)
  | stopButton
  deriving DecidableEq, Repr

/-- The main thread is not in the middle of a push. -/
def Idle (manager : ButtonManager) : Prop :=
  manager.unoffered = [] ∧ manager.eventHandler.owedNotifies = 0

instance (manager : ButtonManager) : Decidable manager.Idle := inferInstanceAs (Decidable (_ ∧ _))

def pushOf : ButtonEventListener.Call → Option (Int × Int × Int)
  | .pushMotionEvent action x y => some (action, x, y)
  | _ => none

/-- A callback of the listener has run; what it pushed is still to be offered. -/
def heard (manager : ButtonManager) (next : ButtonEventListener) : ButtonManager :=
  { manager with
    buttonEventListener := next
    unoffered := manager.unoffered ++
      (next.calls.drop manager.buttonEventListener.calls.length).filterMap pushOf }

def messageOf : EventQueueHandler.Injection → Option Int
  | .sendEmptyMessage what => some what
  | _ => none

/-- The injecting thread has made a step; the messages it sent wait in `handler`. -/
def injected (manager : ButtonManager) (next : EventQueueHandler) : ButtonManager :=
  { manager with
    eventHandler := next
    handler := ((next.injected.drop manager.eventHandler.injected.length).filterMap
      messageOf).foldl (fun queue what => queue.post what 0) manager.handler }

def advance (manager : ButtonManager) (elapsed : Nat) : ButtonManager :=
  { manager with
    buttonEventListener := { manager.buttonEventListener with
      handler := manager.buttonEventListener.handler.advance elapsed }
    handler := manager.handler.advance elapsed }

/-- One step with no assumption on which pending entry is dispatched, or when. -/
def step (manager : ButtonManager) : Event → Option ButtonManager
  | .listener (.tick elapsed) => some (manager.advance elapsed)
  | .listener event =>
      if manager.Idle then (manager.buttonEventListener.step event).map manager.heard else none
  | .offer now =>
      match manager.unoffered with
      | (action, x, y) :: rest =>
          if manager.eventHandler.owedNotifies = 0 then
            (manager.eventHandler.step (.offer now action x y)).map fun next =>
              { manager with eventHandler := next, unoffered := rest }
          else none
      | [] => none
  | .notify => (manager.eventHandler.step .notify).map fun next =>
      { manager with eventHandler := next }
  | .consume now => (manager.eventHandler.step (.consume now)).map manager.injected
  | .handleMessage entry =>
      if manager.Idle ∧ entry ∈ manager.handler.pending then
        some ({ manager with handler := manager.handler.take entry }.handleMessage entry.item)
      else none
  | .stopButton => if manager.Idle then some manager.stopButton else none

/-- What a step can do, with the condition under which it can. -/
inductive Stepped (manager : ButtonManager) : Event → ButtonManager → Prop where
  | tick (elapsed : Nat) : Stepped manager (.listener (.tick elapsed)) (manager.advance elapsed)
  | heard {event : ButtonEventListener.Event} {listener : ButtonEventListener}
      (hidle : manager.Idle) (hstep : manager.buttonEventListener.step event = some listener) :
      Stepped manager (.listener event) (manager.heard listener)
  | offer {now action x y : Int} {rest : List (Int × Int × Int)} {handler : EventQueueHandler}
      (hunoffered : manager.unoffered = (action, x, y) :: rest)
      (howed : manager.eventHandler.owedNotifies = 0)
      (hstep : manager.eventHandler.step (.offer now action x y) = some handler) :
      Stepped manager (.offer now) { manager with eventHandler := handler, unoffered := rest }
  | notify {handler : EventQueueHandler}
      (hstep : manager.eventHandler.step .notify = some handler) :
      Stepped manager .notify { manager with eventHandler := handler }
  | consume {now : Int} {handler : EventQueueHandler}
      (hstep : manager.eventHandler.step (.consume now) = some handler) :
      Stepped manager (.consume now) (manager.injected handler)
  | handleMessage {entry : Entry Int} (hidle : manager.Idle)
      (hpending : entry ∈ manager.handler.pending) :
      Stepped manager (.handleMessage entry)
        ({ manager with handler := manager.handler.take entry }.handleMessage entry.item)
  | stopButton (hidle : manager.Idle) : Stepped manager .stopButton manager.stopButton

theorem stepped_of_step {manager next : ButtonManager} {event : Event}
    (hstep : manager.step event = some next) : Stepped manager event next := by
  unfold step at hstep
  cases event with
  | listener event =>
      cases event with
      | tick elapsed =>
          obtain rfl := Option.some.inj hstep
          exact .tick elapsed
      | touch | touchActionUp | dispatch =>
          obtain ⟨hidle, hmap⟩ := Option.ite_none_right_eq_some.mp hstep
          obtain ⟨listener, hlistener, rfl⟩ := Option.map_eq_some_iff.mp hmap
          exact .heard hidle hlistener
  | offer now =>
      cases hunoffered : manager.unoffered with
      | nil => simp [hunoffered] at hstep
      | cons push rest =>
          simp only [hunoffered] at hstep
          obtain ⟨howed, hmap⟩ := Option.ite_none_right_eq_some.mp hstep
          obtain ⟨handler, hhandler, rfl⟩ := Option.map_eq_some_iff.mp hmap
          exact .offer hunoffered howed hhandler
  | notify =>
      obtain ⟨handler, hhandler, rfl⟩ := Option.map_eq_some_iff.mp hstep
      exact .notify hhandler
  | consume now =>
      obtain ⟨handler, hhandler, rfl⟩ := Option.map_eq_some_iff.mp hstep
      exact .consume hhandler
  | handleMessage entry =>
      obtain ⟨⟨hidle, hpending⟩, hnext⟩ := Option.ite_none_right_eq_some.mp hstep
      obtain rfl := Option.some.inj hnext
      exact .handleMessage hidle hpending
  | stopButton =>
      obtain ⟨hidle, hnext⟩ := Option.ite_none_right_eq_some.mp hstep
      obtain rfl := Option.some.inj hnext
      exact .stopButton hidle

@[simp]
theorem buttonEventListener_stopButton (manager : ButtonManager) :
    manager.stopButton.buttonEventListener = manager.buttonEventListener := by
  unfold stopButton
  split_ifs
  · rfl
  · rfl

/-- Handling a message leaves the listener's calls and pending work, the thread and the pushes alone. -/
theorem handleMessage_frame (manager : ButtonManager) (what : Int) :
    ∃ right, (manager.handleMessage what).buttonEventListener =
        manager.buttonEventListener.setRight right ∧
      (manager.handleMessage what).eventHandler = manager.eventHandler ∧
      (manager.handleMessage what).unoffered = manager.unoffered ∧
      (manager.handleMessage what).alreadyAdded = manager.alreadyAdded := by
  unfold handleMessage
  split_ifs
  · exact ⟨false, rfl, rfl, rfl, rfl⟩
  · exact ⟨true, rfl, rfl, rfl, rfl⟩
  · exact ⟨manager.buttonEventListener.isRight, rfl, rfl, rfl, rfl⟩

end ButtonManager

end SensorMouse
