import SensorMouse.Android

/-!
# The injecting thread

`pushMotionEvent` puts an event into the queue and then notifies; the consumer thread takes events
out and hands them to `Instrumentation`. Producer and consumer are cut into their atomic steps:
`offer` and `notify` are two steps of one push, and the consumer's position in `run` is a
`ControlPoint`. A `notify` wakes a consumer that is in `wait()` and is lost otherwise.
-/

namespace SensorMouse

open Android

namespace EventQueueHandler

def sendZoom : Int := -101
def sendPinch : Int := -102
def sendB2Left : Int := -103
def sendB2Right : Int := -104

/-! ### The two-finger gesture -/

def zoomPointers (sameX downY1 downY2 : Int) : List Pointer :=
  [⟨0, MotionEvent.toolTypeFinger, sameX, downY1, 1, 1⟩,
    ⟨1, MotionEvent.toolTypeFinger, sameX, downY2, 1, 1⟩]

/-- The `for` loop of `generateZoomGesture`: the events it sends, then the values it leaves in
`eventTime`, `downY1` and `downY2`. -/
def zoomMoves (direction downTime : Int) :
    Nat → (eventTime downY1 downY2 : Int) → List MotionEvent × Int × Int × Int
  | 0, eventTime, downY1, downY2 => ([], eventTime, downY1, downY2)
  | count + 1, eventTime, downY1, downY2 =>
      let eventTime := eventTime + 10
      let downY1 := downY1 - 10 * direction
      let downY2 := downY2 + 10 * direction
      let (events, final) := zoomMoves direction downTime count eventTime downY1 downY2
      (MotionEvent.obtainPointers downTime eventTime MotionEvent.actionMove 2
        (zoomPointers 150 downY1 downY2) :: events, final)

/-- The events `generateZoomGesture` sends, in order; `now` is its reading of `uptimeMillis`. -/
def generateZoomGesture (direction now : Int) : List MotionEvent :=
  let downTime := now
  let downY1 := 150 + direction * 50
  let downY2 := 300 - direction * 50
  let first := zoomPointers 150 downY1 downY2
  let (moves, eventTime, lastY1, lastY2) := zoomMoves direction downTime 10 downTime downY1 downY2
  -- the fingers are lifted one step back from where they were moved to
  let last := zoomPointers 150 (lastY1 + 10 * direction) (lastY2 - 10 * direction)
  let eventTime := eventTime + 10
  [MotionEvent.obtainPointers downTime downTime MotionEvent.actionDown 1 first,
    MotionEvent.obtainPointers downTime downTime MotionEvent.actionPointer2Down 2 first] ++
  moves ++
  [MotionEvent.obtainPointers downTime eventTime MotionEvent.actionPointer2Up 2 last,
    MotionEvent.obtainPointers downTime eventTime MotionEvent.actionUp 1 last]

theorem length_zoomMoves (direction downTime : Int) (count : Nat) (eventTime downY1 downY2 : Int) :
    (zoomMoves direction downTime count eventTime downY1 downY2).1.length = count := by
  induction count generalizing eventTime downY1 downY2 with
  | zero => rfl
  | succ count ih => simp [zoomMoves, ih]

theorem length_generateZoomGesture (direction now : Int) :
    (generateZoomGesture direction now).length = 14 := by
  simp [generateZoomGesture, length_zoomMoves]

/-! ### The thread -/

inductive ControlPoint where
  | testGoon
  | testSize
  | enterWait
  | waiting
  | notified
  | retestSize
  | poll
  | dispatch (event : MotionEvent)
  | gesture (unsent : List MotionEvent)
  | exited
  deriving DecidableEq, Repr

/-- What the consumer does to the outside: calls on `Instrumentation`, and messages posted to
`ButtonManager.handler`. -/
inductive Injection where
  | sendPointerSync (event : MotionEvent)
  | sendKeyDownUpSync (key : Int)
  | sendEmptyMessage (what : Int)
  deriving DecidableEq, Repr

end EventQueueHandler

/-- `owedNotifies` counts the pushes that have offered their event and not yet notified; `pushed`
and `injected` are the histories of both sides. -/
structure EventQueueHandler where
  queue : List MotionEvent := []
  goon : Bool := true
  owedNotifies : Nat := 0
  control : EventQueueHandler.ControlPoint := .testGoon
  pushed : List MotionEvent := []
  injected : List EventQueueHandler.Injection := []
  deriving DecidableEq, Repr

namespace EventQueueHandler

inductive Step where
  /-- `pushMotionEvent` up to `queue.offer`; `now` is its reading of `uptimeMillis`. -/
  | offer (now action x y : Int)
  | notify
  | stopThread
  /-- The next atomic step of the consumer; `now` is the clock, which only a gesture reads. -/
  | consume (now : Int)
  deriving DecidableEq, Repr

def offer (handler : EventQueueHandler) (event : MotionEvent) : EventQueueHandler :=
  { handler with
    queue := handler.queue ++ [event]
    owedNotifies := handler.owedNotifies + 1
    pushed := handler.pushed ++ [event] }

def notify (handler : EventQueueHandler) : Option EventQueueHandler :=
  match handler.owedNotifies with
  | 0 => none
  | owed + 1 => some
      { handler with
        owedNotifies := owed
        control := if handler.control = .waiting then .notified else handler.control }

def inject (handler : EventQueueHandler) (injection : Injection) : EventQueueHandler :=
  { handler with injected := handler.injected ++ [injection], control := .testGoon }

/-- The body of `run` once an event is in hand. -/
def dispatch (handler : EventQueueHandler) (event : MotionEvent) (now : Int) : EventQueueHandler :=
  if 0 ≤ event.action then
    handler.inject (.sendPointerSync event)
  else if event.action = sendZoom then
    { handler with control := .gesture (generateZoomGesture 1 now) }
  else if event.action = sendPinch then
    { handler with control := .gesture (generateZoomGesture (-1) now) }
  else if event.action = sendB2Left then
    handler.inject (.sendEmptyMessage sendB2Left)
  else if event.action = sendB2Right then
    handler.inject (.sendEmptyMessage sendB2Right)
  else
    handler.inject (.sendKeyDownUpSync (-event.action))

def consume (handler : EventQueueHandler) (now : Int) : Option EventQueueHandler :=
  match handler.control with
  | .testGoon => some { handler with control := if handler.goon then .testSize else .exited }
  | .testSize =>
      some { handler with control := if handler.queue.length = 0 then .enterWait else .retestSize }
  | .enterWait => some { handler with control := .waiting }
  | .waiting => none
  | .notified => some { handler with control := .retestSize }
  | .retestSize =>
      some { handler with control := if handler.queue.length = 0 then .testGoon else .poll }
  | .poll =>
      match handler.queue with
      | [] => none
      | event :: rest => some { handler with queue := rest, control := .dispatch event }
  | .dispatch event => some (handler.dispatch event now)
  | .gesture [] => some { handler with control := .testGoon }
  | .gesture (event :: unsent) =>
      some { handler with
        injected := handler.injected ++ [.sendPointerSync event]
        control := .gesture unsent }
  | .exited => none

def step (handler : EventQueueHandler) : Step → Option EventQueueHandler
  | .offer now action x y => some (handler.offer (MotionEvent.obtainSingle now now action x y))
  | .notify => handler.notify
  | .stopThread => some { handler with goon := false }
  | .consume now => handler.consume now

/-- What a step can do, with the condition under which it can. -/
inductive Stepped (handler : EventQueueHandler) : Step → EventQueueHandler → Prop where
  | offer (now action x y : Int) : Stepped handler (.offer now action x y)
      (handler.offer (MotionEvent.obtainSingle now now action x y))
  | notify {owed : Nat} (howed : handler.owedNotifies = owed + 1) :
      Stepped handler .notify { handler with
        owedNotifies := owed
        control := if handler.control = .waiting then .notified else handler.control }
  | stopThread : Stepped handler .stopThread { handler with goon := false }
  | testGoon (now : Int) (hcontrol : handler.control = .testGoon) : Stepped handler (.consume now)
      { handler with control := if handler.goon then .testSize else .exited }
  | testSize (now : Int) (hcontrol : handler.control = .testSize) : Stepped handler (.consume now)
      { handler with control := if handler.queue.length = 0 then .enterWait else .retestSize }
  | enterWait (now : Int) (hcontrol : handler.control = .enterWait) :
      Stepped handler (.consume now) { handler with control := .waiting }
  | notified (now : Int) (hcontrol : handler.control = .notified) :
      Stepped handler (.consume now) { handler with control := .retestSize }
  | retestSize (now : Int) (hcontrol : handler.control = .retestSize) :
      Stepped handler (.consume now)
        { handler with control := if handler.queue.length = 0 then .testGoon else .poll }
  | poll (now : Int) {event : MotionEvent} {rest : List MotionEvent}
      (hcontrol : handler.control = .poll) (hqueue : handler.queue = event :: rest) :
      Stepped handler (.consume now) { handler with queue := rest, control := .dispatch event }
  | dispatch (now : Int) {event : MotionEvent} (hcontrol : handler.control = .dispatch event) :
      Stepped handler (.consume now) (handler.dispatch event now)
  | endGesture (now : Int) (hcontrol : handler.control = .gesture []) :
      Stepped handler (.consume now) { handler with control := .testGoon }
  | gesture (now : Int) {event : MotionEvent} {unsent : List MotionEvent}
      (hcontrol : handler.control = .gesture (event :: unsent)) :
      Stepped handler (.consume now) { handler with
        injected := handler.injected ++ [.sendPointerSync event]
        control := .gesture unsent }

theorem stepped_of_consume {handler next : EventQueueHandler} {now : Int}
    (hconsume : handler.consume now = some next) : Stepped handler (.consume now) next := by
  unfold consume at hconsume
  cases hcontrol : handler.control with
  | waiting | exited => simp [hcontrol] at hconsume
  | testGoon =>
      simp only [hcontrol] at hconsume
      obtain rfl := Option.some.inj hconsume
      exact .testGoon now hcontrol
  | testSize =>
      simp only [hcontrol] at hconsume
      obtain rfl := Option.some.inj hconsume
      exact .testSize now hcontrol
  | enterWait =>
      simp only [hcontrol] at hconsume
      obtain rfl := Option.some.inj hconsume
      exact .enterWait now hcontrol
  | notified =>
      simp only [hcontrol] at hconsume
      obtain rfl := Option.some.inj hconsume
      exact .notified now hcontrol
  | retestSize =>
      simp only [hcontrol] at hconsume
      obtain rfl := Option.some.inj hconsume
      exact .retestSize now hcontrol
  | poll =>
      simp only [hcontrol] at hconsume
      cases hqueue : handler.queue with
      | nil => simp [hqueue] at hconsume
      | cons event rest =>
          simp only [hqueue] at hconsume
          obtain rfl := Option.some.inj hconsume
          exact .poll now hcontrol hqueue
  | dispatch event =>
      simp only [hcontrol] at hconsume
      obtain rfl := Option.some.inj hconsume
      exact .dispatch now hcontrol
  | gesture unsent =>
      cases unsent with
      | nil =>
          simp only [hcontrol] at hconsume
          obtain rfl := Option.some.inj hconsume
          exact .endGesture now hcontrol
      | cons event unsent =>
          simp only [hcontrol] at hconsume
          obtain rfl := Option.some.inj hconsume
          exact .gesture now hcontrol

theorem stepped_of_step {handler next : EventQueueHandler} {label : Step}
    (hstep : handler.step label = some next) : Stepped handler label next := by
  cases label with
  | offer now action x y =>
      obtain rfl := Option.some.inj hstep
      exact .offer now action x y
  | notify =>
      unfold step notify at hstep
      cases howed : handler.owedNotifies with
      | zero => simp [howed] at hstep
      | succ owed =>
          simp only [howed] at hstep
          obtain rfl := Option.some.inj hstep
          exact .notify howed
  | stopThread =>
      obtain rfl := Option.some.inj hstep
      exact .stopThread
  | consume now => exact stepped_of_consume hstep

end EventQueueHandler

end SensorMouse
