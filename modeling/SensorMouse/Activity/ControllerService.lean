import SensorMouse.Button.ButtonManager
import SensorMouse.Mouse.MouseManager
import SensorMouse.Mouse.TimeBackCompute

/-!
# One service

`ControllerService` from `onStartCommand` on: the cursor, the button with its listener and injecting
thread, and the sampling thread, on one clock. What the listener asks of the others is done as the
callback that asks it runs. An exception ends the process, and the state is kept as it was thrown.
-/

namespace SensorMouse

open Java Lib

/-- The extras of the intent; each may be missing. -/
structure Intent (F : Type) where
  averageNum : Option Int := none
  magnification : Option F := none
  offset : Option Int := none
  direction : Option Int := none
  timeunit : Option Int := none
  backtime : Option Int := none
  timewait : Option Int := none

structure ControllerService (F : Type) where
  mouseManager : MouseManager F
  buttonManager : ButtonManager
  sampler : Sampler
  thrown : Option JavaException := none

namespace ControllerService

variable {F : Type} [JavaFloat F]

/-- The first `onStartCommand` of a service; the display answers `screenWidth` and `screenHeight`. -/
def onStartCommand (screenWidth screenHeight : Int) (intent : Intent F) :
    Except JavaException (ControllerService F) := do
  let averageNum := intent.averageNum.getD 10
  let magnification := intent.magnification.getD ((1 : Int) : F)
  let offset := intent.offset.getD 1
  let direction := intent.direction.getD 1
  let timeunit := intent.timeunit.getD 1
  let backtime := intent.backtime.getD 1000
  let timewait := intent.timewait.getD 1000
  let mouseManager ← MouseManager.create screenWidth screenHeight averageNum magnification offset
    direction timeunit backtime timewait
  let mouseManager := mouseManager.startMouse
  let timebackCompute ← TimeBackCompute.create mouseManager.timeUnit mouseManager.backtime
  pure {
    mouseManager := mouseManager
    buttonManager := ({} : ButtonManager).startButton
    sampler := { compute := timebackCompute } }

def onDestroy (service : ControllerService F) : ControllerService F :=
  { service with
    mouseManager := service.mouseManager.stopMouse
    buttonManager := service.buttonManager.stopButton }

def throws (service : ControllerService F) (thrown : JavaException) : ControllerService F :=
  { service with thrown := some thrown }

/-- What `getPositon` answers. -/
def cursor (service : ControllerService F) : Position :=
  let position := service.mouseManager.getPositon
  ⟨position.1, position.2⟩

/-- A call the listener makes on the cursor. The lock has moved the cursor when its timer throws. -/
def obey (service : ControllerService F) : ButtonEventListener.Call → ControllerService F
  | .lockMouseAWhile x y wait =>
      match service.mouseManager.lockMouseAWhile x y wait with
      | .ok mouse => { service with mouseManager := mouse }
      | .error thrown =>
          { service with mouseManager := service.mouseManager.updateMousePosition x y }.throws thrown
  | _ => service

/-- The button has made a step; the calls its listener made are obeyed in order. -/
def follow (service : ControllerService F) (manager : ButtonManager) : ControllerService F :=
  (manager.buttonEventListener.calls.drop
      service.buttonManager.buttonEventListener.calls.length).foldl obey
    { service with buttonManager := manager }

def stepButton (service : ControllerService F) (event : ButtonManager.Event) :
    Option (ControllerService F) :=
  (service.buttonManager.step event).map service.follow

/-- `sendEventRunnable` looks back only in state `DOWN`. -/
def LooksBack (service : ControllerService F) (entry : Entry ButtonEventListener.Callback) : Prop :=
  entry.item = .sendEvent ∧ service.buttonManager.buttonEventListener.eventSendState = .down

instance (service : ControllerService F) (entry : Entry ButtonEventListener.Callback) :
    Decidable (service.LooksBack entry) := inferInstanceAs (Decidable (_ ∧ _))

def dispatch (service : ControllerService F) (entry : Entry ButtonEventListener.Callback) :
    Option (ControllerService F) :=
  if service.LooksBack entry then
    match service.sampler.compute.getTimebackPosition with
    | .ok (back, compute) =>
        { service with sampler := { service.sampler with compute := compute } }.stepButton
          (.listener (.dispatch entry ⟨back.1, back.2⟩ service.cursor))
    | .error thrown =>
        if service.buttonManager.Idle ∧
            entry ∈ service.buttonManager.buttonEventListener.handler.pending then
          some (service.throws thrown)
        else none
  else service.stepButton (.listener (.dispatch entry service.cursor service.cursor))

def advance (service : ControllerService F) (elapsed : Nat) : ControllerService F :=
  { service with
    mouseManager := { service.mouseManager with
      timers := service.mouseManager.timers.advance elapsed }
    buttonManager := service.buttonManager.advance elapsed }

/-! ### The threads -/

inductive Event (F : Type) where
  | touch (event : ButtonEventListener.TouchEvent)
  | touchActionUp
  | dispatch (entry : Entry ButtonEventListener.Callback)
  | handleMessage (entry : Entry Int)
  | offer (now : Int)
  | notify
  | consume (now : Int)
  | sensorCallback (isPortrait : Bool) (x y z : F)
  | unlock (entry : Entry Unit)
  /-- The next statement of the sampling thread. -/
  | sample
  | tick (elapsed : Nat)
  | onDestroy

def perform (service : ControllerService F) : Event F → Option (ControllerService F)
  | .touch event => service.stepButton (.listener (.touch event))
  | .touchActionUp => service.stepButton (.listener .touchActionUp)
  | .dispatch entry => service.dispatch entry
  | .handleMessage entry => service.stepButton (.handleMessage entry)
  | .offer now => service.stepButton (.offer now)
  | .notify => service.stepButton .notify
  | .consume now => service.stepButton (.consume now)
  | .sensorCallback isPortrait x y z =>
      if service.buttonManager.Idle then
        match service.mouseManager.sensorCallback isPortrait x y z with
        | .ok mouse => some { service with mouseManager := mouse }
        | .error thrown => some (service.throws thrown)
      else none
  | .unlock entry =>
      if entry ∈ service.mouseManager.timers.pending then
        some { service with mouseManager := service.mouseManager.unlock entry }
      else none
  | .sample =>
      match service.sampler.statement service.mouseManager.getPositon with
      | .ok sampler => some { service with sampler := sampler }
      | .error thrown => some (service.throws thrown)
  | .tick elapsed => some (service.advance elapsed)
  | .onDestroy => if service.buttonManager.Idle then some service.onDestroy else none

/-- One step with no assumption on when pending work runs. -/
def step (service : ControllerService F) (event : Event F) : Option (ControllerService F) :=
  if service.thrown.isSome then none else service.perform event

/-- Pending work runs when it is due, and in the order of its due times in each queue. -/
def Timely (service : ControllerService F) : Event F → Prop
  | .dispatch entry => service.buttonManager.buttonEventListener.handler.IsNext entry
  | .handleMessage entry => service.buttonManager.handler.IsNext entry
  | .unlock entry => entry.due ≤ service.mouseManager.timers.now
  | _ => True

instance decidableTimely (service : ControllerService F) :
    (event : Event F) → Decidable (service.Timely event)
  | .dispatch entry =>
      inferInstanceAs (Decidable (service.buttonManager.buttonEventListener.handler.IsNext entry))
  | .handleMessage entry => inferInstanceAs (Decidable (service.buttonManager.handler.IsNext entry))
  | .unlock _ => inferInstanceAs (Decidable (_ ≤ _))
  | .touch _ | .touchActionUp | .offer _ | .notify | .consume _ | .sensorCallback _ _ _ _ | .sample
  | .tick _ | .onDestroy => isTrue trivial

end ControllerService

end SensorMouse
