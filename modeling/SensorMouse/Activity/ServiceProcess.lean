import SensorMouse.Activity.ControllerService

/-!
# The process of the service

Every `startService` after a `stopService` makes a new `ControllerService`; what an older one has not
given back stays in the process. Shared by all of them are the static `MouseManager.isPortrait`, which
only `onConfigurationChanged` writes, and the static reference to the latest instance.
-/

namespace SensorMouse

open Java Lib

/-- One launch; `receiver` is whether its `TOUCH_ACTION_UP` receiver is registered. -/
structure Launched (F : Type) where
  service : ControllerService F
  receiver : Bool := true

/-- `instances` are in the order of their launches, and `running` says whether the latest one runs.
`portrait` is how the device is held, and `display` is the display's size when it is held upright. -/
structure ServiceProcess (F : Type) where
  portrait : Bool
  display : Int × Int
  isPortrait : Bool := true
  instances : List (Launched F) := []
  running : Bool := false

namespace ServiceProcess

variable {F : Type} [JavaFloat F]

def screenWidth (process : ServiceProcess F) : Int :=
  if process.portrait then process.display.1 else process.display.2

def screenHeight (process : ServiceProcess F) : Int :=
  if process.portrait then process.display.2 else process.display.1

/-- The main thread is not in the middle of a push. -/
def Idle (process : ServiceProcess F) : Prop :=
  ∀ launched ∈ process.instances, launched.service.buttonManager.Idle

instance (process : ServiceProcess F) : Decidable process.Idle :=
  inferInstanceAs (Decidable (∀ launched ∈ _, _))

def setPortrait (process : ServiceProcess F) (p : Bool) : ServiceProcess F :=
  { process with isPortrait := p }

/-- `ControllerService.onConfigurationChanged`; the orientation is the device's. -/
def onConfigurationChanged (process : ServiceProcess F) : ServiceProcess F :=
  process.setPortrait process.portrait

/-- `stopService`: `onDestroy` of the running instance, if any. -/
def stopService (process : ServiceProcess F) : ServiceProcess F :=
  if process.running then
    { process with
      instances := process.instances.modify (process.instances.length - 1) fun launched =>
        { launched with service := launched.service.onDestroy }
      running := false }
  else process

/-- `startService` with no service running. -/
def startService (process : ServiceProcess F) (intent : Intent F) :
    Except JavaException (ServiceProcess F) := do
  let service ← ControllerService.onStartCommand process.screenWidth process.screenHeight intent
  pure { process with instances := process.instances ++ [{ service := service }], running := true }

/-! ### Runs -/

inductive Event (F : Type) where
  | launch (intent : Intent F)
  | stopService
  | rotate
  | onConfigurationChanged
  /-- A sensor event reaches the listener of one instance. -/
  | onSensorChanged (i : Nat) (x y z : F)
  /-- One instance does something else. -/
  | own (i : Nat) (event : ControllerService.Event F)
  | tick (elapsed : Nat)
  /-- The platform unregisters the receivers of an instance that has been destroyed. -/
  | unregisterReceiver (i : Nat)
  /-- The collector finalizes the listener of an instance. -/
  | finalize (i : Nat)

/-- The steps an instance makes by itself. -/
def IsOwn : ControllerService.Event F → Prop
  | .sensorCallback _ _ _ _ | .tick _ | .onDestroy => False
  | _ => True

instance : (event : ControllerService.Event F) → Decidable (IsOwn event)
  | .sensorCallback _ _ _ _ | .tick _ | .onDestroy => isFalse id
  | .touch _ | .touchActionUp | .dispatch _ | .handleMessage _ | .offer _ | .notify | .consume _
  | .unlock _ | .sample => isTrue trivial

/-- The steps that are callbacks on the main thread. -/
def IsCallback : ControllerService.Event F → Prop
  | .touch _ | .touchActionUp | .dispatch _ | .handleMessage _ => True
  | _ => False

instance : (event : ControllerService.Event F) → Decidable (IsCallback event)
  | .touch _ | .touchActionUp | .dispatch _ | .handleMessage _ => isTrue trivial
  | .sensorCallback _ _ _ _ | .tick _ | .onDestroy | .offer _ | .notify | .consume _ | .unlock _
  | .sample => isFalse id

def stepInstance (process : ServiceProcess F) (i : Nat) (event : ControllerService.Event F) :
    Option (ServiceProcess F) :=
  match process.instances[i]? with
  | some launched => (launched.service.step event).map fun next =>
      { process with instances := process.instances.set i { launched with service := next } }
  | none => none

/-- Something still refers to the listener: the static reference to the latest instance, the registered
receiver, the injecting thread, or a callback that waits on the main thread. -/
def Refers (process : ServiceProcess F) (i : Nat) (launched : Launched F) : Prop :=
  i + 1 = process.instances.length ∨ launched.receiver = true ∨
    launched.service.buttonManager.eventHandler.control ≠ .exited ∨
    launched.service.buttonManager.buttonEventListener.handler.pending ≠ [] ∨
    launched.service.buttonManager.handler.pending ≠ []

instance (process : ServiceProcess F) (i : Nat) (launched : Launched F) :
    Decidable (process.Refers i launched) := inferInstanceAs (Decidable (_ ∨ _ ∨ _ ∨ _ ∨ _))

/-- `ButtonEventListener.finalize`. -/
def finalized (service : ControllerService F) : ControllerService F :=
  { service with
    sampler := { service.sampler with compute := service.sampler.compute.stopTimeBackCompute } }

def perform (process : ServiceProcess F) : Event F → Option (ServiceProcess F)
  | .launch intent =>
      if process.Idle then (process.stopService.startService intent).toOption else none
  | .stopService => if process.Idle then some process.stopService else none
  | .rotate => some { process with portrait := !process.portrait }
  | .onConfigurationChanged =>
      if process.running = true ∧ process.Idle then some process.onConfigurationChanged else none
  | .onSensorChanged i x y z =>
      if process.Idle then process.stepInstance i (.sensorCallback process.isPortrait x y z) else none
  | .own i event =>
      if IsOwn event ∧ (IsCallback event → process.Idle) then process.stepInstance i event else none
  | .tick elapsed =>
      some { process with instances := process.instances.map fun launched =>
        { launched with service := launched.service.advance elapsed } }
  | .unregisterReceiver i =>
      if i + 1 < process.instances.length ∨ process.running = false then
        some { process with instances := process.instances.modify i fun launched =>
          { launched with receiver := false } }
      else none
  | .finalize i =>
      match process.instances[i]? with
      | some launched =>
          if process.Refers i launched then none
          else some { process with
            instances := process.instances.set i
              { launched with service := finalized launched.service } }
      | none => none

/-- An exception anywhere ends the process. -/
def step (process : ServiceProcess F) (event : Event F) : Option (ServiceProcess F) :=
  if process.instances.any fun launched => launched.service.thrown.isSome then none
  else process.perform event

end ServiceProcess

end SensorMouse
