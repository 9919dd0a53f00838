import SensorMouse.Mouse.TimeBackCompute
import SensorMouse.Setting.StoredPrefs

/-!
# The screens

The activities of the application, one process with one task: the menu, the lists of sensors, the two
settings screens and the screen that starts the service. The service has a process of its own; it runs
until it is stopped, unless its start throws, which the screens do not notice. An exception on a screen
closes the task; what was stored stays. A screen that the platform brings back in a new process finds
the statics of `MainActivity` empty.
-/

namespace SensorMouse

open Java

/-- `Sensor.TYPE_GYROSCOPE`. -/
def typeGyroscope : Int := 4

structure Sensor where
  name : String
  type : Int
  deriving DecidableEq, Repr

/-- What `MouseStartActivity` puts into the intent. -/
structure Extras (F : Type) where
  averageNum : Int
  magnification : F
  offset : Int
  direction : Int
  sensorDelay : Int
  selectPosition : Int
  timeunit : Int
  backtime : Int
  timewait : Int
  deriving DecidableEq, Repr

/-! ### The settings screens -/

namespace SensorHelper

def sensorTypes : List String :=
  ["ACCELEROMETER", "MAGNETIC_FIELD", "ORIENTATION", "GYROSCOPE", "LIGHT", "PRESSURE", "TEMPERATURE",
    "PROXIMITY", "GRAVITY", "LINEAR_ACCELERATION", "ROTATION_VECTOR", "RELATIVE_HUMIDITY",
    "AMBIENT_TEMPERATURE"]

def sensorDelayNames : List String :=
  ["SENSOR_DELAY_FASTEST", "SENSOR_DELAY_GAME", "SENSOR_DELAY_UI", "SENSOR_DELAY_NORMAL"]

end SensorHelper

structure SettingActivity (F : Type) where
  summaries : PrefsEnum → Option String
  computer : AverageComputer F

namespace SettingActivity

open SensorHelper

section

variable [JavaInteger] (sensorList : List Sensor) (prefs : StoredPrefs)

def delayName : Except Thrown String := do
  let delay ← prefs.getSensorDelay
  StoredPrefs.elementAt sensorDelayNames delay

/-- `onCreate` of the fragment; the switch has no summary of its own. -/
def createSummaries : Except Thrown (PrefsEnum → Option String) := do
  let sensor ← prefs.getSelectedSensor sensorList
  let delay ← delayName prefs
  pure fun
    | .direction => none
    | .selectedSensor => some sensor.name
    | .sensorDelay => some delay
    | key => prefs.getSummary key

def changeSummaries (summaries : PrefsEnum → Option String) :
    PrefsEnum → Except Thrown (PrefsEnum → Option String)
  | .direction => pure summaries
  | .selectedSensor => do
      let sensor ← prefs.getSelectedSensor sensorList
      pure (Function.update summaries .selectedSensor (some sensor.name))
  | .sensorDelay => do
      let delay ← delayName prefs
      pure (Function.update summaries .sensorDelay (some delay))
  | key => pure (Function.update summaries key (prefs.getSummary key))

end

variable {F : Type} [JavaFloat F]

/-- Both listeners hear of a change, the screen and its averager. -/
def onSharedPreferenceChanged [JavaInteger] [JavaText F] (sensorList : List Sensor)
    (prefs : StoredPrefs) (activity : SettingActivity F) (key : PrefsEnum) :
    Except Thrown (SettingActivity F) := do
  let summaries ← changeSummaries sensorList prefs activity.summaries key
  let computer ← activity.computer.onPrefsChanged prefs key.getKey
  pure ⟨summaries, computer⟩

def sensorCallback (activity : SettingActivity F) (x y z : F) :
    Except Thrown (SettingActivity F) := do
  let (_, computer) ← Thrown.lift (activity.computer.computeValueShown x y z)
  pure { activity with computer := computer }

end SettingActivity

/-- The three texts of the other settings screen. -/
inductive ButtonKey where
  | backTime
  | timeUnit
  | timeWait
  deriving DecidableEq, Repr

def ButtonKey.getKey : ButtonKey → String
  | backTime => ButtonSettingActivity.backTimeKey
  | timeUnit => ButtonSettingActivity.timeUnitKey
  | timeWait => ButtonSettingActivity.timeWaitKey

structure ButtonSummaries where
  backTime : String
  timeUnit : String
  timeWait : String
  deriving DecidableEq, Repr

namespace ButtonSettingActivity

variable [JavaInteger] (prefs : StoredPrefs)

/-- `onCreate` of the fragment. -/
def createSummaries : Except Thrown ButtonSummaries := do
  let backTime ← prefs.getBackTime
  let timeUnit ← prefs.getTimeUnit
  pure ⟨toString backTime ++ "ms", toString timeUnit ++ "/unit", toString timeUnit ++ "/unit"⟩

def onSharedPreferenceChanged (summaries : ButtonSummaries) :
    ButtonKey → Except Thrown ButtonSummaries
  | .backTime => do
      let backTime ← prefs.getBackTime
      pure { summaries with backTime := toString backTime }
  | .timeUnit => do
      let timeUnit ← prefs.getTimeUnit
      pure { summaries with backTime := toString timeUnit }
  | .timeWait => pure summaries

end ButtonSettingActivity

/-! ### The task -/

/-- The activity on top. -/
inductive Screen (F : Type) where
  | closed
  | main
  | sensorList
  | sensorDetail (position : Nat)
  | setting (activity : SettingActivity F)
  | buttonSetting (summaries : ButtonSummaries)
  | mouseStart

/-- `alive` is whether the process has the statics of `MainActivity`, `service` what the service that
runs was started with, and `thrown` the last exception that closed the task. -/
structure SensorApp (F : Type) where
  sensors : List Sensor
  prefs : StoredPrefs := {}
  screen : Screen F := .closed
  alive : Bool := false
  service : Option (Extras F) := none
  thrown : Option Thrown := none

namespace SensorApp

open SensorHelper

variable {F : Type} (app : SensorApp F)

def throws (thrown : Thrown) : SensorApp F :=
  { app with screen := .closed, alive := false, thrown := some thrown }

/-- The screen that an `onCreate` leads to. -/
def shows : Except Thrown (Screen F) → SensorApp F
  | .ok screen => { app with screen := screen }
  | .error thrown => app.throws thrown

def stopService : SensorApp F := { app with service := none }

/-- The last gyroscope of the list. -/
def gyroscopePosition (sensorList : List Sensor) : Nat :=
  sensorList.zipIdx.foldl (fun type entry =>
    if entry.1.type = typeGyroscope then entry.2 else type) 0

/-- `MainActivity.onCreate`. -/
def createMain : SensorApp F :=
  let prefs := app.prefs.setDefaultValues
  let prefs := match prefs.getSummary .selectedSensor with
    | some _ => prefs
    | none => prefs.putString PrefsEnum.selectedSensor.getKey
        (toString (gyroscopePosition app.sensors : Int))
  { app with prefs := prefs, screen := .main, alive := true }

def createSensorList : SensorApp F :=
  app.shows (if app.alive then .ok .sensorList else .error .nullPointer)

def previous : Screen F → Screen F
  | .closed | .main => .closed
  | .sensorList | .setting _ | .buttonSetting _ | .mouseStart => .main
  | .sensorDetail _ => .sensorList

/-- The number of entries that a list offers. -/
def entries : PrefsEnum → Nat
  | .selectedSensor => app.sensors.length
  | .sensorDelay => sensorDelayNames.length
  | _ => 0

/-- The settings that are typed. -/
def IsText : PrefsEnum → Prop
  | .averageNum | .magnification | .offset | .threshold => True
  | .direction | .selectedSensor | .sensorDelay => False

instance : (key : PrefsEnum) → Decidable (IsText key)
  | .averageNum | .magnification | .offset | .threshold => isTrue trivial
  | .direction | .selectedSensor | .sensorDelay => isFalse id

inductive Event (F : Type) where
  /-- The icon, with no task there. -/
  | launch
  | click (position : Nat)
  | clickSensor (position : Nat)
  /-- A text is typed into one of the settings. -/
  | edit (key : PrefsEnum) (text : String)
  | editButton (key : ButtonKey) (text : String)
  /-- An entry is chosen from one of the lists. -/
  | choose (key : PrefsEnum) (index : Nat)
  | toggle
  /-- A sensor event reaches the settings screen. -/
  | sensorCallback (x y z : F)
  | rotate
  | back
  /-- The platform ends the process, and the user comes back to the task. -/
  | kill
  | restore

variable [JavaInteger]

/-- `onCreate` and `onResume`. -/
def createSensorDetail (position : Nat) : SensorApp F :=
  if app.alive = false then app.throws .nullPointer
  else app.shows do
    let sensor ← StoredPrefs.elementAt app.sensors position
    let _ ← StoredPrefs.elementAt sensorTypes (sensor.type - 1)
    let _ ← app.prefs.getSensorDelay
    pure (.sensorDetail position)

def createButtonSetting : SensorApp F :=
  if app.alive = false then app.throws .nullPointer
  else app.stopService.shows do
    let summaries ← ButtonSettingActivity.createSummaries app.prefs
    pure (.buttonSetting summaries)

/-- Nothing is heard of a text that was stored before. -/
def storeButton (summaries : ButtonSummaries) (key : ButtonKey) (text : String) : SensorApp F :=
  if app.prefs.strings key.getKey = some text then app
  else
    let prefs := app.prefs.putString key.getKey text
    { app with prefs := prefs }.shows do
      let next ← ButtonSettingActivity.onSharedPreferenceChanged prefs summaries key
      pure (.buttonSetting next)

variable [JavaFloat F] [JavaText F]

/-- `onCreate` and `onResume`; the service is stopped once there is an averager. -/
def createSetting : SensorApp F :=
  if app.alive = false then app.throws .nullPointer
  else match AverageComputer.construct app.prefs with
    | .error thrown => app.throws thrown
    | .ok computer => app.stopService.shows do
        let summaries ← SettingActivity.createSummaries app.sensors app.prefs
        let _ ← app.prefs.getSelectedSensor app.sensors
        let _ ← app.prefs.getSensorDelay
        pure (.setting ⟨summaries, computer⟩)

/-- What `PrefsEnum` gives of the settings. -/
def prefsExtras (prefs : StoredPrefs) : Except Thrown (Int → Int → Int → Extras F) := do
  let averageNum ← prefs.getAverageNum
  let magnification ← prefs.getMagnification
  let offset ← prefs.getOffset
  let sensorDelay ← prefs.getSensorDelay
  let selectPosition ← prefs.getSelectPosition
  pure fun timeunit backtime timewait => ⟨averageNum, magnification, offset, prefs.getDirection,
    sensorDelay, selectPosition, timeunit, backtime, timewait⟩

/-- The settings as they are stored. -/
def extras (prefs : StoredPrefs) : Except Thrown (Extras F) := do
  let rest ← prefsExtras prefs
  let timeunit ← prefs.getTimeUnit
  let backtime ← prefs.getBackTime
  let timewait ← prefs.getTimeWait
  pure (rest timeunit backtime timewait)

/-- What can throw in the `onStartCommand` of `ControllerService`, in its order: the averager, the
sensor of the mouse and the look-back ring. -/
def onStartCommand (sensorList : List Sensor) (extras : Extras F) : Except Thrown Unit := do
  let _ ← Thrown.lift (AverageComputerForService.create extras.averageNum extras.magnification
    extras.offset extras.direction)
  let _ ← StoredPrefs.elementAt sensorList extras.selectPosition
  let _ ← Thrown.lift (TimeBackCompute.create extras.timeunit extras.backtime)
  pure ()

/-- What runs after `stopService` and `startService`; a start that throws ends the process of the
service. -/
def startService (sensorList : List Sensor) (extras : Extras F) : Option (Extras F) :=
  match onStartCommand sensorList extras with
  | .ok _ => some extras
  | .error _ => none

/-- The last three settings are read through `MainActivity`. -/
def createMouseStart : SensorApp F :=
  if app.alive = false then
    match (prefsExtras app.prefs : Except Thrown (Int → Int → Int → Extras F)) with
    | .error thrown => app.throws thrown
    | .ok _ => app.throws .nullPointer
  else match (extras app.prefs : Except Thrown (Extras F)) with
    | .error thrown => app.throws thrown
    | .ok extras =>
        { app with screen := .mouseStart, service := startService app.sensors extras }

/-- The activity on top is made again: it was rotated, or its process is a new one. The platform cannot
make the fragments of the settings screens, which are anonymous classes. -/
def recreate : SensorApp F :=
  match app.screen with
  | .closed => app
  | .main => app.createMain
  | .sensorList => app.createSensorList
  | .sensorDetail position => app.createSensorDetail position
  | .setting _ | .buttonSetting _ => app.throws .instantiation
  | .mouseStart => app.createMouseStart

/-- `onItemClick` of the menu. -/
def clickMain : Nat → Option (SensorApp F)
  | 0 => some app.createMouseStart
  | 1 => some app.stopService
  | 2 => some app.createSensorList
  | 3 => some app.createSetting
  | 4 => some app.createButtonSetting
  | _ => none

/-- What is stored changes, and the open screen hears of it. -/
def change (activity : SettingActivity F) (prefs : StoredPrefs) (key : PrefsEnum) : SensorApp F :=
  { app with prefs := prefs }.shows do
    let next ← activity.onSharedPreferenceChanged app.sensors prefs key
    pure (.setting next)

def store (activity : SettingActivity F) (key : PrefsEnum) (text : String) : SensorApp F :=
  if app.prefs.strings key.getKey = some text then app
  else app.change activity (app.prefs.putString key.getKey text) key

/-- The steps of an activity that is there. -/
def perform : Event F → Option (SensorApp F)
  | .launch | .restore => none
  | .click position => match app.screen with
      | .main => app.clickMain position
      | _ => none
  | .clickSensor position => match app.screen with
      | .sensorList =>
          if position < app.sensors.length then some (app.createSensorDetail position) else none
      | _ => none
  | .edit key text => match app.screen with
      | .setting activity => if IsText key then some (app.store activity key text) else none
      | _ => none
  | .editButton key text => match app.screen with
      | .buttonSetting summaries => some (app.storeButton summaries key text)
      | _ => none
  | .choose key index => match app.screen with
      | .setting activity =>
          if index < app.entries key then some (app.store activity key (toString (index : Int)))
          else none
      | _ => none
  | .toggle => match app.screen with
      | .setting activity => some (app.change activity
          { app.prefs with direction := some (!app.prefs.direction.getD true) } .direction)
      | _ => none
  | .sensorCallback x y z => match app.screen with
      | .setting activity => some (app.shows do
          let next ← activity.sensorCallback x y z
          pure (.setting next))
      | _ => none
  | .rotate => some app.recreate
  | .back => some { app with screen := previous app.screen }
  | .kill => some { app with alive := false }

def step (app : SensorApp F) : Event F → Option (SensorApp F)
  | .launch => match app.screen with
      | .closed => some app.createMain
      | _ => none
  | .restore => match app.screen with
      | .closed => none
      | _ => if app.alive then none else some app.recreate
  | event => if app.alive then app.perform event else none

end SensorApp

end SensorMouse
