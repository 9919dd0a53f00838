import SensorMouse.Mouse.AverageComputerForService

/-!
# The averager of the settings screen

`AverageComputer` has the fields and the two `computeValue`s of `AverageComputerForService`, and takes
its settings from the preferences, again at every change of one of them.
-/

namespace SensorMouse

open Java

/-- `PrefsEnum`; the preferences hold what its getters return. -/
inductive PrefsEnum where
  | averageNum
  | magnification
  | offset
  | direction
  | threshold
  | selectedSensor
  | sensorDelay
  deriving DecidableEq, Repr

structure SharedPrefs (F : Type) where
  averageNum : Int
  magnification : F
  offset : Int
  direction : Bool
  threshold : F

namespace PrefsEnum

def getKey : PrefsEnum → String
  | averageNum => "averagenum_edit"
  | magnification => "magnification_edit"
  | offset => "offset_edit"
  | direction => "direction_switch"
  | threshold => "threshold_edit"
  | selectedSensor => "sensor_type_list"
  | sensorDelay => "sensor_rate_list"

theorem getKey_injective : Function.Injective getKey := by
  intro first second
  cases first <;> cases second <;> simp [getKey]

variable {F : Type}

def getAverageNum (sharedPrefs : SharedPrefs F) : Int := sharedPrefs.averageNum

def getMagnification (sharedPrefs : SharedPrefs F) : F := sharedPrefs.magnification

def getOffset (sharedPrefs : SharedPrefs F) : Int := sharedPrefs.offset

def getDirection (sharedPrefs : SharedPrefs F) : Int := if sharedPrefs.direction then 1 else -1

def getThreshold (sharedPrefs : SharedPrefs F) : F := sharedPrefs.threshold

end PrefsEnum

structure AverageComputer (F : Type) extends AverageComputerForService F where
  threshold : F

namespace AverageComputer

open PrefsEnum

variable {F : Type} [JavaFloat F]

def create (sharedPrefs : SharedPrefs F) : Except JavaException (AverageComputer F) := do
  let computer ← AverageComputerForService.create (getAverageNum sharedPrefs)
    (getMagnification sharedPrefs) (getOffset sharedPrefs) (getDirection sharedPrefs)
  pure { computer with threshold := getThreshold sharedPrefs }

def computeValue (computer : AverageComputer F) (x y : F) :
    Except JavaException (Option (Fin 3 → Int) × AverageComputer F) := do
  let (values, next) ← computer.toAverageComputerForService.computeValue x y
  pure (values, { computer with toAverageComputerForService := next })

def computeValueShown (computer : AverageComputer F) (x y z : F) :
    Except JavaException (Option (F × F × F) × AverageComputer F) := do
  let (text, next) ← computer.toAverageComputerForService.computeValueShown x y z
  pure (text, { computer with toAverageComputerForService := next })

/-- The preferences are read from the shared ones, which are those of the notification. -/
def onSharedPreferenceChanged (computer : AverageComputer F) (sharedPrefs : SharedPrefs F)
    (key : String) : Except JavaException (AverageComputer F) :=
  if key = PrefsEnum.averageNum.getKey then do
    let averageArray ← newArray (getAverageNum sharedPrefs) (fun _ => 0)
    pure { computer with
      count1 := 0
      count2 := 0
      averageNum := getAverageNum sharedPrefs
      averageArray := averageArray }
  else if key = PrefsEnum.magnification.getKey then
    pure { computer with magnification := getMagnification sharedPrefs }
  else if key = PrefsEnum.offset.getKey then
    pure { computer with offset := getOffset sharedPrefs }
  else if key = PrefsEnum.direction.getKey then
    pure { computer with direction := getDirection sharedPrefs }
  else if key = PrefsEnum.threshold.getKey then
    pure { computer with threshold := getThreshold sharedPrefs }
  else
    pure computer

/-- What reaches the averager while the settings screen is open. -/
inductive Event (F : Type) where
  | sensorCallback (x y z : F)
  | onSharedPreferenceChanged (sharedPrefs : SharedPrefs F) (key : String)

/-- One event, with the text it sets. -/
def handle (computer : AverageComputer F) :
    Event F → Except JavaException (Option (F × F × F) × AverageComputer F)
  | .sensorCallback x y z => computer.computeValueShown x y z
  | .onSharedPreferenceChanged sharedPrefs key => do
      let next ← computer.onSharedPreferenceChanged sharedPrefs key
      pure (none, next)

end AverageComputer

end SensorMouse
