import Mathlib
import SensorMouse.Mouse.AverageComputer

/-!
# The stored preferences

Numbers are stored as the texts the user typed, and become numbers each time they are read. What reads
them is written over any `JavaText`: how texts become `int`s and `float`s is the platform's.
-/

namespace SensorMouse

open Java

/-- `Integer.parseInt`; `none` is a text it does not accept. -/
class JavaInteger where
  parseInt : String → Option Int
  parseInt_inRange : ∀ {text : String} {value : Int}, parseInt text = some value → InRange value
  parseInt_toString : ∀ {value : Int}, InRange value → parseInt (toString value) = some value

/-- `Float.parseFloat`, which accepts the texts the application itself stores. -/
class JavaText (F : Type) where
  parseFloat : String → Option F
  isSome_parseFloat_five : (parseFloat "5.0").isSome = true
  isSome_parseFloat_zero : (parseFloat "0.0").isSome = true

/-- Decimal texts. -/
instance : JavaInteger where
  parseInt text := text.toInt?.filter fun value => InRange value
  parseInt_inRange := by
    intro text value hparse
    obtain ⟨-, hrange⟩ := Option.filter_eq_some_iff.mp hparse
    exact of_decide_eq_true hrange
  parseInt_toString := by
    intro value hrange
    apply Option.filter_eq_some_iff.mpr
    exact ⟨Int.toInt?_repr value, decide_eq_true hrange⟩

/-- The texts the application itself stores. -/
instance : JavaText ℚ where
  parseFloat text := if text = "5.0" then some 5 else if text = "0.0" then some 0 else none
  isSome_parseFloat_five := rfl
  isSome_parseFloat_zero := rfl

/-- What ends the process of the activities. -/
inductive Thrown where
  | numberFormat
  | nullPointer
  | indexOutOfBounds
  | instantiation
  | java (thrown : JavaException)
  deriving DecidableEq, Repr

def Thrown.lift {α : Type} : Except JavaException α → Except Thrown α
  | .ok value => .ok value
  | .error thrown => .error (.java thrown)

/-- The preferences by their keys, and whether `setDefaultValues` has ever been here. -/
structure StoredPrefs where
  strings : String → Option String := fun _ => none
  direction : Option Bool := none
  hasSetDefaultValues : Bool := false

namespace ButtonSettingActivity

def backTimeKey : String := "back_time_edit"

def timeUnitKey : String := "time_unit_edit"

def timeWaitKey : String := "time_wait_edit"

end ButtonSettingActivity

namespace StoredPrefs

open PrefsEnum ButtonSettingActivity

variable {F : Type} (prefs : StoredPrefs)

def putString (key value : String) : StoredPrefs :=
  { prefs with strings := Function.update prefs.strings key (some value) }

/-! ### Default values -/

/-- `android:defaultValue` of the texts in `setting_preference`. -/
def settingDefaults : List (String × String) :=
  [(sensorDelay.getKey, "3"), (averageNum.getKey, "5"), (magnification.getKey, "5.0"),
    (offset.getKey, "1"), (threshold.getKey, "0.0")]

/-- `android:defaultValue` of the texts in `button_setting_preference`. -/
def buttonSettingDefaults : List (String × String) :=
  [(backTimeKey, "300"), (timeUnitKey, "10"), (timeWaitKey, "100")]

/-- Texts that are stored already stay. -/
def setDefaults (defaults : List (String × String)) : StoredPrefs :=
  defaults.foldl (fun prefs (key, value) =>
    if (prefs.strings key).isSome then prefs else prefs.putString key value) prefs

/-- `setDefaultValues` of the two resources; the first is read only once, the second every time. -/
def setDefaultValues : StoredPrefs :=
  let settings := if prefs.hasSetDefaultValues then prefs else
    { prefs.setDefaults settingDefaults with
      direction := some (prefs.direction.getD true)
      hasSetDefaultValues := true }
  { settings.setDefaults buttonSettingDefaults with hasSetDefaultValues := true }

/-! ### `PrefsEnum` -/

def getSummary (key : PrefsEnum) : Option String := prefs.strings key.getKey

def getDirection : Int := if prefs.direction.getD true then 1 else -1

/-- An element of a list at an `int`. -/
def elementAt {α : Type} (list : List α) (position : Int) : Except Thrown α :=
  match if position < 0 then none else list[position.toNat]? with
  | some element => .ok element
  | none => .error .indexOutOfBounds

section

variable [JavaInteger] [JavaText F]

/-- A missing text is not a number either. -/
def parseInt (text : Option String) : Except Thrown Int :=
  match text.bind JavaInteger.parseInt with
  | some value => .ok value
  | none => .error .numberFormat

def parseFloat : Option String → Except Thrown F
  | none => .error .nullPointer
  | some text => match JavaText.parseFloat text with
      | some value => .ok value
      | none => .error .numberFormat

def getAverageNum : Except Thrown Int := parseInt (prefs.strings averageNum.getKey)

def getMagnification : Except Thrown F := parseFloat (prefs.strings magnification.getKey)

def getOffset : Except Thrown Int := parseInt (prefs.strings offset.getKey)

def getThreshold : Except Thrown F := parseFloat (prefs.strings threshold.getKey)

def getSelectPosition : Except Thrown Int := parseInt (prefs.strings selectedSensor.getKey)

def getSensorDelay : Except Thrown Int := parseInt (prefs.strings sensorDelay.getKey)

def getSelectedSensor {Sensor : Type} (sensorList : List Sensor) : Except Thrown Sensor := do
  let position ← prefs.getSelectPosition
  elementAt sensorList position

/-! ### `ButtonSettingActivity` -/

def getBackTime : Except Thrown Int := parseInt (prefs.strings backTimeKey)

def getTimeUnit : Except Thrown Int := parseInt (some ((prefs.strings timeUnitKey).getD "10"))

def getTimeWait : Except Thrown Int := parseInt (prefs.strings timeWaitKey)

end

end StoredPrefs

/-! ### The averager of the settings screen -/

namespace AverageComputer

variable {F : Type} [JavaFloat F] [JavaInteger] [JavaText F]

/-- The constructor. -/
def construct (prefs : StoredPrefs) : Except Thrown (AverageComputer F) := do
  let averageNum ← prefs.getAverageNum
  let magnification ← prefs.getMagnification
  let offset ← prefs.getOffset
  let threshold ← prefs.getThreshold
  Thrown.lift (create ⟨averageNum, magnification, offset, prefs.direction.getD true, threshold⟩)

/-- The settings the averager has; of the stored ones it reads the one that has changed. -/
def onPrefsChanged (computer : AverageComputer F) (prefs : StoredPrefs) (key : String) :
    Except Thrown (AverageComputer F) := do
  let direction := prefs.direction.getD true
  let seen : SharedPrefs F :=
    ⟨computer.averageNum, computer.magnification, computer.offset, direction, computer.threshold⟩
  let seen ←
    if key = PrefsEnum.averageNum.getKey then do
      let value ← prefs.getAverageNum
      pure { seen with averageNum := value }
    else if key = PrefsEnum.magnification.getKey then do
      let value ← prefs.getMagnification
      pure { seen with magnification := value }
    else if key = PrefsEnum.offset.getKey then do
      let value ← prefs.getOffset
      pure { seen with offset := value }
    else if key = PrefsEnum.threshold.getKey then do
      let value ← prefs.getThreshold
      pure { seen with threshold := value }
    else pure seen
  Thrown.lift (computer.onSharedPreferenceChanged seen key)

end AverageComputer

end SensorMouse
