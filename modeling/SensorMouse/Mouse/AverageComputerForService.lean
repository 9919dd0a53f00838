import SensorMouse.Java

/-!
# The averager of the mouse

`averageArray` is `float[averageNum][3]`; a full block is summed in place, into its first row. Every
access is checked as Java checks it.
-/

namespace SensorMouse

open Java

/-- A `float[3]`; its index is a constant everywhere in the source. -/
abbrev Row (F : Type) : Type := Fin 3 → F

/-- Numerals are indices of a row. -/
instance neZeroThree : NeZero 3 := ⟨by decide⟩

structure AverageComputerForService (F : Type) where
  averageNum : Int
  magnification : F
  offset : Int
  direction : Int
  averageArray : List (Row F)
  values : Fin 3 → Int
  count1 : Nat := 0
  count2 : Nat := 0

namespace AverageComputerForService

variable {F : Type} [JavaFloat F]

def create (averageNum : Int) (magnification : F) (offset direction : Int) :
    Except JavaException (AverageComputerForService F) := do
  let averageArray ← newArray averageNum (fun _ => 0)
  pure {
    averageNum := averageNum
    magnification := magnification
    offset := offset
    direction := direction
    averageArray := averageArray
    values := fun _ => 0 }

def getCell (array : List (Row F)) (index : Nat) (i : Fin 3) : Except JavaException F := do
  let row ← load array index
  pure (row i)

def setCell (array : List (Row F)) (index : Nat) (i : Fin 3) (value : F) :
    Except JavaException (List (Row F)) := do
  let row ← load array index
  store array index (Function.update row i value)

/-- `averageArray[0][i] = averageArray[0][i] + averageArray[j][i]`. -/
def addCell (i : Fin 3) (array : List (Row F)) (j : Nat) : Except JavaException (List (Row F)) := do
  let total ← getCell array 0 i
  let value ← getCell array j i
  setCell array 0 i (total + value)

/-- The loop over `j` from 1 to `averageNum - 1`. -/
def accumulate (averageNum : Int) (i : Fin 3) (array : List (Row F)) :
    Except JavaException (List (Row F)) :=
  (List.range' 1 (averageNum.toNat - 1)).foldlM (addCell i) array

/-- One round of the loop over `i` in the two-argument `computeValue`. -/
def emit (computer : AverageComputerForService F) (arrays : List (Row F) × (Fin 3 → Int))
    (i : Fin 3) : Except JavaException (List (Row F) × (Fin 3 → Int)) := do
  let array ← accumulate computer.averageNum i arrays.1
  let total ← getCell array 0 i
  let value := JavaFloat.toInt (total * (computer.offset : F) * (computer.direction : F))
  pure (array, Function.update arrays.2 i value)

/-- `computeValue(x, y)`; the result is what the returned array holds, or `none` for `null`. -/
def computeValue (computer : AverageComputerForService F) (x y : F) :
    Except JavaException (Option (Fin 3 → Int) × AverageComputerForService F) := do
  let array ← setCell computer.averageArray computer.count1 0 (x * computer.magnification)
  let array ← setCell array computer.count1 1 (y * computer.magnification)
  if (computer.count1 : Int) + 1 = computer.averageNum then
    let (array, values) ← [0, 1].foldlM computer.emit (array, computer.values)
    pure (some values, { computer with averageArray := array, values := values, count1 := 0 })
  else
    pure (none, { computer with averageArray := array, count1 := computer.count1 + 1 })

def emitShown (computer : AverageComputerForService F) (array : List (Row F)) (i : Fin 3) :
    Except JavaException (List (Row F)) := do
  let array ← accumulate computer.averageNum i array
  let total ← getCell array 0 i
  setCell array 0 i (total * (computer.offset : F) * (computer.direction : F))

/-- `computeValue(x, y, z, textView)`; the result is what the text shows, or `none` if it is left
alone. It fills the same array by its own counter. -/
def computeValueShown (computer : AverageComputerForService F) (x y z : F) :
    Except JavaException (Option (F × F × F) × AverageComputerForService F) := do
  let array ← setCell computer.averageArray computer.count2 0 (x * computer.magnification)
  let array ← setCell array computer.count2 1 (y * computer.magnification)
  let array ← setCell array computer.count2 2 (z * computer.magnification)
  if (computer.count2 : Int) + 1 = computer.averageNum then
    let array ← [0, 1, 2].foldlM computer.emitShown array
    let shown ← load array 0
    pure (some (shown 0, shown 1, shown 2), { computer with averageArray := array, count2 := 0 })
  else
    pure (none, { computer with averageArray := array, count2 := computer.count2 + 1 })

end AverageComputerForService

end SensorMouse
