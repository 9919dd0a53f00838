import SensorMouse.Java
import SensorMouse.Lib.Run

/-!
# The look-back ring

`TimeBackCompute` samples the cursor into a ring of `2 * timeUnit` positions and answers with the one
half a ring behind. `run` is cut into its statements, each one step of the sampling thread; what it has
`DataLogHelper` write is a history, and so are the sampled positions.
-/

namespace SensorMouse

open Java Lib

namespace DataLogHelper

def flagMouseTrace : String := ""
def flagClickPosition : String := "200"
def flagBackPosition : String := "400"

/-- The calls `TimeBackCompute` makes. -/
inductive Call where
  | writeALine (p : Int × Int) (flag : String)
  | writeALinePair (p : Int × Int) (flag : String) (p2 : Int × Int) (flag2 : String)
  | close
  deriving DecidableEq, Repr

end DataLogHelper

structure TimeBackCompute where
  length : Int
  positionArray : List (Int × Int)
  sleepTime : Int := 0
  goon : Bool := true
  pointer : Int := 0
  logCalls : List DataLogHelper.Call := []
  deriving DecidableEq, Repr

namespace TimeBackCompute

def logged (compute : TimeBackCompute) (made : DataLogHelper.Call) : TimeBackCompute :=
  { compute with logCalls := compute.logCalls ++ [made] }

/-- `timeUnit` and `backtime` are what the `MouseManager` answers. -/
def onTimeUnitChanged (compute : TimeBackCompute) (timeUnit backtime : Int) :
    Except JavaException TimeBackCompute := do
  let length := wrap (timeUnit * 2)
  let sleepTime ← divide backtime (length.tdiv 2)
  let positionArray ← newArray length (0, 0)
  pure { compute with
    pointer := 0
    length := length
    sleepTime := sleepTime
    positionArray := positionArray }

def create (timeUnit backtime : Int) : Except JavaException TimeBackCompute := do
  let length := wrap (timeUnit * 2)
  let positionArray ← newArray length (0, 0)
  { length := length, positionArray := positionArray : TimeBackCompute }.onTimeUnitChanged timeUnit
    backtime

def stopTimeBackCompute (compute : TimeBackCompute) : TimeBackCompute :=
  { compute with goon := false }

/-- The position found, and the log line of both positions. -/
def getTimebackPosition (compute : TimeBackCompute) :
    Except JavaException ((Int × Int) × TimeBackCompute) := do
  let index := wrap (compute.pointer + compute.length.tdiv 2)
  let index := if index ≥ compute.length then wrap (index - compute.length) else index
  let currentPosition ← loadAt compute.positionArray compute.pointer
  let backPosition ← loadAt compute.positionArray index
  pure (backPosition, compute.logged (.writeALinePair currentPosition
    DataLogHelper.flagClickPosition backPosition DataLogHelper.flagBackPosition))

/-! ### The statements of `run` -/

/-- `mouseManager.getPositon(positionArray[pointer])`; `position` is what it reads. -/
def record (compute : TimeBackCompute) (position : Int × Int) :
    Except JavaException TimeBackCompute := do
  let positionArray ← storeAt compute.positionArray compute.pointer position
  pure { compute with positionArray := positionArray }

def writePosition (compute : TimeBackCompute) : Except JavaException TimeBackCompute := do
  let position ← loadAt compute.positionArray compute.pointer
  pure (compute.logged (.writeALine position DataLogHelper.flagMouseTrace))

def increment (compute : TimeBackCompute) : TimeBackCompute :=
  { compute with pointer := wrap (compute.pointer + 1) }

def resetPointer (compute : TimeBackCompute) : TimeBackCompute := { compute with pointer := 0 }

/-- One round of the loop without its `sleep`. -/
def sample (compute : TimeBackCompute) (position : Int × Int) :
    Except JavaException TimeBackCompute := do
  let compute ← compute.record position
  let compute ← compute.writePosition
  let compute := compute.increment
  pure (if compute.pointer = compute.length then compute.resetPointer else compute)

end TimeBackCompute

/-! ### The thread -/

namespace Sampler

/-- The next statement of `run`; `i` is the counter of its `for` loop. -/
inductive ControlPoint where
  | testGoon
  | testIndex (i : Nat)
  | record (i : Nat)
  | writePosition (i : Nat)
  | increment (i : Nat)
  | testPointer (i : Nat)
  | resetPointer (i : Nat)
  | sleep (i : Nat)
  | exited
  deriving DecidableEq, Repr

end Sampler

/-- The thread, with the positions it has sampled. -/
structure Sampler where
  compute : TimeBackCompute
  control : Sampler.ControlPoint := .testGoon
  samples : List (Int × Int) := []
  deriving DecidableEq, Repr

namespace Sampler

/-- The next statement; `position` is what the cursor is at. -/
def statement (sampler : Sampler) (position : Int × Int) : Except JavaException Sampler :=
  let compute := sampler.compute
  match sampler.control with
  | .testGoon =>
      if compute.goon then pure { sampler with control := .testIndex 0 }
      else pure { sampler with compute := compute.logged .close, control := .exited }
  | .testIndex i =>
      pure { sampler with control := if (i : Int) < compute.length then .record i else .testGoon }
  | .record i => do
      let compute ← compute.record position
      pure { sampler with
        compute := compute
        control := .writePosition i
        samples := sampler.samples ++ [position] }
  | .writePosition i => do
      let compute ← compute.writePosition
      pure { sampler with compute := compute, control := .increment i }
  | .increment i => pure { sampler with compute := compute.increment, control := .testPointer i }
  | .testPointer i =>
      pure { sampler with
        control := if compute.pointer = compute.length then .resetPointer i else .sleep i }
  | .resetPointer i => pure { sampler with compute := compute.resetPointer, control := .sleep i }
  | .sleep i =>
      if compute.sleepTime < 0 then .error .illegalArgument
      else pure { sampler with control := .testIndex (i + 1) }
  | .exited => pure sampler

def Sleeps (sampler : Sampler) : Prop := ∃ i, sampler.control = .sleep i

inductive Event where
  | statement (position : Int × Int)
  | getTimebackPosition
  | stopTimeBackCompute
  deriving DecidableEq, Repr

def perform (sampler : Sampler) : Event → Except JavaException Sampler
  | .statement position => sampler.statement position
  | .getTimebackPosition => do
      let (_, compute) ← sampler.compute.getTimebackPosition
      pure { sampler with compute := compute }
  | .stopTimeBackCompute =>
      pure { sampler with compute := sampler.compute.stopTimeBackCompute }

/-- An exception ends the run. -/
def step (sampler : Sampler) (event : Event) : Option Sampler := (sampler.perform event).toOption

end Sampler

end SensorMouse
