import SensorMouse.Lib.Run
import SensorMouse.Mouse.TimeBackCompute

/-!
# The log

`DataLogHelper` with the file it writes and the service it asks for it. There is one helper in a
process, and every sampler and every look-back writes to it. A call ends normally or by a
`NullPointerException`, which nothing catches; the exceptions of the file operations are caught where
they arise. Either way the fields keep what the call has assigned.
-/

namespace SensorMouse

open Lib

namespace DataLogHelper

/-- The reference `outStream`: `null`, or a stream that is open or closed. -/
inductive OutStream where
  | null
  | live
  | closed
  deriving DecidableEq, Repr

/-- The file operations of a call that fail, if the call comes to them. -/
structure Failures where
  openFileOutput : Bool := false
  write : Bool := false
  close : Bool := false
  deriving DecidableEq, Repr

end DataLogHelper

/-- `opened` is the flag `open`, and `timeFormat` whether the field is assigned. `serviceInstance` is
whether `ControllerService.instance` is, and `file` what the log file contains. The last two fields are
history: the lines asked for, and whether a call has thrown. -/
structure DataLogHelper where
  opened : Bool := false
  timeFormat : Bool := false
  outStream : DataLogHelper.OutStream := .null
  serviceInstance : Bool := false
  file : String := ""
  lines : String := ""
  thrown : Bool := false
  deriving DecidableEq, Repr

namespace DataLogHelper

/-- How a call ends; `error` is a `NullPointerException`. -/
abbrev Ended : Type := Except DataLogHelper DataLogHelper

/-- The private `open`. The flag is set before there is a stream, and a stream that cannot be opened
leaves the old one. `MODE_PRIVATE` truncates the file. -/
def openFile (log : DataLogHelper) (fails : Failures) : Ended :=
  if log.opened then .ok log
  else
    let log := { log with opened := true, timeFormat := true }
    if !log.serviceInstance then .error log
    else if fails.openFileOutput then .ok log
    else .ok { log with outStream := .live, file := "" }

/-- The stream is closed before closing it can fail, so the exception that is caught changes nothing. -/
def close (log : DataLogHelper) (fails : Failures) : Ended :=
  if log.opened then
    let log := { log with opened := false }
    match log.outStream with
    | .null => .error log
    | .live | .closed =>
        let log := { log with outStream := .closed }
        if fails.close then .ok log else .ok log
  else .ok log

/-- `outStream.write(line.getBytes())`; a closed stream refuses the line. -/
def writeBytes (log : DataLogHelper) (line : String) (fails : Failures) : Ended :=
  match log.outStream with
  | .null => .error log
  | .closed => .ok log
  | .live => if fails.write then .ok log else .ok { log with file := log.file ++ line }

/-- The body both `writeALine`s have. -/
def writeLine (log : DataLogHelper) (line : String) (fails : Failures) : Ended := do
  let log ← if log.opened then .ok log else log.openFile fails
  if log.timeFormat then log.writeBytes line fails else .error log

/-- `time` is what the format makes of the current time. -/
def line (time : String) (p : Int × Int) (flag : String) : String :=
  time ++ "\t" ++ toString p.1 ++ "\t" ++ toString p.2 ++ "\t" ++ flag ++ "\n"

def linePair (time : String) (p : Int × Int) (flag : String) (p2 : Int × Int) (flag2 : String) :
    String :=
  time ++ "\t" ++ toString p.1 ++ "\t" ++ toString p.2 ++ "\t" ++ flag ++ "\t" ++ flag2 ++ "\t" ++
    toString p2.1 ++ "\t" ++ toString p2.2 ++ "\n"

def writeALine (log : DataLogHelper) (fails : Failures) (time : String) (p : Int × Int)
    (flag : String) : Ended := log.writeLine (line time p flag) fails

def writeALinePair (log : DataLogHelper) (fails : Failures) (time : String) (p : Int × Int)
    (flag : String) (p2 : Int × Int) (flag2 : String) : Ended :=
  log.writeLine (linePair time p flag p2 flag2) fails

/-! ### Runs -/

/-- `publish` is the assignment `instance = this` of `onStartCommand`. -/
inductive Event where
  | call (made : Call) (time : String) (fails : Failures)
  | publish
  deriving DecidableEq, Repr

/-- The failures are those of the operations the call comes to. -/
def Event.fails : Event → Failures
  | .call _ _ fails => fails
  | .publish => {}

/-- The line an event asks for. -/
def Event.line : Event → Option String
  | .call (.writeALine p flag) time _ => some (DataLogHelper.line time p flag)
  | .call (.writeALinePair p flag p2 flag2) time _ => some (linePair time p flag p2 flag2)
  | .call .close _ _ | .publish => none

def perform (log : DataLogHelper) : Event → Ended
  | .call (.writeALine p flag) time fails => log.writeALine fails time p flag
  | .call (.writeALinePair p flag p2 flag2) time fails =>
      log.writeALinePair fails time p flag p2 flag2
  | .call .close _ fails => log.close fails
  | .publish => .ok { log with serviceInstance := true }

/-- The thread that made a call may die of it; the helper goes on. -/
def Ended.left : Ended → DataLogHelper
  | .ok next => next
  | .error next => { next with thrown := true }

def asked (log : DataLogHelper) (line : String) : DataLogHelper :=
  { log with lines := log.lines ++ line }

def step (log : DataLogHelper) (event : Event) : DataLogHelper :=
  Ended.left ((log.asked (event.line.getD "")).perform event)

def advance (log : DataLogHelper) (event : Event) : Option DataLogHelper := some (log.step event)

end DataLogHelper

end SensorMouse
