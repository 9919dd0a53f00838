import SensorMouse.Mouse.MouseManager
import SensorMouse.Mouse.TimeBackCompute

/-!
# The manager and its sampler

What the stored settings lead to, one whole call at a time: a round of the sampler's loop is one call,
with its `sleep`. An exception ends the run.
-/

namespace SensorMouse

open Java Lib

/-- The settings screens check nothing beyond `Integer.parseInt`. -/
structure StoredSettings where
  averageNum : Int
  timeUnit : Int
  backtime : Int
  timewait : Int
  averageNum_inRange : InRange averageNum := by decide
  timeUnit_inRange : InRange timeUnit := by decide
  backtime_inRange : InRange backtime := by decide
  timewait_inRange : InRange timewait := by decide

/-- A started manager and the sampler that reads its cursor. -/
structure SampledMouse (F : Type) where
  isPortrait : Bool
  mouse : MouseManager F
  compute : TimeBackCompute

namespace SampledMouse

variable {F : Type} [JavaFloat F]

def create (screenWidth screenHeight : Int) (magnification : F) (offset direction : Int)
    (isPortrait : Bool) (stored : StoredSettings) : Except JavaException (SampledMouse F) := do
  let mouse ← MouseManager.create screenWidth screenHeight stored.averageNum magnification offset
    direction stored.timeUnit stored.backtime stored.timewait
  let compute ← TimeBackCompute.create mouse.timeUnit mouse.backtime
  pure { isPortrait := isPortrait, mouse := mouse.startMouse, compute := compute }

/-- `iterate` is one round of the loop in `run`, and `unlock` the task of a lock. -/
inductive Event (F : Type) where
  | sensorCallback (x y z : F)
  | iterate
  | getTimebackPosition
  | lockMouseAWhile (x y : Int)
  | unlock (entry : Entry Unit)

/-- `Thread.sleep` rejects a negative time. -/
def iterate (sampled : SampledMouse F) : Except JavaException (SampledMouse F) := do
  let compute ← sampled.compute.sample sampled.mouse.getPositon
  if compute.sleepTime < 0 then .error .illegalArgument else .ok { sampled with compute := compute }

def perform (sampled : SampledMouse F) : Event F → Except JavaException (SampledMouse F)
  | .sensorCallback x y z => do
      let mouse ← sampled.mouse.sensorCallback sampled.isPortrait x y z
      pure { sampled with mouse := mouse }
  | .iterate => sampled.iterate
  | .getTimebackPosition => do
      let (_, compute) ← sampled.compute.getTimebackPosition
      pure { sampled with compute := compute }
  | .lockMouseAWhile x y => do
      let mouse ← sampled.mouse.lockMouseAWhile x y true
      pure { sampled with mouse := mouse }
  | .unlock entry => .ok { sampled with mouse := sampled.mouse.unlock entry }

def step (sampled : SampledMouse F) (event : Event F) : Option (SampledMouse F) :=
  match event with
  | .unlock entry =>
      if entry ∈ sampled.mouse.timers.pending then (sampled.perform (.unlock entry)).toOption
      else none
  | event => (sampled.perform event).toOption

theorem perform_of_step {sampled next : SampledMouse F} {event : Event F}
    (hstep : sampled.step event = some next) : sampled.perform event = .ok next := by
  cases event with
  | unlock entry =>
      simp only [step] at hstep
      split_ifs at hstep
      exact toOption_eq_some.mp hstep
  | sensorCallback | iterate | getTimebackPosition | lockMouseAWhile =>
      exact toOption_eq_some.mp hstep

end SampledMouse

end SensorMouse
