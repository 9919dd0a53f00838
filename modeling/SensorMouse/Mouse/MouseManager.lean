import SensorMouse.Lib.DelayQueue
import SensorMouse.Lib.Run
import SensorMouse.Mouse.AverageComputerForService

/-!
# The cursor

`MouseManager` with the calls it makes on the window and sensor managers as a history. `isPortrait` is
static, so it belongs to the process and not to one manager. Each lock starts a timer of its own, and
every timer clears the same switch.
-/

namespace SensorMouse

open Java Lib

namespace MouseManager

/-- The calls on the window and sensor managers; an update carries the position it shows. -/
inductive Call where
  | addView
  | removeView
  | updateViewLayout (x y : Int)
  | register
  | unRegister
  deriving DecidableEq, Repr

end MouseManager

/-- `x` and `y` are `params.x` and `params.y`; `timers` are the unlock tasks still to run. -/
structure MouseManager (F : Type) where
  screenWidth : Int
  screenHeight : Int
  x : Int
  y : Int
  computer : AverageComputerForService F
  alreadyAdded : Bool := false
  updateSwitch : Bool := true
  timeUnit : Int
  backtime : Int
  timewait : Int
  timers : DelayQueue Unit := {}
  calls : List MouseManager.Call := []

namespace MouseManager

variable {F : Type} [JavaFloat F]

/-- The constructor; `screenWidth` and `screenHeight` are what the display answers. -/
def create (screenWidth screenHeight averageNum : Int) (magnification : F) (offset direction : Int)
    (unit back wait : Int) : Except JavaException (MouseManager F) := do
  let computer ← AverageComputerForService.create averageNum magnification offset direction
  pure {
    screenWidth := screenWidth
    screenHeight := screenHeight
    x := screenWidth.tdiv 2
    y := screenHeight.tdiv 2
    computer := computer
    timeUnit := unit
    backtime := back
    timewait := wait }

def call (mouse : MouseManager F) (made : Call) : MouseManager F :=
  { mouse with calls := mouse.calls ++ [made] }

def startMouse (mouse : MouseManager F) : MouseManager F :=
  (if mouse.alreadyAdded then mouse else { mouse with alreadyAdded := true }.call .addView).call
    .register

def stopMouse (mouse : MouseManager F) : MouseManager F :=
  (if mouse.alreadyAdded then { mouse with alreadyAdded := false }.call .removeView else mouse).call
    .unRegister

/-- The chain of tests of `updateMousePosition`: one of them acts at most. -/
def clampTo (screenWidth screenHeight x y : Int) : Int × Int :=
  if x < 0 then (0, y)
  else if x > screenWidth then (screenWidth, y)
  else if y < 0 then (x, 0)
  else if y > screenHeight then (x, screenHeight)
  else (x, y)

def clamped (mouse : MouseManager F) (x y : Int) : Int × Int :=
  clampTo mouse.screenWidth mouse.screenHeight x y

def updateMousePosition (mouse : MouseManager F) (x y : Int) : MouseManager F :=
  let position := mouse.clamped x y
  { mouse with x := position.1, y := position.2 }.call (.updateViewLayout position.1 position.2)

/-- The point a displacement moves the cursor to, before clamping. -/
def displaced (mouse : MouseManager F) (isPortrait : Bool) (position : Fin 3 → Int) : Int × Int :=
  if isPortrait then (wrap (mouse.x + position 1), wrap (mouse.y + position 0))
  else (wrap (mouse.x + position 0), wrap (mouse.y + position 1))

/-- The gate of `sensorCallback`. -/
def Accepts (mouse : MouseManager F) : Prop := (mouse.updateSwitch && mouse.alreadyAdded) = true

instance (mouse : MouseManager F) : Decidable mouse.Accepts := inferInstanceAs (Decidable (_ = _))

/-- What `sensorCallback` does with the averager's answer. -/
def applied (mouse : MouseManager F) (isPortrait : Bool) (position : Option (Fin 3 → Int)) :
    MouseManager F :=
  match position with
  | none => mouse
  | some position =>
      let target := mouse.displaced isPortrait position
      mouse.updateMousePosition target.1 target.2

/-- `z` is not used by the source either. -/
def sensorCallback (mouse : MouseManager F) (isPortrait : Bool) (x y _z : F) :
    Except JavaException (MouseManager F) :=
  if mouse.Accepts then do
    let (position, computer) ← mouse.computer.computeValue x y
    pure ({ mouse with computer := computer }.applied isPortrait position)
  else pure mouse

/-- `Timer.schedule` rejects a negative delay. -/
def lockMouseAWhile (mouse : MouseManager F) (x y : Int) (wait : Bool) :
    Except JavaException (MouseManager F) :=
  let mouse := mouse.updateMousePosition x y
  if wait then
    if mouse.timewait < 0 then .error .illegalArgument
    else .ok { mouse with
      updateSwitch := false
      timers := mouse.timers.post () mouse.timewait.toNat }
  else .ok mouse

/-- The `TimerTask` of a lock. -/
def unlock (mouse : MouseManager F) (entry : Entry Unit) : MouseManager F :=
  { mouse with updateSwitch := true, timers := mouse.timers.take entry }

def getPositon (mouse : MouseManager F) : Int × Int := (mouse.x, wrap (mouse.y + 30))

section

variable {mouse next : MouseManager F}

/-- The averager's array cannot have a negative length. -/
theorem nonneg_of_create {screenWidth screenHeight averageNum offset direction unit back wait : Int}
    {magnification : F} (hcreate : create screenWidth screenHeight averageNum magnification offset
      direction unit back wait = .ok mouse) : 0 ≤ averageNum := by
  by_contra hneg
  unfold create AverageComputerForService.create newArray at hcreate
  rw [if_pos (not_le.mp hneg)] at hcreate
  cases hcreate

theorem sensorCallback_of_not_accepts (hignored : ¬ mouse.Accepts) (isPortrait : Bool)
    (x y z : F) : mouse.sensorCallback isPortrait x y z = .ok mouse := by
  unfold sensorCallback
  rw [if_neg hignored]
  rfl

theorem sensorCallback_eq_ok (haccepts : mouse.Accepts) {isPortrait : Bool} {x y z : F} :
    mouse.sensorCallback isPortrait x y z = .ok next ↔
      ∃ position computer, mouse.computer.computeValue x y = .ok (position, computer) ∧
        { mouse with computer := computer }.applied isPortrait position = next := by
  unfold sensorCallback
  rw [if_pos haccepts, bind_eq_ok, Prod.exists]
  refine exists_congr fun position => exists_congr fun computer => and_congr_right fun _ => ?_
  exact ⟨Except.ok.inj, congrArg Except.ok⟩

/-- A sample that is taken goes into the averager, and moves the cursor at most. -/
theorem exists_of_sensorCallback {isPortrait : Bool} {x y z : F}
    (hmouse : mouse.sensorCallback isPortrait x y z = .ok next) :
    (∃ computer, next = { mouse with computer := computer }) ∨
      mouse.Accepts ∧ ∃ computer position,
        next = { mouse with computer := computer }.applied isPortrait (some position) := by
  by_cases haccepts : mouse.Accepts
  · obtain ⟨position, computer, -, rfl⟩ := (sensorCallback_eq_ok haccepts).mp hmouse
    cases position with
    | none => exact Or.inl ⟨computer, rfl⟩
    | some position => exact Or.inr ⟨haccepts, computer, position, rfl⟩
  · rw [sensorCallback_of_not_accepts haccepts] at hmouse
    obtain rfl := Except.ok.inj hmouse
    exact Or.inl ⟨mouse.computer, rfl⟩

omit [JavaFloat F] in
/-- `stopMouse` leaves the screen and the cursor alone. -/
theorem stopMouse_frame (mouse : MouseManager F) :
    (mouse.stopMouse.screenWidth = mouse.screenWidth ∧
      mouse.stopMouse.screenHeight = mouse.screenHeight) ∧
      mouse.stopMouse.x = mouse.x ∧ mouse.stopMouse.y = mouse.y := by
  unfold stopMouse
  split_ifs
  · exact ⟨⟨rfl, rfl⟩, rfl, rfl⟩
  · exact ⟨⟨rfl, rfl⟩, rfl, rfl⟩

omit [JavaFloat F] in
theorem lockMouseAWhile_eq_ok {x y : Int} {wait : Bool} :
    mouse.lockMouseAWhile x y wait = .ok next ↔
      (wait = true → 0 ≤ mouse.timewait) ∧
        next = if wait then { mouse.updateMousePosition x y with
          updateSwitch := false
          timers := mouse.timers.post () mouse.timewait.toNat }
        else mouse.updateMousePosition x y := by
  cases wait with
  | false => simp [lockMouseAWhile, eq_comm]
  | true =>
      by_cases hwait : mouse.timewait < 0
      · simp [lockMouseAWhile, updateMousePosition, call, hwait]
      · have hnonneg : 0 ≤ mouse.timewait := not_lt.mp hwait
        simp [lockMouseAWhile, updateMousePosition, call, hwait, hnonneg, eq_comm]

end

end MouseManager

/-! ### Runs -/

/-- One process with one manager. -/
structure MouseProcess (F : Type) where
  isPortrait : Bool := true
  mouse : MouseManager F

namespace MouseProcess

variable {F : Type} [JavaFloat F]

inductive Event (F : Type) where
  | startMouse
  | stopMouse
  | setPortrait (p : Bool)
  | sensorCallback (x y z : F)
  | lockMouseAWhile (x y : Int) (wait : Bool)
  | unlock (entry : Entry Unit)
  | tick (elapsed : Nat)

def perform (process : MouseProcess F) : Event F → Except JavaException (MouseProcess F)
  | .startMouse => .ok { process with mouse := process.mouse.startMouse }
  | .stopMouse => .ok { process with mouse := process.mouse.stopMouse }
  | .setPortrait p => .ok { process with isPortrait := p }
  | .sensorCallback x y z => do
      let mouse ← process.mouse.sensorCallback process.isPortrait x y z
      pure { process with mouse := mouse }
  | .lockMouseAWhile x y wait => do
      let mouse ← process.mouse.lockMouseAWhile x y wait
      pure { process with mouse := mouse }
  | .unlock entry => .ok { process with mouse := process.mouse.unlock entry }
  | .tick elapsed =>
      .ok { process with
        mouse := { process.mouse with timers := process.mouse.timers.advance elapsed } }

/-- A step with no assumption on when a timer runs; an exception ends the run. -/
def step (process : MouseProcess F) (event : Event F) : Option (MouseProcess F) :=
  match event with
  | .unlock entry =>
      if entry ∈ process.mouse.timers.pending then (process.perform (.unlock entry)).toOption
      else none
  | event => (process.perform event).toOption

/-- The same process with punctual timers: a task that is due runs before anything else happens, and
no time passes it. -/
def punctualStep (process : MouseProcess F) (event : Event F) : Option (MouseProcess F) :=
  let timers := process.mouse.timers
  match event with
  | .unlock entry => if entry.due = timers.now then process.step (.unlock entry) else none
  | .tick elapsed =>
      if ∀ entry ∈ timers.pending, timers.now + elapsed ≤ entry.due then
        process.step (.tick elapsed)
      else none
  | event => if ∀ entry ∈ timers.pending, timers.now < entry.due then process.step event else none

def Punctual (process : MouseProcess F) : Event F → Prop
  | .unlock entry => entry.due = process.mouse.timers.now
  | .tick elapsed =>
      ∀ entry ∈ process.mouse.timers.pending, process.mouse.timers.now + elapsed ≤ entry.due
  | _ => ∀ entry ∈ process.mouse.timers.pending, process.mouse.timers.now < entry.due

theorem punctualStep_eq_some {process next : MouseProcess F} {event : Event F} :
    process.punctualStep event = some next ↔
      process.Punctual event ∧ process.step event = some next := by
  cases event <;> simp [punctualStep, Punctual]

theorem perform_of_step {process next : MouseProcess F} {event : Event F}
    (hstep : process.step event = some next) : process.perform event = .ok next := by
  cases event with
  | unlock entry =>
      simp only [step] at hstep
      split_ifs at hstep
      exact toOption_eq_some.mp hstep
  | startMouse | stopMouse | setPortrait | sensorCallback | lockMouseAWhile | tick =>
      exact toOption_eq_some.mp hstep

theorem perform_sensorCallback {process next : MouseProcess F} {x y z : F} :
    process.perform (.sensorCallback x y z) = .ok next ↔
      ∃ mouse, process.mouse.sensorCallback process.isPortrait x y z = .ok mouse ∧
        { process with mouse := mouse } = next := by
  unfold perform
  rw [bind_eq_ok]
  exact exists_congr fun mouse => and_congr_right fun _ => ⟨Except.ok.inj, congrArg Except.ok⟩

theorem perform_lockMouseAWhile {process next : MouseProcess F} {x y : Int} {wait : Bool} :
    process.perform (.lockMouseAWhile x y wait) = .ok next ↔
      ∃ mouse, process.mouse.lockMouseAWhile x y wait = .ok mouse ∧
        { process with mouse := mouse } = next := by
  unfold perform
  rw [bind_eq_ok]
  exact exists_congr fun mouse => and_congr_right fun _ => ⟨Except.ok.inj, congrArg Except.ok⟩

end MouseProcess

end SensorMouse
