import SensorMouse.Mouse.MouseManager

/-!
# The cursor and the screen box

The four tests of `updateMousePosition` are one `else if` chain, so it corrects at most one
coordinate. A target that is outside the screen on both axes leaves the cursor outside; any other
target brings it inside. `inBox_along_iff` says so for whole runs.
-/

namespace SensorMouse

open Java Lib

variable {F : Type}

namespace MouseManager

def position (mouse : MouseManager F) : Int × Int := (mouse.x, mouse.y)

def InBox (mouse : MouseManager F) : Prop :=
  (0 ≤ mouse.x ∧ mouse.x ≤ mouse.screenWidth) ∧ (0 ≤ mouse.y ∧ mouse.y ≤ mouse.screenHeight)

instance (mouse : MouseManager F) : Decidable mouse.InBox := inferInstanceAs (Decidable (_ ∧ _))

def OnAnAxis (mouse : MouseManager F) (point : Int × Int) : Prop :=
  (0 ≤ point.1 ∧ point.1 ≤ mouse.screenWidth) ∨ (0 ≤ point.2 ∧ point.2 ≤ mouse.screenHeight)

instance (mouse : MouseManager F) (point : Int × Int) : Decidable (mouse.OnAnAxis point) :=
  inferInstanceAs (Decidable (_ ∨ _))

variable {mouse next : MouseManager F}

/-- The chain of tests brings a point inside exactly if it has to correct one axis at most. -/
theorem inBox_iff_of_position_eq_clamped (hwidth : 0 ≤ mouse.screenWidth)
    (hheight : 0 ≤ mouse.screenHeight) (hsameWidth : next.screenWidth = mouse.screenWidth)
    (hsameHeight : next.screenHeight = mouse.screenHeight) {point : Int × Int}
    (hposition : next.position = mouse.clamped point.1 point.2) :
    next.InBox ↔ mouse.OnAnAxis point := by
  obtain ⟨hx, hy⟩ : next.x = (mouse.clamped point.1 point.2).1 ∧
      next.y = (mouse.clamped point.1 point.2).2 := Prod.ext_iff.mp hposition
  unfold InBox OnAnAxis
  rw [hx, hy, hsameWidth, hsameHeight]
  unfold clamped clampTo
  split_ifs <;> dsimp only <;> omega

theorem inBox_iff_of_position_eq (hsameWidth : next.screenWidth = mouse.screenWidth)
    (hsameHeight : next.screenHeight = mouse.screenHeight)
    (hposition : next.position = mouse.position) : next.InBox ↔ mouse.InBox := by
  obtain ⟨hx, hy⟩ : next.x = mouse.x ∧ next.y = mouse.y := Prod.ext_iff.mp hposition
  unfold InBox
  rw [hx, hy, hsameWidth, hsameHeight]

end MouseManager

namespace MouseProcess

open MouseManager

variable [JavaFloat F]

/-- The point the event asks `updateMousePosition` for, if it does. -/
def target (process : MouseProcess F) : Event F → Option (Int × Int)
  | .lockMouseAWhile x y _ => some (x, y)
  | .sensorCallback x y _ =>
      if process.mouse.Accepts then
        match process.mouse.computer.computeValue x y with
        | .ok (position, _) => position.map (process.mouse.displaced process.isPortrait)
        | .error _ => none
      else none
  | _ => none

/-- The step asks for no point that is outside the screen on both axes. -/
def KeepsAnAxis (process : MouseProcess F) (event : Event F) : Prop :=
  ∀ point ∈ process.target event, process.mouse.OnAnAxis point

/-- A step moves the cursor to its clamped target, if it has one, and the screen never changes. -/
structure Moves (process next : MouseProcess F) (point : Option (Int × Int)) : Prop where
  screenWidth : next.mouse.screenWidth = process.mouse.screenWidth
  screenHeight : next.mouse.screenHeight = process.mouse.screenHeight
  position : next.mouse.position =
    match point with
    | some point => process.mouse.clamped point.1 point.2
    | none => process.mouse.position

variable {process next : MouseProcess F} {event : Event F}

theorem moves_sensorCallback {x y z : F}
    (hperform : process.perform (.sensorCallback x y z) = .ok next) :
    Moves process next (process.target (.sensorCallback x y z)) := by
  obtain ⟨mouse, hmouse, rfl⟩ := perform_sensorCallback.mp hperform
  by_cases haccepts : process.mouse.Accepts
  · obtain ⟨position, computer, hcompute, rfl⟩ := (sensorCallback_eq_ok haccepts).mp hmouse
    have htarget : process.target (.sensorCallback x y z) =
        position.map (process.mouse.displaced process.isPortrait) := by
      simp only [target, haccepts, ↓reduceIte, hcompute]
    rw [htarget]
    cases position with
    | none => exact ⟨rfl, rfl, rfl⟩
    | some position => exact ⟨rfl, rfl, rfl⟩
  · rw [sensorCallback_of_not_accepts haccepts] at hmouse
    obtain rfl := Except.ok.inj hmouse
    have htarget : process.target (.sensorCallback x y z) = none := by
      simp only [target, haccepts, ↓reduceIte]
    rw [htarget]
    exact ⟨rfl, rfl, rfl⟩

theorem moves_of_step (hstep : process.step event = some next) :
    Moves process next (process.target event) := by
  have hperform := perform_of_step hstep
  cases event with
  | sensorCallback x y z => exact moves_sensorCallback hperform
  | lockMouseAWhile x y wait =>
      obtain ⟨mouse, hmouse, rfl⟩ := perform_lockMouseAWhile.mp hperform
      obtain ⟨-, rfl⟩ := lockMouseAWhile_eq_ok.mp hmouse
      cases wait <;> exact ⟨rfl, rfl, rfl⟩
  | startMouse =>
      obtain rfl := Except.ok.inj hperform
      unfold MouseManager.startMouse
      constructor <;> dsimp only <;> split_ifs <;> rfl
  | stopMouse =>
      obtain rfl := Except.ok.inj hperform
      obtain ⟨⟨hwidth, hheight⟩, hx, hy⟩ := process.mouse.stopMouse_frame
      exact ⟨hwidth, hheight, Prod.ext hx hy⟩
  | setPortrait | unlock | tick =>
      obtain rfl := Except.ok.inj hperform
      exact ⟨rfl, rfl, rfl⟩

theorem inBox_step_iff (hwidth : 0 ≤ process.mouse.screenWidth)
    (hheight : 0 ≤ process.mouse.screenHeight) (hinBox : process.mouse.InBox)
    (hstep : process.step event = some next) : next.mouse.InBox ↔ process.KeepsAnAxis event := by
  have hmoves := moves_of_step hstep
  unfold KeepsAnAxis
  cases htarget : process.target event with
  | none =>
      rw [htarget] at hmoves
      refine iff_of_true ?_ (by simp)
      exact (inBox_iff_of_position_eq hmoves.screenWidth hmoves.screenHeight hmoves.position).mpr
        hinBox
  | some point =>
      rw [htarget] at hmoves
      rw [inBox_iff_of_position_eq_clamped hwidth hheight hmoves.screenWidth hmoves.screenHeight
        hmoves.position]
      simp

theorem mouse_create_inBox {screenWidth screenHeight averageNum : Int} {magnification : F}
    {offset direction unit back wait : Int} {mouse : MouseManager F} (hwidth : 0 ≤ screenWidth)
    (hheight : 0 ≤ screenHeight)
    (hcreate : MouseManager.create screenWidth screenHeight averageNum magnification offset
      direction unit back wait = .ok mouse) :
    (mouse.screenWidth = screenWidth ∧ mouse.screenHeight = screenHeight) ∧ mouse.InBox := by
  obtain ⟨computer, -, hmouse⟩ := bind_eq_ok.mp hcreate
  obtain rfl := Except.ok.inj hmouse
  refine ⟨⟨rfl, rfl⟩, ?_⟩
  unfold InBox
  dsimp only
  rw [Int.tdiv_eq_ediv_of_nonneg hwidth, Int.tdiv_eq_ediv_of_nonneg hheight]
  omega

/-- **Exactly when the cursor stays on the screen.** From the constructor's position every state of a
run is inside the box exactly if no step asks `updateMousePosition` for a point that is outside on
both axes. -/
theorem inBox_along_iff {screenWidth screenHeight averageNum : Int} {magnification : F}
    {offset direction unit back wait : Int} {mouse : MouseManager F} {isPortrait : Bool}
    {events : List (Event F)} {final : MouseProcess F} (hwidth : 0 ≤ screenWidth)
    (hheight : 0 ≤ screenHeight)
    (hcreate : MouseManager.create screenWidth screenHeight averageNum magnification offset
      direction unit back wait = .ok mouse)
    (hrun : run step ⟨isPortrait, mouse⟩ events = some final) :
    StatesAlong step (fun process => (process.mouse.screenWidth = screenWidth ∧
        process.mouse.screenHeight = screenHeight) ∧ process.mouse.InBox) ⟨isPortrait, mouse⟩ events ↔
      StepsAlong step KeepsAnAxis ⟨isPortrait, mouse⟩ events := by
  refine statesAlong_iff_stepsAlong (mouse_create_inBox hwidth hheight hcreate) ?_ hrun
  rintro current event next ⟨⟨hcurrentWidth, hcurrentHeight⟩, hinBox⟩ hstep
  have hmoves := moves_of_step hstep
  have hdisplay : next.mouse.screenWidth = screenWidth ∧ next.mouse.screenHeight = screenHeight :=
    ⟨hmoves.screenWidth.trans hcurrentWidth, hmoves.screenHeight.trans hcurrentHeight⟩
  rw [and_iff_right hdisplay]
  exact inBox_step_iff (hcurrentWidth ▸ hwidth) (hcurrentHeight ▸ hheight) hinBox hstep

def plainMouse : Except JavaException (MouseManager ℚ) :=
  MouseManager.create 480 800 1 1 1 1 20 200 1000

/-- One sample towards the upper left corner and past it on both axes. -/
def cornerEvents : List (Event ℚ) := [.startMouse, .sensorCallback (-500) (-300) 0]

theorem inBox_along_iff_corner :
    ∃ mouse final, plainMouse = .ok mouse ∧ run step ⟨true, mouse⟩ cornerEvents = some final ∧
      (StatesAlong step (fun process => (process.mouse.screenWidth = 480 ∧
          process.mouse.screenHeight = 800) ∧ process.mouse.InBox) ⟨true, mouse⟩ cornerEvents ↔
        StepsAlong step KeepsAnAxis ⟨true, mouse⟩ cornerEvents) := by
  have hsome : (plainMouse.toOption.bind fun mouse =>
      (run step ⟨true, mouse⟩ cornerEvents).map fun _ => true) = some true := by decide +kernel
  obtain ⟨mouse, hmouse, hfinal⟩ := Option.bind_eq_some_iff.mp hsome
  obtain ⟨final, hrun, -⟩ := Option.map_eq_some_iff.mp hfinal
  have hcreate : plainMouse = .ok mouse := toOption_eq_some.mp hmouse
  exact ⟨mouse, final, hcreate, hrun, inBox_along_iff (by decide) (by decide) hcreate hrun⟩

theorem not_inBox_corner :
    ¬ ∀ (screenWidth screenHeight averageNum : Int) (magnification : ℚ)
      (offset direction unit back wait : Int) (mouse : MouseManager ℚ) (isPortrait : Bool)
      (events : List (Event ℚ)) (final : MouseProcess ℚ), 0 ≤ screenWidth → 0 ≤ screenHeight →
      MouseManager.create screenWidth screenHeight averageNum magnification offset direction unit
        back wait = .ok mouse →
      run step ⟨isPortrait, mouse⟩ events = some final → final.mouse.InBox := by
  intro hclaim
  have houtside : (plainMouse.toOption.bind fun mouse =>
      (run step ⟨true, mouse⟩ cornerEvents).map fun final => decide final.mouse.InBox) =
        some false := by decide +kernel
  obtain ⟨mouse, hmouse, hfinal⟩ := Option.bind_eq_some_iff.mp houtside
  obtain ⟨final, hrun, hoff⟩ := Option.map_eq_some_iff.mp hfinal
  have hinBox : final.mouse.InBox := hclaim 480 800 1 1 1 1 20 200 1000 mouse true cornerEvents final
    (by decide) (by decide) (toOption_eq_some.mp hmouse) hrun
  exact of_decide_eq_false hoff hinBox

end MouseProcess

end SensorMouse
