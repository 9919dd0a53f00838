import SensorMouse.Proof.Trajectory
import Mathlib.Algebra.Group.Prod

/-!
# The reversed direction

The sign is applied before the cast. Rounding toward zero is odd, so the displacements of two managers
that differ in the sign alone are negatives of each other block by block, and nothing drifts. Only
clamping breaks the mirror: the edges of the screen are not placed symmetrically around the cursor.
-/

namespace SensorMouse

open Java Lib AverageComputerForService

namespace Settings

def reversed (settings : Settings) : Settings :=
  { settings with direction := -settings.direction }

/-- The move at the end of a block stays on the screen. -/
def Unclamped (settings : Settings) (trajectory : Trajectory) : MouseProcess.Event ℚ → Prop
  | .sensorCallback x y _ =>
      settings.Completes trajectory →
        let block := Blocks.latest settings.averageNum (trajectory.accepted ++ [(x, y)])
        let goal := settings.goal trajectory block
        settings.clamp goal = goal
  | _ => True

instance (settings : Settings) (trajectory : Trajectory) :
    (event : MouseProcess.Event ℚ) → Decidable (settings.Unclamped trajectory event)
  | .sensorCallback _ _ _ => inferInstanceAs (Decidable (_ → _))
  | .startMouse | .stopMouse | .setPortrait _ | .lockMouseAWhile _ _ _ | .unlock _ | .tick _ =>
      isTrue trivial

def startingAt (settings : Settings) (start : Int × Int) (isPortrait : Bool) : Trajectory :=
  { settings.origin isPortrait with position := start }

variable (settings : Settings)

theorem travel_reversed (component : ℚ × ℚ → ℚ) (block : List (ℚ × ℚ)) :
    settings.reversed.travel component block = -settings.travel component block := by
  unfold travel reversed
  rw [← trunc_neg]
  congr 1
  push_cast
  ring

theorem displacement_reversed (isPortrait : Bool) (block : List (ℚ × ℚ)) :
    settings.reversed.displacement isPortrait block =
      -settings.displacement isPortrait block := by
  unfold displacement
  rw [travel_reversed, travel_reversed]
  cases isPortrait with
  | false => rfl
  | true => rfl

end Settings

/-! ### Two trajectories -/

namespace MouseProcess

/-- The same samples, and displacements from `start` that are negatives of each other. -/
structure Mirrored (start : Int × Int) (first second : Trajectory) : Prop where
  accepted : second.accepted = first.accepted
  isPortrait : second.isPortrait = first.isPortrait
  position : second.position - start = -(first.position - start)

/-- No lock, and the mouse is not stopped. -/
def Event.Motion : Event ℚ → Prop
  | .sensorCallback _ _ _ | .setPortrait _ => True
  | .startMouse | .stopMouse | .lockMouseAWhile _ _ _ | .unlock _ | .tick _ => False

instance : (event : Event ℚ) → Decidable event.Motion
  | .sensorCallback _ _ _ | .setPortrait _ => isTrue trivial
  | .startMouse | .stopMouse | .lockMouseAWhile _ _ _ | .unlock _ | .tick _ => isFalse id

/-- No sum leaves the type, and no move leaves the screen. -/
def Undisturbed (settings : Settings) (trajectory : Trajectory) (event : Event ℚ) : Prop :=
  settings.SumsInRange trajectory event ∧ settings.Unclamped trajectory event

instance (settings : Settings) (trajectory : Trajectory) (event : Event ℚ) :
    Decidable (Undisturbed settings trajectory event) := inferInstanceAs (Decidable (_ ∧ _))

section

variable {settings : Settings} {start : Int × Int} {first second : Trajectory} {event : Event ℚ}

theorem advance_sensorCallback (hunlocked : first.unlocked = true) (x y z : ℚ) :
    settings.advance first (.sensorCallback x y z) = settings.accept first (x, y) :=
  if_pos hunlocked

theorem unlocked_advance (hmotion : event.Motion) (hunlocked : first.unlocked = true) :
    (settings.advance first event).unlocked = true := by
  cases event with
  | sensorCallback x y z =>
      rw [advance_sensorCallback hunlocked]
      exact hunlocked
  | setPortrait p => exact hunlocked
  | startMouse | stopMouse | lockMouseAWhile | unlock | tick => exact hmotion.elim

/-- The end of a block moves the cursor by the whole displacement, if nothing clamps it. -/
theorem accept_position_of_completes {sample : ℚ × ℚ} {block : List (ℚ × ℚ)}
    (hblock : Blocks.latest settings.averageNum (first.accepted ++ [sample]) = block)
    (hcompletes : settings.Completes first)
    (hkept : settings.clamp (settings.goal first block) = settings.goal first block) :
    (settings.accept first sample).position =
      first.position + settings.displacement first.isPortrait block := by
  subst hblock
  calc (settings.accept first sample).position
      = settings.clamp (settings.goal first
          (Blocks.latest settings.averageNum (first.accepted ++ [sample]))) := if_pos hcompletes
    _ = settings.goal first
          (Blocks.latest settings.averageNum (first.accepted ++ [sample])) := hkept

theorem Mirrored.accept (hmirrored : Mirrored start first second) {x y : ℚ}
    (hfirst : settings.Unclamped first (.sensorCallback x y 0))
    (hsecond : settings.reversed.Unclamped second (.sensorCallback x y 0)) :
    Mirrored start (settings.accept first (x, y)) (settings.reversed.accept second (x, y)) := by
  obtain ⟨haccepted, hportrait, hposition⟩ := hmirrored
  have hsame : settings.reversed.Completes second ↔ settings.Completes first := by
    unfold Settings.Completes
    rw [haccepted]
    rfl
  refine ⟨congrArg (· ++ [(x, y)]) haccepted, hportrait, ?_⟩
  by_cases hcompletes : settings.Completes first
  · have hblock : Blocks.latest settings.reversed.averageNum (second.accepted ++ [(x, y)]) =
        Blocks.latest settings.averageNum (first.accepted ++ [(x, y)]) := by
      rw [haccepted]
      rfl
    have hsecond' := hsecond (hsame.mpr hcompletes)
    rw [hblock] at hsecond'
    rw [accept_position_of_completes rfl hcompletes (hfirst hcompletes),
      accept_position_of_completes hblock (hsame.mpr hcompletes) hsecond',
      Settings.displacement_reversed, hportrait, add_sub_right_comm, add_sub_right_comm, hposition,
      neg_add]
  · have hsecondKept : (settings.reversed.accept second (x, y)).position = second.position :=
      if_neg (hsame.not.mpr hcompletes)
    have hfirstKept : (settings.accept first (x, y)).position = first.position :=
      if_neg hcompletes
    rw [hsecondKept, hfirstKept, hposition]

theorem Mirrored.advance (hmirrored : Mirrored start first second) (hmotion : event.Motion)
    (hunlocked : first.unlocked = true) (hunlocked' : second.unlocked = true)
    (hfirst : settings.Unclamped first event) (hsecond : settings.reversed.Unclamped second event) :
    Mirrored start (settings.advance first event) (settings.reversed.advance second event) := by
  cases event with
  | sensorCallback x y z =>
      rw [advance_sensorCallback hunlocked, advance_sensorCallback hunlocked']
      exact hmirrored.accept hfirst hsecond
  | setPortrait p => exact ⟨hmirrored.accepted, rfl, hmirrored.position⟩
  | startMouse | stopMouse | lockMouseAWhile | unlock | tick => exact hmotion.elim

theorem mirrored_foldl {events : List (Event ℚ)} (hevents : ∀ event ∈ events, event.Motion)
    (hmirrored : Mirrored start first second) (hunlocked : first.unlocked = true)
    (hunlocked' : second.unlocked = true)
    (hfirst : StepsAlong (fun trajectory event => some (settings.advance trajectory event))
      (Undisturbed settings) first events)
    (hsecond : StepsAlong (fun trajectory event => some (settings.reversed.advance trajectory event))
      (Undisturbed settings.reversed) second events) :
    Mirrored start (events.foldl settings.advance first)
      (events.foldl settings.reversed.advance second) := by
  induction events generalizing first second with
  | nil => exact hmirrored
  | cons event rest ih =>
      have hmotion := hevents event (List.mem_cons_self ..)
      obtain ⟨⟨-, hclamp⟩, hrest⟩ := stepsAlong_cons.mp hfirst
      obtain ⟨⟨-, hclamp'⟩, hrest'⟩ := stepsAlong_cons.mp hsecond
      exact ih (fun other hother => hevents other (List.mem_cons_of_mem _ hother))
        (hmirrored.advance hmotion hunlocked hunlocked' hclamp hclamp')
        (unlocked_advance hmotion hunlocked) (unlocked_advance hmotion hunlocked')
        (hrest _ rfl) (hrest' _ rfl)

end

/-! ### The code -/

section

variable {settings : Settings} {process next : MouseProcess ℚ} {trajectory : Trajectory}

theorem Follows.pos_of_step (hfollows : Follows settings process trajectory)
    (hunlocked : trajectory.unlocked = true) {x y z : ℚ}
    (hstep : process.step (.sensorCallback x y z) = some next) : 0 < settings.averageNum := by
  obtain ⟨mouse, hmouse, -⟩ := perform_sensorCallback.mp (perform_of_step hstep)
  obtain ⟨position, computer, hcompute, -⟩ :=
    (MouseManager.sensorCallback_eq_ok (hfollows.accepts_iff.mpr hunlocked)).mp hmouse
  exact hfollows.window.pos_of_computeValue hcompute

theorem Follows.motion (hfollows : Follows settings process trajectory)
    (hunlocked : trajectory.unlocked = true) {event : Event ℚ} (hmotion : event.Motion)
    (hrange : settings.SumsInRange trajectory event) (hstep : process.step event = some next) :
    Follows settings next (settings.advance trajectory event) := by
  cases event with
  | sensorCallback x y z =>
      exact hfollows.step (hfollows.pos_of_step hunlocked hstep) nofun hrange hstep
  | setPortrait p =>
      obtain rfl := Except.ok.inj (perform_of_step hstep)
      exact ⟨hfollows.position, hfollows.unlocked, rfl, hfollows.added, hfollows.display,
        hfollows.window⟩
  | startMouse | stopMouse | lockMouseAWhile | unlock | tick => exact hmotion.elim

/-- The started manager, put at `start` before the first sample. -/
def placed (mouse : MouseManager ℚ) (start : Int × Int) (isPortrait : Bool) : MouseProcess ℚ :=
  ⟨isPortrait, { mouse.startMouse with x := start.1, y := start.2 }⟩

theorem follows_placed {unit back wait : Int} {mouse : MouseManager ℚ} (start : Int × Int)
    (isPortrait : Bool)
    (hcreate : MouseManager.create settings.screenWidth settings.screenHeight settings.averageNum
      settings.magnification settings.offset settings.direction unit back wait = .ok mouse) :
    Follows settings (placed mouse start isPortrait) (settings.startingAt start isPortrait) := by
  obtain ⟨-, hunlocked, hportrait, hadded, hdisplay, hwindow⟩ := follows_create isPortrait hcreate
  exact ⟨rfl, hunlocked, hportrait, hadded, hdisplay, hwindow⟩

theorem position_of_motion {unit back wait : Int} {mouse : MouseManager ℚ} {start : Int × Int}
    {isPortrait : Bool} {events : List (Event ℚ)} {final : MouseProcess ℚ}
    (hcreate : MouseManager.create settings.screenWidth settings.screenHeight settings.averageNum
      settings.magnification settings.offset settings.direction unit back wait = .ok mouse)
    (hevents : ∀ event ∈ events, event.Motion)
    (hkept : StepsAlong (fun trajectory event => some (settings.advance trajectory event))
      (Undisturbed settings) (settings.startingAt start isPortrait) events)
    (hrun : run step (placed mouse start isPortrait) events = some final) :
    final.mouse.position =
      (events.foldl settings.advance (settings.startingAt start isPortrait)).position := by
  have hfollows := run_simulates_of_steps
    (fun process trajectory => Follows settings process trajectory ∧ trajectory.unlocked = true)
    hkept ⟨follows_placed start isPortrait hcreate, rfl⟩
    (fun current trajectory event next hevent ⟨hcurrent, hunlocked⟩ hguard hstep =>
      ⟨hcurrent.motion hunlocked (hevents event hevent) hguard.1 hstep,
        unlocked_advance (hevents event hevent) hunlocked⟩) hrun
  exact hfollows.1.position

end

/-- **Reversing the direction mirrors the motion.** After every run of samples and rotations that no
edge and no overflow disturbs, the two cursors are displaced from their common start by exact
negatives. An `averageNum` below zero throws in the constructor, and one of zero at the first
sample. -/
theorem reversed_direction_law {settings : Settings} {averageNum unit back wait : Int}
    {mouse reversed : MouseManager ℚ} {start : Int × Int} {isPortrait : Bool}
    {events : List (Event ℚ)} {final final' : MouseProcess ℚ}
    (hsize : settings.averageNum = averageNum.toNat)
    (hcreate : MouseManager.create settings.screenWidth settings.screenHeight averageNum
      settings.magnification settings.offset settings.direction unit back wait = .ok mouse)
    (hcreate' : MouseManager.create settings.screenWidth settings.screenHeight averageNum
      settings.magnification settings.offset (-settings.direction) unit back wait = .ok reversed)
    (hevents : ∀ event ∈ events, event.Motion)
    (hkept : StepsAlong (fun trajectory event => some (settings.advance trajectory event))
      (Undisturbed settings) (settings.startingAt start isPortrait) events)
    (hkept' : StepsAlong (fun trajectory event => some (settings.reversed.advance trajectory event))
      (Undisturbed settings.reversed) (settings.startingAt start isPortrait) events)
    (hrun : run step (placed mouse start isPortrait) events = some final)
    (hrun' : run step (placed reversed start isPortrait) events = some final') :
    final'.mouse.position - start = -(final.mouse.position - start) := by
  have hnum : averageNum = settings.averageNum := by
    have hnonneg := MouseManager.nonneg_of_create hcreate
    rw [hsize, Int.toNat_of_nonneg hnonneg]
  rw [hnum] at hcreate hcreate'
  have hposition := position_of_motion hcreate hevents hkept hrun
  have hposition' :=
    @position_of_motion settings.reversed _ _ _ _ _ _ _ _ hcreate' hevents hkept' hrun'
  have hmirrored : Mirrored start
      (events.foldl settings.advance (settings.startingAt start isPortrait))
      (events.foldl settings.reversed.advance (settings.startingAt start isPortrait)) :=
    mirrored_foldl hevents ⟨rfl, rfl, by simp [Settings.startingAt]⟩ rfl rfl hkept hkept'
  rw [hposition, hposition']
  exact hmirrored.position

def byThirds : Settings where
  averageNum := 2
  magnification := 1 / 3
  offset := 5
  direction := 1
  screenWidth := 480
  screenHeight := 800

/-- The screen turns inside the first block. -/
def turning : List (Event ℚ) :=
  [.sensorCallback 1 2 0, .setPortrait false, .sensorCallback 1 (-7) 0, .sensorCallback (-5) 4 0]

theorem reversed_direction_law_turning :
    ∃ final final' : MouseProcess ℚ, final.mouse.position = (103, 192) ∧
      final'.mouse.position - (100, 200) = -(final.mouse.position - (100, 200)) := by
  have hrun : ((MouseManager.create 480 800 2 (1 / 3 : ℚ) 5 1 20 200 1000).toOption.bind
      fun mouse => (run step (placed mouse (100, 200) true) turning).map
        fun final => final.mouse.position) = some (103, 192) := by
    decide +kernel
  have hrun' : ((MouseManager.create 480 800 2 (1 / 3 : ℚ) 5 (-1) 20 200 1000).toOption.bind
      fun mouse => (run step (placed mouse (100, 200) true) turning).map
        fun final => final.mouse.position) = some (97, 208) := by
    decide +kernel
  obtain ⟨mouse, hmouse, hfinal⟩ := Option.bind_eq_some_iff.mp hrun
  obtain ⟨final, hrun, hposition⟩ := Option.map_eq_some_iff.mp hfinal
  obtain ⟨reversed, hreversed, hfinal'⟩ := Option.bind_eq_some_iff.mp hrun'
  obtain ⟨final', hrun', -⟩ := Option.map_eq_some_iff.mp hfinal'
  have hkept : StepsAlong (fun trajectory event => some (byThirds.advance trajectory event))
      (Undisturbed byThirds) (byThirds.startingAt (100, 200) true) turning := by
    decide +kernel
  have hkept' : StepsAlong
      (fun trajectory event => some (byThirds.reversed.advance trajectory event))
      (Undisturbed byThirds.reversed) (byThirds.startingAt (100, 200) true) turning := by
    decide +kernel
  exact ⟨final, final', hposition, @reversed_direction_law byThirds 2 20 200 1000 mouse reversed
    (100, 200) true turning final final' rfl (toOption_eq_some.mp hmouse)
    (toOption_eq_some.mp hreversed) (by decide) hkept hkept' hrun hrun'⟩

end MouseProcess

end SensorMouse
