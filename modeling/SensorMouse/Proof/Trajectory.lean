import SensorMouse.Proof.BlockLaw
import SensorMouse.Proof.CursorBox

/-!
# The trajectory of the cursor

What the mouse is for, in exact arithmetic and without its buffer: the samples that arrive while the
cursor is not locked are cut into blocks, and the last sample of a block moves the cursor by the sums
over the block. A block goes on through locks and rotations, and the orientation that counts is the
one at its end. `trajectory_law` is the refinement.
-/

namespace SensorMouse

open Java Lib AverageComputerForService

/-! ### The law -/

structure Settings where
  averageNum : Nat
  magnification : ℚ
  offset : Int
  direction : Int
  screenWidth : Int
  screenHeight : Int

/-- `accepted` are the samples that arrived while the cursor was not locked. -/
structure Trajectory where
  position : Int × Int
  accepted : List (ℚ × ℚ) := []
  unlocked : Bool := true
  isPortrait : Bool

namespace Settings

def origin (settings : Settings) (isPortrait : Bool) : Trajectory where
  position := (settings.screenWidth.tdiv 2, settings.screenHeight.tdiv 2)
  isPortrait := isPortrait

def travel (settings : Settings) (component : ℚ × ℚ → ℚ) (block : List (ℚ × ℚ)) : Int :=
  trunc (settings.offset * settings.direction * settings.magnification * (block.map component).sum)

def displacement (settings : Settings) (isPortrait : Bool) (block : List (ℚ × ℚ)) : Int × Int :=
  if isPortrait then (settings.travel Prod.snd block, settings.travel Prod.fst block)
  else (settings.travel Prod.fst block, settings.travel Prod.snd block)

/-- The point the block moves the cursor to, before clamping. -/
def goal (settings : Settings) (trajectory : Trajectory) (block : List (ℚ × ℚ)) : Int × Int :=
  trajectory.position + settings.displacement trajectory.isPortrait block

def Completes (settings : Settings) (trajectory : Trajectory) : Prop :=
  settings.averageNum ∣ trajectory.accepted.length + 1

instance (settings : Settings) (trajectory : Trajectory) :
    Decidable (settings.Completes trajectory) := inferInstanceAs (Decidable (_ ∣ _))

def clamp (settings : Settings) (point : Int × Int) : Int × Int :=
  MouseManager.clampTo settings.screenWidth settings.screenHeight point.1 point.2

def accept (settings : Settings) (trajectory : Trajectory) (sample : ℚ × ℚ) : Trajectory :=
  let accepted := trajectory.accepted ++ [sample]
  { trajectory with
    accepted := accepted
    position :=
      if settings.Completes trajectory then
        settings.clamp (settings.goal trajectory (Blocks.latest settings.averageNum accepted))
      else trajectory.position }

def advance (settings : Settings) (trajectory : Trajectory) :
    MouseProcess.Event ℚ → Trajectory
  | .sensorCallback x y _ =>
      if trajectory.unlocked then settings.accept trajectory (x, y) else trajectory
  | .lockMouseAWhile x y wait =>
      { trajectory with
        position := settings.clamp (x, y)
        unlocked := trajectory.unlocked && !wait }
  | .unlock _ => { trajectory with unlocked := true }
  | .setPortrait p => { trajectory with isPortrait := p }
  | .startMouse | .stopMouse | .tick _ => trajectory

/-- The sums at the end of a block are `int`s. -/
def SumsInRange (settings : Settings) (trajectory : Trajectory) :
    MouseProcess.Event ℚ → Prop
  | .sensorCallback x y _ =>
      trajectory.unlocked = true → settings.Completes trajectory →
        let block := Blocks.latest settings.averageNum (trajectory.accepted ++ [(x, y)])
        let displacement := settings.displacement trajectory.isPortrait block
        let goal := settings.goal trajectory block
        (InRange displacement.1 ∧ InRange displacement.2) ∧ InRange goal.1 ∧ InRange goal.2
  | _ => True

instance (settings : Settings) (trajectory : Trajectory) :
    (event : MouseProcess.Event ℚ) → Decidable (settings.SumsInRange trajectory event)
  | .sensorCallback _ _ _ => inferInstanceAs (Decidable (_ → _ → _))
  | .startMouse | .stopMouse | .setPortrait _ | .lockMouseAWhile _ _ _ | .unlock _ | .tick _ =>
      isTrue trivial

end Settings

/-! ### The averager in exact arithmetic -/

theorem answer_blockSum {settings : Settings} {component : ℚ × ℚ → ℚ} {block : List (ℚ × ℚ)}
    (hrange : InRange (settings.travel component block)) :
    answer settings.offset settings.direction
        (blockSum (block.map fun sample => component sample * settings.magnification)) =
      settings.travel component block := by
  have htotal : (settings.offset : ℚ) * settings.direction *
      (block.map fun sample => settings.magnification * component sample).sum =
        settings.offset * settings.direction * settings.magnification *
          (block.map component).sum := by
    rw [List.sum_map_mul_left, mul_assoc _ settings.magnification]
  rw [answer_blockSum_rat, htotal]
  exact saturate_of_inRange hrange

/-! ### The code follows the law -/

namespace MouseProcess

open MouseManager

/-- The cursor is where the law says, and the averager holds the block the law is in. -/
structure Follows (settings : Settings) (process : MouseProcess ℚ) (trajectory : Trajectory) :
    Prop where
  position : process.mouse.position = trajectory.position
  unlocked : process.mouse.updateSwitch = trajectory.unlocked
  isPortrait : process.isPortrait = trajectory.isPortrait
  added : process.mouse.alreadyAdded = true
  display : process.mouse.clamped = fun x y => settings.clamp (x, y)
  window : Window settings.averageNum settings.magnification settings.offset settings.direction
    trajectory.accepted process.mouse.computer

variable {settings : Settings} {process next : MouseProcess ℚ} {trajectory : Trajectory}

theorem follows_create {unit back wait : Int} {mouse : MouseManager ℚ} (isPortrait : Bool)
    (hcreate : MouseManager.create settings.screenWidth settings.screenHeight settings.averageNum
      settings.magnification settings.offset settings.direction unit back wait = .ok mouse) :
    Follows settings ⟨isPortrait, mouse.startMouse⟩ (settings.origin isPortrait) := by
  obtain ⟨computer, hcomputer, hmouse⟩ := bind_eq_ok.mp hcreate
  obtain rfl := Except.ok.inj hmouse
  exact ⟨rfl, rfl, rfl, rfl, rfl, window_create hcomputer⟩

theorem Follows.accepts_iff (hfollows : Follows settings process trajectory) :
    process.mouse.Accepts ↔ trajectory.unlocked = true := by
  unfold MouseManager.Accepts
  rw [hfollows.added, hfollows.unlocked, Bool.and_true]

theorem Follows.applied (hfollows : Follows settings process trajectory)
    {position : Fin 3 → Int} {block : List (ℚ × ℚ)} (computer : AverageComputerForService ℚ)
    (hfirst : position 0 = settings.travel Prod.fst block)
    (hsecond : position 1 = settings.travel Prod.snd block)
    (hgoal : InRange (settings.goal trajectory block).1 ∧
      InRange (settings.goal trajectory block).2) :
    ({ process.mouse with computer := computer }.applied process.isPortrait
      (some position)).position = settings.clamp (settings.goal trajectory block) := by
  have hplace : process.mouse.displaced process.isPortrait position =
      settings.goal trajectory block := by
    have hwrapped : settings.goal trajectory block =
        (wrap (settings.goal trajectory block).1, wrap (settings.goal trajectory block).2) := by
      rw [wrap_of_inRange hgoal.1, wrap_of_inRange hgoal.2]
    rw [hwrapped]
    unfold displaced Settings.goal Settings.displacement
    rw [← hfollows.position, hfollows.isPortrait, hfirst, hsecond]
    cases trajectory.isPortrait <;> rfl
  calc ({ process.mouse with computer := computer }.applied process.isPortrait
        (some position)).position
      = process.mouse.clamped (process.mouse.displaced process.isPortrait position).1
          (process.mouse.displaced process.isPortrait position).2 := rfl
    _ = settings.clamp (process.mouse.displaced process.isPortrait position) := by
        rw [hfollows.display]
    _ = settings.clamp (settings.goal trajectory block) := by rw [hplace]

theorem inRange_travel {isPortrait : Bool} {block : List (ℚ × ℚ)}
    (hrange : InRange (settings.displacement isPortrait block).1 ∧
      InRange (settings.displacement isPortrait block).2) :
    InRange (settings.travel Prod.fst block) ∧ InRange (settings.travel Prod.snd block) := by
  cases isPortrait with
  | false => exact hrange
  | true => exact hrange.symm

theorem Follows.sensorCallback (hfollows : Follows settings process trajectory)
    (hpos : 0 < settings.averageNum) (x y z : ℚ)
    (hrange : settings.SumsInRange trajectory (.sensorCallback x y z)) :
    ∃ mouse, process.mouse.sensorCallback process.isPortrait x y z = .ok mouse ∧
      Follows settings { process with mouse := mouse }
        (settings.advance trajectory (.sensorCallback x y z)) := by
  by_cases hunlocked : trajectory.unlocked = true
  · have haccepts := hfollows.accepts_iff.mpr hunlocked
    have hadvance : settings.advance trajectory (.sensorCallback x y z) =
        settings.accept trajectory (x, y) := if_pos hunlocked
    rw [hadvance]
    by_cases hcompletes : settings.Completes trajectory
    · obtain ⟨values, computer, hcompute, hwindow, hzero, hone⟩ :=
        hfollows.window.computeValue_of_dvd hpos x y hcompletes
      obtain ⟨hdisplacement, hgoal⟩ := hrange hunlocked hcompletes
      obtain ⟨hfst, hsnd⟩ := inRange_travel hdisplacement
      have hposition := hfollows.applied computer (hzero.trans (answer_blockSum hfst))
        (hone.trans (answer_blockSum hsnd)) hgoal
      refine ⟨_, (sensorCallback_eq_ok haccepts).mpr ⟨some values, computer, hcompute, rfl⟩, ?_⟩
      refine ⟨?_, hfollows.unlocked, hfollows.isPortrait, hfollows.added, hfollows.display, hwindow⟩
      exact hposition.trans (if_pos hcompletes).symm
    · obtain ⟨computer, hcompute, hwindow⟩ :=
        hfollows.window.computeValue_of_not_dvd hpos x y hcompletes
      refine ⟨_, (sensorCallback_eq_ok haccepts).mpr ⟨none, computer, hcompute, rfl⟩, ?_⟩
      refine ⟨?_, hfollows.unlocked, hfollows.isPortrait, hfollows.added, hfollows.display, hwindow⟩
      exact hfollows.position.trans (if_neg hcompletes).symm
  · have hignored := hfollows.accepts_iff.not.mpr hunlocked
    have hadvance : settings.advance trajectory (.sensorCallback x y z) = trajectory :=
      if_neg hunlocked
    rw [hadvance]
    exact ⟨process.mouse, sensorCallback_of_not_accepts hignored _ x y z, hfollows⟩

theorem Follows.step (hfollows : Follows settings process trajectory)
    (hpos : 0 < settings.averageNum) {event : Event ℚ} (hstarted : event ≠ .stopMouse)
    (hrange : settings.SumsInRange trajectory event) (hstep : process.step event = some next) :
    Follows settings next (settings.advance trajectory event) := by
  have hperform := perform_of_step hstep
  obtain ⟨hposition, hunlocked, hportrait, hadded, hdisplay, hwindow⟩ := hfollows
  cases event with
  | startMouse =>
      obtain rfl := Except.ok.inj hperform
      unfold MouseManager.startMouse
      rw [if_pos hadded]
      exact ⟨hposition, hunlocked, hportrait, hadded, hdisplay, hwindow⟩
  | stopMouse => exact absurd rfl hstarted
  | setPortrait p =>
      obtain rfl := Except.ok.inj hperform
      exact ⟨hposition, hunlocked, rfl, hadded, hdisplay, hwindow⟩
  | sensorCallback x y z =>
      obtain ⟨mouse, hmouse, hnext⟩ := Follows.sensorCallback
        ⟨hposition, hunlocked, hportrait, hadded, hdisplay, hwindow⟩ hpos x y z hrange
      obtain ⟨moved, hmoved, rfl⟩ := perform_sensorCallback.mp hperform
      obtain rfl := Except.ok.inj (hmouse.symm.trans hmoved)
      exact hnext
  | lockMouseAWhile x y wait =>
      obtain ⟨mouse, hmouse, rfl⟩ := perform_lockMouseAWhile.mp hperform
      obtain ⟨-, rfl⟩ := lockMouseAWhile_eq_ok.mp hmouse
      have htarget : (process.mouse.clamped x y) = settings.clamp (x, y) := by rw [hdisplay]
      cases wait with
      | false =>
          have hsame : process.mouse.updateSwitch = (trajectory.unlocked && !false) :=
            hunlocked.trans (Bool.and_true _).symm
          exact ⟨htarget, hsame, hportrait, hadded, hdisplay, hwindow⟩
      | true =>
          have hlocked : false = (trajectory.unlocked && !true) := (Bool.and_false _).symm
          exact ⟨htarget, hlocked, hportrait, hadded, hdisplay, hwindow⟩
  | unlock entry =>
      obtain rfl := Except.ok.inj hperform
      exact ⟨hposition, rfl, hportrait, hadded, hdisplay, hwindow⟩
  | tick elapsed =>
      obtain rfl := Except.ok.inj hperform
      exact ⟨hposition, hunlocked, hportrait, hadded, hdisplay, hwindow⟩

theorem Follows.isSome_sensorCallback (hfollows : Follows settings process trajectory)
    (hpos : 0 < settings.averageNum) (x y z : ℚ) :
    (process.step (.sensorCallback x y z)).isSome := by
  have hcompute : ∃ position computer,
      process.mouse.computer.computeValue x y = .ok (position, computer) := by
    by_cases hcompletes : settings.Completes trajectory
    · obtain ⟨values, computer, hcompute, -⟩ :=
        hfollows.window.computeValue_of_dvd hpos x y hcompletes
      exact ⟨some values, computer, hcompute⟩
    · obtain ⟨computer, hcompute, -⟩ :=
        hfollows.window.computeValue_of_not_dvd hpos x y hcompletes
      exact ⟨none, computer, hcompute⟩
  have hmouse : ∃ mouse, process.mouse.sensorCallback process.isPortrait x y z = .ok mouse := by
    by_cases haccepts : process.mouse.Accepts
    · obtain ⟨position, computer, hvalue⟩ := hcompute
      exact ⟨_, (sensorCallback_eq_ok haccepts).mpr ⟨position, computer, hvalue, rfl⟩⟩
    · exact ⟨process.mouse, sensorCallback_of_not_accepts haccepts _ x y z⟩
  obtain ⟨mouse, hmouse⟩ := hmouse
  have hperform := perform_sensorCallback.mpr ⟨mouse, hmouse, rfl⟩
  exact Option.isSome_of_mem (toOption_eq_some.mpr hperform)

/-- **The trajectory law.** In exact arithmetic, and as long as the sums at the ends of the blocks are
`int`s, the cursor of a started manager is after every run where the law says, and a further sample
never throws. -/
theorem trajectory_law {settings : Settings} {unit back wait : Int} {mouse : MouseManager ℚ}
    {isPortrait : Bool} {events : List (Event ℚ)} {final : MouseProcess ℚ}
    (hpos : 1 ≤ settings.averageNum)
    (hcreate : MouseManager.create settings.screenWidth settings.screenHeight settings.averageNum
      settings.magnification settings.offset settings.direction unit back wait = .ok mouse)
    (hstarted : ∀ event ∈ events, event ≠ .stopMouse)
    (hrange : StepsAlong (fun trajectory event => some (settings.advance trajectory event))
      settings.SumsInRange (settings.origin isPortrait) events)
    (hrun : run step ⟨isPortrait, mouse.startMouse⟩ events = some final) :
    final.mouse.position = (events.foldl settings.advance (settings.origin isPortrait)).position ∧
      final.mouse.updateSwitch =
        (events.foldl settings.advance (settings.origin isPortrait)).unlocked ∧
      ∀ x y z, (final.step (.sensorCallback x y z)).isSome := by
  have hfollows : Follows settings final
      (events.foldl settings.advance (settings.origin isPortrait)) := by
    refine run_simulates_of_steps (Follows settings) hrange (follows_create isPortrait hcreate) ?_ hrun
    intro current trajectory event next hevent hcurrent hsums hstep
    exact hcurrent.step hpos (hstarted event hevent) hsums hstep
  exact ⟨hfollows.position, hfollows.unlocked, hfollows.isSome_sensorCallback hpos⟩

def pairwise : Settings where
  averageNum := 2
  magnification := 1 / 2
  offset := 3
  direction := -1
  screenWidth := 480
  screenHeight := 800

/-- A lock and a rotation between the two samples of a block. -/
def lockInBlock : List (Event ℚ) :=
  [.sensorCallback 1 2 0, .lockMouseAWhile 10 20 true, .sensorCallback 100 100 0, .tick 1000,
    .unlock ⟨0, 1000, ()⟩, .setPortrait false, .sensorCallback (-5) (-7) 0]

theorem trajectory_law_lockInBlock :
    ∃ final : MouseProcess ℚ, final.mouse.position = (16, 27) ∧
      (final.mouse.position =
          (lockInBlock.foldl pairwise.advance (pairwise.origin true)).position ∧
        final.mouse.updateSwitch =
          (lockInBlock.foldl pairwise.advance (pairwise.origin true)).unlocked ∧
        ∀ x y z, (final.step (.sensorCallback x y z)).isSome) := by
  have hsome : ((MouseManager.create 480 800 2 (1 / 2 : ℚ) 3 (-1) 20 200 1000).toOption.bind
      fun mouse => (run step ⟨true, mouse.startMouse⟩ lockInBlock).map
        fun final => final.mouse.position) = some (16, 27) := by
    decide +kernel
  obtain ⟨mouse, hmouse, hfinal⟩ := Option.bind_eq_some_iff.mp hsome
  obtain ⟨final, hrun, hposition⟩ := Option.map_eq_some_iff.mp hfinal
  have hstarted : ∀ event ∈ lockInBlock, event ≠ .stopMouse := by simp [lockInBlock]
  have hrange : StepsAlong (fun trajectory event => some (pairwise.advance trajectory event))
      pairwise.SumsInRange (pairwise.origin true) lockInBlock := by
    decide +kernel
  exact ⟨final, hposition, trajectory_law (by decide)
    (toOption_eq_some.mp hmouse) hstarted hrange hrun⟩

end MouseProcess

end SensorMouse
