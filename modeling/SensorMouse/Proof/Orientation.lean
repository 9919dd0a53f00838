import SensorMouse.Proof.Launches

/-!
# How the device is held

`isPortrait` is what the latest `onConfigurationChanged` saw, in whichever instance, and upright before
the first; the screen of an instance is what its constructor saw. A displacement is applied as the
device is held exactly if both still are so: `follows_iff`.
-/

namespace SensorMouse

open Java Lib

/-- How the device was held: now, when `onConfigurationChanged` was last delivered (upright if it never
was), and when the latest service was launched. -/
structure Turns where
  portrait : Bool
  delivered : Bool := true
  launched : Bool
  deriving DecidableEq, Repr

namespace Turns

variable {F : Type}

def next (turns : Turns) : ServiceProcess.Event F → Turns
  | .rotate => { turns with portrait := !turns.portrait }
  | .onConfigurationChanged => { turns with delivered := turns.portrait }
  | .launch _ => { turns with launched := turns.portrait }
  | _ => turns

def after (portrait : Bool) (events : List (ServiceProcess.Event F)) : Turns :=
  events.foldl next { portrait := portrait, launched := portrait }

theorem after_concat (portrait : Bool) (events : List (ServiceProcess.Event F))
    (event : ServiceProcess.Event F) :
    after portrait (events ++ [event]) = (after portrait events).next event := by
  unfold after
  rw [List.foldl_append]
  rfl

end Turns

namespace ServiceProcess

variable {F : Type} [JavaFloat F] {process next : ServiceProcess F}

/-- The width and the height of a display held in one way. -/
def sizeAt (display : Int × Int) (portrait : Bool) : Int × Int :=
  if portrait then display else (display.2, display.1)

theorem sizeAt_eq_iff (display : Int × Int) (first second : Bool) :
    sizeAt display first = sizeAt display second ↔ first = second ∨ display.1 = display.2 := by
  unfold sizeAt
  obtain ⟨width, height⟩ := display
  cases first <;> cases second <;> simp [eq_comm]

omit [JavaFloat F] in
theorem size_eq (process : ServiceProcess F) :
    (process.screenWidth, process.screenHeight) = sizeAt process.display process.portrait := by
  unfold screenWidth screenHeight sizeAt
  split_ifs <;> rfl

/-- The averaged displacement a sensor event of an instance comes to, if it is applied. -/
def displacement (process : ServiceProcess F) (i : Nat) (x y : F) : Option (Fin 3 → Int) :=
  match process.instances[i]? with
  | some launched =>
      if launched.service.mouseManager.Accepts then
        match launched.service.mouseManager.computer.computeValue x y with
        | .ok (position, _) => position
        | .error _ => none
      else none
  | none => none

/-- The axis mapping is that of the device's orientation, and the box is the display as it is held. -/
def Follows (process : ServiceProcess F) (i : Nat) : Prop :=
  process.isPortrait = process.portrait ∧ ∀ launched, process.instances[i]? = some launched →
    (launched.service.mouseManager.screenWidth, launched.service.mouseManager.screenHeight) =
      (process.screenWidth, process.screenHeight)

/-- What the process has kept of its turns. -/
structure Recalls (display : Int × Int) (turns : Turns) (process : ServiceProcess F) : Prop where
  sameDisplay : process.display = display
  portrait : process.portrait = turns.portrait
  isPortrait : process.isPortrait = turns.delivered
  screen : Each (fun i launched => i + 1 = process.instances.length →
    (launched.service.mouseManager.screenWidth, launched.service.mouseManager.screenHeight) =
      sizeAt display turns.launched) process.instances

theorem screen_onStartCommand {screenWidth screenHeight : Int} {intent : Intent F}
    {service : ControllerService F}
    (hstart : ControllerService.onStartCommand screenWidth screenHeight intent = .ok service) :
    (service.mouseManager.screenWidth, service.mouseManager.screenHeight) =
      (screenWidth, screenHeight) := by
  obtain ⟨computer, period, back, wait, compute, -, rfl⟩ :=
    ControllerService.exists_of_onStartCommand hstart
  rfl

omit [JavaFloat F] in
theorem screen_onDestroy (service : ControllerService F) :
    (service.onDestroy.mouseManager.screenWidth, service.onDestroy.mouseManager.screenHeight) =
      (service.mouseManager.screenWidth, service.mouseManager.screenHeight) := by
  obtain ⟨⟨hwidth, hheight⟩, -⟩ := service.mouseManager.stopMouse_frame
  exact Prod.ext hwidth hheight

theorem Recalls.step {display : Int × Int} {turns : Turns} (hrecalls : Recalls display turns process)
    {event : Event F} (hstep : process.step event = some next) :
    Recalls display (turns.next event) next := by
  obtain ⟨hdisplay, hportrait, hflag, hscreen⟩ := hrecalls
  cases stepped_of_step hstep with
  | @launch intent service hstart =>
      obtain ⟨⟨hsamePortrait, hsameDisplay, hsameFlag⟩, hlength⟩ := stopService_frame process
      refine ⟨hsameDisplay.trans hdisplay, hsamePortrait.trans hportrait, hsameFlag.trans hflag, ?_⟩
      dsimp only
      have hnone : Each (fun i (_ : Launched F) => i < process.stopService.instances.length)
          process.stopService.instances :=
        fun i launched hi => (List.getElem?_eq_some_iff.mp hi).1
      refine hnone.concat (fun i launched hlt _ hlast => ?_) fun _ => ?_
      · rw [List.length_append, List.length_singleton] at hlast
        omega
      · rw [screen_onStartCommand hstart, size_eq, hdisplay, hportrait]
        rfl
  | stopService =>
      obtain ⟨⟨hsamePortrait, hsameDisplay, hsameFlag⟩, hlength⟩ := stopService_frame process
      refine ⟨hsameDisplay.trans hdisplay, hsamePortrait.trans hportrait, hsameFlag.trans hflag, ?_⟩
      rw [hlength]
      unfold ServiceProcess.stopService
      split_ifs
      · refine hscreen.modify (fun _ _ _ _ hold => hold) fun launched _ hold hlast => ?_
        rw [screen_onDestroy]
        exact hold hlast
      · exact hscreen
  | rotate =>
      refine ⟨hdisplay, ?_, hflag, hscreen⟩
      rw [Turns.next, ← hportrait]
  | onConfigurationChanged hrunning => exact ⟨hdisplay, hportrait, hportrait, hscreen⟩
  | @own _ i given launched service hgiven hevent hlaunched hservice =>
      have hturns : turns.next event = turns := by
        cases event with
        | onSensorChanged | own => rfl
        | launch | stopService | rotate | onConfigurationChanged | tick | unregisterReceiver
        | finalize => cases hgiven
      rw [hturns]
      refine ⟨hdisplay, hportrait, hflag, ?_⟩
      dsimp only
      rw [List.length_set]
      have hfixed := (ControllerService.keeps_of_step hevent hservice).mouse
      refine hscreen.set (fun _ _ _ _ hold => hold) fun hlast => ?_
      dsimp only
      rw [hfixed.screenWidth, hfixed.screenHeight]
      exact hscreen i launched hlaunched hlast
  | tick elapsed hadvance =>
      refine ⟨hdisplay, hportrait, hflag, ?_⟩
      dsimp only
      rw [List.length_map]
      exact hscreen.map fun _ _ _ hold => hold
  | unregisterReceiver hdestroyed =>
      refine ⟨hdisplay, hportrait, hflag, ?_⟩
      dsimp only
      rw [List.length_modify]
      exact hscreen.modify (fun _ _ _ _ hold => hold) fun _ _ hold => hold
  | @finalize i launched hlaunched hunreachable =>
      refine ⟨hdisplay, hportrait, hflag, ?_⟩
      dsimp only
      rw [List.length_set]
      exact hscreen.set (fun _ _ _ _ hold => hold) fun hlast => hscreen i launched hlaunched hlast

theorem recalls_run {portrait : Bool} {display : Int × Int} {events : List (Event F)}
    (hrun : run step (created portrait display) events = some process) :
    Recalls display (Turns.after portrait events) process := by
  refine run_history (fun past current => Recalls display (Turns.after portrait past) current) ?_ ?_
    hrun
  · exact ⟨rfl, rfl, rfl, each_nil⟩
  · intro past current event next _ hpast hstep
    rw [Turns.after_concat]
    exact hpast.step hstep

/-- **Exactly when the pointer follows the orientation.** A displacement is applied with the mapping and
in the box of the device as it is held exactly if it was held so when `onConfigurationChanged` was last
delivered (upright if it never was), and when this service was launched or the display is square. -/
theorem follows_iff {portrait : Bool} {display : Int × Int} {events : List (Event F)} {i : Nat}
    {x y : F} (hrun : run step (created portrait display) events = some process)
    (happlied : (process.displacement i x y).isSome = true) :
    process.Follows i ↔
      (Turns.after portrait events).delivered = (Turns.after portrait events).portrait ∧
        ((Turns.after portrait events).launched = (Turns.after portrait events).portrait ∨
          display.1 = display.2) := by
  obtain ⟨hdisplay, hportrait, hflag, hscreen⟩ := recalls_run hrun
  unfold displacement at happlied
  cases hlaunched : process.instances[i]? with
  | none => simp [hlaunched] at happlied
  | some launched =>
      simp only [hlaunched] at happlied
      have haccepts : launched.service.mouseManager.Accepts := by
        by_contra hignored
        simp [hignored] at happlied
      have hadded : launched.service.mouseManager.alreadyAdded = true :=
        (Bool.and_eq_true_iff.mp haccepts).2
      have hheld := (instances_run heldRule hrun i launched hlaunched).mouse
      rw [hadded, eq_comm, Bool.and_eq_true, decide_eq_true_iff] at hheld
      have hbox := hscreen i launched hlaunched hheld.2
      unfold Follows
      rw [hportrait, hflag, ← sizeAt_eq_iff, size_eq, hdisplay, hportrait]
      refine and_congr_right fun _ => ?_
      simp [hlaunched, hbox]

/-- Launched and told while the device lies. -/
def lyingEvents : List (Event ℚ) := [.rotate, .launch { averageNum := some 1 }, .onConfigurationChanged]

theorem follows_iff_lying :
    ∃ process : ServiceProcess ℚ, run step (created true (480, 800)) lyingEvents = some process ∧
      (process.displacement 0 10 5).isSome = true ∧ process.Follows 0 := by
  have hfacts : (run step (created (F := ℚ) true (480, 800)) lyingEvents).map
      (fun process => (process.displacement 0 10 5).isSome) = some true := by decide +kernel
  obtain ⟨process, hrun, happlied⟩ := Option.map_eq_some_iff.mp hfacts
  exact ⟨process, hrun, happlied, (follows_iff hrun happlied).mpr (by decide)⟩

/-- The device is turned while the service runs, and the service is told at once. -/
def turnedEvents : List (Event ℚ) := [.launch { averageNum := some 1 }, .rotate, .onConfigurationChanged]

theorem not_follows_turned :
    ¬ ∀ (portrait : Bool) (display : Int × Int) (events : List (Event ℚ))
        (process : ServiceProcess ℚ) (i : Nat) (x y : ℚ),
      (∀ before after, events = before ++ .rotate :: after →
        ∃ rest, after = .onConfigurationChanged :: rest) →
      run step (created portrait display) events = some process →
      (process.displacement i x y).isSome = true → process.Follows i := by
  intro hclaim
  have hfacts : (run step (created (F := ℚ) true (480, 800)) turnedEvents).map (fun process =>
      ((process.displacement 0 10 5).isSome, process.screenWidth, process.instances.map fun launched =>
        launched.service.mouseManager.screenWidth)) = some (true, 800, [480]) := by decide +kernel
  obtain ⟨process, hrun, hall⟩ := Option.map_eq_some_iff.mp hfacts
  obtain ⟨happlied, hnow, hscreens⟩ : (process.displacement 0 10 5).isSome = true ∧
      process.screenWidth = 800 ∧ (process.instances.map fun launched =>
        launched.service.mouseManager.screenWidth) = [480] := by simpa using hall
  have htold : ∀ before after, turnedEvents = before ++ .rotate :: after →
      ∃ rest, after = .onConfigurationChanged :: rest := by
    intro before after hsplit
    rcases before with _ | ⟨first, _ | ⟨second, _ | ⟨third, rest⟩⟩⟩
    · simp [turnedEvents] at hsplit
    · simp only [turnedEvents, List.cons_append, List.nil_append, List.cons.injEq] at hsplit
      exact ⟨[], hsplit.2.2.symm⟩
    · simp [turnedEvents] at hsplit
    · simp [turnedEvents] at hsplit
  have hfollows := hclaim true (480, 800) turnedEvents process 0 10 5 htold hrun happlied
  obtain ⟨launched, hinstances⟩ : ∃ launched, process.instances = [launched] :=
    List.length_eq_one_iff.mp (by simpa using congrArg List.length hscreens)
  have hscreen : launched.service.mouseManager.screenWidth = 480 := by simpa [hinstances] using hscreens
  have hbox := congrArg Prod.fst (hfollows.2 launched (by rw [hinstances]; rfl))
  dsimp only at hbox
  rw [hscreen, hnow] at hbox
  exact absurd hbox (by decide)

end ServiceProcess

end SensorMouse
