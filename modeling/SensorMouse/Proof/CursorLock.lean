import SensorMouse.Mouse.MouseManager

/-!
# How long the cursor is locked

Every lock has its own timer and every timer clears the same switch, so the first timer that runs
after the latest lock ends it, whoever started it. `TimerLedger` says what the switch and the pending
timers have to do with the times of the lock calls; a sample is judged rightly exactly if no timer of
an earlier lock ran inside the latest lock.
-/

namespace SensorMouse

open Java Lib

variable {F : Type}

namespace MouseProcess

/-! ### The times of a run -/

def Event.elapsed : Event F → Nat
  | .tick elapsed => elapsed
  | _ => 0

def clock (events : List (Event F)) : Nat := (events.map Event.elapsed).sum

def Event.IsLock : Event F → Prop
  | .lockMouseAWhile _ _ wait => wait = true
  | _ => False

instance : (event : Event F) → Decidable event.IsLock
  | .lockMouseAWhile _ _ wait => inferInstanceAs (Decidable (wait = true))
  | .startMouse | .stopMouse | .setPortrait _ | .sensorCallback .. | .unlock _ | .tick _ =>
      inferInstanceAs (Decidable False)

/-- The times of the lock calls, oldest first, when the events start at `now`. -/
def lockTimes (now : Nat) : List (Event F) → List Nat
  | [] => []
  | event :: rest =>
      (if event.IsLock then [now] else []) ++ lockTimes (now + event.elapsed) rest

theorem clock_concat (events : List (Event F)) (event : Event F) :
    clock (events ++ [event]) = clock events + event.elapsed := by
  simp [clock]

theorem lockTimes_concat (now : Nat) (events : List (Event F)) (event : Event F) :
    lockTimes now (events ++ [event]) =
      lockTimes now events ++ if event.IsLock then [now + clock events] else [] := by
  induction events generalizing now with
  | nil => simp [lockTimes, clock]
  | cons first rest ih =>
      have hclock : now + first.elapsed + clock rest = now + clock (first :: rest) := by
        simp [clock, Nat.add_assoc]
      rw [List.cons_append, lockTimes, lockTimes, ih, hclock, List.append_assoc]

def Event.IsStop : Event F → Prop
  | .stopMouse => True
  | _ => False

end MouseProcess

namespace MouseManager

/-- A lock call at `time` whose timer runs after the latest lock call. -/
def Outlives (wait : Nat) (locks : List Nat) (time : Nat) : Prop :=
  ∀ last ∈ locks.getLast?, last < time + wait ∨ time = last

/-- The switch and the pending timers of a started manager, by the times of the lock calls. -/
structure TimerLedger (wait : Nat) (locks : List Nat) (mouse : MouseManager F) : Prop where
  alreadyAdded : mouse.alreadyAdded = true
  timewait : mouse.timewait = wait
  past : ∀ time ∈ locks, time ≤ mouse.timers.now
  sorted : ∀ time ∈ locks, ∀ last ∈ locks.getLast?, time ≤ last
  punctual : ∀ entry ∈ mouse.timers.pending, mouse.timers.now ≤ entry.due
  pending : ∀ entry ∈ mouse.timers.pending,
    ∃ time ∈ locks, entry.due = time + wait ∧ Outlives wait locks time
  running : ∀ time ∈ locks, mouse.timers.now < time + wait →
    ∃ entry ∈ mouse.timers.pending, entry.due = time + wait
  locked : mouse.updateSwitch = false → locks ≠ [] ∧ ∀ time ∈ locks, Outlives wait locks time →
    ∃ entry ∈ mouse.timers.pending, entry.due = time + wait
  unlocked : mouse.updateSwitch = true → locks ≠ [] →
    ∃ time ∈ locks, Outlives wait locks time ∧ time + wait ≤ mouse.timers.now

variable {mouse next : MouseManager F} {wait : Nat} {locks : List Nat}

theorem TimerLedger.of_eq (hledger : TimerLedger wait locks mouse)
    (hadded : next.alreadyAdded = mouse.alreadyAdded) (hwait : next.timewait = mouse.timewait)
    (htimers : next.timers = mouse.timers) (hswitch : next.updateSwitch = mouse.updateSwitch) :
    TimerLedger wait locks next where
  alreadyAdded := hadded.trans hledger.alreadyAdded
  timewait := hwait.trans hledger.timewait
  past := by
    rw [htimers]
    exact hledger.past
  sorted := hledger.sorted
  punctual := by
    rw [htimers]
    exact hledger.punctual
  pending := by
    rw [htimers]
    exact hledger.pending
  running := by
    rw [htimers]
    exact hledger.running
  locked := by
    rw [htimers, hswitch]
    exact hledger.locked
  unlocked := by
    rw [htimers, hswitch]
    exact hledger.unlocked

theorem TimerLedger.tick (hledger : TimerLedger wait locks mouse) {elapsed : Nat}
    (hpunctual : ∀ entry ∈ mouse.timers.pending, mouse.timers.now + elapsed ≤ entry.due) :
    TimerLedger wait locks { mouse with timers := mouse.timers.advance elapsed } where
  alreadyAdded := hledger.alreadyAdded
  timewait := hledger.timewait
  past time hmem := (hledger.past time hmem).trans (Nat.le_add_right _ _)
  sorted := hledger.sorted
  punctual := hpunctual
  pending := hledger.pending
  running time hmem hlater := by
    simp only [DelayQueue.now_advance] at hlater
    exact hledger.running time hmem (by omega)
  locked := hledger.locked
  unlocked hswitch hlocks := by
    obtain ⟨time, hmem, houtlives, hover⟩ := hledger.unlocked hswitch hlocks
    exact ⟨time, hmem, houtlives, hover.trans (Nat.le_add_right _ _)⟩

/-- A timer due now runs: it is the timer of a lock that outlives the latest. -/
theorem TimerLedger.unlock (hledger : TimerLedger wait locks mouse) {entry : Entry Unit}
    (hmem : entry ∈ mouse.timers.pending) (hdue : entry.due = mouse.timers.now) :
    TimerLedger wait locks (mouse.unlock entry) where
  alreadyAdded := hledger.alreadyAdded
  timewait := hledger.timewait
  past := hledger.past
  sorted := hledger.sorted
  punctual other hother := hledger.punctual other (DelayQueue.mem_of_mem_take hother)
  pending other hother := hledger.pending other (DelayQueue.mem_of_mem_take hother)
  running time htime hlater := by
    obtain ⟨other, hother, hotherDue⟩ := hledger.running time htime hlater
    refine ⟨other, DelayQueue.mem_take_of_ne hother ?_, hotherDue⟩
    rintro rfl
    have hlater' : mouse.timers.now < time + wait := hlater
    omega
  locked hswitch := by cases hswitch
  unlocked _ _ := by
    obtain ⟨time, htime, htimeDue, houtlives⟩ := hledger.pending entry hmem
    exact ⟨time, htime, houtlives, by rw [← htimeDue, hdue]; exact le_rfl⟩

/-- A lock call, made when no timer is due. -/
theorem TimerLedger.lock (hledger : TimerLedger wait locks mouse) (x y : Int)
    (hpunctual : ∀ entry ∈ mouse.timers.pending, mouse.timers.now < entry.due) :
    TimerLedger wait (locks ++ [mouse.timers.now])
      { mouse.updateMousePosition x y with
        updateSwitch := false
        timers := mouse.timers.post () mouse.timewait.toNat } := by
  have hdelay : mouse.timewait.toNat = wait := by
    rw [hledger.timewait]
    exact Int.toNat_natCast wait
  rw [hdelay]
  have hlast : (locks ++ [mouse.timers.now]).getLast? = some mouse.timers.now :=
    List.getLast?_concat ..
  have houtlives : ∀ time, mouse.timers.now < time + wait ∨ time = mouse.timers.now →
      Outlives wait (locks ++ [mouse.timers.now]) time := by
    intro time htime last hmem
    rw [hlast, Option.mem_some_iff] at hmem
    rwa [← hmem]
  have hnew : ∃ entry ∈ (mouse.timers.post () wait).pending,
      entry.due = mouse.timers.now + wait :=
    ⟨_, DelayQueue.mem_pending_post.mpr (Or.inr rfl), rfl⟩
  have hold : ∀ time ∈ locks, mouse.timers.now < time + wait →
      ∃ entry ∈ (mouse.timers.post () wait).pending, entry.due = time + wait := by
    intro time hmem hlater
    obtain ⟨entry, hentry, hdue⟩ := hledger.running time hmem hlater
    exact ⟨entry, DelayQueue.mem_pending_post.mpr (Or.inl hentry), hdue⟩
  have hpast : ∀ time ∈ locks ++ [mouse.timers.now], time ≤ mouse.timers.now := by
    intro time hmem
    rcases List.mem_append.mp hmem with hmem | hmem
    · exact hledger.past time hmem
    · exact (List.mem_singleton.mp hmem).le
  refine ⟨hledger.alreadyAdded, hledger.timewait, hpast, ?_, ?_, ?_, ?_, ?_, ?_⟩
  · intro time hmem last hmemLast
    rw [hlast, Option.mem_some_iff] at hmemLast
    exact hmemLast ▸ hpast time hmem
  · intro entry hmem
    rcases DelayQueue.mem_pending_post.mp hmem with hmem | rfl
    · exact (hpunctual entry hmem).le
    · exact Nat.le_add_right _ _
  · intro entry hmem
    rcases DelayQueue.mem_pending_post.mp hmem with hmem | rfl
    · obtain ⟨time, htime, hdue, -⟩ := hledger.pending entry hmem
      have hlater := hpunctual entry hmem
      exact ⟨time, List.mem_append_left _ htime, hdue, houtlives time (Or.inl (by omega))⟩
    · exact ⟨mouse.timers.now, List.mem_append_right _ (List.mem_singleton_self _), rfl,
        houtlives _ (Or.inr rfl)⟩
  · intro time hmem hlater
    rcases List.mem_append.mp hmem with hmem | hmem
    · exact hold time hmem hlater
    · rw [List.mem_singleton.mp hmem]
      exact hnew
  · intro _
    refine ⟨by simp, fun time hmem htime => ?_⟩
    rcases List.mem_append.mp hmem with hmem | hmem
    · rcases htime mouse.timers.now (by rw [hlast]; rfl) with hlater | rfl
      · exact hold time hmem hlater
      · exact hnew
    · rw [List.mem_singleton.mp hmem]
      exact hnew
  · intro hswitch
    cases hswitch

/-- At a moment when no timer is due, the switch is on exactly if some timer has run since the latest
lock call. -/
theorem TimerLedger.not_accepts_iff (hledger : TimerLedger wait locks mouse)
    (hpunctual : ∀ entry ∈ mouse.timers.pending, mouse.timers.now < entry.due) :
    ¬ mouse.Accepts ↔ locks ≠ [] ∧
      ∀ time ∈ locks, Outlives wait locks time → mouse.timers.now < time + wait := by
  have hgate : mouse.Accepts ↔ mouse.updateSwitch = true := by
    simp [Accepts, hledger.alreadyAdded]
  rw [hgate, Bool.not_eq_true]
  constructor
  · intro hswitch
    obtain ⟨hlocks, hrunning⟩ := hledger.locked hswitch
    refine ⟨hlocks, fun time hmem houtlives => ?_⟩
    obtain ⟨entry, hentry, hdue⟩ := hrunning time hmem houtlives
    exact hdue ▸ hpunctual entry hentry
  · rintro ⟨hlocks, hrunning⟩
    by_contra hswitch
    obtain ⟨time, hmem, houtlives, hover⟩ :=
      hledger.unlocked (by simpa using hswitch) hlocks
    have hlater := hrunning time hmem houtlives
    omega

theorem TimerLedger.inForce_iff (hledger : TimerLedger wait locks mouse) :
    (∃ time ∈ locks, time ≤ mouse.timers.now ∧ mouse.timers.now < time + wait) ↔
      ∃ last ∈ locks.getLast?, mouse.timers.now < last + wait := by
  constructor
  · rintro ⟨time, hmem, -, hlater⟩
    have hne : locks ≠ [] := List.ne_nil_of_mem hmem
    refine ⟨locks.getLast hne, List.getLast?_eq_getLast_of_ne_nil hne, ?_⟩
    have hsorted := hledger.sorted time hmem _ (List.getLast?_eq_getLast_of_ne_nil hne)
    omega
  · rintro ⟨last, hlast, hlater⟩
    have hmem : last ∈ locks := List.mem_of_getLast? hlast
    exact ⟨last, hmem, hledger.past last hmem, hlater⟩

theorem TimerLedger.judged_iff (hledger : TimerLedger wait locks mouse)
    (hpunctual : ∀ entry ∈ mouse.timers.pending, mouse.timers.now < entry.due) :
    (¬ mouse.Accepts ↔
        ∃ time ∈ locks, time ≤ mouse.timers.now ∧ mouse.timers.now < time + wait) ↔
      ¬ ∃ time ∈ locks, ∃ last ∈ locks.getLast?, last < time + wait ∧
        time + wait ≤ mouse.timers.now ∧ mouse.timers.now < last + wait := by
  rw [hledger.not_accepts_iff hpunctual, hledger.inForce_iff]
  cases hlast : locks.getLast? with
  | none =>
      have hempty : locks = [] := List.getLast?_eq_none_iff.mp hlast
      simp [hempty]
  | some last =>
      have hmem : last ∈ locks := List.mem_of_getLast? hlast
      have hne : locks ≠ [] := List.ne_nil_of_mem hmem
      have houtlives : ∀ time, Outlives wait locks time ↔ (last < time + wait ∨ time = last) := by
        intro time
        simp [Outlives, hlast]
      simp only [houtlives, hne, ne_eq, not_false_eq_true, true_and, Option.mem_some_iff,
        exists_eq_left']
      constructor
      · rintro hjudged ⟨time, htime, hinside, hover, hinForce⟩
        have hlater := hjudged.mpr hinForce time htime (Or.inl hinside)
        omega
      · intro hnone
        constructor
        · intro hrunning
          exact hrunning last hmem (Or.inr rfl)
        · intro hinForce time htime houtlives
          rcases houtlives with hinside | rfl
          · by_contra hover
            exact hnone ⟨time, htime, hinside, by omega, hinForce⟩
          · exact hinForce

end MouseManager

namespace MouseProcess

open MouseManager

variable [JavaFloat F] {process next : MouseProcess F} {wait : Nat} {locks : List Nat}
  {event : Event F}

theorem frame_sensorCallback {x y z : F}
    (hperform : process.perform (.sensorCallback x y z) = .ok next) :
    (next.mouse.alreadyAdded = process.mouse.alreadyAdded ∧
      next.mouse.timewait = process.mouse.timewait) ∧
      next.mouse.timers = process.mouse.timers ∧
        next.mouse.updateSwitch = process.mouse.updateSwitch := by
  obtain ⟨mouse, hmouse, rfl⟩ := perform_sensorCallback.mp hperform
  rcases exists_of_sensorCallback hmouse with ⟨computer, rfl⟩ | ⟨-, computer, position, rfl⟩
  · exact ⟨⟨rfl, rfl⟩, rfl, rfl⟩
  · exact ⟨⟨rfl, rfl⟩, rfl, rfl⟩

theorem timerLedger_step (hledger : TimerLedger wait locks process.mouse) (hevent : ¬ event.IsStop)
    (hstep : process.punctualStep event = some next) :
    TimerLedger wait (locks ++ if event.IsLock then [process.mouse.timers.now] else []) next.mouse ∧
      next.mouse.timers.now = process.mouse.timers.now + event.elapsed := by
  obtain ⟨hpunctual, hmade⟩ := punctualStep_eq_some.mp hstep
  have hperform := perform_of_step hmade
  have hother : ¬ event.IsLock →
      (locks ++ if event.IsLock then [process.mouse.timers.now] else []) = locks := by
    intro hnot
    rw [if_neg hnot, List.append_nil]
  cases event with
  | stopMouse => exact absurd trivial hevent
  | unlock entry =>
      rw [hother id]
      simp only [step] at hmade
      split_ifs at hmade with hmem
      obtain rfl := Except.ok.inj hperform
      exact ⟨hledger.unlock hmem hpunctual, rfl⟩
  | tick elapsed =>
      rw [hother id]
      obtain rfl := Except.ok.inj hperform
      exact ⟨hledger.tick hpunctual, rfl⟩
  | setPortrait p =>
      rw [hother id]
      obtain rfl := Except.ok.inj hperform
      exact ⟨hledger, rfl⟩
  | startMouse =>
      have hstarted : process.mouse.startMouse = process.mouse.call .register := by
        unfold MouseManager.startMouse
        rw [if_pos hledger.alreadyAdded]
      rw [hother id]
      obtain rfl := Except.ok.inj hperform
      rw [hstarted]
      exact ⟨hledger.of_eq rfl rfl rfl rfl, rfl⟩
  | sensorCallback x y z =>
      rw [hother id]
      obtain ⟨⟨hadded, hwait⟩, htimers, hswitch⟩ := frame_sensorCallback hperform
      refine ⟨hledger.of_eq hadded hwait htimers hswitch, ?_⟩
      rw [htimers]
      rfl
  | lockMouseAWhile x y wait' =>
      obtain ⟨mouse, hmouse, rfl⟩ := perform_lockMouseAWhile.mp hperform
      obtain ⟨-, rfl⟩ := lockMouseAWhile_eq_ok.mp hmouse
      cases wait' with
      | false =>
          have hnot : ¬ (Event.lockMouseAWhile x y false : Event F).IsLock := Bool.false_ne_true
          rw [hother hnot]
          exact ⟨hledger.of_eq rfl rfl rfl rfl, rfl⟩
      | true => exact ⟨hledger.lock x y hpunctual, rfl⟩

def FreshlyStarted (wait : Nat) (mouse : MouseManager F) : Prop :=
  mouse.alreadyAdded = true ∧ mouse.updateSwitch = true ∧ mouse.timers = {} ∧ mouse.timewait = wait

instance (wait : Nat) (mouse : MouseManager F) : Decidable (FreshlyStarted wait mouse) :=
  inferInstanceAs (Decidable (_ ∧ _ ∧ _ ∧ _))

theorem timerLedger_run {start : MouseProcess F} {events : List (Event F)}
    (hstart : FreshlyStarted wait start.mouse) (hevents : ∀ event ∈ events, ¬ event.IsStop)
    (hrun : run punctualStep start events = some process) :
    TimerLedger wait (lockTimes 0 events) process.mouse ∧ process.mouse.timers.now = clock events := by
  obtain ⟨hadded, hswitch, htimers, hwait⟩ := hstart
  refine run_history (fun past current => (∀ event ∈ past, ¬ event.IsStop) →
    TimerLedger wait (lockTimes 0 past) current.mouse ∧ current.mouse.timers.now = clock past)
    ?_ ?_ hrun hevents
  · intro _
    refine ⟨⟨hadded, hwait, ?_, ?_, ?_, ?_, ?_, ?_, ?_⟩, by rw [htimers]; rfl⟩ <;>
      simp [lockTimes, htimers, hswitch]
  · intro past current event next _ hpast hstep hstops
    obtain ⟨hledger, hnow⟩ := hpast fun other hmem => hstops other (List.mem_append_left _ hmem)
    have hevent : ¬ event.IsStop := hstops event (by simp)
    obtain ⟨hnext, hclock⟩ := timerLedger_step hledger hevent hstep
    rw [lockTimes_concat, clock_concat, Nat.zero_add, ← hnow]
    exact ⟨hnext, hclock⟩

/-- **Exactly when the lock lasts as long as asked.** At every sample of every punctual run of a
started manager, the sample is ignored exactly while a lock call is in force, exactly if no timer of
an earlier lock call ran inside the latest one. -/
theorem ignored_iff_inForce_iff {start : MouseProcess F} {events : List (Event F)} {x y z : F}
    (hstart : FreshlyStarted wait start.mouse) (hevents : ∀ event ∈ events, ¬ event.IsStop)
    (hrun : run punctualStep start events = some process)
    (hsample : process.punctualStep (.sensorCallback x y z) = some next) :
    (¬ process.mouse.Accepts → next = process) ∧
      ((¬ process.mouse.Accepts ↔
          ∃ time ∈ lockTimes 0 events, time ≤ clock events ∧ clock events < time + wait) ↔
        ¬ ∃ time ∈ lockTimes 0 events, ∃ last ∈ (lockTimes 0 events).getLast?,
          last < time + wait ∧ time + wait ≤ clock events ∧ clock events < last + wait) := by
  obtain ⟨hledger, hnow⟩ := timerLedger_run hstart hevents hrun
  obtain ⟨hpunctual, hstep⟩ := punctualStep_eq_some.mp hsample
  refine ⟨fun hignored => ?_, ?_⟩
  · obtain ⟨mouse, hmouse, rfl⟩ := perform_sensorCallback.mp (perform_of_step hstep)
    rw [sensorCallback_of_not_accepts hignored] at hmouse
    obtain rfl := Except.ok.inj hmouse
    rfl
  · rw [← hnow]
    exact hledger.judged_iff hpunctual

def startedMouse : Except JavaException (MouseProcess ℚ) := do
  let mouse ← MouseManager.create 480 800 1 1 1 1 20 200 1000
  pure ⟨true, mouse.startMouse⟩

/-- Two lock calls at 0 and at 500; the first one's timer runs at 1000. -/
def overlappingLocks : List (Event ℚ) :=
  [.lockMouseAWhile 10 10 true, .tick 500, .lockMouseAWhile 20 20 true, .tick 500,
    .unlock ⟨0, 1000, ()⟩, .tick 200]

theorem exists_run_overlappingLocks :
    ∃ start process next : MouseProcess ℚ, FreshlyStarted 1000 start.mouse ∧
      run punctualStep start overlappingLocks = some process ∧
      process.punctualStep (.sensorCallback 1 1 1) = some next ∧ process.mouse.Accepts := by
  have hfacts : (startedMouse.toOption.bind fun start =>
      (run punctualStep start overlappingLocks).bind fun process =>
        (process.punctualStep (.sensorCallback 1 1 1)).map fun _ =>
          decide (FreshlyStarted 1000 start.mouse ∧ process.mouse.Accepts)) = some true := by
    decide +kernel
  obtain ⟨start, -, hstart⟩ := Option.bind_eq_some_iff.mp hfacts
  obtain ⟨process, hrun, hprocess⟩ := Option.bind_eq_some_iff.mp hstart
  obtain ⟨next, hsample, hboth⟩ := Option.map_eq_some_iff.mp hprocess
  obtain ⟨hfresh, haccepts⟩ := of_decide_eq_true hboth
  exact ⟨start, process, next, hfresh, hrun, hsample, haccepts⟩

theorem ignored_iff_inForce_iff_overlappingLocks :
    ∃ start process next : MouseProcess ℚ,
      run punctualStep start overlappingLocks = some process ∧
      process.punctualStep (.sensorCallback 1 1 1) = some next ∧
      (¬ process.mouse.Accepts → next = process) ∧
      ((¬ process.mouse.Accepts ↔ ∃ time ∈ lockTimes 0 overlappingLocks,
          time ≤ clock overlappingLocks ∧ clock overlappingLocks < time + 1000) ↔
        ¬ ∃ time ∈ lockTimes 0 overlappingLocks,
          ∃ last ∈ (lockTimes 0 overlappingLocks).getLast?,
          last < time + 1000 ∧ time + 1000 ≤ clock overlappingLocks ∧
            clock overlappingLocks < last + 1000) := by
  obtain ⟨start, process, next, hfresh, hrun, hsample, -⟩ := exists_run_overlappingLocks
  have hstops : ∀ event ∈ overlappingLocks, ¬ event.IsStop := by
    simp [overlappingLocks, Event.IsStop]
  exact ⟨start, process, next, hrun, hsample, ignored_iff_inForce_iff hfresh hstops hrun hsample⟩

theorem earlier_timer_releases_later_lock :
    ¬ ∀ (wait : Nat) (start process next : MouseProcess ℚ) (events : List (Event ℚ)) (x y z : ℚ),
      FreshlyStarted wait start.mouse → (∀ event ∈ events, ¬ event.IsStop) →
      run punctualStep start events = some process →
      process.punctualStep (.sensorCallback x y z) = some next →
      (¬ process.mouse.Accepts ↔
        ∃ time ∈ lockTimes 0 events, time ≤ clock events ∧ clock events < time + wait) := by
  intro hclaim
  obtain ⟨start, process, next, hfresh, hrun, hsample, haccepts⟩ := exists_run_overlappingLocks
  have hstops : ∀ event ∈ overlappingLocks, ¬ event.IsStop := by
    simp [overlappingLocks, Event.IsStop]
  have hiff := hclaim 1000 start process next overlappingLocks 1 1 1 hfresh hstops hrun hsample
  have hinForce : ∃ time ∈ lockTimes 0 overlappingLocks,
      time ≤ clock overlappingLocks ∧ clock overlappingLocks < time + 1000 := by decide +kernel
  exact hiff.mpr hinForce haccepts

end MouseProcess

end SensorMouse
