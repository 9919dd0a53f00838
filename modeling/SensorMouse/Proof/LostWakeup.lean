import SensorMouse.Button.EventQueueHandler
import SensorMouse.Lib.Run

/-!
# Lost wakeups of the injecting thread

The consumer tests `queue.size()` outside the monitor it waits on, and `stopThread` does not notify.
A push that offers and notifies between the test and the `wait()`, or a stop that falls there or
during the `wait()`, leaves the thread asleep with something to do. `never_stranded_iff_guarded` says
that these are the only ways: a run keeps the thread awake exactly if each entry into `wait()` still
has its two tests valid, and each stop finds the thread not waiting, unless a started push has its
notify still to come.
-/

namespace SensorMouse.EventQueueHandler

open Android Lib

/-- The consumer is blocked, nobody is about to notify, and there is something to do. -/
def Stranded (handler : EventQueueHandler) : Prop :=
  handler.control = .waiting ∧ handler.owedNotifies = 0 ∧
    (handler.queue ≠ [] ∨ handler.goon = false)

instance (handler : EventQueueHandler) : Decidable (Stranded handler) :=
  inferInstanceAs (Decidable (_ ∧ _ ∧ _))

/-- The steps that cannot strand the consumer, judged in the state before them. -/
def Guarded (handler : EventQueueHandler) : Step → Prop
  | .consume _ => handler.control = .enterWait →
      (handler.queue = [] ∧ handler.goon = true) ∨ 0 < handler.owedNotifies
  | .stopThread => handler.control = .waiting → 0 < handler.owedNotifies
  | .offer .. => True
  | .notify => True

variable {handler next : EventQueueHandler}

theorem not_stranded_of_control (hcontrol : handler.control ≠ .waiting) : ¬ Stranded handler :=
  fun hstranded => hcontrol hstranded.1

theorem not_stranded_offer (event : MotionEvent) : ¬ Stranded (handler.offer event) := by
  rintro ⟨-, howed, -⟩
  simp [offer] at howed

theorem control_dispatch_ne_waiting (handler : EventQueueHandler) (event : MotionEvent) (now : Int) :
    (handler.dispatch event now).control ≠ .waiting := by
  unfold dispatch inject
  split_ifs <;> simp

theorem stranded_stopThread_iff (handler : EventQueueHandler) :
    ¬ Stranded { handler with goon := false } ↔ Guarded handler .stopThread := by
  simp only [Stranded, Guarded, or_true, and_true, not_and, Nat.pos_iff_ne_zero, ne_eq]

theorem stranded_enterWait_iff (now : Int) (hcontrol : handler.control = .enterWait) :
    ¬ Stranded { handler with control := .waiting } ↔ Guarded handler (.consume now) := by
  simp only [Stranded, Guarded, hcontrol, true_and, forall_const, Nat.pos_iff_ne_zero]
  cases handler.goon <;> grind

theorem stranded_step_iff {label : Step} (hstep : handler.step label = some next) :
    ¬ Stranded next ↔ Guarded handler label := by
  -- Only the entry into `wait()` can strand the consumer among its own steps.
  have hawake {now : Int} (hcontrol : handler.control ≠ .enterWait) (hnext : next.control ≠ .waiting) :
      ¬ Stranded next ↔ Guarded handler (.consume now) :=
    iff_of_true (not_stranded_of_control hnext) fun henter => absurd henter hcontrol
  cases stepped_of_step hstep with
  | offer now action x y => exact iff_of_true (not_stranded_offer _) trivial
  | notify howed =>
      refine iff_of_true (not_stranded_of_control ?_) trivial
      by_cases hwaiting : handler.control = .waiting <;> simp [hwaiting]
  | stopThread => exact stranded_stopThread_iff handler
  | enterWait now hcontrol => exact stranded_enterWait_iff now hcontrol
  | testGoon now hcontrol | testSize now hcontrol | retestSize now hcontrol =>
      refine hawake (by simp [hcontrol]) ?_
      dsimp only
      split_ifs <;> simp
  | notified now hcontrol | poll now hcontrol | endGesture now hcontrol | gesture now hcontrol =>
      exact hawake (by simp [hcontrol]) (by simp)
  | dispatch now hcontrol => exact hawake (by simp [hcontrol]) (control_dispatch_ne_waiting _ _ _)

/-- **Exactly when the thread is never asleep with something to do.** -/
theorem never_stranded_iff_guarded {steps : List Step} {handler : EventQueueHandler}
    (hrun : run step {} steps = some handler) :
    StatesAlong step (fun state => ¬ Stranded state) {} steps ↔ StepsAlong step Guarded {} steps :=
  statesAlong_iff_stepsAlong (not_stranded_of_control (by decide))
    (fun _ _ _ _ hstep => stranded_step_iff hstep) hrun

def plainPushSteps : List Step :=
  [.consume 0, .consume 0, .consume 0, .offer 5 MotionEvent.actionUp 100 200, .notify]

theorem never_stranded_iff_guarded_plainPush :
    StatesAlong step (fun state => ¬ Stranded state) {} plainPushSteps ↔
      StepsAlong step Guarded {} plainPushSteps :=
  never_stranded_iff_guarded rfl

/-- The consumer finds the queue empty; an `ACTION_UP` is offered and notified before it waits. -/
def lostNotifySteps : List Step :=
  [.consume 0, .consume 0, .offer 5 MotionEvent.actionUp 100 200, .notify, .consume 5]

theorem stranded_after_lost_notify :
    ¬ ∀ steps handler, run step {} steps = some handler → ¬ Stranded handler := by
  intro hclaim
  have hstranded :
      (run step {} lostNotifySteps).map (fun handler => decide (Stranded handler)) = some true := by
    decide
  obtain ⟨handler, hrun, hasleep⟩ := Option.map_eq_some_iff.mp hstranded
  exact hclaim lostNotifySteps handler hrun (of_decide_eq_true hasleep)

end SensorMouse.EventQueueHandler
