import SensorMouse.Button.EventQueueHandler
import SensorMouse.Lib.Run

/-!
# Pushed events reach the system once, whole and in order

The abstract thread is a ledger: the events pushed so far are those already taken, the one in hand
and those still queued, in this order, and what has been injected is the expansion of the taken ones
less what a gesture has still to send. Every step of producer or consumer keeps the ledger.
-/

namespace SensorMouse.EventQueueHandler

open Android Lib

/-- What one pushed event becomes; `now` is the clock at its dispatch. -/
def expansion (now : Int) (event : MotionEvent) : List Injection :=
  if 0 ≤ event.action then [.sendPointerSync event]
  else if event.action = sendZoom then (generateZoomGesture 1 now).map .sendPointerSync
  else if event.action = sendPinch then (generateZoomGesture (-1) now).map .sendPointerSync
  else if event.action = sendB2Left then [.sendEmptyMessage sendB2Left]
  else if event.action = sendB2Right then [.sendEmptyMessage sendB2Right]
  else [.sendKeyDownUpSync (-event.action)]

/-- The expansions of `events` in order, each at its own clock reading. -/
def expansions (readings : List Int) (events : List MotionEvent) : List Injection :=
  (List.zipWith expansion readings events).flatten

theorem expansions_append {readings readings' : List Int} {events events' : List MotionEvent}
    (hlength : readings.length = events.length) :
    expansions (readings ++ readings') (events ++ events') =
      expansions readings events ++ expansions readings' events' := by
  rw [expansions, List.zipWith_append hlength, List.flatten_append]
  rfl

@[simp]
theorem expansions_singleton (now : Int) (event : MotionEvent) :
    expansions [now] [event] = expansion now event := by
  simp [expansions]

/-- The polled event that has not been looked at yet. -/
def ControlPoint.held : ControlPoint → List MotionEvent
  | .dispatch event => [event]
  | _ => []

/-- What the gesture in progress has still to send. -/
def ControlPoint.unsent : ControlPoint → List Injection
  | .gesture events => events.map .sendPointerSync
  | _ => []

/-- `taken` are the events whose expansion has begun, `readings` the clock at each. -/
structure Ledger (handler : EventQueueHandler) (taken : List MotionEvent) (readings : List Int) :
    Prop where
  length : readings.length = taken.length
  pushed : handler.pushed = taken ++ handler.control.held ++ handler.queue
  injected : expansions readings taken = handler.injected ++ handler.control.unsent

variable {handler next : EventQueueHandler} {taken : List MotionEvent} {readings : List Int}

theorem Ledger.of_same (hledger : Ledger handler taken readings)
    (hpushed : next.pushed = handler.pushed) (hqueue : next.queue = handler.queue)
    (hinjected : next.injected = handler.injected)
    (hheld : next.control.held = handler.control.held)
    (hunsent : next.control.unsent = handler.control.unsent) : Ledger next taken readings where
  length := hledger.length
  pushed := by rw [hpushed, hheld, hqueue]; exact hledger.pushed
  injected := by rw [hinjected, hunsent]; exact hledger.injected

theorem Ledger.offer (hledger : Ledger handler taken readings) (event : MotionEvent) :
    Ledger (handler.offer event) taken readings where
  length := hledger.length
  pushed := by
    simp only [EventQueueHandler.offer, hledger.pushed, List.append_assoc]
  injected := hledger.injected

theorem dispatch_spec (handler : EventQueueHandler) (event : MotionEvent) (now : Int) :
    (handler.dispatch event now).injected ++ (handler.dispatch event now).control.unsent =
        handler.injected ++ expansion now event ∧
      (handler.dispatch event now).control.held = [] ∧
      (handler.dispatch event now).pushed = handler.pushed ∧
      (handler.dispatch event now).queue = handler.queue := by
  unfold dispatch expansion
  split_ifs <;> simp [inject, ControlPoint.held, ControlPoint.unsent]

theorem Ledger.dispatch {event : MotionEvent} (now : Int) (hledger : Ledger handler taken readings)
    (hcontrol : handler.control = .dispatch event) :
    Ledger (handler.dispatch event now) (taken ++ [event]) (readings ++ [now]) := by
  obtain ⟨hinjected, hheld, hpushed, hqueue⟩ := dispatch_spec handler event now
  refine ⟨by simp [hledger.length], ?_, ?_⟩
  · rw [hpushed, hheld, hqueue, hledger.pushed, hcontrol]
    simp [ControlPoint.held]
  · have hsent : expansions readings taken = handler.injected := by
      simpa [hcontrol, ControlPoint.unsent] using hledger.injected
    rw [expansions_append hledger.length, expansions_singleton, hsent, hinjected]

theorem Ledger.step {label : Step} (hledger : Ledger handler taken readings)
    (hstep : handler.step label = some next) :
    ∃ taken' readings', Ledger next taken' readings' := by
  cases stepped_of_step hstep with
  | offer now action x y => exact ⟨taken, readings, hledger.offer _⟩
  | notify howed =>
      refine ⟨taken, readings, hledger.of_same rfl rfl rfl ?_ ?_⟩
      all_goals
        dsimp only
        split_ifs with hwaiting
        · rw [hwaiting]
          rfl
        · rfl
  | stopThread => exact ⟨taken, readings, hledger.of_same rfl rfl rfl rfl rfl⟩
  | testGoon now hcontrol | testSize now hcontrol | retestSize now hcontrol =>
      refine ⟨taken, readings, hledger.of_same rfl rfl rfl ?_ ?_⟩ <;> rw [hcontrol] <;> dsimp only <;>
        split_ifs <;> rfl
  | enterWait now hcontrol | notified now hcontrol | endGesture now hcontrol =>
      exact ⟨taken, readings, hledger.of_same rfl rfl rfl (by rw [hcontrol]; rfl)
        (by rw [hcontrol]; rfl)⟩
  | poll now hcontrol hqueue =>
      refine ⟨taken, readings, hledger.length, ?_, ?_⟩
      · simpa [hcontrol, hqueue, ControlPoint.held] using hledger.pushed
      · simpa [hcontrol, ControlPoint.unsent] using hledger.injected
  | @dispatch now event hcontrol =>
      exact ⟨taken ++ [event], readings ++ [now], hledger.dispatch now hcontrol⟩
  | gesture now hcontrol =>
      refine ⟨taken, readings, hledger.length, ?_, ?_⟩
      · simpa [hcontrol, ControlPoint.held] using hledger.pushed
      · simpa [hcontrol, ControlPoint.unsent] using hledger.injected

theorem exists_ledger {steps : List Step} {handler : EventQueueHandler}
    (hrun : run step {} steps = some handler) :
    ∃ taken readings, Ledger handler taken readings := by
  refine run_invariant (fun handler => ∃ taken readings, Ledger handler taken readings)
    ⟨[], [], rfl, rfl, rfl⟩ ?_ hrun
  rintro current label next ⟨taken, readings, hledger⟩ hstep
  exact hledger.step hstep

/-- **Once, whole and in order.** In every state of every run the injected actions are a prefix of
the expansions of the pushed events in push order, and the pushed events are those already begun,
the one in hand and those still queued. -/
theorem injected_in_push_order {steps : List Step} {handler : EventQueueHandler}
    (hrun : run step {} steps = some handler) :
    (∃ readings : List Int, readings.length = handler.pushed.length ∧
      handler.injected <+: expansions readings handler.pushed) ∧
    ∃ taken readings, readings.length = taken.length ∧
      handler.pushed = taken ++ handler.control.held ++ handler.queue ∧
      expansions readings taken = handler.injected ++ handler.control.unsent := by
  obtain ⟨taken, readings, hledger⟩ := exists_ledger hrun
  refine ⟨?_, taken, readings, hledger.length, hledger.pushed, hledger.injected⟩
  set rest := handler.control.held ++ handler.queue with hrest
  have hpushed : handler.pushed = taken ++ rest := by
    rw [hledger.pushed, List.append_assoc]
  refine ⟨readings ++ List.replicate rest.length 0, by simp [hpushed, hledger.length], ?_⟩
  rw [hpushed, expansions_append hledger.length, hledger.injected, List.append_assoc]
  exact List.prefix_append _ _

/-- A pinch pushed while the consumer sleeps, up to the second event of its gesture. -/
def pinchSteps : List Step :=
  [.consume 0, .consume 0, .consume 0, .offer 5 sendPinch 0 0, .notify, .consume 5, .consume 5,
    .consume 5, .consume 6, .consume 7, .consume 8]

theorem injected_in_push_order_pinch :
    ∃ handler, run step {} pinchSteps = some handler ∧ handler.injected.length = 2 ∧
      (∃ readings : List Int, readings.length = handler.pushed.length ∧
        handler.injected <+: expansions readings handler.pushed) ∧
      ∃ taken readings, readings.length = taken.length ∧
        handler.pushed = taken ++ handler.control.held ++ handler.queue ∧
        expansions readings taken = handler.injected ++ handler.control.unsent := by
  have hlength : (run step {} pinchSteps).map (fun handler => handler.injected.length) = some 2 := by
    decide
  obtain ⟨handler, hrun, htwo⟩ := Option.map_eq_some_iff.mp hlength
  exact ⟨handler, hrun, htwo, injected_in_push_order hrun⟩

end SensorMouse.EventQueueHandler
