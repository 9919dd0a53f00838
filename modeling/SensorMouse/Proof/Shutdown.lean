import SensorMouse.Button.ButtonManager
import SensorMouse.Proof.TidyStream

/-!
# Stopping the injecting thread

After the stop the thread takes at most one more event from its queue. What it has taken is the start
of a tidy stream, so the stop leaves no finger down exactly if that one event closes what the thread
has opened, or opens nothing: `shutdown_whole_iff`.
-/

namespace SensorMouse

open Android Lib

namespace EventQueueHandler

/-- What the thread has taken from its queue, the event in hand included. -/
def polled (handler : EventQueueHandler) : List MotionEvent :=
  handler.pushed.take (handler.pushed.length - handler.queue.length)

theorem polled_of_pushed {handler : EventQueueHandler} {events : List MotionEvent}
    (hpushed : handler.pushed = events ++ handler.queue) : handler.polled = events := by
  unfold polled
  rw [hpushed, List.length_append, Nat.add_sub_cancel]
  exact List.take_left

theorem Ledger.polled {handler : EventQueueHandler} {taken : List MotionEvent}
    {readings : List Int} (hledger : Ledger handler taken readings) :
    handler.polled = taken ++ handler.control.held :=
  polled_of_pushed hledger.pushed

/-- The event that a step takes from the queue. -/
def takes (handler : EventQueueHandler) : Step → List MotionEvent
  | .consume _ => match handler.control with
      | .poll => handler.queue.take 1
      | _ => []
  | .offer _ _ _ _ | .notify | .stopThread => []

/-- Where the thread is between taking an event and testing `goon`. -/
def ControlPoint.Leaves : ControlPoint → Prop
  | .dispatch _ | .gesture _ | .testGoon | .exited => True
  | _ => False

/-- The thread has been stopped when it had taken `before`. -/
structure Draining (before : List MotionEvent) (handler : EventQueueHandler) : Prop where
  goon : handler.goon = false
  polled : handler.polled = before ∨
    ∃ event, handler.polled = before ++ [event] ∧ handler.control.Leaves

variable {before : List MotionEvent} {handler next : EventQueueHandler}

theorem Draining.of_same (hdraining : Draining before handler) (hgoon : next.goon = handler.goon)
    (hpolled : next.polled = handler.polled)
    (hcontrol : handler.control.Leaves → next.control.Leaves) : Draining before next where
  goon := hgoon.trans hdraining.goon
  polled := by
    rw [hpolled]
    rcases hdraining.polled with hsame | ⟨event, hlast, hleaves⟩
    · exact Or.inl hsame
    · exact Or.inr ⟨event, hlast, hcontrol hleaves⟩

theorem pushed_eq_polled (hledger : ∃ taken readings, Ledger handler taken readings) :
    handler.pushed = handler.polled ++ handler.queue := by
  obtain ⟨taken, readings, hledger⟩ := hledger
  rw [hledger.polled]
  exact hledger.pushed

theorem polled_step {label : Step} (hledger : ∃ taken readings, Ledger handler taken readings)
    (hstep : handler.step label = some next) : next.polled = handler.polled ++ handler.takes label := by
  cases stepped_of_step hstep with
  | offer now action x y =>
      refine (polled_of_pushed ?_).trans (List.append_nil _).symm
      simp only [EventQueueHandler.offer]
      rw [pushed_eq_polled hledger, List.append_assoc]
  | notify howed => exact (List.append_nil _).symm
  | stopThread => exact (List.append_nil _).symm
  | @poll now event rest hcontrol hqueue =>
      have htakes : handler.takes (.consume now) = [event] := by
        simp only [takes, hcontrol, hqueue]
        rfl
      rw [htakes]
      refine polled_of_pushed ?_
      dsimp only
      rw [pushed_eq_polled hledger, hqueue, List.append_assoc]
      rfl
  | @dispatch now event hcontrol =>
      obtain ⟨-, -, hpushed, hqueue⟩ := dispatch_spec handler event now
      simp only [takes, hcontrol, List.append_nil]
      unfold EventQueueHandler.polled
      rw [hpushed, hqueue]
  | testGoon now hcontrol | testSize now hcontrol | enterWait now hcontrol | notified now hcontrol
  | retestSize now hcontrol | endGesture now hcontrol | gesture now hcontrol =>
      simp only [takes, hcontrol, List.append_nil]
      rfl

theorem goon_dispatch (handler : EventQueueHandler) (event : MotionEvent) (now : Int) :
    (handler.dispatch event now).goon = handler.goon := by
  unfold EventQueueHandler.dispatch
  split_ifs <;> rfl

theorem Draining.step {label : Step} (hdraining : Draining before handler)
    (hledger : ∃ taken readings, Ledger handler taken readings)
    (hstep : handler.step label = some next) : Draining before next := by
  cases stepped_of_step hstep with
  | offer now action x y =>
      refine hdraining.of_same rfl (polled_of_pushed ?_) id
      simp only [EventQueueHandler.offer]
      rw [pushed_eq_polled hledger, List.append_assoc]
  | notify howed =>
      refine hdraining.of_same rfl rfl fun hleaves => ?_
      have hnot : handler.control ≠ .waiting := by
        intro hwaiting
        rw [hwaiting] at hleaves
        exact hleaves
      simp only [if_neg hnot]
      exact hleaves
  | stopThread => exact hdraining.of_same hdraining.goon.symm rfl id
  | testGoon now hcontrol =>
      refine hdraining.of_same rfl rfl fun _ => ?_
      simp only [hdraining.goon]
      trivial
  | testSize now hcontrol | enterWait now hcontrol | notified now hcontrol | retestSize now hcontrol =>
      refine hdraining.of_same rfl rfl fun hleaves => ?_
      rw [hcontrol] at hleaves
      exact hleaves.elim
  | @poll now event rest hcontrol hqueue =>
      have hpolled : handler.polled = before := by
        rcases hdraining.polled with hsame | ⟨event, -, hleaves⟩
        · exact hsame
        · rw [hcontrol] at hleaves
          exact hleaves.elim
      refine ⟨hdraining.goon, Or.inr ⟨event, polled_of_pushed ?_, trivial⟩⟩
      dsimp only
      rw [pushed_eq_polled hledger, hpolled, hqueue, List.append_assoc]
      rfl
  | @dispatch now event hcontrol =>
      obtain ⟨-, -, hpushed, hqueue⟩ := dispatch_spec handler event now
      refine hdraining.of_same ?_ ?_ fun _ => ?_
      · exact goon_dispatch handler event now
      · unfold EventQueueHandler.polled
        rw [hpushed, hqueue]
      · unfold EventQueueHandler.dispatch
        split_ifs <;> trivial
  | endGesture now hcontrol | gesture now hcontrol =>
      exact hdraining.of_same rfl rfl fun _ => trivial

end EventQueueHandler

namespace ButtonManager

open EventQueueHandler ButtonEventListener

/-- The actions pushed, those still to be offered included. -/
def pushedActions (listener : ButtonEventListener) : List Int :=
  (listener.calls.filterMap pushOf).map Prod.fst

theorem flatMap_pushedActions (listener : ButtonEventListener) :
    (pushedActions listener).flatMap actionMarks = listener.calls.flatMap callMarks := by
  unfold pushedActions
  induction listener.calls with
  | nil => rfl
  | cons made rest ih =>
      cases made with
      | pushMotionEvent action x y =>
          rw [List.filterMap_cons, List.flatMap_cons, ← ih]
          rfl
      | getTimebackPosition | lockMouseAWhile x y wait | showToast index => exact ih

/-- What the threads have of the pushed events, and what the listener has pushed. -/
structure Accounts (manager : ButtonManager) : Prop where
  ledger : ∃ taken readings, Ledger manager.eventHandler taken readings
  pushed : manager.eventHandler.pushed.map MotionEvent.action ++ manager.unoffered.map Prod.fst =
    pushedActions manager.buttonEventListener
  tidy : ∃ isOpen, Tidy manager.buttonEventListener isOpen
  stopped : manager.alreadyAdded = false → manager.eventHandler.goon = false

/-- An `ACTION_DOWN` finds no runnable and no mode message pending. -/
def Isolated (manager : ButtonManager) : Event → Prop
  | .listener event => event.IsPress →
      manager.buttonEventListener.handler.count Callback.isSendEvent = 0 ∧
        manager.buttonEventListener.handler.count Callback.isMode = 0
  | _ => True

instance decidableIsolated (manager : ButtonManager) :
    (event : Event) → Decidable (manager.Isolated event)
  | .listener _ => inferInstanceAs (Decidable (_ → _))
  | .offer _ | .notify | .consume _ | .handleMessage _ | .stopButton => isTrue trivial

variable {manager next : ButtonManager} {event : Event}

/-- A step of the manager is at most one step of its thread, or the stop. -/
theorem eventHandler_of_step (hstep : manager.step event = some next) :
    next.eventHandler = manager.eventHandler ∨
      next.eventHandler = { manager.eventHandler with goon := false } ∨
      ∃ label, manager.eventHandler.step label = some next.eventHandler := by
  cases stepped_of_step hstep with
  | tick elapsed => exact Or.inl rfl
  | heard hidle hlistener => exact Or.inl rfl
  | offer hunoffered howed hhandler => exact Or.inr (Or.inr ⟨_, hhandler⟩)
  | notify hhandler => exact Or.inr (Or.inr ⟨_, hhandler⟩)
  | consume hhandler => exact Or.inr (Or.inr ⟨_, hhandler⟩)
  | handleMessage hidle hpending =>
      obtain ⟨right, -, hhandler, -⟩ := handleMessage_frame
        { manager with handler := manager.handler.take _ } _
      exact Or.inl hhandler
  | stopButton hidle =>
      unfold stopButton
      split_ifs
      · exact Or.inr (Or.inl rfl)
      · exact Or.inl rfl

theorem goon_of_step {handler after : EventQueueHandler} {label : Step}
    (hgoon : handler.goon = false) (hstep : handler.step label = some after) :
    after.goon = false := by
  cases EventQueueHandler.stepped_of_step hstep with
  | stopThread => rfl
  | dispatch => exact (goon_dispatch handler _ _).trans hgoon
  | offer | notify | testGoon | testSize | enterWait | notified | retestSize | poll | endGesture
  | gesture => exact hgoon

theorem pushed_consume {handler after : EventQueueHandler} {now : Int}
    (hstep : handler.step (.consume now) = some after) : after.pushed = handler.pushed := by
  cases EventQueueHandler.stepped_of_step hstep with
  | dispatch => exact (dispatch_spec handler _ now).2.2.1
  | testGoon | testSize | enterWait | notified | retestSize | poll | endGesture | gesture => rfl

theorem ledger_step (hledger : ∃ taken readings, Ledger manager.eventHandler taken readings)
    (hstep : manager.step event = some next) :
    ∃ taken readings, Ledger next.eventHandler taken readings := by
  obtain ⟨taken, readings, hledger⟩ := hledger
  rcases eventHandler_of_step hstep with hsame | hstopped | ⟨label, hhandler⟩
  · rw [hsame]
    exact ⟨taken, readings, hledger⟩
  · rw [hstopped]
    exact ⟨taken, readings, hledger.length, hledger.pushed, hledger.injected⟩
  · exact hledger.step hhandler

theorem pushed_heard {listener : ButtonEventListener} {heardEvent : ButtonEventListener.Event}
    (hpushed : manager.eventHandler.pushed.map MotionEvent.action ++
      manager.unoffered.map Prod.fst = pushedActions manager.buttonEventListener)
    (hstep : manager.buttonEventListener.step heardEvent = some listener) :
    (manager.heard listener).eventHandler.pushed.map MotionEvent.action ++
      (manager.heard listener).unoffered.map Prod.fst = pushedActions listener := by
  obtain ⟨made, hcalls⟩ := calls_prefix_of_step hstep
  unfold pushedActions at hpushed ⊢
  change manager.eventHandler.pushed.map MotionEvent.action ++ (manager.unoffered ++
    (listener.calls.drop manager.buttonEventListener.calls.length).filterMap pushOf).map Prod.fst = _
  rw [← hcalls, List.drop_left]
  calc manager.eventHandler.pushed.map MotionEvent.action ++
        (manager.unoffered ++ made.filterMap pushOf).map Prod.fst
      = (manager.eventHandler.pushed.map MotionEvent.action ++ manager.unoffered.map Prod.fst) ++
          (made.filterMap pushOf).map Prod.fst := by rw [List.map_append, List.append_assoc]
    _ = (manager.buttonEventListener.calls.filterMap pushOf).map Prod.fst ++
          (made.filterMap pushOf).map Prod.fst := by rw [hpushed]
    _ = ((manager.buttonEventListener.calls ++ made).filterMap pushOf).map Prod.fst := by
        rw [List.filterMap_append, List.map_append]

/-- A step accounts for what is pushed as long as every press finds nothing pending. -/
theorem Accounts.step (haccounts : manager.Accounts) (hisolated : manager.Isolated event)
    (hstep : manager.step event = some next) : next.Accounts := by
  have hledger := ledger_step haccounts.ledger hstep
  obtain ⟨isOpen, htidy⟩ := haccounts.tidy
  have hpushed := haccounts.pushed
  cases stepped_of_step hstep with
  | tick elapsed =>
      have hticked : manager.buttonEventListener.step (.tick elapsed) =
          some (manager.advance elapsed).buttonEventListener := rfl
      have hnot : ¬ (ButtonEventListener.Event.tick elapsed).IsPress := id
      exact ⟨hledger, hpushed, htidy.step (fun hpress => absurd hpress hnot) hticked,
        haccounts.stopped⟩
  | heard hidle hlistener =>
      exact ⟨hledger, pushed_heard hpushed hlistener, htidy.step hisolated hlistener,
        haccounts.stopped⟩
  | offer hunoffered howed hhandler =>
      refine ⟨hledger, ?_, ⟨isOpen, htidy⟩, fun hremoved =>
        goon_of_step (haccounts.stopped hremoved) hhandler⟩
      obtain rfl := Option.some.inj hhandler
      rw [hunoffered] at hpushed
      rw [← hpushed]
      simp [EventQueueHandler.offer, MotionEvent.obtainSingle]
  | notify hhandler =>
      refine ⟨hledger, ?_, ⟨isOpen, htidy⟩, fun hremoved =>
        goon_of_step (haccounts.stopped hremoved) hhandler⟩
      cases EventQueueHandler.stepped_of_step hhandler with
      | notify howed => exact hpushed
  | consume hhandler =>
      refine ⟨hledger, ?_, ⟨isOpen, htidy⟩, fun hremoved =>
        goon_of_step (haccounts.stopped hremoved) hhandler⟩
      rw [← pushed_consume hhandler] at hpushed
      exact hpushed
  | handleMessage hidle hpending =>
      obtain ⟨right, hlistener, hhandler, hunoffered, hadded⟩ := handleMessage_frame
        { manager with handler := manager.handler.take _ } _
      refine ⟨hledger, ?_, ⟨isOpen, ?_⟩, ?_⟩
      · rw [hlistener, hhandler, hunoffered]
        exact hpushed
      · rw [hlistener]
        exact ⟨htidy.reading, htidy.view⟩
      · rw [hadded, hhandler]
        exact haccounts.stopped
  | stopButton hidle =>
      refine ⟨hledger, ?_, ?_, ?_⟩ <;> unfold stopButton
      · split_ifs <;> exact hpushed
      · split_ifs <;> exact ⟨isOpen, htidy⟩
      · split_ifs with hadded
        · exact fun _ => rfl
        · exact haccounts.stopped

theorem accounts_run {start final : ButtonManager} {events : List Event} (hstart : start.Accounts)
    (hisolated : StepsAlong step Isolated start events)
    (hrun : run step start events = some final) : final.Accounts :=
  run_invariant_of_steps Accounts hisolated hstart
    (fun _ _ _ hlabel hcurrent hnext => hcurrent.step hlabel hnext) hrun

theorem draining_run {start final : ButtonManager} {events : List Event}
    {before : List MotionEvent}
    (hledger : ∃ taken readings, Ledger start.eventHandler taken readings)
    (hdraining : Draining before start.eventHandler)
    (hrun : run step start events = some final) : Draining before final.eventHandler := by
  refine (run_invariant (fun manager => (∃ taken readings, Ledger manager.eventHandler taken
    readings) ∧ Draining before manager.eventHandler) ⟨hledger, hdraining⟩ ?_ hrun).2
  rintro current label next ⟨hcurrent, hdrains⟩ hstep
  refine ⟨ledger_step hcurrent hstep, ?_⟩
  rcases eventHandler_of_step hstep with hsame | hstopped | ⟨other, hhandler⟩
  · rwa [hsame]
  · rw [hstopped]
    exact hdrains.of_same hdrains.goon.symm rfl id
  · exact hdrains.step hcurrent hhandler

/-- The event that the thread takes in a step, seen before the step. -/
def takes (manager : ButtonManager) : Event → List MotionEvent
  | .consume now => manager.eventHandler.takes (.consume now)
  | .listener _ | .offer _ | .notify | .handleMessage _ | .stopButton => []

theorem polled_step (hledger : ∃ taken readings, Ledger manager.eventHandler taken readings)
    (hstep : manager.step event = some next) :
    next.eventHandler.polled = manager.eventHandler.polled ++ manager.takes event := by
  cases stepped_of_step hstep with
  | tick elapsed => exact (List.append_nil _).symm
  | heard hidle hlistener => exact (List.append_nil _).symm
  | offer hunoffered howed hhandler => exact EventQueueHandler.polled_step hledger hhandler
  | notify hhandler => exact EventQueueHandler.polled_step hledger hhandler
  | consume hhandler => exact EventQueueHandler.polled_step hledger hhandler
  | handleMessage hidle hpending =>
      obtain ⟨right, -, hhandler, -⟩ := handleMessage_frame
        { manager with handler := manager.handler.take _ } _
      rw [hhandler]
      exact (List.append_nil _).symm
  | stopButton hidle =>
      refine Eq.trans ?_ (List.append_nil _).symm
      unfold stopButton
      split_ifs
      · rfl
      · rfl

theorem polled_run {start final : ButtonManager} {events : List Event}
    (hledger : ∃ taken readings, Ledger start.eventHandler taken readings)
    (hrun : run step start events = some final) :
    final.eventHandler.polled = start.eventHandler.polled ++ gathered step takes start events :=
  history_of_run (fun manager => ∃ taken readings, Ledger manager.eventHandler taken readings)
    (fun manager => manager.eventHandler.polled) hledger
    (fun _ _ _ hcurrent hnext => ⟨ledger_step hcurrent hnext, polled_step hcurrent hnext⟩) hrun

/-- The events taken so far leave a stroke open: a DOWN has been taken and its UP has not. -/
def LeavesDown (events : List MotionEvent) : Prop :=
  run Stroke.next false (streamMarks events) = some true

instance (events : List MotionEvent) : Decidable (LeavesDown events) :=
  inferInstanceAs (Decidable (_ = _))

/-- The one event taken after the stop closes what is open, or opens nothing. -/
def Settles (before late : List MotionEvent) : Prop :=
  if LeavesDown before then late.map MotionEvent.action = [MotionEvent.actionUp]
  else MotionEvent.actionDown ∉ late.map MotionEvent.action

instance (before late : List MotionEvent) : Decidable (Settles before late) := by
  unfold Settles
  infer_instance

/-- What the system has been handed. -/
def injectedMarks (manager : ButtonManager) : List Mark :=
  manager.eventHandler.injected.filterMap Injection.mark

theorem streamMarks_eq (events : List MotionEvent) :
    streamMarks events = (events.map MotionEvent.action).flatMap actionMarks := by
  unfold streamMarks
  rw [List.flatMap_map]

/-- Everything taken can be read: it is the start of what a tidy listener has pushed. -/
theorem Accounts.reads_polled (haccounts : manager.Accounts) :
    ∃ isOpen, run Stroke.next false (streamMarks manager.eventHandler.polled) = some isOpen := by
  obtain ⟨isOpen, htidy⟩ := haccounts.tidy
  have hsplit : ∃ rest, manager.buttonEventListener.calls.flatMap callMarks =
      streamMarks manager.eventHandler.polled ++ rest := by
    refine ⟨(manager.eventHandler.queue.map MotionEvent.action ++
      manager.unoffered.map Prod.fst).flatMap actionMarks, ?_⟩
    calc manager.buttonEventListener.calls.flatMap callMarks
        = (manager.eventHandler.pushed.map MotionEvent.action ++
            manager.unoffered.map Prod.fst).flatMap actionMarks := by
          rw [haccounts.pushed, flatMap_pushedActions]
      _ = streamMarks manager.eventHandler.polled ++ _ := by
          rw [pushed_eq_polled haccounts.ledger, List.map_append, List.append_assoc,
            List.flatMap_append, streamMarks_eq]
  obtain ⟨rest, hrest⟩ := hsplit
  have hreading := htidy.reading
  rw [hrest, run_append_eq_some] at hreading
  obtain ⟨middle, hmiddle, -⟩ := hreading
  exact ⟨middle, hmiddle⟩

/-- A thread that has left or waits has handed out all it has taken. -/
theorem injectedMarks_of_done (hledger : ∃ taken readings, Ledger manager.eventHandler taken readings)
    (hdone : manager.eventHandler.control = .exited ∨ manager.eventHandler.control = .waiting) :
    manager.injectedMarks = streamMarks manager.eventHandler.polled := by
  obtain ⟨taken, readings, hledger⟩ := hledger
  have hempty : manager.eventHandler.control.held = [] ∧ manager.eventHandler.control.unsent = [] := by
    rcases hdone with hcontrol | hcontrol <;> rw [hcontrol] <;> exact ⟨rfl, rfl⟩
  have hinjected := hledger.injected
  rw [hempty.2, List.append_nil] at hinjected
  calc manager.injectedMarks
      = (expansions readings taken).filterMap Injection.mark := by rw [injectedMarks, hinjected]
    _ = streamMarks taken := marks_expansions hledger.length
    _ = streamMarks manager.eventHandler.polled := by
        rw [hledger.polled, hempty.1, List.append_nil]

theorem settles_nil_iff {before : List MotionEvent} {isOpen : Bool}
    (hreads : run Stroke.next false (streamMarks before) = some isOpen) :
    isOpen = false ↔ Settles before [] := by
  have hdown : LeavesDown before ↔ isOpen = true := by
    unfold LeavesDown
    rw [hreads, Option.some.injEq]
  unfold Settles
  cases isOpen with
  | false =>
      rw [if_neg (by rw [hdown]; decide)]
      exact iff_of_true rfl List.not_mem_nil
  | true =>
      rw [if_pos (hdown.mpr rfl)]
      exact iff_of_false (by decide) (by decide)

/-- How one more event goes on with a stream that can be read to its end. -/
theorem settles_iff {before : List MotionEvent} {event : MotionEvent} {isOpen : Bool}
    (hreads : run Stroke.next false (streamMarks (before ++ [event])) = some isOpen) :
    isOpen = false ↔ Settles before [event] := by
  have hsplit : streamMarks (before ++ [event]) =
      streamMarks before ++ actionMarks event.action := by
    unfold streamMarks
    rw [List.flatMap_append, List.flatMap_cons, List.flatMap_nil, List.append_nil]
  rw [hsplit, run_append_eq_some] at hreads
  obtain ⟨middle, hbefore, hlast⟩ := hreads
  have hdown : LeavesDown before ↔ middle = true := by
    unfold LeavesDown
    rw [hbefore, Option.some.injEq]
  unfold Settles
  rw [List.map_singleton]
  unfold actionMarks pointerMark at hlast
  cases middle with
  | false =>
      rw [if_neg (by rw [hdown]; decide), List.mem_singleton]
      split_ifs at hlast with hgesture hopens hwithin hcloses
      · obtain rfl := Option.some.inj hlast
        refine iff_of_true rfl ?_
        rcases hgesture with hgesture | hgesture <;> rw [hgesture] <;> decide
      · obtain rfl := Option.some.inj hlast
        exact iff_of_false (by decide) (not_not.mpr hopens.symm)
      · cases hlast
      · cases hlast
      · obtain rfl := Option.some.inj hlast
        exact iff_of_true rfl fun hopened => hopens hopened.symm
  | true =>
      rw [if_pos (hdown.mpr rfl), List.cons.injEq, and_iff_left rfl]
      split_ifs at hlast with hgesture hopens hwithin hcloses
      · cases hlast
      · cases hlast
      · obtain rfl := Option.some.inj hlast
        refine iff_of_false (by decide) ?_
        rw [hwithin]
        decide
      · obtain rfl := Option.some.inj hlast
        exact iff_of_true rfl hcloses
      · obtain rfl := Option.some.inj hlast
        exact iff_of_false (by decide) hcloses

def started : ButtonManager := ({} : ButtonManager).startButton

theorem accounts_started : started.Accounts where
  ledger := ⟨[], [], rfl, rfl, rfl⟩
  pushed := rfl
  tidy := ⟨false, rfl, rfl, rfl, rfl⟩
  stopped := fun hremoved => by cases hremoved

theorem Accounts.draining_stopButton (haccounts : manager.Accounts) :
    Draining manager.eventHandler.polled manager.stopButton.eventHandler := by
  unfold stopButton
  split_ifs with hadded
  · exact ⟨rfl, Or.inl rfl⟩
  · exact ⟨haccounts.stopped (Bool.eq_false_iff.mpr hadded), Or.inl rfl⟩

/-- **Exactly when the stop leaves no finger down.** Presses find nothing pending; the stop comes at
any moment of the main thread. Once the injecting thread has left or waits, what it has handed out is
a number of whole strokes exactly if the head of the queue, in the state in which the thread polls it
after the stop, settles what it had taken at the stop. -/
theorem shutdown_whole_iff {before after : List Event} {atStop final : ButtonManager}
    (hbefore : run step started before = some atStop)
    (hrun : run step atStop (.stopButton :: after) = some final)
    (hisolated : StepsAlong step Isolated started (before ++ .stopButton :: after))
    (hdone : final.eventHandler.control = .exited ∨ final.eventHandler.control = .waiting) :
    final.injectedMarks ∈ Stroke.strokes ↔
      Settles atStop.eventHandler.polled (gathered step takes atStop (.stopButton :: after)) := by
  have hwhole : run step started (before ++ .stopButton :: after) = some final := by
    rw [run_append, hbefore]
    exact hrun
  have hstop : atStop.Accounts :=
    accounts_run accounts_started (stepsAlong_append hbefore hisolated).1 hbefore
  have hfinal : final.Accounts := accounts_run accounts_started hisolated hwhole
  obtain ⟨stopped, hstopped, hafter⟩ := (run_cons_eq_some step).mp hrun
  have hdraining : Draining atStop.eventHandler.polled stopped.eventHandler := by
    obtain ⟨-, hnext⟩ := Option.ite_none_right_eq_some.mp hstopped
    obtain rfl := Option.some.inj hnext
    exact hstop.draining_stopButton
  have hlate := (draining_run (ledger_step hstop.ledger hstopped) hdraining hafter).polled
  have hpolled := polled_run hstop.ledger hrun
  obtain ⟨isOpen, hreads⟩ := hfinal.reads_polled
  rw [Stroke.mem_strokes_iff, injectedMarks_of_done hfinal.ledger hdone, hreads,
    Option.some.injEq]
  rcases hlate with hsame | ⟨event, hlast, -⟩
  · rw [List.self_eq_append_right.mp (hsame.symm.trans hpolled)]
    rw [hsame] at hreads
    exact settles_nil_iff hreads
  · rw [← List.append_cancel_left (hlast.symm.trans hpolled)]
    rw [hlast] at hreads
    exact settles_iff hreads

/-- A tap is let go before its runnable, and the stop comes between its DOWN and its UP. -/
def tapEvents : List Event :=
  [.listener (.touch ⟨.down, 0, 0⟩), .listener .touchActionUp, .listener (.tick 100),
    .listener (.dispatch ⟨0, 100, .sendEvent⟩ ⟨5, 5⟩ ⟨5, 5⟩), .offer 100, .notify, .offer 100,
    .notify, .consume 100, .consume 100, .consume 100, .consume 100, .consume 100, .consume 100]

theorem shutdown_whole_iff_tap :
    ∃ atStop final, run step started tapEvents = some atStop ∧
      run step atStop (.stopButton :: List.replicate 5 (.consume 101)) = some final ∧
      final.injectedMarks = [.opens, .closes] ∧ final.injectedMarks ∈ Stroke.strokes := by
  obtain ⟨atStop, hbefore⟩ : ∃ atStop, run step started tapEvents = some atStop := ⟨_, rfl⟩
  obtain ⟨final, hrun⟩ : ∃ final,
      run step atStop (.stopButton :: List.replicate 5 (.consume 101)) = some final := by
    obtain rfl := Option.some.inj hbefore
    exact ⟨_, rfl⟩
  have hisolated : StepsAlong step Isolated started
      (tapEvents ++ .stopButton :: List.replicate 5 (.consume 101)) := by decide
  obtain rfl := Option.some.inj hbefore
  obtain rfl := Option.some.inj hrun
  refine ⟨_, _, rfl, rfl, rfl, ?_⟩
  rw [shutdown_whole_iff rfl rfl hisolated (Or.inl rfl)]
  decide

/-- The stop comes when the thread has handed out the DOWN of a press and tests `goon`. -/
def heldEvents : List Event :=
  [.listener (.touch ⟨.down, 0, 0⟩), .listener (.tick 100),
    .listener (.dispatch ⟨0, 100, .sendEvent⟩ ⟨5, 5⟩ ⟨5, 5⟩), .offer 100, .notify, .consume 100,
    .consume 100, .consume 100, .consume 100, .consume 100]

theorem shutdown_leaves_down :
    ¬ ∀ before after atStop final, run step started before = some atStop →
      run step atStop (.stopButton :: after) = some final →
      StepsAlong step Isolated started (before ++ .stopButton :: after) →
      final.eventHandler.control = .exited ∨ final.eventHandler.control = .waiting →
      final.injectedMarks ∈ Stroke.strokes := by
  intro hclaim
  obtain ⟨atStop, hbefore⟩ : ∃ atStop, run step started heldEvents = some atStop := ⟨_, rfl⟩
  obtain ⟨final, hrun⟩ : ∃ final, run step atStop [.stopButton, .consume 101] = some final := by
    obtain rfl := Option.some.inj hbefore
    exact ⟨_, rfl⟩
  have hisolated : StepsAlong step Isolated started
      (heldEvents ++ [.stopButton, .consume 101]) := by decide
  obtain rfl := Option.some.inj hbefore
  obtain rfl := Option.some.inj hrun
  have hmem := hclaim heldEvents [.consume 101] _ _ rfl rfl hisolated (Or.inl rfl)
  have hread := Stroke.mem_strokes_iff.mp hmem
  exact absurd hread (by decide)

end ButtonManager

end SensorMouse
