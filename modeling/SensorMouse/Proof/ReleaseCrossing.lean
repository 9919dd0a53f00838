import SensorMouse.Proof.PointerStream

/-!
# Releases on their way to the button

Every lifted finger sends one `TOUCH_ACTION_UP`; broadcasts arrive in the order sent, after any delay,
and say nothing about the press they belong to. The model numbers the presses and carries the number
of the lifted press with its broadcast, for the proofs only: the receiver never looks at it. The first
broadcast that arrives after a press began ends this press, so what ends it is the oldest release
still on its way when it began, if there was one.
-/

namespace SensorMouse.ButtonEventListener

open Lib

def SendState.AwaitsRelease (state : SendState) : Prop := state = .down ∨ state = .downed

instance (state : SendState) : Decidable state.AwaitsRelease := inferInstanceAs (Decidable (_ ∨ _))

/-- A press that a broadcast has ended and whose UP is still to be pushed. -/
def SendState.Released (state : SendState) : Prop := state = .up ∨ state = .downAndUp

instance (state : SendState) : Decidable state.Released := inferInstanceAs (Decidable (_ ∨ _))

def PushesUp (listener : ButtonEventListener) : Event → Prop
  | .dispatch entry _ _ => entry.item.isSendEvent ∧ listener.eventSendState.Released
  | _ => False

instance (listener : ButtonEventListener) : (event : Event) → Decidable (PushesUp listener event)
  | .touch _ => inferInstanceAs (Decidable False)
  | .touchActionUp => inferInstanceAs (Decidable False)
  | .tick _ => inferInstanceAs (Decidable False)
  | .dispatch .. => inferInstanceAs (Decidable (_ ∧ _))

/-- A pushed UP: the press it was pushed for, the press whose broadcast caused it, and the broadcasts
that were on their way when its press began. -/
structure Ending where
  press : Nat
  cause : Option Nat
  inFlightAtPress : List Nat
  deriving DecidableEq, Repr

structure Crossing where
  listener : ButtonEventListener := {}
  presses : Nat := 0
  inFlight : List Nat := []
  inFlightAtPress : List Nat := []
  cause : Option Nat := none
  endings : List Ending := []
  deriving DecidableEq, Repr

inductive CrossingEvent where
  /-- Anything the thread does but receive a broadcast. -/
  | own (event : Event)
  | lift
  | deliver
  deriving DecidableEq, Repr

namespace Crossing

def begin (crossing : Crossing) : Crossing :=
  { crossing with
    presses := crossing.presses + 1
    inFlightAtPress := crossing.inFlight }

def finish (crossing : Crossing) : Crossing :=
  { crossing with
    endings := crossing.endings ++ [⟨crossing.presses, crossing.cause, crossing.inFlightAtPress⟩] }

def own (crossing : Crossing) (event : Event) (next : ButtonEventListener) : Crossing :=
  { (if event.IsPress then crossing.begin
      else if PushesUp crossing.listener event then crossing.finish
      else crossing) with listener := next }

def deliver (crossing : Crossing) : Option Crossing :=
  match crossing.inFlight with
  | [] => none
  | press :: rest =>
      some { crossing with
        listener := crossing.listener.onReceive
        inFlight := rest
        cause := if crossing.listener.eventSendState.AwaitsRelease then some press
          else crossing.cause }

def step (step : ButtonEventListener → Event → Option ButtonEventListener) (crossing : Crossing) :
    CrossingEvent → Option Crossing
  | .own event =>
      if event = .touchActionUp then none
      else (step crossing.listener event).map fun next => crossing.own event next
  | .lift =>
      if crossing.presses = 0 then none
      else some { crossing with inFlight := crossing.inFlight ++ [crossing.presses] }
  | .deliver => crossing.deliver

end Crossing

/-! ### What the listener's steps do to a release -/

namespace View

variable {seen : View} {action : Action}

theorem awaitsRelease_of_act (hpress : action ≠ .press) (hrelease : action ≠ .release)
    (hawaits : (seen.act action).state.AwaitsRelease) : seen.state.AwaitsRelease := by
  cases action with
  | press => exact absurd rfl hpress
  | release => exact absurd rfl hrelease
  | idle => exact hawaits
  | mode outcome => cases outcome <;> simp [act, View.mode, SendState.AwaitsRelease] at hawaits
  | send moved =>
      unfold act View.send at hawaits
      cases hstate : seen.state <;> simp_all [SendState.AwaitsRelease]
  | move cancels starts =>
      rcases state_move seen cancels starts with hsame | ⟨-, hcancel⟩
      · rwa [act, hsame] at hawaits
      · simp [act, hcancel, SendState.AwaitsRelease] at hawaits

theorem released_of_act (hrelease : action ≠ .release)
    (hreleased : (seen.act action).state.Released) : seen.state.Released := by
  cases action with
  | press => simp [act, View.press, SendState.Released] at hreleased
  | release => exact absurd rfl hrelease
  | idle => exact hreleased
  | mode outcome => cases outcome <;> simp [act, View.mode, SendState.Released] at hreleased
  | send moved =>
      unfold act View.send at hreleased
      cases hstate : seen.state <;> simp_all [SendState.Released]
  | move cancels starts =>
      rcases state_move seen cancels starts with hsame | ⟨-, hcancel⟩
      · rwa [act, hsame] at hreleased
      · simp [act, hcancel, SendState.Released] at hreleased

theorem count_closes_act (seen : View) (action : Action) :
    (seen.act action).marks.count .closes = seen.marks.count .closes +
      if (∃ moved, action = .send moved) ∧ seen.state.Released then 1 else 0 := by
  cases action with
  | press => simp [act, View.press]
  | move cancels starts => simp [act, marks_move]
  | release => simp [act, marks_release]
  | idle => simp [act]
  | mode outcome => simp [act, marks_mode]
  | send moved =>
      unfold act View.send
      cases hstate : seen.state with
      | downed => cases moved <;> simp [SendState.Released]
      | init | cancel | mode | down | up | downAndUp => simp [SendState.Released]

end View

variable {listener next : ButtonEventListener} {event : Event}

theorem awaitsRelease_of_step (hpress : ¬ event.IsPress) (hown : event ≠ .touchActionUp)
    (hstep : listener.step event = some next) (hawaits : next.eventSendState.AwaitsRelease) :
    listener.eventSendState.AwaitsRelease := by
  obtain ⟨action, hshows, -, hview⟩ := view_step (Nat.zero_le _) hstep
  have hact : ((view 0 listener).act action).state.AwaitsRelease := by
    rw [← hview]
    exact hawaits
  refine View.awaitsRelease_of_act ?_ ?_ hact
  · rintro rfl
    cases hshows with
    | press haction => exact hpress haction
  · rintro rfl
    cases hshows with
    | release => exact hown rfl

theorem released_of_step (hown : event ≠ .touchActionUp) (hstep : listener.step event = some next)
    (hreleased : next.eventSendState.Released) : listener.eventSendState.Released := by
  obtain ⟨action, hshows, -, hview⟩ := view_step (Nat.zero_le _) hstep
  have hact : ((view 0 listener).act action).state.Released := by
    rw [← hview]
    exact hreleased
  refine View.released_of_act ?_ hact
  rintro rfl
  cases hshows with
  | release => exact hown rfl

theorem count_closes_step (hstep : listener.step event = some next) :
    (pointerMarks next).count .closes =
      (pointerMarks listener).count .closes + if PushesUp listener event then 1 else 0 := by
  obtain ⟨action, hshows, -, hview⟩ := view_step (Nat.zero_le _) hstep
  rw [← view_marks_zero, ← view_marks_zero, hview, View.count_closes_act]
  congr 1
  refine if_congr ?_ rfl rfl
  cases hshows with
  | press haction | move haction | other haction | release | tick => simp [PushesUp]
  | mode hitem outcome => simp [PushesUp, hitem, Callback.isSendEvent]
  | send hitem moved => simp [PushesUp, hitem, Callback.isSendEvent, view]

theorem onReceive_eventSendState (listener : ButtonEventListener) :
    listener.onReceive.eventSendState =
      if listener.eventSendState = .downed then .up
      else if listener.eventSendState = .down then .downAndUp
      else listener.eventSendState := by
  unfold onReceive
  cases hstate : listener.eventSendState <;> simp [SendState.toInt, hstate]

/-! ### What ends a press -/

/-- While a press waits, nothing arrived since it began; once it is released, the first broadcast
that arrived did it. -/
structure Attributed (crossing : Crossing) : Prop where
  inFlight : ∀ press ∈ crossing.inFlight, press ≤ crossing.presses
  inFlightAtPress : ∀ press ∈ crossing.inFlightAtPress, press < crossing.presses
  awaiting : crossing.listener.eventSendState.AwaitsRelease →
    ∃ lifted, crossing.inFlight =
      crossing.inFlightAtPress ++ List.replicate lifted crossing.presses
  released : crossing.listener.eventSendState.Released →
    crossing.cause = some (crossing.inFlightAtPress.headD crossing.presses)
  endings : ∀ ending ∈ crossing.endings,
    ending.cause = some (ending.inFlightAtPress.headD ending.press) ∧
      ∀ press ∈ ending.inFlightAtPress, press < ending.press
  counted : crossing.endings.length = (pointerMarks crossing.listener).count .closes

variable {crossing after : Crossing}

theorem Attributed.begin (hattributed : Attributed crossing) (hpress : event.IsPress)
    (hstep : crossing.listener.step event = some next) :
    Attributed { crossing.begin with listener := next } := by
  have hstate : next.eventSendState = .down := by
    cases event with
    | touch press =>
        obtain rfl : crossing.listener.onTouch press = next := Option.some.inj hstep
        exact congrArg View.state (view_onTouch_press hpress 0 crossing.listener)
    | touchActionUp | tick | dispatch => exact hpress.elim
  have hquiet : ¬ PushesUp crossing.listener event := by
    cases event with
    | touch press => exact id
    | touchActionUp | tick | dispatch => exact hpress.elim
  refine ⟨?_, ?_, ?_, ?_, hattributed.endings, ?_⟩
  · intro press hmem
    exact (hattributed.inFlight press hmem).trans (Nat.le_succ _)
  · intro press hmem
    exact Nat.lt_succ_of_le (hattributed.inFlight press hmem)
  · intro _
    exact ⟨0, by simp [Crossing.begin]⟩
  · simp [hstate, SendState.Released]
  · have hcount := count_closes_step hstep
    rw [if_neg hquiet] at hcount
    exact hattributed.counted.trans hcount.symm

theorem Attributed.own (hattributed : Attributed crossing) (hown : event ≠ .touchActionUp)
    (hstep : crossing.listener.step event = some next) : Attributed (crossing.own event next) := by
  have hcount := count_closes_step hstep
  unfold Crossing.own
  by_cases hpress : event.IsPress
  · rw [if_pos hpress]
    exact hattributed.begin hpress hstep
  · have hawaiting : next.eventSendState.AwaitsRelease →
        ∃ lifted, crossing.inFlight =
          crossing.inFlightAtPress ++ List.replicate lifted crossing.presses := fun hawaits =>
      hattributed.awaiting (awaitsRelease_of_step hpress hown hstep hawaits)
    have hreleased : next.eventSendState.Released →
        crossing.cause = some (crossing.inFlightAtPress.headD crossing.presses) := fun hreleased =>
      hattributed.released (released_of_step hown hstep hreleased)
    rw [if_neg hpress]
    by_cases hup : PushesUp crossing.listener event
    · have hcause : crossing.cause = some (crossing.inFlightAtPress.headD crossing.presses) := by
        refine hattributed.released ?_
        cases event with
        | dispatch entry back cursor => exact hup.2
        | touch | touchActionUp | tick => exact hup.elim
      rw [if_pos hup] at hcount ⊢
      refine ⟨hattributed.inFlight, hattributed.inFlightAtPress, hawaiting, hreleased, ?_, ?_⟩
      · intro ending hmem
        rcases List.mem_append.mp hmem with hmem | hmem
        · exact hattributed.endings ending hmem
        · obtain rfl := List.mem_singleton.mp hmem
          exact ⟨hcause, hattributed.inFlightAtPress⟩
      · rw [hcount, ← hattributed.counted]
        simp [Crossing.finish]
    · rw [if_neg hup] at hcount ⊢
      exact ⟨hattributed.inFlight, hattributed.inFlightAtPress, hawaiting, hreleased,
        hattributed.endings, hattributed.counted.trans hcount.symm⟩

theorem Attributed.lift (hattributed : Attributed crossing) :
    Attributed { crossing with inFlight := crossing.inFlight ++ [crossing.presses] } := by
  refine ⟨?_, hattributed.inFlightAtPress, ?_, hattributed.released, hattributed.endings,
    hattributed.counted⟩
  · intro press hmem
    rcases List.mem_append.mp hmem with hmem | hmem
    · exact hattributed.inFlight press hmem
    · exact (List.mem_singleton.mp hmem).le
  · intro hawaits
    obtain ⟨lifted, hinFlight⟩ := hattributed.awaiting hawaits
    refine ⟨lifted + 1, ?_⟩
    rw [List.replicate_succ', ← List.append_assoc, ← hinFlight]

/-- The first broadcast of a waiting press: the oldest release on its way when the press began. -/
theorem Attributed.headD_eq (hattributed : Attributed crossing) {press : Nat} {rest : List Nat}
    (hinFlight : crossing.inFlight = press :: rest)
    (hawaits : crossing.listener.eventSendState.AwaitsRelease) :
    press = crossing.inFlightAtPress.headD crossing.presses := by
  obtain ⟨lifted, hlifted⟩ := hattributed.awaiting hawaits
  rw [hinFlight] at hlifted
  cases hatPress : crossing.inFlightAtPress with
  | cons first others =>
      rw [hatPress] at hlifted
      exact (List.cons.inj hlifted).1
  | nil =>
      rw [hatPress, List.nil_append] at hlifted
      have hmem : press ∈ List.replicate lifted crossing.presses :=
        hlifted ▸ List.mem_cons_self ..
      exact List.eq_of_mem_replicate hmem

theorem Attributed.deliver (hattributed : Attributed crossing)
    (hdeliver : crossing.deliver = some after) : Attributed after := by
  unfold Crossing.deliver at hdeliver
  cases hinFlight : crossing.inFlight with
  | nil =>
      rw [hinFlight] at hdeliver
      cases hdeliver
  | cons press rest =>
      rw [hinFlight] at hdeliver
      obtain rfl := Option.some.inj hdeliver
      have hstate := onReceive_eventSendState crossing.listener
      refine ⟨?_, hattributed.inFlightAtPress, ?_, ?_, hattributed.endings, ?_⟩
      · intro other hmem
        exact hattributed.inFlight other (hinFlight ▸ List.mem_cons_of_mem _ hmem)
      · intro hawaits
        have hnot : ¬ crossing.listener.onReceive.eventSendState.AwaitsRelease := by
          rw [hstate]
          split_ifs with hdowned hdown <;> simp [SendState.AwaitsRelease, *]
        exact absurd hawaits hnot
      · intro hreleased
        by_cases hawaits : crossing.listener.eventSendState.AwaitsRelease
        · have hfirst := hattributed.headD_eq hinFlight hawaits
          simp only [hawaits, ↓reduceIte, hfirst]
        · simp only [hawaits, ↓reduceIte]
          refine hattributed.released ?_
          simp only [SendState.AwaitsRelease, not_or] at hawaits
          rwa [hstate, if_neg hawaits.2, if_neg hawaits.1] at hreleased
      · have hmarks : pointerMarks crossing.listener.onReceive = pointerMarks crossing.listener := by
          simp [pointerMarks, calls_onReceive]
        rw [hmarks]
        exact hattributed.counted

theorem attributed_step {label : CrossingEvent} (hattributed : Attributed crossing)
    (hstep : crossing.step ButtonEventListener.step label = some after) : Attributed after := by
  cases label with
  | own event =>
      simp only [Crossing.step] at hstep
      split_ifs at hstep with hown
      obtain ⟨next, hnext, rfl⟩ := Option.map_eq_some_iff.mp hstep
      exact hattributed.own hown hnext
  | lift =>
      simp only [Crossing.step] at hstep
      split_ifs at hstep
      obtain rfl := Option.some.inj hstep
      exact hattributed.lift
  | deliver => exact hattributed.deliver hstep

/-- **What ends a press.** Every UP the runnable pushes is caused by the first broadcast that arrives
after its press began: the oldest release on its way at that moment, or else the release of the press
itself. So it is the press's own release exactly if none was on its way. -/
theorem up_caused_by_first_release {labels : List CrossingEvent} {crossing : Crossing}
    (hrun : run (Crossing.step step) {} labels = some crossing) :
    crossing.endings.length = (pointerMarks crossing.listener).count .closes ∧
      ∀ ending ∈ crossing.endings,
        ending.cause = some (ending.inFlightAtPress.headD ending.press) ∧
          (ending.cause = some ending.press ↔ ending.inFlightAtPress = []) := by
  have hattributed : Attributed crossing := by
    refine run_invariant Attributed ?_ (fun _ _ _ => attributed_step) hrun
    constructor <;> simp [SendState.AwaitsRelease, SendState.Released, pointerMarks]
  refine ⟨hattributed.counted, fun ending hmem => ?_⟩
  obtain ⟨hcause, hearlier⟩ := hattributed.endings ending hmem
  refine ⟨hcause, ?_⟩
  rw [hcause, Option.some.injEq]
  cases hatPress : ending.inFlightAtPress with
  | nil => simp
  | cons first others =>
      have hlt : first < ending.press := hearlier first (by simp [hatPress])
      simp only [List.headD_cons, reduceCtorEq, iff_false]
      omega

def promptReleaseEvents : List CrossingEvent :=
  [.own (.touch ⟨.down, 0, 0⟩), .own (.tick 100),
    .own (.dispatch ⟨0, 100, .sendEvent⟩ ⟨5, 5⟩ ⟨5, 5⟩), .lift, .deliver, .own (.tick 100),
    .own (.dispatch ⟨1, 200, .sendEvent⟩ ⟨5, 5⟩ ⟨5, 5⟩)]

theorem up_caused_by_first_release_prompt :
    ∃ crossing, run (Crossing.step step) {} promptReleaseEvents = some crossing ∧
      crossing.endings = [⟨1, some 1, []⟩] ∧
      crossing.endings.length = (pointerMarks crossing.listener).count .closes ∧
      ∀ ending ∈ crossing.endings,
        ending.cause = some (ending.inFlightAtPress.headD ending.press) ∧
          (ending.cause = some ending.press ↔ ending.inFlightAtPress = []) := by
  have hendings : (run (Crossing.step step) {} promptReleaseEvents).map Crossing.endings =
      some [⟨1, some 1, []⟩] := by decide
  obtain ⟨crossing, hrun, hprompt⟩ := Option.map_eq_some_iff.mp hendings
  exact ⟨crossing, hrun, hprompt, up_caused_by_first_release hrun⟩

/-- The first press is cancelled by a move; its broadcast arrives after the second press began. -/
def lateReleaseEvents : List CrossingEvent :=
  [.own (.touch ⟨.down, 0, 0⟩), .own (.touch ⟨.move, 20, 20⟩), .lift, .own (.touch ⟨.down, 0, 0⟩),
    .deliver, .own (.tick 100), .own (.dispatch ⟨1, 100, .sendEvent⟩ ⟨5, 5⟩ ⟨5, 5⟩)]

theorem up_caused_by_earlier_release :
    ¬ ∀ labels crossing, run (Crossing.step timedStep) {} labels = some crossing →
      ∀ ending ∈ crossing.endings, ending.cause = some ending.press := by
  intro hclaim
  have hendings : (run (Crossing.step timedStep) {} lateReleaseEvents).map Crossing.endings =
      some [⟨2, some 1, [1]⟩] := by decide +kernel
  obtain ⟨crossing, hrun, hlate⟩ := Option.map_eq_some_iff.mp hendings
  have hown := hclaim lateReleaseEvents crossing hrun ⟨2, some 1, [1]⟩ (by simp [hlate])
  cases hown

end SensorMouse.ButtonEventListener
