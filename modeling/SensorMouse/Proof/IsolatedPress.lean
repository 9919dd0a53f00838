import SensorMouse.Proof.ListenerView

/-!
# One press on its own

A press that finds nothing pending either stays a click, with one runnable pending until its stroke
is complete, or is cancelled before it pushed anything and can then only become a gesture. Which of
the two it is shows in the send state, and `Settled` says what the view looks like in each state.
-/

namespace SensorMouse.ButtonEventListener

open Lib

def SendState.OwesRunnable (state : SendState) : Prop :=
  state = .down ∨ state = .downed ∨ state = .up ∨ state = .downAndUp

instance (state : SendState) : Decidable state.OwesRunnable :=
  inferInstanceAs (Decidable (_ ∨ _ ∨ _ ∨ _))

namespace View

/-- What a press with nothing else pending has done and still owes, state by state. -/
def Settled (seen : View) : Prop :=
  match seen.state with
  | .down | .downAndUp =>
      seen.sends = 1 ∧ seen.modes = 0 ∧ seen.commands = 0 ∧ seen.marks = []
  | .downed | .up =>
      seen.sends = 1 ∧ seen.modes = 0 ∧ seen.commands = 0 ∧
        ∃ moves, seen.marks = .opens :: List.replicate moves .within
  | .init => seen.sends = 0 ∧ seen.modes = 0 ∧ seen.commands = 0 ∧ seen.marks ∈ Stroke.oneStroke
  | .cancel | .mode => seen.sends = 0 ∧ seen.marks = []

variable {seen : View}

theorem Settled.cancel (hsettled : seen.Settled) : seen.cancel.Settled := by
  unfold View.cancel
  split_ifs with hdown
  · simp only [Settled, hdown] at hsettled
    exact ⟨rfl, hsettled.2.2.2⟩
  · exact hsettled

theorem Settled.start (hsettled : seen.Settled) : seen.start.Settled := by
  unfold View.start
  split_ifs with hcancel
  · simp only [Settled, hcancel] at hsettled ⊢
    exact hsettled
  · exact hsettled

theorem Settled.release (hsettled : seen.Settled) : seen.release.Settled := by
  unfold View.release
  cases hstate : seen.state with
  | down | downed => simpa only [Settled, hstate] using hsettled
  | init | up | downAndUp | cancel | mode => exact hsettled

theorem Settled.send (hsettled : seen.Settled) (hpending : 0 < seen.sends) (moved : Bool) :
    ({ seen with sends := seen.sends - 1 }.send moved).Settled := by
  cases hstate : seen.state with
  | init | cancel | mode =>
      simp only [Settled, hstate] at hsettled
      omega
  | down =>
      simp only [Settled, hstate] at hsettled
      obtain ⟨hsends, hmodes, hcommands, hmarks⟩ := hsettled
      simp only [View.send, Settled, hsends, hmodes, hcommands, hmarks, true_and]
      exact ⟨0, rfl⟩
  | downAndUp =>
      simp only [Settled, hstate] at hsettled
      obtain ⟨hsends, hmodes, hcommands, hmarks⟩ := hsettled
      simp only [View.send, Settled, hsends, hmodes, hcommands, hmarks, true_and]
      exact Stroke.mem_oneStroke.mpr ⟨0, rfl⟩
  | up =>
      simp only [Settled, hstate] at hsettled
      obtain ⟨hsends, hmodes, hcommands, moves, hmarks⟩ := hsettled
      simp only [View.send, Settled, hsends, hmodes, hcommands, hmarks, true_and]
      exact Stroke.mem_oneStroke.mpr ⟨moves, rfl⟩
  | downed =>
      simp only [Settled, hstate] at hsettled
      obtain ⟨hsends, hmodes, hcommands, moves, hmarks⟩ := hsettled
      simp only [View.send, Settled, hsends, hmodes, hcommands, hmarks, true_and]
      cases moved with
      | false => exact ⟨moves, by simp⟩
      | true =>
          refine ⟨moves + 1, ?_⟩
          rw [List.replicate_succ']
          simp

theorem Settled.mode (hsettled : seen.Settled) (hpending : 0 < seen.modes) (outcome : Outcome) :
    ({ seen with modes := seen.modes - 1 }.mode outcome).Settled := by
  have hempty : seen.sends = 0 ∧ seen.marks = [] := by
    cases hstate : seen.state with
    | cancel | mode => simpa only [Settled, hstate] using hsettled
    | down | downAndUp | downed | up | init =>
        simp only [Settled, hstate] at hsettled
        omega
  cases outcome <;> exact hempty

theorem Settled.act {action : Action} (hsettled : seen.Settled) (henabled : seen.Enabled action)
    (haction : action ≠ .press) : (seen.act action).Settled := by
  cases action with
  | press => exact absurd rfl haction
  | move cancels starts =>
      exact move_of_keeps Settled hsettled cancels (fun _ => Settled.cancel) fun _ _ =>
        Settled.start
  | release => exact hsettled.release
  | idle => exact hsettled
  | send moved => exact hsettled.send henabled moved
  | mode outcome => exact hsettled.mode henabled outcome

theorem settled_press {seen : View} (hsends : seen.sends = 0) (hmodes : seen.modes = 0)
    (hmarks : seen.marks = []) (hcommands : seen.commands = 0) : seen.press.Settled :=
  ⟨by simp [View.press, hsends], hmodes, hcommands, hmarks⟩

theorem Settled.sends_eq (hsettled : seen.Settled) :
    seen.sends = if seen.state.OwesRunnable then 1 else 0 := by
  cases hstate : seen.state <;> simp only [Settled, hstate] at hsettled <;>
    simp [SendState.OwesRunnable, hsettled.1]

theorem Settled.isPrefix (hsettled : seen.Settled) :
    Stroke.IsPrefixIn Stroke.oneStroke seen.marks := by
  cases hstate : seen.state with
  | init =>
      simp only [Settled, hstate] at hsettled
      exact Stroke.isPrefixIn_of_mem hsettled.2.2.2
  | down | downAndUp =>
      simp only [Settled, hstate] at hsettled
      rw [hsettled.2.2.2]
      exact Stroke.isPrefixIn_oneStroke_nil
  | downed | up =>
      simp only [Settled, hstate] at hsettled
      obtain ⟨-, -, -, moves, hmarks⟩ := hsettled
      rw [hmarks]
      exact Stroke.isPrefixIn_oneStroke_open moves
  | cancel | mode =>
      simp only [Settled, hstate] at hsettled
      rw [hsettled.2]
      exact Stroke.isPrefixIn_oneStroke_nil

theorem Settled.complete (hsettled : seen.Settled) (hsends : seen.sends = 0) :
    seen.marks = [] ∨ seen.marks ∈ Stroke.oneStroke := by
  cases hstate : seen.state with
  | init =>
      simp only [Settled, hstate] at hsettled
      exact Or.inr hsettled.2.2.2
  | cancel | mode =>
      simp only [Settled, hstate] at hsettled
      exact Or.inl hsettled.2
  | down | downAndUp | downed | up =>
      simp only [Settled, hstate] at hsettled
      omega

theorem Settled.exclusive (hsettled : seen.Settled) : seen.marks = [] ∨ seen.commands = 0 := by
  cases hstate : seen.state <;> simp only [Settled, hstate] at hsettled
  case cancel | mode => exact Or.inl hsettled.2
  all_goals exact Or.inr hsettled.2.2.1

end View

theorem settled_step {base : Nat} {listener next : ButtonEventListener} {event : Event}
    (hevent : ¬ event.IsPress)
    (hcurrent : base ≤ listener.calls.length ∧ (view base listener).Settled)
    (hstep : listener.step event = some next) :
    base ≤ next.calls.length ∧ (view base next).Settled := by
  obtain ⟨hbase, hsettled⟩ := hcurrent
  obtain ⟨action, hshows, henabled, hview⟩ := view_step hbase hstep
  refine ⟨hbase.trans (calls_prefix_of_step hstep).length_le, ?_⟩
  rw [hview]
  refine hsettled.act henabled ?_
  rintro rfl
  cases hshows with
  | press haction => exact hevent haction

/-- **An isolated press has one outcome.** In every state up to the next `ACTION_DOWN`: one runnable
is pending in the four states that owe one and none otherwise; what the press pushed is a prefix of
`DOWN MOVE* UP`, and nothing or all of it once no runnable is pending; and it pushed no pointer event
or no gesture command. -/
theorem isolated_press_outcome {listener final : ButtonEventListener} {press : TouchEvent}
    {events : List Event} (hpress : press.action = .down)
    (hsends : listener.handler.count Callback.isSendEvent = 0)
    (hmodes : listener.handler.count Callback.isMode = 0)
    (hevents : ∀ event ∈ events, ¬ event.IsPress)
    (hrun : run step listener (.touch press :: events) = some final) :
    let seen := view listener.calls.length final
    (seen.sends = if seen.state.OwesRunnable then 1 else 0) ∧
      (Stroke.IsPrefixIn Stroke.oneStroke seen.marks ∧
        (seen.sends = 0 → seen.marks = [] ∨ seen.marks ∈ Stroke.oneStroke)) ∧
      (seen.marks = [] ∨ seen.commands = 0) := by
  obtain ⟨pressed, hdown, hrest⟩ := (run_cons_eq_some step).mp hrun
  have hstart : listener.calls.length ≤ pressed.calls.length ∧
      (view listener.calls.length pressed).Settled := by
    refine ⟨(calls_prefix_of_step hdown).length_le, ?_⟩
    obtain rfl : listener.onTouch press = pressed := Option.some.inj hdown
    rw [view_onTouch_press hpress]
    exact View.settled_press hsends hmodes (by simp [view]) (by simp [view])
  have hfinal := run_invariant_of_labels
    (fun current => listener.calls.length ≤ current.calls.length ∧
      (view listener.calls.length current).Settled)
    (fun event => ¬ event.IsPress) hevents hstart
    (fun _ _ _ hevent hcurrent hstep => settled_step hevent hcurrent hstep) hrest
  exact ⟨hfinal.2.sends_eq, ⟨hfinal.2.isPrefix, hfinal.2.complete⟩, hfinal.2.exclusive⟩

/-- A drag: the cursor is 40 to the right when the runnable looks again. -/
def dragEvents : List Event :=
  [.tick 100, .dispatch ⟨0, 100, .sendEvent⟩ ⟨5, 5⟩ ⟨5, 5⟩, .tick 100,
    .dispatch ⟨1, 200, .sendEvent⟩ ⟨45, 5⟩ ⟨45, 5⟩, .touchActionUp, .tick 20,
    .dispatch ⟨2, 220, .sendEvent⟩ ⟨45, 5⟩ ⟨45, 5⟩]

theorem isolated_press_outcome_drag :
    ∃ final, run step {} (.touch ⟨.down, 0, 0⟩ :: dragEvents) = some final ∧
      (view 0 final).marks = [.opens, .within, .closes] ∧
      let seen := view 0 final
      (seen.sends = if seen.state.OwesRunnable then 1 else 0) ∧
        (Stroke.IsPrefixIn Stroke.oneStroke seen.marks ∧
          (seen.sends = 0 → seen.marks = [] ∨ seen.marks ∈ Stroke.oneStroke)) ∧
        (seen.marks = [] ∨ seen.commands = 0) := by
  have hmarks : (run step {} (.touch ⟨.down, 0, 0⟩ :: dragEvents)).map
      (fun final => (view 0 final).marks) = some [.opens, .within, .closes] := by decide
  obtain ⟨final, hrun, hdrag⟩ := Option.map_eq_some_iff.mp hmarks
  exact ⟨final, hrun, hdrag, isolated_press_outcome rfl rfl rfl (by decide) hrun⟩

end SensorMouse.ButtonEventListener
