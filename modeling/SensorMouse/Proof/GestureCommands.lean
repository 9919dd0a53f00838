import SensorMouse.Proof.ListenerView

/-!
# Gesture commands of one press

The state leaves CANCEL only when `MODE_STATE_START` is handled, so each further `ACTION_MOVE` of a
recognised gesture sends another START, and each of them may become a command. As long as no START
is sent while another mode message is pending there is one chain of messages, and it ends with the
command it pushes.
-/

namespace SensorMouse.ButtonEventListener

open Lib

/-- The step sends no `MODE_STATE_START` while another mode message is pending. -/
def StartsAlone (listener : ButtonEventListener) : Event → Prop
  | .touch event => listener.SendsStart event → listener.handler.count Callback.isMode = 0
  | _ => True

instance (listener : ButtonEventListener) : (event : Event) → Decidable (StartsAlone listener event)
  | .touch event =>
      inferInstanceAs (Decidable (listener.SendsStart event →
        listener.handler.count Callback.isMode = 0))
  | .touchActionUp => inferInstanceAs (Decidable True)
  | .tick _ => inferInstanceAs (Decidable True)
  | .dispatch .. => inferInstanceAs (Decidable True)

namespace View

/-- There is one chain of mode messages at most, and none after its command. -/
structure OneChain (seen : View) : Prop where
  modes : seen.modes ≤ 1
  commands : seen.commands ≤ 1
  spent : seen.commands = 1 → seen.state = .mode ∧ seen.modes = 0

variable {seen : View}

theorem OneChain.press (hmodes : seen.modes ≤ 1) (hcommands : seen.commands = 0) :
    seen.press.OneChain :=
  ⟨hmodes, by simp [View.press, hcommands], by simp [View.press, hcommands]⟩

theorem OneChain.cancel (hchain : seen.OneChain) :
    seen.cancel.OneChain ∧ seen.cancel.modes = seen.modes := by
  unfold View.cancel
  split_ifs with hdown
  · refine ⟨⟨hchain.modes, hchain.commands, fun hspent => ?_⟩, rfl⟩
    have hstate := (hchain.spent hspent).1
    rw [hdown] at hstate
    cases hstate
  · exact ⟨hchain, rfl⟩

theorem OneChain.start (hchain : seen.OneChain) (hmodes : seen.modes = 0) :
    seen.start.OneChain := by
  unfold View.start
  split_ifs with hcancel
  · refine ⟨by simp [hmodes], hchain.commands, fun hspent => ?_⟩
    have hstate := (hchain.spent hspent).1
    rw [hcancel] at hstate
    cases hstate
  · exact hchain

theorem OneChain.move (hchain : seen.OneChain) (cancels : Bool) {starts : Bool}
    (halone : starts = true → seen.modes = 0) : (seen.move cancels starts).OneChain := by
  have hmoved : (if cancels then seen.cancel else seen).OneChain ∧
      (if cancels then seen.cancel else seen).modes = seen.modes := by
    cases cancels with
    | false => exact ⟨hchain, rfl⟩
    | true => exact hchain.cancel
  unfold View.move
  cases starts with
  | false => exact hmoved.1
  | true => exact hmoved.1.start (hmoved.2.trans (halone rfl))

theorem OneChain.release (hchain : seen.OneChain) : seen.release.OneChain := by
  unfold View.release
  cases hstate : seen.state with
  | down | downed =>
      refine ⟨hchain.modes, hchain.commands, fun hspent => ?_⟩
      have hmode := (hchain.spent hspent).1
      rw [hstate] at hmode
      cases hmode
  | init | up | downAndUp | cancel | mode => exact hchain

theorem OneChain.send (hchain : seen.OneChain) (moved : Bool) : (seen.send moved).OneChain := by
  have hspent : seen.state ≠ .mode → seen.commands ≠ 1 := fun hstate hspent =>
    hstate (hchain.spent hspent).1
  unfold View.send
  cases hstate : seen.state with
  | init | cancel | mode => exact hchain
  | down | up | downAndUp | downed =>
      have hunspent := hspent (by rw [hstate]; simp)
      exact ⟨hchain.modes, hchain.commands, fun hcommand => absurd hcommand hunspent⟩

theorem OneChain.mode (hchain : seen.OneChain) (hpending : 0 < seen.modes) (outcome : Outcome) :
    ({ seen with modes := seen.modes - 1 }.mode outcome).OneChain := by
  have hone : seen.modes = 1 := by
    have := hchain.modes
    omega
  have hunspent : seen.commands = 0 := by
    have hcommands := hchain.commands
    have hspent : seen.commands ≠ 1 := fun hspent => by
      have := (hchain.spent hspent).2
      omega
    omega
  cases outcome <;> constructor <;> simp [View.mode, hone, hunspent]

theorem OneChain.act {action : Action} (hchain : seen.OneChain) (henabled : seen.Enabled action)
    (haction : action ≠ .press)
    (halone : ∀ cancels, action = .move cancels true → seen.modes = 0) :
    (seen.act action).OneChain := by
  cases action with
  | press => exact absurd rfl haction
  | move cancels starts => exact hchain.move cancels fun hstarts => halone cancels (by rw [hstarts])
  | release => exact hchain.release
  | idle => exact hchain
  | send moved =>
      have htaken : { seen with sends := seen.sends - 1 }.OneChain :=
        ⟨hchain.modes, hchain.commands, hchain.spent⟩
      exact htaken.send moved
  | mode outcome => exact hchain.mode henabled outcome

end View

variable {base : Nat} {listener next : ButtonEventListener} {event : Event}

theorem oneChain_step (hevent : ¬ event.IsPress) (halone : StartsAlone listener event)
    (hcurrent : base ≤ listener.calls.length ∧ (view base listener).OneChain)
    (hstep : listener.step event = some next) :
    base ≤ next.calls.length ∧ (view base next).OneChain := by
  obtain ⟨hbase, hchain⟩ := hcurrent
  obtain ⟨action, hshows, henabled, hview⟩ := view_step hbase hstep
  refine ⟨hbase.trans (calls_prefix_of_step hstep).length_le, ?_⟩
  rw [hview]
  refine hchain.act henabled ?_ ?_
  · rintro rfl
    cases hshows with
    | press haction => exact hevent haction
  · rintro cancels rfl
    generalize hstarts : true = starts at hshows
    cases hshows with
    | move haction cancels => exact halone (of_decide_eq_true hstarts.symm)

/-- Whatever was pushed before, a step leaves one chain at most. -/
theorem modes_le_one_step (halone : StartsAlone listener event)
    (hmodes : listener.handler.count Callback.isMode ≤ 1)
    (hstep : listener.step event = some next) : next.handler.count Callback.isMode ≤ 1 := by
  by_cases hevent : event.IsPress
  · cases event with
    | touch press =>
        obtain rfl : listener.onTouch press = next := Option.some.inj hstep
        have hview := view_onTouch_press hevent 0 listener
        have hsame : (view 0 (listener.onTouch press)).modes = (view 0 listener).modes := by
          rw [hview]
          rfl
        exact hsame.trans_le hmodes
    | touchActionUp | tick | dispatch => exact hevent.elim
  · have hchain : (view listener.calls.length listener).OneChain :=
      ⟨hmodes, by simp [view], by simp [view]⟩
    exact (oneChain_step hevent halone ⟨le_rfl, hchain⟩ hstep).2.modes

/-- **One command at most.** In a run that sends no START while another mode message is pending, what
is pushed after an `ACTION_DOWN` and before the next contains at most one gesture command. -/
theorem at_most_one_command {before after : List Event} {press : TouchEvent}
    {pressed final : ButtonEventListener} (hpress : press.action = .down)
    (hafter : ∀ event ∈ after, ¬ event.IsPress) (hbefore : run step {} before = some pressed)
    (hrun : run step pressed (.touch press :: after) = some final)
    (halone : StepsAlong step StartsAlone {} (before ++ .touch press :: after)) :
    (view pressed.calls.length final).commands ≤ 1 := by
  obtain ⟨hprior, hlater⟩ := stepsAlong_append hbefore halone
  have hmodes : pressed.handler.count Callback.isMode ≤ 1 :=
    run_invariant_of_steps (fun current => current.handler.count Callback.isMode ≤ 1) hprior
      (by decide) (fun _ _ _ hguard hcurrent hstep => modes_le_one_step hguard hcurrent hstep) hbefore
  obtain ⟨down, hdown, hrest⟩ := (run_cons_eq_some step).mp hrun
  obtain rfl : pressed.onTouch press = down := Option.some.inj hdown
  have hguards : StepsAlong step StartsAlone (pressed.onTouch press) after :=
    (stepsAlong_cons.mp hlater).2 _ rfl
  have hguarded : StepsAlong step (fun state event => ¬ event.IsPress ∧ StartsAlone state event)
      (pressed.onTouch press) after := by
    intro prior event later state hsplit hstate
    exact ⟨hafter event (by rw [hsplit]; simp), hguards prior event later state hsplit hstate⟩
  have hstart : pressed.calls.length ≤ (pressed.onTouch press).calls.length ∧
      (view pressed.calls.length (pressed.onTouch press)).OneChain := by
    refine ⟨(calls_prefix_of_step hdown).length_le, ?_⟩
    rw [view_onTouch_press hpress]
    exact View.OneChain.press hmodes (by simp [view])
  have hfinal := run_invariant_of_steps
    (fun current => pressed.calls.length ≤ current.calls.length ∧
      (view pressed.calls.length current).OneChain) hguarded hstart
    (fun _ _ _ hguard hcurrent hstep => oneChain_step hguard.1 hguard.2 hcurrent hstep) hrest
  exact hfinal.2.commands

/-- The gesture of a press that moves far to the left, recognised twice before it is handled. -/
def leftGestureEvents : List Event :=
  [.touch ⟨.move, -40, 0⟩, .dispatch ⟨1, 0, .mode .start⟩ ⟨5, 5⟩ ⟨5, 5⟩]

theorem at_most_one_command_leftGesture :
    ∃ final, run step {} (.touch ⟨.down, 0, 0⟩ :: leftGestureEvents) = some final ∧
      (view 0 final).commands ≤ 1 := by
  have hsome : (run step {} (.touch ⟨.down, 0, 0⟩ :: leftGestureEvents)).isSome := by
    decide +kernel
  obtain ⟨final, hrun⟩ := Option.isSome_iff_exists.mp hsome
  refine ⟨final, hrun, at_most_one_command rfl (by decide) (run_nil step {}) hrun ?_⟩
  decide +kernel

/-- The same gesture with one more `ACTION_MOVE` before the first START is handled. -/
def twiceRecognisedEvents : List Event :=
  [.touch ⟨.move, -40, 0⟩, .touch ⟨.move, -41, 0⟩, .dispatch ⟨1, 0, .mode .start⟩ ⟨5, 5⟩ ⟨5, 5⟩,
    .dispatch ⟨2, 0, .mode .start⟩ ⟨5, 5⟩ ⟨5, 5⟩]

theorem two_commands_twiceRecognised :
    ¬ ∀ (before after : List Event) (press : TouchEvent) (pressed final : ButtonEventListener),
      press.action = .down → (∀ event ∈ after, ¬ event.IsPress) →
      run timedStep {} before = some pressed →
      run timedStep pressed (.touch press :: after) = some final →
      (view pressed.calls.length final).commands ≤ 1 := by
  intro hclaim
  have htwo : (run timedStep {} (.touch ⟨.down, 0, 0⟩ :: twiceRecognisedEvents)).map
      (fun final => (view 0 final).commands) = some 2 := by
    decide +kernel
  obtain ⟨final, hrun, hcommands⟩ := Option.map_eq_some_iff.mp htwo
  have hone : (view 0 final).commands ≤ 1 :=
    hclaim [] twiceRecognisedEvents ⟨.down, 0, 0⟩ {} final rfl (by decide) rfl hrun
  omega

end SensorMouse.ButtonEventListener
