import Mathlib.Tactic.Linarith
import SensorMouse.Proof.ListenerView

/-!
# Left and right

The listener of the left button tests the mirrored half-plane for KEY, and the two button codes lie on
either side. The chain of tests is not mirrored as it is written: B2_LEFT asks for `|lengthY| < |lengthX|`
and B2_RIGHT does not. Where either is reached `|lengthX|` exceeds twice `|lengthY|`, so the condition
always holds and `recognise` has the symmetry that `mirror_law` carries through every run.
-/

namespace SensorMouse.ButtonEventListener

open Lib

/-! ### Mirror images -/

def ModeFlag.mirrored : ModeFlag → ModeFlag
  | .b2Left => .b2Right
  | .b2Right => .b2Left
  | flag => flag

/-- The event whose horizontal displacement from the press point `pressX` is negated. -/
def Event.mirrored (pressX : ℚ) : Event → Event
  | .touch ⟨.move, x, y⟩ => .touch ⟨.move, pressX - (x - pressX), y⟩
  | event => event

/-- The press point after an event. -/
def Event.pressX (pressX : ℚ) : Event → ℚ
  | .touch ⟨.down, x, _⟩ => x
  | _ => pressX

def mirrorImage : ℚ → List Event → List Event
  | _, [] => []
  | pressX, event :: rest => event.mirrored pressX :: mirrorImage (event.pressX pressX) rest

/-- The listener of the other button. -/
def mirrored (listener : ButtonEventListener) : ButtonEventListener :=
  { listener with isRight := !listener.isRight, modeFlag := listener.modeFlag.mirrored }

example : ({} : ButtonEventListener).mirrored = ({} : ButtonEventListener).setRight false := rfl

def startsSentBy (listener : ButtonEventListener) : Event → Nat
  | .touch touched => if listener.SendsStart touched then 1 else 0
  | _ => 0

/-- How many `MODE_STATE_START` messages are sent in the course of `events`. -/
def startsSent (listener : ButtonEventListener) : List Event → Nat
  | [] => 0
  | event :: rest =>
      listener.startsSentBy event +
        match listener.step event with
        | some next => next.startsSent rest
        | none => 0

/-- The same send state, the same pending callbacks and the mirrored flag. -/
structure SeenMirrored (listener other : ButtonEventListener) : Prop where
  state_eq : other.eventSendState = listener.eventSendState
  handler_eq : other.handler = listener.handler
  flag_eq : other.modeFlag = listener.modeFlag.mirrored

/-! ### The gesture -/

theorem abs_lt_of_two_mul_lt {lengthX lengthY : ℚ} (hflat : |lengthX| > |lengthY| * 2) :
    |lengthY| < |lengthX| := by
  have hnonneg := abs_nonneg lengthY
  linarith

/-- **The chain of tests is symmetric.** -/
theorem recognise_mirrored (isRight : Bool) (lengthX lengthY : ℚ) :
    recognise (!isRight) (-lengthX) lengthY =
      (recognise isRight lengthX lengthY).map ModeFlag.mirrored := by
  have hkey : ((!isRight) = true ∧ -lengthX - lengthY > 30 ∨
      ¬ (!isRight) = true ∧ - -lengthX - lengthY > 30) ↔
      (isRight = true ∧ lengthX - lengthY > 30 ∨ ¬ isRight = true ∧ -lengthX - lengthY > 30) := by
    cases isRight <;> simp
  unfold recognise
  rw [abs_neg]
  simp only [hkey]
  by_cases hcorner : isRight = true ∧ lengthX - lengthY > 30 ∨
      ¬ isRight = true ∧ -lengthX - lengthY > 30
  · rw [if_pos hcorner, if_pos hcorner]
    rfl
  rw [if_neg hcorner, if_neg hcorner]
  by_cases hphoto : lengthY > 50 ∧ lengthY > |lengthX| * 2
  · rw [if_pos hphoto, if_pos hphoto]
    rfl
  rw [if_neg hphoto, if_neg hphoto]
  by_cases hflat : |lengthX| > |lengthY| * 2
  · have hlonger := abs_lt_of_two_mul_lt hflat
    rw [if_pos hflat, if_pos hflat]
    by_cases hright : lengthX > 30
    · have hleft : -lengthX < -30 := by linarith
      have hnot : ¬ -lengthX > 30 := by linarith
      rw [if_pos hright, if_neg hnot, if_pos ⟨hleft, hlonger⟩]
      rfl
    by_cases hleft : lengthX < -30
    · have hflipped : -lengthX > 30 := by linarith
      rw [if_pos hflipped, if_neg hright, if_pos ⟨hleft, hlonger⟩]
      rfl
    · have hnot : ¬ -lengthX > 30 := by linarith
      have hshort : ¬ (-lengthX < -30 ∧ |lengthY| < |lengthX|) := fun h => hright (by linarith [h.1])
      rw [if_neg hnot, if_neg hshort, if_neg hright, if_neg fun h => hleft h.1]
      rfl
  · rw [if_neg hflat, if_neg hflat]
    rfl

/-! ### One event -/

/-- What the symmetry needs of two listeners; only displacements, toasts and pushes may differ. -/
structure Mirrors (listener other : ButtonEventListener) : Prop
    extends SeenMirrored listener other where
  side_eq : other.isRight = !listener.isRight
  downX_eq : other.downX = listener.downX
  downY_eq : other.downY = listener.downY
  count_eq : other.modeStateCount = listener.modeStateCount
  startX_eq : other.startX = listener.startX
  startY_eq : other.startY = listener.startY

/-- The same in the middle of an `ACTION_MOVE`, when the displacement has been computed. -/
structure Measured (listener other : ButtonEventListener) : Prop extends Mirrors listener other where
  lengthX_eq : other.lengthX = -listener.lengthX
  lengthY_eq : other.lengthY = listener.lengthY

section

variable {listener other : ButtonEventListener}

theorem mirrors_mirrored (listener : ButtonEventListener) : Mirrors listener listener.mirrored :=
  ⟨⟨rfl, rfl, rfl⟩, rfl, rfl, rfl, rfl, rfl, rfl⟩

theorem Mirrors.onTouchDown (hmirrors : Mirrors listener other) (x y : ℚ) :
    Mirrors (listener.onTouchDown x y) (other.onTouchDown x y) := by
  have hhandler := hmirrors.handler_eq
  refine ⟨⟨rfl, ?_, rfl⟩, hmirrors.side_eq, rfl, rfl, hmirrors.count_eq, hmirrors.startX_eq,
    hmirrors.startY_eq⟩
  simp [ButtonEventListener.onTouchDown, postDelayed, hhandler]

theorem Measured.cancelIfMoved (hmeasured : Measured listener other) :
    Measured listener.cancelIfMoved other.cancelIfMoved := by
  have hmoves : (other.eventSendState = .down ∧
      (|other.lengthX| > buttonMoveOffset ∨ |other.lengthY| > buttonMoveOffset)) ↔
      (listener.eventSendState = .down ∧
        (|listener.lengthX| > buttonMoveOffset ∨ |listener.lengthY| > buttonMoveOffset)) := by
    rw [hmeasured.state_eq, hmeasured.lengthX_eq, hmeasured.lengthY_eq, abs_neg]
  unfold ButtonEventListener.cancelIfMoved
  by_cases hmoved : listener.eventSendState = .down ∧
      (|listener.lengthX| > buttonMoveOffset ∨ |listener.lengthY| > buttonMoveOffset)
  · rw [if_pos hmoved, if_pos (hmoves.mpr hmoved)]
    have hhandler := hmeasured.handler_eq
    exact { hmeasured with state_eq := rfl, handler_eq := by simp [hhandler] }
  · rw [if_neg hmoved, if_neg fun h => hmoved (hmoves.mp h)]
    exact hmeasured

theorem Measured.recognise_eq (hmeasured : Measured listener other) :
    recognise other.isRight other.lengthX other.lengthY =
      (recognise listener.isRight listener.lengthX listener.lengthY).map ModeFlag.mirrored := by
  rw [hmeasured.side_eq, hmeasured.lengthX_eq, hmeasured.lengthY_eq, recognise_mirrored]

theorem Measured.startModeIfRecognised (hmeasured : Measured listener other) :
    Mirrors listener.startModeIfRecognised other.startModeIfRecognised := by
  unfold ButtonEventListener.startModeIfRecognised
  rw [hmeasured.state_eq, hmeasured.recognise_eq]
  split_ifs
  · cases recognise listener.isRight listener.lengthX listener.lengthY with
    | none => exact hmeasured.toMirrors
    | some flag =>
        have hhandler := hmeasured.handler_eq
        exact { hmeasured.toMirrors with
          state_eq := rfl
          flag_eq := rfl
          handler_eq := by simp [postDelayed, hhandler] }
  · exact hmeasured.toMirrors

/-- The mirrored event has the mirrored displacement. -/
theorem Mirrors.measured (hmirrors : Mirrors listener other) (x y : ℚ) :
    Measured (listener.measured x y)
      (other.measured (listener.downX - (x - listener.downX)) y) := by
  refine Measured.cancelIfMoved ⟨{ hmirrors with }, ?_, ?_⟩
  · change listener.downX - (x - listener.downX) - other.downX = -(x - listener.downX)
    rw [hmirrors.downX_eq]
    ring
  · change y - other.downY = y - listener.downY
    rw [hmirrors.downY_eq]

theorem Mirrors.onTouchMove (hmirrors : Mirrors listener other) (x y : ℚ) :
    Mirrors (listener.onTouchMove x y)
      (other.onTouchMove (listener.downX - (x - listener.downX)) y) :=
  (hmirrors.measured x y).startModeIfRecognised

theorem Mirrors.sendsStart_iff (hmirrors : Mirrors listener other) (x y : ℚ) :
    other.SendsStart ⟨.move, listener.downX - (x - listener.downX), y⟩ ↔
      listener.SendsStart ⟨.move, x, y⟩ := by
  have hmeasured := hmirrors.measured x y
  unfold SendsStart
  dsimp only
  rw [hmeasured.state_eq, hmeasured.recognise_eq, Option.isSome_map]

theorem downX_onTouchMove (listener : ButtonEventListener) (x y : ℚ) :
    (listener.onTouchMove x y).downX = listener.downX := by
  have hcancel : ∀ moved : ButtonEventListener, moved.cancelIfMoved.downX = moved.downX := by
    intro moved
    unfold ButtonEventListener.cancelIfMoved
    split_ifs <;> rfl
  have hstart : ∀ moved : ButtonEventListener,
      moved.startModeIfRecognised.downX = moved.downX := by
    intro moved
    unfold ButtonEventListener.startModeIfRecognised
    split_ifs
    · cases recognise moved.isRight moved.lengthX moved.lengthY <;> rfl
    · rfl
  exact (hstart _).trans (hcancel _)

theorem Mirrors.onReceive (hmirrors : Mirrors listener other) :
    Mirrors listener.onReceive other.onReceive := by
  unfold ButtonEventListener.onReceive
  rw [hmirrors.state_eq]
  split_ifs
  · exact { hmirrors with state_eq := rfl }
  · exact { hmirrors with state_eq := rfl }
  · exact { hmirrors with state_eq := rfl }
  · exact hmirrors

theorem Mirrors.post (hmirrors : Mirrors listener other) (callback : Callback) (delay : Nat) :
    Mirrors (listener.postDelayed callback delay) (other.postDelayed callback delay) :=
  { hmirrors with handler_eq := by simp [postDelayed, hmirrors.handler_eq] }

theorem Mirrors.sendEventRunnable (hmirrors : Mirrors listener other) (back cursor : Position) :
    Mirrors (listener.sendEventRunnable back cursor) (other.sendEventRunnable back cursor) := by
  have hhandler := hmirrors.handler_eq
  unfold ButtonEventListener.sendEventRunnable
  rw [hmirrors.state_eq]
  cases listener.eventSendState with
  | init | cancel | mode => exact hmirrors
  | up | downAndUp => exact { hmirrors with state_eq := rfl }
  | down =>
      exact { hmirrors with
        state_eq := rfl
        handler_eq := by simp [postDelayed, call, pushMotionEvent, hhandler] }
  | downed =>
      refine Mirrors.post ?_ _ _
      split_ifs
      · exact { hmirrors with }
      · exact { hmirrors with }
      · exact { hmirrors with }
      · exact { hmirrors with }

theorem Mirrors.scanMove (hmirrors : Mirrors listener other) (command : Option Int) :
    Mirrors (listener.scanMove command) (other.scanMove command) := by
  have hcount := hmirrors.count_eq
  have hcounted : Mirrors { listener with modeStateCount := listener.modeStateCount + 1 }
      { other with modeStateCount := other.modeStateCount + 1 } :=
    { hmirrors with count_eq := congrArg (· + 1) hcount }
  unfold ButtonEventListener.scanMove
  dsimp only
  rw [hcount] at hcounted ⊢
  split_ifs
  · cases command with
    | none => exact hcounted.post _ _
    | some action => exact { hcounted with }
  · exact hcounted

theorem Mirrors.handleMessage (hmirrors : Mirrors listener other) (what : ModeMessage)
    (cursor : Position) :
    Mirrors (listener.handleMessage what cursor) (other.handleMessage what cursor) := by
  have hflags := hmirrors.flag_eq
  have hmode : Mirrors { listener with eventSendState := .mode }
      { other with eventSendState := .mode } := { hmirrors with state_eq := rfl }
  cases hflag : listener.modeFlag with
  | init =>
      rw [hflag] at hflags
      rw [handleMessage_init hflag, handleMessage_init hflags]
      exact hmode
  | b2Left =>
      rw [hflag] at hflags
      rw [handleMessage_b2Left hflag, handleMessage_b2Right hflags]
      exact { hmode with }
  | b2Right =>
      rw [hflag] at hflags
      rw [handleMessage_b2Right hflag, handleMessage_b2Left hflags]
      exact { hmode with }
  | key =>
      rw [hflag] at hflags
      cases what with
      | start =>
          rw [handleMessage_key_start hflag, handleMessage_key_start hflags]
          refine Mirrors.post ?_ _ _
          exact { hmode with count_eq := rfl, startX_eq := rfl, startY_eq := rfl }
      | move =>
          have hcommand : keyCommand (Java.wrap (cursor.x - other.startX))
              (Java.wrap (cursor.y - other.startY)) =
              keyCommand (Java.wrap (cursor.x - listener.startX))
                (Java.wrap (cursor.y - listener.startY)) := by
            rw [hmirrors.startX_eq, hmirrors.startY_eq]
          rw [handleMessage_key_move hflag, handleMessage_key_move hflags, hcommand]
          exact hmode.scanMove _
  | photo =>
      rw [hflag] at hflags
      cases what with
      | start =>
          rw [handleMessage_photo_start hflag, handleMessage_photo_start hflags]
          refine Mirrors.post ?_ _ _
          exact { hmode with count_eq := rfl, startY_eq := rfl }
      | move =>
          have hcommand : photoCommand (Java.wrap (cursor.y - other.startY)) =
              photoCommand (Java.wrap (cursor.y - listener.startY)) := by
            rw [hmirrors.startY_eq]
          rw [handleMessage_photo_move hflag, handleMessage_photo_move hflags, hcommand]
          exact hmode.scanMove _

theorem Mirrors.dispatch (hmirrors : Mirrors listener other) (entry : Entry Callback)
    (back cursor : Position) :
    Mirrors (listener.dispatch entry back cursor) (other.dispatch entry back cursor) := by
  have htaken : Mirrors { listener with handler := listener.handler.take entry }
      { other with handler := other.handler.take entry } :=
    { hmirrors with handler_eq := congrArg (DelayQueue.take · entry) hmirrors.handler_eq }
  unfold ButtonEventListener.dispatch
  cases entry.item with
  | sendEvent => exact htaken.sendEventRunnable back cursor
  | mode what => exact htaken.handleMessage what cursor

theorem Mirrors.onTouch (hmirrors : Mirrors listener other) {touched touched' : TouchEvent}
    (himage : (Event.touch touched).mirrored listener.downX = .touch touched') :
    Mirrors (listener.onTouch touched) (other.onTouch touched') ∧
      (other.SendsStart touched' ↔ listener.SendsStart touched) := by
  obtain ⟨action, x, y⟩ := touched
  cases action with
  | down =>
      obtain rfl : ⟨.down, x, y⟩ = touched' := Event.touch.inj himage
      exact ⟨hmirrors.onTouchDown x y, by simp [SendsStart]⟩
  | move =>
      obtain rfl : ⟨.move, listener.downX - (x - listener.downX), y⟩ = touched' :=
        Event.touch.inj himage
      exact ⟨hmirrors.onTouchMove x y, hmirrors.sendsStart_iff x y⟩
  | other =>
      obtain rfl : ⟨.other, x, y⟩ = touched' := Event.touch.inj himage
      exact ⟨hmirrors, by simp [SendsStart]⟩

/-! ### The press point -/

theorem downX_scanMove (listener : ButtonEventListener) (command : Option Int) :
    (listener.scanMove command).downX = listener.downX := by
  unfold ButtonEventListener.scanMove
  dsimp only
  split_ifs
  · cases command <;> rfl
  · rfl

theorem downX_handleMessage (listener : ButtonEventListener) (what : ModeMessage)
    (cursor : Position) : (listener.handleMessage what cursor).downX = listener.downX := by
  unfold ButtonEventListener.handleMessage
  cases listener.modeFlag with
  | init | b2Left | b2Right => rfl
  | key | photo =>
      cases what with
      | start => rfl
      | move => exact downX_scanMove _ _

theorem downX_sendEventRunnable (listener : ButtonEventListener) (back cursor : Position) :
    (listener.sendEventRunnable back cursor).downX = listener.downX := by
  unfold ButtonEventListener.sendEventRunnable
  cases listener.eventSendState with
  | downed =>
      dsimp only
      split_ifs <;> rfl
  | _ => rfl

theorem downX_of_step {event : Event} {next : ButtonEventListener}
    (hstep : listener.step event = some next) : next.downX = event.pressX listener.downX := by
  cases event with
  | touchActionUp =>
      obtain rfl : listener.onReceive = next := Option.some.inj hstep
      unfold ButtonEventListener.onReceive
      split_ifs <;> rfl
  | tick elapsed =>
      obtain rfl := Option.some.inj hstep
      rfl
  | touch touched =>
      obtain rfl : listener.onTouch touched = next := Option.some.inj hstep
      obtain ⟨action, x, y⟩ := touched
      cases action with
      | down => rfl
      | move => exact downX_onTouchMove listener x y
      | other => rfl
  | dispatch entry back cursor =>
      simp only [ButtonEventListener.step] at hstep
      split_ifs at hstep
      obtain rfl : listener.dispatch entry back cursor = next := Option.some.inj hstep
      unfold ButtonEventListener.dispatch
      cases entry.item with
      | sendEvent => exact downX_sendEventRunnable _ back cursor
      | mode what => exact downX_handleMessage _ what cursor

/-! ### Runs -/

theorem exists_mirrored_touch (pressX : ℚ) (touched : TouchEvent) :
    ∃ touched', (Event.touch touched).mirrored pressX = .touch touched' := by
  obtain ⟨action, x, y⟩ := touched
  cases action <;> exact ⟨_, rfl⟩

/-- A listener steps as its mirror image does on the mirrored event. -/
theorem Mirrors.step (hmirrors : Mirrors listener other) (event : Event) :
    Option.Rel Mirrors (listener.step event)
      (other.step (event.mirrored listener.downX)) := by
  cases event with
  | touchActionUp => exact .some hmirrors.onReceive
  | tick elapsed =>
      refine .some { hmirrors with handler_eq := ?_ }
      exact congrArg (DelayQueue.advance · elapsed) hmirrors.handler_eq
  | dispatch entry back cursor =>
      have himage : (Event.dispatch entry back cursor).mirrored listener.downX =
          .dispatch entry back cursor := rfl
      rw [himage, ButtonEventListener.step, ButtonEventListener.step, hmirrors.handler_eq]
      split_ifs
      · exact .some (hmirrors.dispatch entry back cursor)
      · exact .none
  | touch touched =>
      obtain ⟨touched', himage⟩ := exists_mirrored_touch listener.downX touched
      rw [himage]
      exact .some (hmirrors.onTouch himage).1

theorem Mirrors.startsSentBy_eq (hmirrors : Mirrors listener other) (event : Event) :
    other.startsSentBy (event.mirrored listener.downX) = listener.startsSentBy event := by
  cases event with
  | touchActionUp => rfl
  | tick elapsed => rfl
  | dispatch entry back cursor => rfl
  | touch touched =>
      obtain ⟨touched', himage⟩ := exists_mirrored_touch listener.downX touched
      rw [himage]
      exact if_congr (hmirrors.onTouch himage).2 rfl rfl

/-- Both listeners take the step to mirrored states, or neither takes it. -/
theorem Mirrors.step_cases (hmirrors : Mirrors listener other) (event : Event) :
    (listener.step event = none ∧ other.step (event.mirrored listener.downX) = none) ∨
      ∃ next next', listener.step event = some next ∧
        other.step (event.mirrored listener.downX) = some next' ∧ Mirrors next next' ∧
        next.downX = event.pressX listener.downX := by
  have hrel := hmirrors.step event
  cases hstep : listener.step event with
  | none =>
      cases hother : other.step (event.mirrored listener.downX) with
      | none => exact Or.inl ⟨rfl, rfl⟩
      | some next' =>
          rw [hstep, hother] at hrel
          cases hrel
  | some next =>
      cases hother : other.step (event.mirrored listener.downX) with
      | none =>
          rw [hstep, hother] at hrel
          cases hrel
      | some next' =>
          rw [hstep, hother] at hrel
          obtain ⟨hnext⟩ := hrel
          exact Or.inr ⟨next, next', rfl, rfl, hnext, downX_of_step hstep⟩

theorem Mirrors.run (hmirrors : Mirrors listener other) (events : List Event) :
    Option.Rel SeenMirrored (run ButtonEventListener.step listener events)
      (run ButtonEventListener.step other (mirrorImage listener.downX events)) := by
  induction events generalizing listener other with
  | nil => exact .some hmirrors.toSeenMirrored
  | cons event rest ih =>
      rw [mirrorImage, run_cons, run_cons]
      obtain ⟨hnone, hnone'⟩ | ⟨next, next', hnext, hnext', hreached, hpress⟩ :=
        hmirrors.step_cases event
      · rw [hnone, hnone']
        exact .none
      · rw [hnext, hnext', ← hpress]
        exact ih hreached

theorem Mirrors.startsSent_eq (hmirrors : Mirrors listener other) (events : List Event) :
    other.startsSent (mirrorImage listener.downX events) = listener.startsSent events := by
  induction events generalizing listener other with
  | nil => rfl
  | cons event rest ih =>
      rw [mirrorImage, startsSent, startsSent, hmirrors.startsSentBy_eq]
      obtain ⟨hnone, hnone'⟩ | ⟨next, next', hnext, hnext', hreached, hpress⟩ :=
        hmirrors.step_cases event
      · rw [hnone, hnone']
      · rw [hnext, hnext', ← hpress]
        exact congrArg (listener.startsSentBy event + ·) (ih hreached)

end

theorem mirrorImage_take (pressX : ℚ) (events : List Event) (moment : Nat) :
    (mirrorImage pressX events).take moment = mirrorImage pressX (events.take moment) := by
  induction events generalizing pressX moment with
  | nil => simp [mirrorImage]
  | cons event rest ih =>
      cases moment with
      | zero => rfl
      | succ moment => simp [mirrorImage, ih]

/-- **The mirror law.** A listener and the one of the other button, given mirrored displacements, see
the same states, callbacks and STARTs at every moment, and mirrored gestures. -/
theorem mirror_law (start : ButtonEventListener) (events : List Event) (moment : Nat) :
    Option.Rel SeenMirrored (run step start (events.take moment))
        (run step start.mirrored ((mirrorImage start.downX events).take moment)) ∧
      start.mirrored.startsSent ((mirrorImage start.downX events).take moment) =
        start.startsSent (events.take moment) := by
  have hmirrors := mirrors_mirrored start
  rw [mirrorImage_take]
  exact ⟨hmirrors.run (events.take moment), hmirrors.startsSent_eq (events.take moment)⟩

end SensorMouse.ButtonEventListener
