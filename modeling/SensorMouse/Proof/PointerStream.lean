import SensorMouse.Proof.ListenerView

/-!
# The injected pointer stream

A press whose DOWN is out is abandoned by an `ACTION_DOWN` or a mode message handled before its
runnable pushes the UP: the stroke stays open, and the next DOWN the runnable pushes falls inside it.
`isPrefixIn_strokes_iff` says that this is the only way to a malformed stream, by carrying through a
run whether a stroke is open: it is while the state is DOWNED or UP, and after an abandoned press.
-/

namespace SensorMouse.ButtonEventListener

open Lib

def pointerMarks (listener : ButtonEventListener) : List Mark := listener.calls.filterMap Call.mark

/-- A DOWN is out and its UP is owed. -/
def SendState.IsPressed (state : SendState) : Prop := state = .downed ∨ state = .up

instance (state : SendState) : Decidable state.IsPressed := inferInstanceAs (Decidable (_ ∨ _))

/-- An `ACTION_DOWN` or a mode message is handled while the UP of a pushed DOWN is owed. -/
def AbandonsPress (listener : ButtonEventListener) : Event → Prop
  | .touch event => event.action = .down ∧ listener.eventSendState.IsPressed
  | .dispatch entry _ _ => entry.item.isMode ∧ listener.eventSendState.IsPressed
  | _ => False

def PushesDown (listener : ButtonEventListener) : Event → Prop
  | .dispatch entry _ _ =>
      entry.item.isSendEvent ∧
        (listener.eventSendState = .down ∨ listener.eventSendState = .downAndUp)
  | _ => False

/-! ### One action -/

namespace View

/-- Whether a stroke is open after the marks of the view; `none` when they are malformed. -/
def reading (seen : View) : Option Bool := run Stroke.next false seen.marks

/-- A stroke is open while the UP is owed and after an abandoned press, and an abandoned press is
never completed. -/
structure Tracked (abandoned : Prop) (seen : View) (isOpen : Bool) : Prop where
  reading : seen.reading = some isOpen
  isOpen_iff : isOpen = true ↔ seen.state.IsPressed ∨ abandoned
  not_pressed : abandoned → ¬ seen.state.IsPressed

variable {seen next : View} {abandoned abandoned' : Prop} {isOpen : Bool}

theorem Tracked.of_marks_eq (htracked : Tracked abandoned seen isOpen)
    (hmarks : next.marks = seen.marks)
    (hopen : next.state.IsPressed ∨ abandoned' ↔ seen.state.IsPressed ∨ abandoned)
    (hpressed : abandoned' → ¬ next.state.IsPressed) : Tracked abandoned' next isOpen where
  reading := by
    have hreading := htracked.reading
    unfold View.reading at hreading ⊢
    rwa [hmarks]
  isOpen_iff := htracked.isOpen_iff.trans hopen.symm
  not_pressed := hpressed

theorem Tracked.taken (htracked : Tracked abandoned seen isOpen) :
    Tracked abandoned { seen with sends := seen.sends - 1 } isOpen :=
  htracked.of_marks_eq rfl Iff.rfl htracked.not_pressed

theorem reading_append (marks : List Mark) (hmarks : next.marks = seen.marks ++ marks)
    (hreading : seen.reading = some isOpen) : next.reading = run Stroke.next isOpen marks := by
  unfold View.reading at hreading ⊢
  rw [hmarks, run_append, hreading]
  rfl

theorem isPressed_move (seen : View) (cancels starts : Bool) :
    (seen.move cancels starts).state.IsPressed ↔ seen.state.IsPressed := by
  rcases state_move seen cancels starts with hsame | ⟨hdown, hcancel⟩
  · rw [hsame]
  · simp [SendState.IsPressed, hdown, hcancel]

theorem isPressed_release (seen : View) :
    seen.release.state.IsPressed ↔ seen.state.IsPressed := by
  unfold View.release SendState.IsPressed
  cases hstate : seen.state <;> simp [hstate]

theorem marks_release (seen : View) : seen.release.marks = seen.marks := by
  unfold View.release
  cases seen.state <;> rfl

theorem marks_mode (seen : View) (outcome : Outcome) : (seen.mode outcome).marks = seen.marks := by
  cases outcome <;> rfl

theorem state_mode (seen : View) (outcome : Outcome) : (seen.mode outcome).state = .mode := by
  cases outcome <;> rfl

theorem Tracked.append (htracked : Tracked abandoned seen isOpen) (hnot : ¬ abandoned)
    {marks : List Mark} {isOpen' : Bool} (hmarks : next.marks = seen.marks ++ marks)
    (hreads : run Stroke.next isOpen marks = some isOpen')
    (hopen : isOpen' = true ↔ next.state.IsPressed) : Tracked abandoned next isOpen' where
  reading := (reading_append marks hmarks htracked.reading).trans hreads
  isOpen_iff := by rw [hopen, or_iff_left hnot]
  not_pressed habandoned := absurd habandoned hnot

/-- The runnable completes the stroke it opened, or opens one if none is open. -/
theorem Tracked.send (htracked : Tracked abandoned seen isOpen) (moved : Bool)
    (hsound : seen.state = .down ∨ seen.state = .downAndUp → ¬ abandoned) :
    ∃ isOpen', Tracked abandoned (seen.send moved) isOpen' := by
  have hclosed : seen.state = .down ∨ seen.state = .downAndUp → isOpen = false := by
    intro hdown
    have hnot : ¬ (seen.state.IsPressed ∨ abandoned) := by
      rintro (hpressed | habandoned)
      · rcases hdown with hdown | hdown <;> simp [SendState.IsPressed, hdown] at hpressed
      · exact hsound hdown habandoned
    exact Bool.eq_false_iff.mpr fun hopen => hnot (htracked.isOpen_iff.mp hopen)
  have hpressed : seen.state.IsPressed → isOpen = true ∧ ¬ abandoned := fun hpressed =>
    ⟨htracked.isOpen_iff.mpr (Or.inl hpressed), fun habandoned =>
      htracked.not_pressed habandoned hpressed⟩
  cases hstate : seen.state with
  | init | cancel | mode =>
      have hsame : seen.send moved = seen := by simp [View.send, hstate]
      exact ⟨isOpen, by rw [hsame]; exact htracked⟩
  | down =>
      obtain rfl := hclosed (Or.inl hstate)
      have hmarks : (seen.send moved).marks = seen.marks ++ [.opens] := by
        simp [View.send, hstate]
      refine ⟨true, htracked.append (hsound (Or.inl hstate)) hmarks rfl ?_⟩
      simp [View.send, hstate, SendState.IsPressed]
  | downAndUp =>
      obtain rfl := hclosed (Or.inr hstate)
      have hmarks : (seen.send moved).marks = seen.marks ++ [.opens, .closes] := by
        simp [View.send, hstate]
      refine ⟨false, htracked.append (hsound (Or.inr hstate)) hmarks rfl ?_⟩
      simp [View.send, hstate, SendState.IsPressed]
  | up =>
      obtain ⟨rfl, hnot⟩ := hpressed (Or.inr hstate)
      have hmarks : (seen.send moved).marks = seen.marks ++ [.closes] := by
        simp [View.send, hstate]
      refine ⟨false, htracked.append hnot hmarks rfl ?_⟩
      simp [View.send, hstate, SendState.IsPressed]
  | downed =>
      obtain ⟨rfl, hnot⟩ := hpressed (Or.inl hstate)
      have hmarks : (seen.send moved).marks = seen.marks ++ if moved then [.within] else [] := by
        cases moved <;> simp [View.send, hstate]
      refine ⟨true, htracked.append hnot hmarks ?_ ?_⟩
      · cases moved <;> rfl
      · simp [View.send, hstate, SendState.IsPressed]

theorem Tracked.reading_send (htracked : Tracked abandoned seen isOpen) (moved : Bool)
    (habandoned : abandoned) (hdown : seen.state = .down ∨ seen.state = .downAndUp) :
    (seen.send moved).reading = none := by
  have hopen : isOpen = true := htracked.isOpen_iff.mpr (Or.inr habandoned)
  subst hopen
  rcases hdown with hdown | hdown
  · have hmarks : (seen.send moved).marks = seen.marks ++ [.opens] := by
      simp [View.send, hdown]
    exact reading_append [.opens] hmarks htracked.reading
  · have hmarks : (seen.send moved).marks = seen.marks ++ [.opens, .closes] := by
      simp [View.send, hdown]
    exact reading_append [.opens, .closes] hmarks htracked.reading

end View

/-! ### One step and one run -/

variable {listener next : ButtonEventListener} {event : Event} {abandoned : Prop} {isOpen : Bool}

open View

theorem tracked_step (htracked : Tracked abandoned (view 0 listener) isOpen)
    (hsound : PushesDown listener event → ¬ abandoned) (hstep : listener.step event = some next) :
    ∃ isOpen', Tracked (abandoned ∨ AbandonsPress listener event) (view 0 next) isOpen' := by
  obtain ⟨action, hshows, -, hview⟩ := view_step (Nat.zero_le _) hstep
  rw [hview]
  have hkept : ¬ AbandonsPress listener event → ∀ {seen isOpen}, Tracked abandoned seen isOpen →
      Tracked (abandoned ∨ AbandonsPress listener event) seen isOpen := by
    intro hnot seen isOpen hseen
    simpa only [hnot, or_false] using hseen
  have hstate : (view 0 listener).state = listener.eventSendState := rfl
  cases hshows with
  | press haction =>
      refine ⟨isOpen, htracked.of_marks_eq rfl ?_ ?_⟩
      · simp [AbandonsPress, haction, act, View.press, SendState.IsPressed, hstate, or_comm]
      · intro _
        simp [act, View.press, SendState.IsPressed]
  | move haction cancels =>
      have hpressed := isPressed_move (view 0 listener) cancels
      refine ⟨isOpen, hkept (by simp [AbandonsPress, haction]) ?_⟩
      exact htracked.of_marks_eq (marks_move _ _ _) (or_congr_left (hpressed _)) fun habandoned =>
        mt (hpressed _).mp (htracked.not_pressed habandoned)
  | other haction => exact ⟨isOpen, hkept (by simp [AbandonsPress, haction]) htracked⟩
  | release =>
      have hpressed := isPressed_release (view 0 listener)
      refine ⟨isOpen, hkept (by simp [AbandonsPress]) ?_⟩
      exact htracked.of_marks_eq (marks_release _) (or_congr_left hpressed) fun habandoned =>
        mt hpressed.mp (htracked.not_pressed habandoned)
  | tick elapsed => exact ⟨isOpen, hkept (by simp [AbandonsPress]) htracked⟩
  | send hitem moved =>
      obtain ⟨isOpen', hsent⟩ := htracked.taken.send moved fun hdown =>
        hsound ⟨by rw [hitem]; rfl, hdown⟩
      refine ⟨isOpen', hkept ?_ hsent⟩
      simp [AbandonsPress, hitem, Callback.isMode]
  | mode hitem outcome =>
      refine ⟨isOpen, htracked.of_marks_eq (marks_mode _ outcome) ?_ ?_⟩
      · simp [AbandonsPress, hitem, Callback.isMode, act, state_mode, SendState.IsPressed, hstate,
          or_comm]
      · intro _
        simp [act, state_mode, SendState.IsPressed]

theorem reading_step_of_pushesDown (htracked : Tracked abandoned (view 0 listener) isOpen)
    (habandoned : abandoned) (hdown : PushesDown listener event)
    (hstep : listener.step event = some next) : (view 0 next).reading = none := by
  obtain ⟨action, hshows, -, hview⟩ := view_step (Nat.zero_le _) hstep
  rw [hview]
  cases hshows with
  | send hitem moved =>
      exact htracked.taken.reading_send moved habandoned hdown.2
  | mode hitem outcome => simp [PushesDown, hitem, Callback.isSendEvent] at hdown
  | press haction | move haction | other haction => exact hdown.elim
  | release => exact hdown.elim
  | tick elapsed => exact hdown.elim

theorem view_marks_zero (listener : ButtonEventListener) :
    (view 0 listener).marks = pointerMarks listener := by
  simp [view, pointerMarks]

theorem reading_step_of_none (hreading : (view 0 listener).reading = none)
    (hstep : listener.step event = some next) : (view 0 next).reading = none := by
  obtain ⟨made, hcalls⟩ := calls_prefix_of_step hstep
  unfold View.reading at hreading ⊢
  rw [view_marks_zero] at hreading ⊢
  unfold pointerMarks at hreading ⊢
  rw [← hcalls, List.filterMap_append, run_append, hreading]
  rfl

/-- **Exactly when the pointer stream is well formed.** The events `sendEventRunnable` has pushed are
a prefix of `(DOWN MOVE* UP)*` exactly if it never ran in DOWN or DOWNANDUP after an `ACTION_DOWN` or
a mode message was handled in DOWNED or UP. -/
theorem isPrefixIn_strokes_iff {events : List Event} {listener : ButtonEventListener}
    (hrun : run step {} events = some listener) :
    Stroke.IsPrefixIn Stroke.strokes (pointerMarks listener) ↔
      ¬ Ordered step AbandonsPress PushesDown {} events := by
  have hinvariant : (Ordered step AbandonsPress PushesDown {} events ∧
        (view 0 listener).reading = none) ∨
      (¬ Ordered step AbandonsPress PushesDown {} events ∧
        ∃ isOpen, Tracked (Earlier step AbandonsPress {} events) (view 0 listener) isOpen) := by
    refine run_history (fun past current =>
      (Ordered step AbandonsPress PushesDown {} past ∧ (view 0 current).reading = none) ∨
      (¬ Ordered step AbandonsPress PushesDown {} past ∧
        ∃ isOpen, Tracked (Earlier step AbandonsPress {} past) (view 0 current) isOpen)) ?_ ?_ hrun
    · refine Or.inr ⟨not_ordered_nil, false, rfl, ?_, fun hearlier =>
        absurd hearlier not_earlier_nil⟩
      simp [view, SendState.IsPressed, not_earlier_nil]
    · intro past current label after hpast hcurrent hstep
      rw [ordered_concat hpast, earlier_concat hpast]
      rcases hcurrent with ⟨hordered, hreading⟩ | ⟨hordered, isOpen, htracked⟩
      · exact Or.inl ⟨Or.inl hordered, reading_step_of_none hreading hstep⟩
      · by_cases hbreaks : PushesDown current label ∧ Earlier step AbandonsPress {} past
        · exact Or.inl ⟨Or.inr hbreaks,
            reading_step_of_pushesDown htracked hbreaks.2 hbreaks.1 hstep⟩
        · refine Or.inr ⟨not_or.mpr ⟨hordered, hbreaks⟩, ?_⟩
          exact tracked_step htracked (fun hdown habandoned => hbreaks ⟨hdown, habandoned⟩) hstep
  rw [Stroke.isStrokesPrefix_iff, ← view_marks_zero]
  rcases hinvariant with ⟨hordered, hreading⟩ | ⟨hordered, isOpen, htracked⟩
  · refine iff_of_false ?_ (not_not.mpr hordered)
    rintro ⟨isOpen, hopen⟩
    rw [View.reading, hopen] at hreading
    cases hreading
  · exact iff_of_true ⟨isOpen, htracked.reading⟩ hordered

/-- A click: the finger is lifted after the DOWN and before the UP is pushed. -/
def clickEvents : List Event :=
  [.touch ⟨.down, 0, 0⟩, .tick 100, .dispatch ⟨0, 100, .sendEvent⟩ ⟨5, 5⟩ ⟨5, 5⟩, .touchActionUp,
    .tick 100, .dispatch ⟨1, 200, .sendEvent⟩ ⟨5, 5⟩ ⟨5, 5⟩]

theorem isPrefixIn_strokes_iff_click :
    ∃ listener, run step {} clickEvents = some listener ∧
      pointerMarks listener = [.opens, .closes] ∧
      (Stroke.IsPrefixIn Stroke.strokes (pointerMarks listener) ↔
        ¬ Ordered step AbandonsPress PushesDown {} clickEvents) := by
  have hmarks : (run step {} clickEvents).map pointerMarks = some [.opens, .closes] := by decide
  obtain ⟨listener, hrun, hclick⟩ := Option.map_eq_some_iff.mp hmarks
  exact ⟨listener, hrun, hclick, isPrefixIn_strokes_iff hrun⟩

/-- The finger is lifted at 120 and pressed again at 150; the runnable of the first press, due at
200, finds the state of the second. -/
def quickPressEvents : List Event :=
  [.touch ⟨.down, 0, 0⟩, .tick 100, .dispatch ⟨0, 100, .sendEvent⟩ ⟨5, 5⟩ ⟨5, 5⟩, .tick 20,
    .touchActionUp, .tick 30, .touch ⟨.down, 0, 0⟩, .tick 50,
    .dispatch ⟨1, 200, .sendEvent⟩ ⟨5, 5⟩ ⟨5, 5⟩]

theorem not_isPrefixIn_strokes_quickPress :
    ¬ ∀ events listener, run timedStep {} events = some listener →
      Stroke.IsPrefixIn Stroke.strokes (pointerMarks listener) := by
  intro hclaim
  have hread : (run timedStep {} quickPressEvents).map
      (fun listener => run Stroke.next false (pointerMarks listener)) = some none := by decide
  obtain ⟨listener, hrun, hnone⟩ := Option.map_eq_some_iff.mp hread
  obtain ⟨isOpen, hopen⟩ := Stroke.isStrokesPrefix_iff.mp (hclaim quickPressEvents listener hrun)
  rw [hnone] at hopen
  cases hopen

end SensorMouse.ButtonEventListener
