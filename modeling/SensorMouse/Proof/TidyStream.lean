import SensorMouse.Proof.EventOrder
import SensorMouse.Proof.ListenerView

/-!
# The stream the listener pushes

The marks of a stream of events are the openings and closings of its strokes. If every press finds
nothing pending, what the listener pushes is a number of whole strokes, and one more that is open while
the state is between its `DOWN` and its `UP`: `Tidy`.
-/

namespace SensorMouse

open Android Lib

/-! ### The marks of an injected event -/

namespace EventQueueHandler

/-- The second finger of a zoom gesture comes and goes inside its stroke. -/
def pointerMark (action : Int) : Option Mark :=
  if action = MotionEvent.actionDown then some .opens
  else if action = MotionEvent.actionMove then some .within
  else if action = MotionEvent.actionUp then some .closes
  else none

def Injection.mark : Injection → Option Mark
  | .sendPointerSync event => pointerMark event.action
  | _ => none

/-- The pointer events the system gets for one pushed action. -/
def actionMarks (action : Int) : List Mark :=
  if action = sendZoom ∨ action = sendPinch then
    .opens :: (List.replicate 10 .within ++ [.closes])
  else (pointerMark action).toList

theorem marks_gesture (direction now : Int) :
    ((generateZoomGesture direction now).map Injection.sendPointerSync).filterMap Injection.mark =
      .opens :: (List.replicate 10 .within ++ [.closes]) := rfl

theorem marks_expansion (now : Int) (event : MotionEvent) :
    (expansion now event).filterMap Injection.mark = actionMarks event.action := by
  have hpointer : event.action ≠ sendZoom → event.action ≠ sendPinch →
      actionMarks event.action = (pointerMark event.action).toList := by
    intro hzoom hpinch
    exact if_neg (not_or.mpr ⟨hzoom, hpinch⟩)
  unfold expansion
  split_ifs with hnonneg hzoom hpinch hleft hright
  · have hnot : event.action ≠ sendZoom ∧ event.action ≠ sendPinch := by
      unfold sendZoom sendPinch
      omega
    have hmark : pointerMark event.action = Injection.mark (.sendPointerSync event) := rfl
    rw [hpointer hnot.1 hnot.2, hmark, List.filterMap_cons]
    cases Injection.mark (.sendPointerSync event) <;> rfl
  · rw [marks_gesture, hzoom]
    rfl
  · rw [marks_gesture, hpinch]
    rfl
  · rw [hleft]
    rfl
  · rw [hright]
    rfl
  · have hnone : pointerMark event.action = none := by
      unfold pointerMark MotionEvent.actionDown MotionEvent.actionMove MotionEvent.actionUp
      rw [if_neg (by omega), if_neg (by omega), if_neg (by omega)]
    rw [hpointer hzoom hpinch, hnone]
    rfl

def streamMarks (events : List MotionEvent) : List Mark :=
  events.flatMap fun event => actionMarks event.action

theorem marks_expansions {readings : List Int} {events : List MotionEvent}
    (hlength : readings.length = events.length) :
    (expansions readings events).filterMap Injection.mark = streamMarks events := by
  induction events generalizing readings with
  | nil =>
      obtain rfl := List.length_eq_zero_iff.mp hlength
      rfl
  | cons event events ih =>
      obtain ⟨now, rest, rfl⟩ := List.exists_cons_of_length_eq_add_one hlength
      have hrest : rest.length = events.length := Nat.succ.inj hlength
      calc (expansions (now :: rest) (event :: events)).filterMap Injection.mark
          = (expansion now event).filterMap Injection.mark ++
              (expansions rest events).filterMap Injection.mark := by
            rw [← List.filterMap_append]
            rfl
        _ = actionMarks event.action ++ streamMarks events := by
            rw [marks_expansion, ih hrest]
        _ = streamMarks (event :: events) := rfl

end EventQueueHandler

/-! ### The stream the listener pushes -/

namespace ButtonEventListener

open EventQueueHandler

def callMarks : Call → List Mark
  | .pushMotionEvent action _ _ => actionMarks action
  | _ => []

/-- A push that is no command is at most one mark. -/
theorem callMarks_of_not_command {made : Call} (hnot : made.isCommand = false) :
    callMarks made = made.mark.toList := by
  cases made with
  | pushMotionEvent action x y =>
      have hzoom : ¬ (action = sendZoom ∨ action = sendPinch) := by
        rintro (rfl | rfl) <;> cases hnot
      exact if_neg hzoom
  | getTimebackPosition | lockMouseAWhile x y wait | showToast index => rfl

/-- A push that is no mark leaves no stroke open. -/
theorem run_callMarks_of_not_mark {made : Call} (hnot : made.mark = none) :
    run Stroke.next false (callMarks made) = some false := by
  cases made with
  | pushMotionEvent action x y =>
      change run Stroke.next false (actionMarks action) = some false
      have hmark : pointerMark action = none := hnot
      unfold actionMarks
      split_ifs
      · rfl
      · rw [hmark]
        rfl
  | getTimebackPosition | lockMouseAWhile x y wait | showToast index => rfl

theorem flatMap_callMarks_of_commands {calls : List Call} (hnone : calls.countP Call.isCommand = 0) :
    calls.flatMap callMarks = calls.filterMap Call.mark := by
  induction calls with
  | nil => rfl
  | cons made rest ih =>
      rw [List.countP_cons, Nat.add_eq_zero_iff] at hnone
      have hnot : made.isCommand = false := by
        by_contra hcommand
        rw [if_pos (by simpa using hcommand)] at hnone
        exact absurd hnone.2 one_ne_zero
      rw [List.flatMap_cons, ih hnone.1, callMarks_of_not_command hnot, List.filterMap_cons]
      cases made.mark <;> rfl

theorem run_flatMap_callMarks_of_marks {calls : List Call} (hnone : calls.filterMap Call.mark = []) :
    run Stroke.next false (calls.flatMap callMarks) = some false := by
  induction calls with
  | nil => rfl
  | cons made rest ih =>
      have hall := List.filterMap_eq_nil_iff.mp hnone
      have hrest := ih (List.filterMap_eq_nil_iff.mpr fun other hother =>
        hall other (List.mem_cons_of_mem made hother))
      rw [List.flatMap_cons, run_append, run_callMarks_of_not_mark (hall made List.mem_cons_self)]
      exact hrest

/-- What is pending in each state when every press finds nothing pending, and whether a stroke is
open. -/
def View.Tidy (seen : View) (isOpen : Bool) : Prop :=
  match seen.state with
  | .down | .downAndUp => seen.sends = 1 ∧ seen.modes = 0 ∧ isOpen = false
  | .downed | .up => seen.sends = 1 ∧ seen.modes = 0 ∧ isOpen = true
  | .init => seen.sends = 0 ∧ seen.modes = 0 ∧ isOpen = false
  | .cancel | .mode => seen.sends = 0 ∧ isOpen = false

/-- What one action adds to the stream: marks that go on with the stroke, or commands between two. -/
def View.Continues (seen : View) (isOpen isOpen' : Bool) : Prop :=
  (seen.commands = 0 ∧ run Stroke.next isOpen seen.marks = some isOpen') ∨
    (seen.marks = [] ∧ isOpen = false ∧ isOpen' = false)

variable {seen : View} {isOpen : Bool}

theorem View.Tidy.cancel (htidy : seen.Tidy isOpen) : seen.cancel.Tidy isOpen := by
  unfold View.cancel
  split_ifs with hdown
  · simp only [View.Tidy, hdown] at htidy
    exact ⟨rfl, htidy.2.2⟩
  · exact htidy

theorem View.Tidy.start (htidy : seen.Tidy isOpen) : seen.start.Tidy isOpen := by
  unfold View.start
  split_ifs with hcancel
  · simp only [View.Tidy, hcancel] at htidy ⊢
    exact htidy
  · exact htidy

theorem View.Tidy.release (htidy : seen.Tidy isOpen) : seen.release.Tidy isOpen := by
  unfold View.release
  cases hstate : seen.state with
  | down | downed => simpa only [View.Tidy, hstate] using htidy
  | init | up | downAndUp | cancel | mode => exact htidy

theorem View.Tidy.send (htidy : seen.Tidy isOpen) (hmarks : seen.marks = [])
    (hcommands : seen.commands = 0) (hpending : 0 < seen.sends) (moved : Bool) :
    ∃ isOpen', ({ seen with sends := seen.sends - 1 }.send moved).Tidy isOpen' ∧
      ({ seen with sends := seen.sends - 1 }.send moved).Continues isOpen isOpen' := by
  cases hstate : seen.state with
  | init | cancel | mode =>
      simp only [View.Tidy, hstate] at htidy
      omega
  | down =>
      simp only [View.Tidy, hstate] at htidy
      obtain ⟨hsends, hmodes, rfl⟩ := htidy
      refine ⟨true, ?_, Or.inl ?_⟩
      · simp [View.send, View.Tidy, hsends, hmodes]
      · simp only [View.send, hmarks, hcommands, true_and]
        rfl
  | downAndUp | up =>
      simp only [View.Tidy, hstate] at htidy
      obtain ⟨hsends, hmodes, rfl⟩ := htidy
      refine ⟨false, ?_, Or.inl ?_⟩
      · simp [View.send, View.Tidy, hsends, hmodes]
      · simp only [View.send, hmarks, hcommands, true_and]
        rfl
  | downed =>
      simp only [View.Tidy, hstate] at htidy
      obtain ⟨hsends, hmodes, rfl⟩ := htidy
      refine ⟨true, ?_, Or.inl ?_⟩
      · simp [View.send, View.Tidy, hsends, hmodes]
      · simp only [View.send, hmarks, hcommands, true_and]
        cases moved <;> rfl

theorem View.Tidy.mode (htidy : seen.Tidy isOpen) (hmarks : seen.marks = [])
    (hpending : 0 < seen.modes) (outcome : Outcome) :
    ({ seen with modes := seen.modes - 1 }.mode outcome).Tidy false ∧
      ({ seen with modes := seen.modes - 1 }.mode outcome).Continues isOpen false := by
  have hidle : seen.sends = 0 ∧ isOpen = false := by
    cases hstate : seen.state with
    | cancel | mode => simpa only [View.Tidy, hstate] using htidy
    | down | downAndUp | downed | up | init =>
        simp only [View.Tidy, hstate] at htidy
        omega
  cases outcome <;> exact ⟨⟨hidle.1, rfl⟩, Or.inr ⟨hmarks, hidle.2, rfl⟩⟩

theorem View.Tidy.eq_false (htidy : seen.Tidy isOpen) (hsends : seen.sends = 0) :
    isOpen = false := by
  cases hstate : seen.state <;> simp only [View.Tidy, hstate] at htidy
  case init => exact htidy.2.2
  case cancel | mode => exact htidy.2
  all_goals omega

/-- One action keeps the stream tidy if a press finds nothing pending. -/
theorem View.Tidy.act {action : Action} (htidy : seen.Tidy isOpen) (hmarks : seen.marks = [])
    (hcommands : seen.commands = 0) (henabled : seen.Enabled action)
    (hpress : action = .press → seen.sends = 0 ∧ seen.modes = 0) :
    ∃ isOpen', (seen.act action).Tidy isOpen' ∧ (seen.act action).Continues isOpen isOpen' := by
  have hquiet {next : View} (hnextMarks : next.marks = seen.marks)
      (hnextCommands : next.commands = seen.commands) : next.Continues isOpen isOpen := by
    refine Or.inl ⟨hnextCommands.trans hcommands, ?_⟩
    rw [hnextMarks, hmarks]
    rfl
  cases action with
  | press =>
      obtain ⟨hsends, hmodes⟩ := hpress rfl
      refine ⟨isOpen, ⟨?_, hmodes, htidy.eq_false hsends⟩, hquiet rfl rfl⟩
      change seen.sends + 1 = 1
      rw [hsends]
  | move cancels starts =>
      refine ⟨isOpen, move_of_keeps (fun moved => moved.Tidy isOpen) htidy cancels
        (fun _ => View.Tidy.cancel) fun _ _ => View.Tidy.start,
        hquiet (marks_move seen cancels starts) ?_⟩
      refine move_of_keeps (fun moved => moved.commands = seen.commands) rfl cancels ?_ ?_
      · intro moved hmoved
        unfold View.cancel
        split_ifs <;> exact hmoved
      · intro _ moved hmoved
        unfold View.start
        split_ifs <;> exact hmoved
  | release =>
      refine ⟨isOpen, htidy.release, hquiet ?_ ?_⟩
      · change seen.release.marks = seen.marks
        unfold View.release
        cases seen.state <;> rfl
      · change seen.release.commands = seen.commands
        unfold View.release
        cases seen.state <;> rfl
  | idle => exact ⟨isOpen, htidy, hquiet rfl rfl⟩
  | send moved => exact htidy.send hmarks hcommands henabled moved
  | mode outcome => exact ⟨false, htidy.mode hmarks henabled outcome⟩

/-- The stream pushed so far is whole up to a stroke that is open, and what is pending goes with it. -/
structure Tidy (listener : ButtonEventListener) (isOpen : Bool) : Prop where
  reading : run Stroke.next false (listener.calls.flatMap callMarks) = some isOpen
  view : (view listener.calls.length listener).Tidy isOpen

theorem Tidy.step {listener next : ButtonEventListener} {event : Event}
    (htidy : Tidy listener isOpen)
    (hpress : event.IsPress → listener.handler.count Callback.isSendEvent = 0 ∧
      listener.handler.count Callback.isMode = 0)
    (hstep : listener.step event = some next) : ∃ isOpen', Tidy next isOpen' := by
  obtain ⟨action, hshows, henabled, hview⟩ := view_step le_rfl hstep
  obtain ⟨made, hcalls⟩ := calls_prefix_of_step hstep
  have hmarks : (ButtonEventListener.view listener.calls.length listener).marks = [] := by
    simp [ButtonEventListener.view]
  have hcommands : (ButtonEventListener.view listener.calls.length listener).commands = 0 := by
    simp [ButtonEventListener.view]
  have hisolated : action = .press → listener.handler.count Callback.isSendEvent = 0 ∧
      listener.handler.count Callback.isMode = 0 := by
    rintro rfl
    cases hshows with
    | press haction => exact hpress haction
  obtain ⟨isOpen', hnext, hcontinues⟩ := htidy.view.act hmarks hcommands henabled hisolated
  rw [← hview] at hnext hcontinues
  have hdrop : next.calls.drop listener.calls.length = made := by
    rw [← hcalls, List.drop_left]
  refine ⟨isOpen', ?_, hnext⟩
  rw [← hcalls, List.flatMap_append, run_append, htidy.reading]
  change run Stroke.next isOpen (made.flatMap callMarks) = some isOpen'
  rcases hcontinues with ⟨hnone, hreads⟩ | ⟨hnone, rfl, rfl⟩
  · simp only [ButtonEventListener.view, hdrop] at hnone hreads
    rw [flatMap_callMarks_of_commands hnone]
    exact hreads
  · simp only [ButtonEventListener.view, hdrop] at hnone
    exact run_flatMap_callMarks_of_marks hnone

end ButtonEventListener

end SensorMouse
