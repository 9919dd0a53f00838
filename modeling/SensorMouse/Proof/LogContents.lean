import SensorMouse.Proof.LogSafety

/-!
# What the log keeps

The helper is shared, and any sampler that ends closes it for all. The next line opens the file again,
and `MODE_PRIVATE` empties it. So the file holds what has been written since the last opening:
`log_contents_iff`.
-/

namespace SensorMouse

open Lib

namespace DataLogHelper

variable {log next start final : DataLogHelper} {event : Event} {events : List Event}
  {line old : String}

/-! ### Lines -/

/-- A line ends with its newline. -/
theorem line_ne (hline : event.line = some line) : line ≠ "" := by
  intro hempty
  subst hempty
  cases event with
  | publish => cases hline
  | call made time fails =>
      cases made with
      | writeALine p flag =>
          exact absurd (String.append_eq_empty_iff.mp (Option.some.inj hline)).2 (by decide)
      | writeALinePair p flag p2 flag2 =>
          exact absurd (String.append_eq_empty_iff.mp (Option.some.inj hline)).2 (by decide)
      | close => cases hline

theorem join_lines_eq_empty_iff :
    String.join (events.filterMap Event.line) = "" ↔ ∀ event ∈ events, event.line = none := by
  induction events with
  | nil => simp
  | cons event rest ih =>
      rw [List.forall_mem_cons, ← ih]
      cases hline : event.line with
      | none => rw [List.filterMap_cons_none hline, and_iff_right rfl]
      | some line =>
          rw [List.filterMap_cons_some hline, String.join_cons]
          refine iff_of_false (fun hempty => ?_) (fun hnone => nomatch hnone.1)
          exact line_ne hline (String.append_eq_empty_iff.mp hempty).1

/-! ### Calls whose file operations succeed -/

/-- No file operation of the call fails; the service is there if the file has to be opened. -/
def Succeeds (log : DataLogHelper) (event : Event) : Prop :=
  event.fails = {} ∧
    (event.line.isSome = true → log.opened = false → log.serviceInstance = true)

instance (log : DataLogHelper) (event : Event) : Decidable (log.Succeeds event) :=
  inferInstanceAs (Decidable (_ ∧ _))

def faultless (log : DataLogHelper) (event : Event) : Option DataLogHelper :=
  if log.Succeeds event then some (log.step event) else none

theorem faultless_eq_some :
    log.faultless event = some next ↔ log.Succeeds event ∧ log.step event = next := by
  unfold faultless
  by_cases hsucceeds : log.Succeeds event
  · rw [if_pos hsucceeds, Option.some.injEq, and_iff_right hsucceeds]
  · rw [if_neg hsucceeds]
    exact iff_of_false nofun fun hboth => hsucceeds hboth.1

/-- What such calls keep; `old` is what the file held before. -/
structure Keeping (old : String) (log : DataLogHelper) : Prop where
  consistent : Consistent log
  stream : log.opened = true → log.outStream = .live
  asked : log.opened = true → log.lines ≠ ""
  untouched : log.lines = "" → log.file = old

/-- The file holds every line asked for, or none has been. -/
def Complete (log : DataLogHelper) : Prop := log.lines = "" ∨ log.file = log.lines

/-- A call that finds the log closed is the first to ask for a line. -/
def OpensOnce (log : DataLogHelper) (event : Event) : Prop :=
  event.line.isSome = true → log.opened = true ∨ log.lines = ""

theorem writeBytes_of_succeeds (hfails : event.fails = {}) (hstream : log.outStream = .live) :
    log.writeBytes line event.fails = .ok { log with file := log.file ++ line } := by
  rw [writeBytes_of_live hstream, hfails]
  rfl

theorem step_of_succeeds_of_opened (hkeeping : Keeping old log) (hline : event.line = some line)
    (hfails : event.fails = {}) (hopened : log.opened = true) :
    log.step event = { log.asked line with file := log.file ++ line } := by
  have hstream : (log.asked line).outStream = .live := hkeeping.stream hopened
  rw [step_of_opened hkeeping.consistent hline hopened, writeBytes_of_succeeds hfails hstream]
  rfl

theorem step_of_succeeds_of_not_opened (hline : event.line = some line) (hfails : event.fails = {})
    (hclosed : log.opened = false) (hservice : log.serviceInstance = true) :
    log.step event = { log.asked line with
      opened := true, timeFormat := true, outStream := .live, file := line } := by
  have hopens : event.fails.openFileOutput = false := by rw [hfails]
  have hclosed' : (log.asked line).opened = false := hclosed
  rw [step_of_line hline, writeLine_of_opens hclosed' hservice hopens,
    writeBytes_of_succeeds hfails rfl]
  simp only [Ended.left, String.empty_append]

theorem opensOnce_of_no_line (hline : event.line = none) : log.OpensOnce event := by
  intro hsome
  rw [hline] at hsome
  cases hsome

theorem opensOnce_of_line (hline : event.line = some line) :
    log.OpensOnce event ↔ log.opened = true ∨ log.lines = "" := by
  unfold OpensOnce
  rw [hline]
  exact imp_iff_right rfl

/-- The one loss: the line that opens the file again. -/
theorem step_of_line_keeps (hkeeping : Keeping old log) (hline : event.line = some line)
    (hsucceeds : log.Succeeds event) :
    Keeping old (log.step event) ∧
      ((log.step event).Complete ↔ log.Complete ∧ log.OpensOnce event) := by
  obtain ⟨hfails, hservice⟩ := hsucceeds
  have hasked : log.lines ++ line ≠ "" := fun hempty =>
    line_ne hline (String.append_eq_empty_iff.mp hempty).2
  have hconsistent := hkeeping.consistent.step event
  rw [opensOnce_of_line hline]
  by_cases hopened : log.opened = true
  · have hstep := step_of_succeeds_of_opened hkeeping hline hfails hopened
    rw [hstep] at hconsistent ⊢
    refine ⟨⟨hconsistent, hkeeping.stream, fun _ => hasked, fun hnone => absurd hnone hasked⟩, ?_⟩
    have hsame : log.file ++ line = log.lines ++ line ↔ log.file = log.lines :=
      String.append_left_inj line
    unfold Complete
    simp only [asked, hasked, false_or, hsame, hkeeping.asked hopened, hopened, true_or, and_true]
  · have hclosed : log.opened = false := Bool.eq_false_of_not_eq_true hopened
    have hthere : log.serviceInstance = true := hservice (by rw [hline]; rfl) hclosed
    have hstep := step_of_succeeds_of_not_opened hline hfails hclosed hthere
    rw [hstep] at hconsistent ⊢
    refine ⟨⟨hconsistent, fun _ => rfl, fun _ => hasked, fun hnone => absurd hnone hasked⟩, ?_⟩
    unfold Complete
    have hfirst : line = log.lines ++ line ↔ log.lines = "" :=
      eq_comm.trans String.append_eq_right_iff
    simp only [asked, hasked, false_or, hfirst, hclosed, Bool.false_eq_true]
    exact ⟨fun hfirst => ⟨Or.inl hfirst, hfirst⟩, And.right⟩

theorem step_of_no_line_keeps (hkeeping : Keeping old log) (hevent : event.line = none)
    (hsame : (log.step event).file = log.file ∧ (log.step event).lines = log.lines)
    (hstream : (log.step event).opened = true →
      log.opened = true ∧ (log.step event).outStream = log.outStream) :
    Keeping old (log.step event) ∧
      ((log.step event).Complete ↔ log.Complete ∧ log.OpensOnce event) := by
  obtain ⟨hfile, hlines⟩ := hsame
  refine ⟨⟨hkeeping.consistent.step event, fun hopened => ?_, fun hopened => ?_, fun hnone => ?_⟩, ?_⟩
  · rw [(hstream hopened).2]
    exact hkeeping.stream (hstream hopened).1
  · rw [hlines]
    exact hkeeping.asked (hstream hopened).1
  · rw [hfile]
    exact hkeeping.untouched (hlines ▸ hnone)
  · unfold Complete
    rw [hfile, hlines, and_iff_left (opensOnce_of_no_line hevent)]

theorem faultless_keeps (hkeeping : Keeping old log) (hstep : log.faultless event = some next) :
    Keeping old next ∧ (next.Complete ↔ log.Complete ∧ log.OpensOnce event) := by
  obtain ⟨hsucceeds, rfl⟩ := faultless_eq_some.mp hstep
  rcases event_cases event with ⟨line, hline⟩ | rfl | ⟨time, fails, rfl⟩
  · exact step_of_line_keeps hkeeping hline hsucceeds
  · refine step_of_no_line_keeps hkeeping rfl ?_ ?_
    · rw [step_publish]
      exact ⟨rfl, rfl⟩
    · rw [step_publish]
      exact fun hopened => ⟨hopened, rfl⟩
  · by_cases hopened : log.opened = true
    · have hstream : log.outStream ≠ .null := by
        rw [hkeeping.stream hopened]
        decide
      refine step_of_no_line_keeps hkeeping rfl ?_ ?_
      · rw [step_close, close_of_not_null hopened hstream]
        exact ⟨rfl, rfl⟩
      · rw [step_close, close_of_not_null hopened hstream]
        exact nofun
    · have hclosed := @close_of_not_opened log fails (Bool.eq_false_of_not_eq_true hopened)
      refine step_of_no_line_keeps hkeeping rfl ?_ ?_
      · rw [step_close, hclosed]
        exact ⟨rfl, rfl⟩
      · rw [step_close, hclosed]
        exact fun hopen => ⟨hopen, rfl⟩

/-! ### Runs -/

theorem lines_step (hlog : Consistent log) (event : Event) :
    (log.step event).lines = log.lines ++ event.line.getD "" := by
  rcases event_cases event with ⟨line, hline⟩ | rfl | ⟨time, fails, rfl⟩
  · rw [hline]
    by_cases hopened : log.opened = true
    · rw [step_of_opened hlog hline hopened]
      obtain ⟨file, thrown, hleft⟩ := exists_left_writeBytes (log.asked line) line event.fails
      rw [hleft]
      rfl
    · obtain ⟨stream, file, thrown, hstep⟩ :=
        exists_step_of_not_opened hline (Bool.eq_false_of_not_eq_true hopened)
      rw [hstep]
      rfl
  · rw [step_publish]
    exact String.append_empty.symm
  · rw [step_close]
    refine Eq.trans ?_ String.append_empty.symm
    by_cases hopened : log.opened = true
    · by_cases hstream : log.outStream = .null
      · rw [close_of_null hopened hstream]
        rfl
      · rw [close_of_not_null hopened hstream]
        rfl
    · rw [close_of_not_opened (Bool.eq_false_of_not_eq_true hopened)]
      rfl

theorem lines_run (hstart : Keeping old start) (hnone : start.lines = "")
    (hrun : run faultless start events = some final) :
    Keeping old final ∧ final.lines = String.join (events.filterMap Event.line) := by
  refine run_history
    (fun past log => Keeping old log ∧ log.lines = String.join (past.filterMap Event.line))
    ⟨hstart, hnone⟩ ?_ hrun
  rintro past current event next - ⟨hcurrent, hlines⟩ hstep
  obtain ⟨hnext, -⟩ := faultless_keeps hcurrent hstep
  obtain ⟨-, rfl⟩ := faultless_eq_some.mp hstep
  refine ⟨hnext, ?_⟩
  rw [lines_step hcurrent.consistent, hlines, List.filterMap_append, String.join_append]
  cases hline : event.line with
  | none =>
      rw [List.filterMap_cons_none hline]
      rfl
  | some line =>
      rw [List.filterMap_cons_some hline, Option.getD_some, List.filterMap_nil, String.join_cons,
        String.join_nil, String.append_empty]

/-- A helper nobody has called, in a process that may find an old log. -/
def fresh (old : String) (published : Bool) : DataLogHelper :=
  { file := old, serviceInstance := published }

theorem keeping_fresh (old : String) (published : Bool) : Keeping old (fresh old published) :=
  ⟨⟨nofun, nofun⟩, nofun, nofun, fun _ => rfl⟩

theorem complete_iff {published : Bool}
    (hrun : run faultless (fresh old published) events = some final) :
    final.Complete ↔ StepsAlong faultless OpensOnce (fresh old published) events :=
  holds_iff_stepsAlong (keeping_fresh old published) (Or.inl rfl)
    (fun _ _ _ hcurrent hstep => faultless_keeps hcurrent hstep) hrun

/-- **What the log keeps.** After every run without a failing file operation the file holds all lines
in order, exactly if each call that found the log closed was the first to ask for a line. Where none
was asked for, an old file stays as it is. -/
theorem log_contents_iff {published : Bool}
    (hrun : run faultless (fresh old published) events = some final) :
    final.file = String.join (events.filterMap Event.line) ↔
      StepsAlong faultless OpensOnce (fresh old published) events ∧
        ((∀ event ∈ events, event.line = none) → old = "") := by
  obtain ⟨hfinal, hlines⟩ := lines_run (keeping_fresh old published) rfl hrun
  rw [← complete_iff hrun, ← join_lines_eq_empty_iff, ← hlines]
  constructor
  · intro hfile
    exact ⟨Or.inr hfile, fun hnone => by rw [← hfinal.untouched hnone, hfile, hnone]⟩
  · rintro ⟨hnone | hfile, hold⟩
    · rw [hfinal.untouched hnone, hold hnone, hnone]
    · exact hfile

def firstLine : Event := .call (.writeALine (240, 430) flagMouseTrace) "12:00:00:0000" {}

def secondLine : Event :=
  .call (.writeALinePair (240, 430) flagClickPosition (231, 415) flagBackPosition) "12:00:00:0100" {}

theorem log_contents_iff_sampler :
    ∃ final, run faultless (fresh "old" true) [firstLine, secondLine, .call .close "" {}] =
      some final ∧ final.file = String.join ([firstLine, secondLine].filterMap Event.line) := by
  obtain ⟨final, hrun⟩ : ∃ final,
      run faultless (fresh "old" true) [firstLine, secondLine, .call .close "" {}] = some final :=
    ⟨_, rfl⟩
  have hopens : StepsAlong faultless OpensOnce (fresh "old" true)
      [firstLine, secondLine, .call .close "" {}] := by
    refine stepsAlong_cons.mpr ⟨fun _ => Or.inr rfl, fun written hwritten => ?_⟩
    obtain rfl := Option.some.inj hwritten
    refine stepsAlong_cons.mpr ⟨fun _ => Or.inl rfl, fun closed hclosed => ?_⟩
    exact stepsAlong_cons.mpr ⟨opensOnce_of_no_line rfl, fun _ _ => stepsAlong_nil⟩
  refine ⟨final, hrun, (log_contents_iff hrun).mpr ⟨hopens, fun hnone => ?_⟩⟩
  exact absurd (hnone firstLine (List.mem_cons_self ..)) nofun

/-- The first sampler closes the log and a second one writes. -/
theorem log_loses_lines :
    ¬ ∀ (old : String) (published : Bool) (events : List Event) (final : DataLogHelper),
      run faultless (fresh old published) events = some final →
      final.file = String.join (events.filterMap Event.line) := by
  intro hclaim
  obtain ⟨final, hrun⟩ : ∃ final,
      run faultless (fresh "" true) [firstLine, .call .close "" {}, secondLine] = some final :=
    ⟨_, rfl⟩
  obtain ⟨closed, hclosed, hopened⟩ : ∃ closed,
      run faultless (fresh "" true) [firstLine, .call .close "" {}] = some closed ∧
        closed.opened = false :=
    ⟨_, rfl, rfl⟩
  have hlines : closed.lines ≠ "" := by
    rw [(lines_run (keeping_fresh "" true) rfl hclosed).2]
    intro hempty
    exact absurd (join_lines_eq_empty_iff.mp hempty firstLine (List.mem_cons_self ..)) nofun
  have hcomplete : final.Complete := by
    refine Or.inr ?_
    rw [hclaim "" true _ final hrun, (lines_run (keeping_fresh "" true) rfl hrun).2]
  have hopens := (complete_iff hrun).mp hcomplete
  have hsecond := hopens [firstLine, .call .close "" {}] secondLine [] closed rfl hclosed rfl
  rcases hsecond with hopen | hfirst
  · rw [hopened] at hopen
    cases hopen
  · exact hlines hfirst

end DataLogHelper

end SensorMouse
