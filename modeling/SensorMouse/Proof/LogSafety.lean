import SensorMouse.Button.DataLogHelper

/-!
# When logging throws

`open` sets its flag first and forgets an opening that fails, so from then on the flag stands for a
stream there is not. The calls are safe exactly as long as no opening fails, and the first one fails
where the sampler is ahead of the assignment of the service's `instance`.
-/

namespace SensorMouse

open Lib

namespace DataLogHelper

variable {log : DataLogHelper} {event : Event} {line : String} {fails : Failures}

/-! ### The calls -/

/-- What the fields know of one another, whatever has failed. -/
structure Consistent (log : DataLogHelper) : Prop where
  timeFormat : log.opened = true → log.timeFormat = true
  opened : log.outStream = .live → log.opened = true

theorem perform_of_line (hline : event.line = some line) :
    log.perform event = log.writeLine line event.fails := by
  cases event with
  | publish => cases hline
  | call made time fails =>
      cases made with
      | writeALine | writeALinePair =>
          obtain rfl := Option.some.inj hline
          rfl
      | close => cases hline

theorem step_of_line (hline : event.line = some line) :
    log.step event = Ended.left ((log.asked line).writeLine line event.fails) := by
  unfold step
  rw [hline, perform_of_line hline]
  rfl

theorem writeLine_of_opened (hopened : log.opened = true) (hformat : log.timeFormat = true) :
    log.writeLine line fails = log.writeBytes line fails := by
  unfold writeLine
  rw [if_pos hopened]
  exact if_pos hformat

theorem writeLine_of_not_opened (hclosed : log.opened = false) :
    log.writeLine line fails = log.openFile fails >>= fun log =>
      if log.timeFormat then log.writeBytes line fails else .error log := by
  unfold writeLine
  rw [hclosed]
  rfl

/-- The flag is set although there is no stream. -/
theorem writeLine_of_unpublished (hclosed : log.opened = false)
    (hservice : log.serviceInstance = false) :
    log.writeLine line fails = .error { log with opened := true, timeFormat := true } := by
  have hopen : log.openFile fails = .error { log with opened := true, timeFormat := true } := by
    unfold openFile
    simp only [hclosed, hservice, Bool.false_eq_true, if_false, Bool.not_false, if_true]
  rw [writeLine_of_not_opened hclosed, hopen]
  rfl

theorem writeLine_of_fails (hclosed : log.opened = false) (hservice : log.serviceInstance = true)
    (hfails : fails.openFileOutput = true) :
    log.writeLine line fails =
      { log with opened := true, timeFormat := true }.writeBytes line fails := by
  have hopen : log.openFile fails = .ok { log with opened := true, timeFormat := true } := by
    unfold openFile
    simp only [hclosed, hservice, hfails, Bool.false_eq_true, if_false, Bool.not_true, if_true]
  rw [writeLine_of_not_opened hclosed, hopen]
  rfl

theorem writeLine_of_opens (hclosed : log.opened = false) (hservice : log.serviceInstance = true)
    (hopens : fails.openFileOutput = false) :
    log.writeLine line fails = { log with
      opened := true, timeFormat := true, outStream := .live, file := "" }.writeBytes line fails := by
  have hopen : log.openFile fails = .ok { log with
      opened := true, timeFormat := true, outStream := .live, file := "" } := by
    unfold openFile
    simp only [hclosed, hservice, hopens, Bool.false_eq_true, if_false, Bool.not_true]
  rw [writeLine_of_not_opened hclosed, hopen]
  rfl

theorem writeBytes_of_null (hstream : log.outStream = .null) :
    log.writeBytes line fails = .error log := by
  unfold writeBytes
  rw [hstream]

theorem writeBytes_of_live (hstream : log.outStream = .live) :
    log.writeBytes line fails =
      .ok { log with file := if fails.write then log.file else log.file ++ line } := by
  unfold writeBytes
  simp only [hstream]
  by_cases hwrite : fails.write = true
  · rw [if_pos hwrite, if_pos hwrite, ← hstream]
  · rw [if_neg hwrite, if_neg hwrite, ← hstream]

theorem writeBytes_of_closed (hstream : log.outStream = .closed) :
    log.writeBytes line fails = .ok log := by
  unfold writeBytes
  rw [hstream]

/-- Writing changes the file at most. -/
theorem exists_left_writeBytes (log : DataLogHelper) (line : String) (fails : Failures) :
    ∃ file thrown, Ended.left (log.writeBytes line fails) =
      { log with file := file, thrown := thrown } := by
  have hstreams (stream : OutStream) (hstream : log.outStream = stream) :
      ∃ file thrown, Ended.left (log.writeBytes line fails) =
        { log with file := file, thrown := thrown } := by
    cases stream with
    | null => exact ⟨log.file, true, congrArg Ended.left (writeBytes_of_null hstream)⟩
    | closed => exact ⟨log.file, log.thrown, congrArg Ended.left (writeBytes_of_closed hstream)⟩
    | live => exact ⟨_, log.thrown, congrArg Ended.left (writeBytes_of_live hstream)⟩
  exact hstreams log.outStream rfl

theorem close_of_not_opened (hclosed : log.opened = false) : log.close fails = .ok log := by
  unfold close
  rw [hclosed]
  rfl

theorem close_of_null (hopened : log.opened = true) (hstream : log.outStream = .null) :
    log.close fails = .error { log with opened := false } := by
  unfold close
  simp only [if_pos hopened, hstream]

theorem close_of_not_null (hopened : log.opened = true) (hstream : log.outStream ≠ .null) :
    log.close fails = .ok { log with opened := false, outStream := .closed } := by
  unfold close
  cases hcase : log.outStream with
  | null => exact absurd hcase hstream
  | live => simp only [if_pos hopened, ite_self]
  | closed => simp only [if_pos hopened, ite_self]

/-! ### What every call keeps -/

/-- A call that finds the log closed opens it, one way or another. -/
theorem exists_step_of_not_opened (hline : event.line = some line) (hclosed : log.opened = false) :
    ∃ stream file thrown, log.step event = { log.asked line with
      opened := true, timeFormat := true, outStream := stream, file := file, thrown := thrown } := by
  rw [step_of_line hline]
  have hclosed' : (log.asked line).opened = false := hclosed
  by_cases hservice : log.serviceInstance = true
  · by_cases hfails : event.fails.openFileOutput = true
    · rw [writeLine_of_fails hclosed' hservice hfails]
      obtain ⟨file, thrown, hleft⟩ := exists_left_writeBytes
        { log.asked line with opened := true, timeFormat := true } line event.fails
      exact ⟨_, file, thrown, hleft⟩
    · rw [writeLine_of_opens hclosed' hservice (Bool.eq_false_of_not_eq_true hfails)]
      obtain ⟨file, thrown, hleft⟩ := exists_left_writeBytes { log.asked line with
        opened := true, timeFormat := true, outStream := .live, file := "" } line event.fails
      exact ⟨_, file, thrown, hleft⟩
  · rw [writeLine_of_unpublished hclosed' (Bool.eq_false_of_not_eq_true hservice)]
    exact ⟨_, _, true, rfl⟩

theorem step_of_opened (hlog : Consistent log) (hline : event.line = some line)
    (hopened : log.opened = true) :
    log.step event = Ended.left ((log.asked line).writeBytes line event.fails) := by
  have hopened' : (log.asked line).opened = true := hopened
  rw [step_of_line hline, writeLine_of_opened hopened' (hlog.timeFormat hopened)]

/-- The events that ask for no line. -/
theorem event_cases (event : Event) :
    (∃ line, event.line = some line) ∨ event = .publish ∨
      ∃ time fails, event = .call .close time fails := by
  cases event with
  | publish => exact Or.inr (Or.inl rfl)
  | call made time fails =>
      cases made with
      | writeALine p flag => exact Or.inl ⟨_, rfl⟩
      | writeALinePair p flag p2 flag2 => exact Or.inl ⟨_, rfl⟩
      | close => exact Or.inr (Or.inr ⟨time, fails, rfl⟩)

theorem asked_empty (log : DataLogHelper) : log.asked "" = log := by
  unfold asked
  rw [String.append_empty]

theorem step_publish (log : DataLogHelper) :
    log.step .publish = { log with serviceInstance := true } := by
  unfold step
  rw [Event.line, Option.getD_none, asked_empty]
  rfl

theorem step_close (log : DataLogHelper) (time : String) (fails : Failures) :
    log.step (.call .close time fails) = Ended.left (log.close fails) := by
  unfold step
  rw [Event.line, Option.getD_none, asked_empty]
  rfl

theorem Consistent.step (hlog : Consistent log) (event : Event) : Consistent (log.step event) := by
  rcases event_cases event with ⟨line, hline⟩ | rfl | ⟨time, fails, rfl⟩
  · by_cases hopened : log.opened = true
    · rw [step_of_opened hlog hline hopened]
      obtain ⟨file, thrown, hleft⟩ := exists_left_writeBytes (log.asked line) line event.fails
      rw [hleft]
      exact ⟨hlog.timeFormat, hlog.opened⟩
    · obtain ⟨stream, file, thrown, hstep⟩ :=
        exists_step_of_not_opened hline (Bool.eq_false_of_not_eq_true hopened)
      rw [hstep]
      exact ⟨fun _ => rfl, fun _ => rfl⟩
  · rw [step_publish]
    exact ⟨hlog.timeFormat, hlog.opened⟩
  · rw [step_close]
    by_cases hopened : log.opened = true
    · by_cases hstream : log.outStream = .null
      · rw [close_of_null hopened hstream]
        refine ⟨nofun, fun hlive => ?_⟩
        have hboth : OutStream.null = .live := hstream.symm.trans hlive
        cases hboth
      · rw [close_of_not_null hopened hstream]
        exact ⟨nofun, nofun⟩
    · rw [close_of_not_opened (Bool.eq_false_of_not_eq_true hopened)]
      exact hlog

/-! ### The flag and the stream -/

/-- No call has thrown, and the flag is set only for a stream that is open. -/
def Safe (log : DataLogHelper) : Prop :=
  log.thrown = false ∧ (log.opened = true → log.outStream = .live)

instance (log : DataLogHelper) : Decidable log.Safe := inferInstanceAs (Decidable (_ ∧ _))

/-- A call that has to open the file finds the service published, and the file can be opened. -/
def OpensWell (log : DataLogHelper) (event : Event) : Prop :=
  event.line.isSome = true → log.opened = false →
    log.serviceInstance = true ∧ event.fails.openFileOutput = false

instance (log : DataLogHelper) (event : Event) : Decidable (log.OpensWell event) :=
  inferInstanceAs (Decidable (_ → _ → _))

theorem opensWell_of_line (hline : event.line = some line) :
    log.OpensWell event ↔ (log.opened = false →
      log.serviceInstance = true ∧ event.fails.openFileOutput = false) := by
  unfold OpensWell
  rw [hline]
  exact imp_iff_right rfl

theorem opensWell_of_no_line (hline : event.line = none) : log.OpensWell event := by
  intro hsome
  rw [hline] at hsome
  cases hsome

theorem safe_left_writeBytes (hthrown : log.thrown = false) (hstream : log.outStream = .live) :
    Safe (Ended.left (log.writeBytes line fails)) := by
  rw [writeBytes_of_live hstream]
  exact ⟨hthrown, fun _ => hstream⟩

/-- The opening that fails is seen at once: the stream is not one that is open. -/
theorem safe_step_iff_of_not_opened (hlog : Consistent log) (hsafe : log.Safe)
    (hline : event.line = some line) (hclosed : log.opened = false) :
    Safe (log.step event) ↔
      log.serviceInstance = true ∧ event.fails.openFileOutput = false := by
  have hclosed' : (log.asked line).opened = false := hclosed
  have hdead : log.outStream ≠ .live := by
    intro hlive
    rw [hlog.opened hlive] at hclosed
    cases hclosed
  rw [step_of_line hline]
  by_cases hservice : log.serviceInstance = true
  · by_cases hfails : event.fails.openFileOutput = true
    · rw [writeLine_of_fails hclosed' hservice hfails]
      refine iff_of_false (fun hnext => hdead ?_) (by simp [hfails])
      obtain ⟨file, thrown, hleft⟩ := exists_left_writeBytes
        { log.asked line with opened := true, timeFormat := true } line event.fails
      rw [hleft] at hnext
      exact hnext.2 rfl
    · have hopens := Bool.eq_false_of_not_eq_true hfails
      rw [writeLine_of_opens hclosed' hservice hopens]
      exact iff_of_true (safe_left_writeBytes hsafe.1 rfl) ⟨hservice, hopens⟩
  · rw [writeLine_of_unpublished hclosed' (Bool.eq_false_of_not_eq_true hservice)]
    refine iff_of_false (fun hnext => ?_) (fun hopens => hservice hopens.1)
    have hthrown : true = false := hnext.1
    cases hthrown

theorem safe_step_iff (hlog : Consistent log) (hsafe : log.Safe) (event : Event) :
    Safe (log.step event) ↔ log.OpensWell event := by
  rcases event_cases event with ⟨line, hline⟩ | rfl | ⟨time, fails, rfl⟩
  · rw [opensWell_of_line hline]
    by_cases hopened : log.opened = true
    · rw [step_of_opened hlog hline hopened]
      refine iff_of_true (safe_left_writeBytes hsafe.1 (hsafe.2 hopened)) fun hclosed => ?_
      rw [hopened] at hclosed
      cases hclosed
    · have hclosed := Bool.eq_false_of_not_eq_true hopened
      rw [safe_step_iff_of_not_opened hlog hsafe hline hclosed, imp_iff_right hclosed]
  · rw [step_publish]
    exact iff_of_true hsafe (opensWell_of_no_line rfl)
  · rw [step_close]
    refine iff_of_true ?_ (opensWell_of_no_line rfl)
    by_cases hopened : log.opened = true
    · have hstream : log.outStream ≠ .null := by
        rw [hsafe.2 hopened]
        decide
      rw [close_of_not_null hopened hstream]
      exact ⟨hsafe.1, nofun⟩
    · rw [close_of_not_opened (Bool.eq_false_of_not_eq_true hopened)]
      exact hsafe

/-- **Logging is safe while every opening succeeds.** Over every run of calls from all threads, with
any operations failing and the service published at any time, no call throws and the flag stands for
an open stream in every state, exactly if each call that finds the log closed finds the service
published and can open the file. -/
theorem logging_safe_iff (old : String) (events : List Event) :
    StatesAlong advance Safe { file := old } events ↔
      StepsAlong advance OpensWell { file := old } events := by
  have hstart : Consistent { file := old } := ⟨nofun, nofun⟩
  refine statesAlong_iff_stepsAlong_of_inv hstart ⟨rfl, nofun⟩ ?_ ?_ (run_total step _ events)
  · intro current event next hcurrent hstep
    obtain rfl := Option.some.inj hstep
    exact hcurrent.step event
  · intro current event next hcurrent hsafe hstep
    obtain rfl := Option.some.inj hstep
    exact safe_step_iff hcurrent hsafe event

/-- The sampler writes before the service is published. -/
def earlyWrite : List Event :=
  [.call (.writeALine (240, 430) flagMouseTrace) "12:00:00:0000" {}, .publish]

theorem logging_not_safe :
    ¬ ∀ (old : String) (events : List Event), StatesAlong advance Safe { file := old } events := by
  intro hclaim
  have hsafe := (hclaim "" earlyWrite).last (run_total step _ earlyWrite)
  exact absurd hsafe (by decide)

end DataLogHelper

end SensorMouse
