import Mathlib.Data.Option.Basic
import Mathlib.Data.List.Induction

/-!
# Runs of a partial machine

A machine is a partial step function: a label either is not possible in a state or leads to exactly
one next state. A run follows a list of labels. Everything that is later said about "every run" goes
through `run_invariant` (a property each step keeps) or `run_history` (the same, when the property
also speaks of what happened before), and everything said about "exactly these runs" goes through
`statesAlong_iff_stepsAlong` and `ordered_concat`.
-/

namespace SensorMouse.Lib

variable {State Label : Type*} (step : State → Label → Option State)

/-- Follow `labels` from `start`; `none` as soon as one of them is not possible. -/
def run : State → List Label → Option State
  | start, [] => some start
  | start, label :: rest => (step start label).bind fun next => run next rest

@[simp]
theorem run_nil (start : State) : run step start [] = some start := rfl

theorem run_cons (start : State) (label : Label) (rest : List Label) :
    run step start (label :: rest) = (step start label).bind fun next => run step next rest := rfl

@[simp]
theorem run_cons_eq_some {start final : State} {label : Label} {rest : List Label} :
    run step start (label :: rest) = some final ↔
      ∃ next, step start label = some next ∧ run step next rest = some final := by
  rw [run_cons, Option.bind_eq_some_iff]

theorem run_append (start : State) (first second : List Label) :
    run step start (first ++ second) =
      (run step start first).bind fun middle => run step middle second := by
  induction first generalizing start with
  | nil => rfl
  | cons label rest ih =>
      rw [List.cons_append, run_cons, run_cons, Option.bind_assoc]
      simp only [ih]

theorem run_append_eq_some {start final : State} {first second : List Label} :
    run step start (first ++ second) = some final ↔
      ∃ middle, run step start first = some middle ∧ run step middle second = some final := by
  rw [run_append, Option.bind_eq_some_iff]

/-- A start that may fail, a run from it, and a test of its two ends, evaluated as one. -/
theorem exists_run_of_bind_eq {created : Option State} {labels : List Label}
    {test : State → State → Prop} [∀ start final, Decidable (test start final)]
    (heval : (created.bind fun start => (run step start labels).map fun final =>
      decide (test start final)) = some true) :
    ∃ start final, created = some start ∧ run step start labels = some final ∧ test start final := by
  obtain ⟨start, hstart, hrest⟩ := Option.bind_eq_some_iff.mp heval
  obtain ⟨final, hrun, htest⟩ := Option.map_eq_some_iff.mp hrest
  exact ⟨start, final, hstart, hrun, of_decide_eq_true htest⟩

theorem run_concat_eq_some {start final : State} {past : List Label} {label : Label} :
    run step start (past ++ [label]) = some final ↔
      ∃ middle, run step start past = some middle ∧ step middle label = some final := by
  simp [run_append_eq_some]

theorem run_total (advance : State → Label → State) (start : State) (labels : List Label) :
    run (fun state label => some (advance state label)) start labels =
      some (labels.foldl advance start) := by
  induction labels generalizing start with
  | nil => rfl
  | cons label rest ih => exact ih (advance start label)

variable {step}

/-- A property of pasts and states that the empty run has and that every step keeps holds at the end
of every run. The past is part of the property, so it may speak of earlier steps. -/
theorem run_history {start final : State} {labels : List Label}
    (Holds : List Label → State → Prop) (hstart : Holds [] start)
    (hstep : ∀ past current label next, run step start past = some current → Holds past current →
      step current label = some next → Holds (past ++ [label]) next)
    (hrun : run step start labels = some final) : Holds labels final := by
  induction labels using List.reverseRecOn generalizing final with
  | nil =>
      obtain rfl : start = final := by simpa using hrun
      exact hstart
  | append_singleton past label ih =>
      obtain ⟨middle, hpast, hlast⟩ := (run_concat_eq_some step).mp hrun
      exact hstep past middle label final hpast (ih hpast) hlast

theorem run_invariant {start final : State} {labels : List Label} (Holds : State → Prop)
    (hstart : Holds start)
    (hstep : ∀ current label next, Holds current → step current label = some next → Holds next)
    (hrun : run step start labels = some final) : Holds final :=
  run_history (fun _ state => Holds state) hstart
    (fun _ current label next _ hcurrent hnext => hstep current label next hcurrent hnext) hrun

theorem run_invariant_of_labels {start final : State} {labels : List Label} (Holds : State → Prop)
    (Allowed : Label → Prop) (hlabels : ∀ label ∈ labels, Allowed label) (hstart : Holds start)
    (hstep : ∀ current label next, Allowed label → Holds current →
      step current label = some next → Holds next)
    (hrun : run step start labels = some final) : Holds final := by
  induction labels generalizing start with
  | nil =>
      obtain rfl : start = final := by simpa using hrun
      exact hstart
  | cons label rest ih =>
      obtain ⟨next, hnext, hrest⟩ := (run_cons_eq_some step).mp hrun
      exact ih (fun other hother => hlabels other (List.mem_cons_of_mem _ hother))
        (hstep start label next (hlabels label (List.mem_cons_self ..)) hstart hnext) hrest

variable {Output : Type*}

variable (step) in
/-- What the steps of a run give, each of them judged in the state before it. -/
def gathered (give : State → Label → List Output) : State → List Label → List Output
  | _, [] => []
  | start, label :: rest => give start label ++
      match step start label with
      | some next => gathered give next rest
      | none => []

/-- A history to which every step adds what it gives. -/
theorem history_of_run {start final : State} {labels : List Label} (Holds : State → Prop)
    (history : State → List Output) {give : State → Label → List Output} (hstart : Holds start)
    (hstep : ∀ current label next, Holds current → step current label = some next →
      Holds next ∧ history next = history current ++ give current label)
    (hrun : run step start labels = some final) :
    history final = history start ++ gathered step give start labels := by
  induction labels generalizing start with
  | nil =>
      obtain rfl : start = final := by simpa using hrun
      exact (List.append_nil _).symm
  | cons label rest ih =>
      obtain ⟨next, hnext, hrest⟩ := (run_cons_eq_some step).mp hrun
      obtain ⟨hholds, hhistory⟩ := hstep start label next hstart hnext
      rw [ih hholds hrest, hhistory, List.append_assoc]
      simp only [gathered, hnext]

/-- Where every step makes a measure less, whatever its label, it is zero after a run that is no longer
than it was. -/
theorem exists_run_of_measure {start : State} {labels : Nat → Label} (Holds : State → Prop)
    (measure : State → Nat) (hstart : Holds start)
    (hstep : ∀ current count, Holds current → measure current ≠ 0 →
      ∃ next, step current (labels count) = some next ∧ Holds next ∧
        measure next < measure current) :
    ∃ count ≤ measure start, ∃ final,
      run step start ((List.range count).map labels) = some final ∧ Holds final ∧
        measure final = 0 := by
  generalize hbound : measure start = bound
  induction bound using Nat.strongRecOn generalizing start labels with
  | ind bound ih =>
      by_cases hzero : bound = 0
      · exact ⟨0, Nat.zero_le _, start, rfl, hstart, hbound.trans hzero⟩
      · obtain ⟨next, hnext, hholds, hless⟩ := hstep start 0 hstart (hbound ▸ hzero)
        rw [hbound] at hless
        obtain ⟨count, hcount, final, hrun, hend⟩ :=
          @ih (measure next) hless next (fun count => labels (count + 1)) hholds
            (fun current count => hstep current (count + 1)) rfl
        refine ⟨count + 1, Nat.lt_of_le_of_lt hcount hless, final, ?_, hend⟩
        rw [List.range_succ_eq_map, List.map_cons, List.map_map, run_cons, hnext]
        exact hrun

/-! ### Properties of all states, and of all steps, of one run -/

variable (step)

/-- `Good` holds in every state the run passes, its first and its last included. -/
def StatesAlong (Good : State → Prop) (start : State) (labels : List Label) : Prop :=
  ∀ before after state, labels = before ++ after → run step start before = some state → Good state

/-- `Guard` holds of every step the run takes, judged in the state before the step. -/
def StepsAlong (Guard : State → Label → Prop) (start : State) (labels : List Label) : Prop :=
  ∀ before label after state, labels = before ++ label :: after →
    run step start before = some state → Guard state label

variable {step}

theorem StatesAlong.last {Good : State → Prop} {start final : State} {labels : List Label}
    (hgood : StatesAlong step Good start labels) (hrun : run step start labels = some final) :
    Good final :=
  hgood labels [] final (List.append_nil _).symm hrun

theorem statesAlong_concat {Good : State → Prop} {start final : State} {past : List Label}
    {label : Label} (hrun : run step start (past ++ [label]) = some final) :
    StatesAlong step Good start (past ++ [label]) ↔
      StatesAlong step Good start past ∧ Good final := by
  constructor
  · intro hgood
    refine ⟨fun before after state hsplit hstate => ?_, hgood.last hrun⟩
    exact hgood before (after ++ [label]) state (by rw [hsplit, List.append_assoc]) hstate
  · rintro ⟨hpast, hfinal⟩ before after state hsplit hstate
    rcases List.eq_nil_or_concat after with rfl | ⟨init, last, rfl⟩
    · rw [List.append_nil] at hsplit
      rw [hsplit, hstate, Option.some.injEq] at hrun
      exact hrun ▸ hfinal
    · rw [List.concat_eq_append, ← List.append_assoc] at hsplit
      exact hpast before init state (List.append_inj_left' hsplit rfl) hstate

theorem stepsAlong_concat {Guard : State → Label → Prop} {start current : State}
    {past : List Label} {label : Label} (hpast : run step start past = some current) :
    StepsAlong step Guard start (past ++ [label]) ↔
      StepsAlong step Guard start past ∧ Guard current label := by
  constructor
  · intro hguard
    refine ⟨fun before other after state hsplit hstate => ?_,
      hguard past label [] current rfl hpast⟩
    exact hguard before other (after ++ [label]) state (by rw [hsplit]; simp) hstate
  · rintro ⟨hprior, hlast⟩ before other after state hsplit hstate
    rcases List.eq_nil_or_concat after with rfl | ⟨init, last, rfl⟩
    · obtain ⟨rfl, hlabel⟩ := List.append_inj' hsplit rfl
      obtain rfl : current = state := Option.some.inj (hpast.symm.trans hstate)
      obtain rfl : label = other := by simpa using hlabel
      exact hlast
    · rw [List.concat_eq_append, ← List.cons_append, ← List.append_assoc] at hsplit
      exact hprior before other init state (List.append_inj_left' hsplit rfl) hstate

theorem stepsAlong_nil {Guard : State → Label → Prop} {start : State} :
    StepsAlong step Guard start [] := by
  intro before label after state hsplit
  simp at hsplit

theorem stepsAlong_cons {Guard : State → Label → Prop} {start : State} {label : Label}
    {rest : List Label} :
    StepsAlong step Guard start (label :: rest) ↔
      Guard start label ∧ ∀ next, step start label = some next → StepsAlong step Guard next rest := by
  constructor
  · intro hguard
    refine ⟨hguard [] label rest start rfl rfl, fun next hnext => ?_⟩
    intro before other after state hsplit hstate
    refine hguard (label :: before) other after state (by rw [hsplit]; rfl) ?_
    exact (run_cons_eq_some step).mpr ⟨next, hnext, hstate⟩
  · rintro ⟨hlabel, hrest⟩ before other after state hsplit hstate
    cases before with
    | nil =>
        obtain ⟨rfl, -⟩ := List.cons.inj hsplit
        obtain rfl : start = state := by simpa using hstate
        exact hlabel
    | cons first before =>
        obtain ⟨rfl, htail⟩ := List.cons.inj hsplit
        obtain ⟨next, hnext, hrun⟩ := (run_cons_eq_some step).mp hstate
        exact hrest next hnext before other after state htail hrun

instance decidableStepsAlong {Guard : State → Label → Prop}
    [∀ state label, Decidable (Guard state label)] :
    (start : State) → (labels : List Label) → Decidable (StepsAlong step Guard start labels)
  | _, [] => isTrue stepsAlong_nil
  | start, label :: rest =>
      have : Decidable (∀ next, step start label = some next → StepsAlong step Guard next rest) :=
        match step start label with
        | none => isTrue (by simp)
        | some next =>
            have : Decidable (StepsAlong step Guard next rest) := decidableStepsAlong next rest
            decidable_of_iff (StepsAlong step Guard next rest) (by simp)
      decidable_of_iff _ stepsAlong_cons.symm

theorem stepsAlong_append {Guard : State → Label → Prop} {start middle : State}
    {first second : List Label} (hfirst : run step start first = some middle)
    (hguard : StepsAlong step Guard start (first ++ second)) :
    StepsAlong step Guard start first ∧ StepsAlong step Guard middle second := by
  constructor
  · intro before label after state hsplit hstate
    exact hguard before label (after ++ second) state (by rw [hsplit]; simp) hstate
  · intro before label after state hsplit hstate
    refine hguard (first ++ before) label after state (by rw [hsplit, List.append_assoc]) ?_
    rw [run_append, hfirst]
    exact hstate

theorem run_invariant_of_steps {Guard : State → Label → Prop} {start final : State}
    {labels : List Label} (Holds : State → Prop) (hguard : StepsAlong step Guard start labels)
    (hstart : Holds start)
    (hstep : ∀ current label next, Guard current label → Holds current →
      step current label = some next → Holds next)
    (hrun : run step start labels = some final) : Holds final := by
  induction labels using List.reverseRecOn generalizing final with
  | nil =>
      obtain rfl : start = final := by simpa using hrun
      exact hstart
  | append_singleton past label ih =>
      obtain ⟨middle, hpast, hlast⟩ := (run_concat_eq_some step).mp hrun
      obtain ⟨hprior, hlabel⟩ := (stepsAlong_concat hpast).mp hguard
      exact hstep middle label final hlabel (ih hprior hpast) hlast

/-- A machine that keeps in step with a total one, on the runs whose steps meet a guard there. -/
theorem run_simulates_of_steps {Abstract : Type*} {advance : Abstract → Label → Abstract}
    {Guard : Abstract → Label → Prop} (Matches : State → Abstract → Prop) {start final : State}
    {abstract : Abstract} {labels : List Label}
    (hguard : StepsAlong (fun abstract label => some (advance abstract label)) Guard abstract labels)
    (hstart : Matches start abstract)
    (hstep : ∀ current abstract label next, label ∈ labels → Matches current abstract →
      Guard abstract label → step current label = some next →
      Matches next (advance abstract label))
    (hrun : run step start labels = some final) : Matches final (labels.foldl advance abstract) := by
  induction labels generalizing start abstract with
  | nil =>
      obtain rfl : start = final := by simpa using hrun
      exact hstart
  | cons label rest ih =>
      obtain ⟨next, hnext, hrest⟩ := (run_cons_eq_some step).mp hrun
      obtain ⟨hlabel, htail⟩ := stepsAlong_cons.mp hguard
      have hmatches := hstep start abstract label next (List.mem_cons_self ..) hstart hlabel hnext
      exact ih (htail _ rfl) hmatches
        (fun current abstract other next hother =>
          hstep current abstract other next (List.mem_cons_of_mem _ hother)) hrest

/-- A machine that can always take a guarded step, in step with a total one, has the whole run. -/
theorem exists_run_of_steps {Abstract : Type*} {advance : Abstract → Label → Abstract}
    {Guard : State → Label → Prop} (Matches : State → Abstract → Prop) {start : State}
    {abstract : Abstract} {labels : List Label} (hguard : StepsAlong step Guard start labels)
    (hstart : Matches start abstract)
    (hstep : ∀ current abstract label, Matches current abstract → Guard current label →
      ∃ next, step current label = some next ∧ Matches next (advance abstract label)) :
    ∃ final, run step start labels = some final ∧ Matches final (labels.foldl advance abstract) := by
  induction labels generalizing start abstract with
  | nil => exact ⟨start, rfl, hstart⟩
  | cons label rest ih =>
      obtain ⟨hlabel, htail⟩ := stepsAlong_cons.mp hguard
      obtain ⟨next, hnext, hmatches⟩ := hstep start abstract label hstart hlabel
      obtain ⟨final, hrun, hfinal⟩ := ih (htail next hnext) hmatches
      exact ⟨final, (run_cons_eq_some step).mpr ⟨next, hnext, hrun⟩, hfinal⟩

/-- Two states that stay the same under all labels, up to what is not observed, have runs that are
observed alike. -/
theorem run_map_eq_of_same {Seen : Type*} (observe : State → Seen) (Same : State → State → Prop)
    (hobserve : ∀ first second, Same first second → observe first = observe second)
    (hstep : ∀ first second label, Same first second →
      Option.Rel Same (step first label) (step second label))
    {first second : State} (hsame : Same first second) (labels : List Label) :
    (run step first labels).map observe = (run step second labels).map observe := by
  induction labels generalizing first second with
  | nil => exact congrArg some (hobserve first second hsame)
  | cons label rest ih =>
      have hnext := hstep first second label hsame
      rw [run_cons, run_cons]
      generalize step first label = reached at hnext ⊢
      generalize step second label = reached' at hnext ⊢
      cases hnext with
      | none => rfl
      | some hsame' => exact ih hsame'

/-- **Exactness.** When a step out of a good state leads to a good state exactly if it meets its
guard, a run stays good exactly if all its steps meet their guards. `Inv` is what the guard needs to
know of the state. -/
theorem statesAlong_iff_stepsAlong_of_inv {Inv Good : State → Prop} {Guard : State → Label → Prop}
    {start final : State} {labels : List Label} (hinv : Inv start) (hstart : Good start)
    (hkept : ∀ current label next, Inv current → step current label = some next → Inv next)
    (hstep : ∀ current label next, Inv current → Good current → step current label = some next →
      (Good next ↔ Guard current label))
    (hrun : run step start labels = some final) :
    StatesAlong step Good start labels ↔ StepsAlong step Guard start labels := by
  induction labels using List.reverseRecOn generalizing final with
  | nil =>
      constructor
      · rintro - before label after state hsplit
        simp at hsplit
      · intro _ before after state hsplit hstate
        obtain ⟨rfl, rfl⟩ := List.append_eq_nil_iff.mp hsplit.symm
        obtain rfl : start = state := by simpa using hstate
        exact hstart
  | append_singleton past label ih =>
      obtain ⟨middle, hpast, hlast⟩ := (run_concat_eq_some step).mp hrun
      rw [statesAlong_concat hrun, stepsAlong_concat hpast, ← ih hpast]
      refine and_congr_right fun hgood => ?_
      exact hstep middle label final (run_invariant Inv hinv hkept hpast) (hgood.last hpast) hlast

theorem statesAlong_iff_stepsAlong {Good : State → Prop} {Guard : State → Label → Prop}
    {start final : State} {labels : List Label} (hstart : Good start)
    (hstep : ∀ current label next, Good current → step current label = some next →
      (Good next ↔ Guard current label))
    (hrun : run step start labels = some final) :
    StatesAlong step Good start labels ↔ StepsAlong step Guard start labels :=
  @statesAlong_iff_stepsAlong_of_inv _ _ step (fun _ => True) _ _ _ _ _ trivial hstart
    (fun _ _ _ _ _ => trivial) (fun current label next _ => hstep current label next) hrun

/-- The same for a property of histories: once lost it stays lost, and a step loses it exactly if it
does not meet its guard. `Inv` is what the guard needs to know of the state. -/
theorem holds_iff_stepsAlong {Inv Good : State → Prop} {Guard : State → Label → Prop}
    {start final : State} {labels : List Label} (hinv : Inv start) (hgood : Good start)
    (hstep : ∀ current label next, Inv current → step current label = some next →
      Inv next ∧ (Good next ↔ Good current ∧ Guard current label))
    (hrun : run step start labels = some final) :
    Good final ↔ StepsAlong step Guard start labels := by
  induction labels using List.reverseRecOn generalizing final with
  | nil =>
      obtain rfl : start = final := by simpa using hrun
      exact iff_of_true hgood stepsAlong_nil
  | append_singleton past label ih =>
      obtain ⟨middle, hpast, hlast⟩ := (run_concat_eq_some step).mp hrun
      have hmiddle : Inv middle :=
        run_invariant Inv hinv (fun current label next hcurrent hnext =>
          (hstep current label next hcurrent hnext).1) hpast
      rw [(hstep middle label final hmiddle hlast).2, ih hpast, stepsAlong_concat hpast]

/-! ### What happened earlier in a run -/

variable (step)

/-- Some step of the run was an `Event`, judged in the state before it. -/
def Earlier (Event : State → Label → Prop) (start : State) (labels : List Label) : Prop :=
  ∃ before label after state, labels = before ++ label :: after ∧
    run step start before = some state ∧ Event state label

/-- A `Second` step of the run comes after a `First` step of it. -/
def Ordered (First Second : State → Label → Prop) (start : State) (labels : List Label) : Prop :=
  ∃ before label after state, labels = before ++ label :: after ∧
    run step start before = some state ∧ Second state label ∧ Earlier step First start before

variable {step}

theorem not_earlier_nil {Event : State → Label → Prop} {start : State} :
    ¬ Earlier step Event start [] := by
  rintro ⟨before, label, after, state, hsplit, -⟩
  simp at hsplit

theorem earlier_concat {Event : State → Label → Prop} {start current : State}
    {past : List Label} {label : Label} (hpast : run step start past = some current) :
    Earlier step Event start (past ++ [label]) ↔
      Earlier step Event start past ∨ Event current label := by
  have hnot : StepsAlong step (fun state other => ¬ Event state other) start (past ++ [label]) ↔
      StepsAlong step (fun state other => ¬ Event state other) start past ∧
        ¬ Event current label := stepsAlong_concat hpast
  have hearlier : ∀ labels, Earlier step Event start labels ↔
      ¬ StepsAlong step (fun state other => ¬ Event state other) start labels := by
    intro labels
    simp only [Earlier, StepsAlong, not_forall, not_not, exists_prop]
  rw [hearlier, hearlier, hnot, not_and_or, not_not]

theorem not_ordered_nil {First Second : State → Label → Prop} {start : State} :
    ¬ Ordered step First Second start [] := by
  rintro ⟨before, label, after, state, hsplit, -⟩
  simp at hsplit

theorem ordered_concat {First Second : State → Label → Prop} {start current : State}
    {past : List Label} {label : Label} (hpast : run step start past = some current) :
    Ordered step First Second start (past ++ [label]) ↔
      Ordered step First Second start past ∨
        (Second current label ∧ Earlier step First start past) := by
  constructor
  · rintro ⟨before, other, after, state, hsplit, hstate, hsecond, hfirst⟩
    rcases List.eq_nil_or_concat after with rfl | ⟨init, last, rfl⟩
    · obtain ⟨rfl, hlabel⟩ := List.append_inj' hsplit rfl
      obtain rfl : current = state := Option.some.inj (hpast.symm.trans hstate)
      obtain rfl : label = other := by simpa using hlabel
      exact Or.inr ⟨hsecond, hfirst⟩
    · rw [List.concat_eq_append, ← List.cons_append, ← List.append_assoc] at hsplit
      exact Or.inl ⟨before, other, init, state, List.append_inj_left' hsplit rfl, hstate,
        hsecond, hfirst⟩
  · rintro (⟨before, other, after, state, rfl, hstate, hsecond, hfirst⟩ | ⟨hsecond, hfirst⟩)
    · exact ⟨before, other, after ++ [label], state, by simp, hstate, hsecond, hfirst⟩
    · exact ⟨past, label, [], current, rfl, hpast, hsecond, hfirst⟩

end SensorMouse.Lib
