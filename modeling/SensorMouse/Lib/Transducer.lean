import SensorMouse.Lib.Run

/-!
# Streams of outputs

An object that is called over and over: each call takes an input and either throws or gives an output
and the next state. `exists_outputs` is the rule for "every call returns, and returns the right
thing": one call has to keep what holds of the inputs so far, and to answer rightly from it.
-/

namespace SensorMouse.Lib

variable {Input Output State Thrown : Type}

/-- The outputs of consecutive calls, and the state they leave. -/
def outputs (step : State → Input → Except Thrown (Output × State)) (start : State)
    (inputs : List Input) : Except Thrown (List Output × State) :=
  inputs.foldlM (fun (results, state) input => do
    let (result, next) ← step state input
    pure (results ++ [result], next)) ([], start)

variable {step : State → Input → Except Thrown (Output × State)}

theorem outputs_concat_eq (start : State) (inputs : List Input) (input : Input) :
    outputs step start (inputs ++ [input]) =
      outputs step start inputs >>= fun past =>
        step past.2 input >>= fun answered => pure (past.1 ++ [answered.1], answered.2) := by
  unfold outputs
  rw [List.foldlM_append]
  simp only [List.foldlM_cons, List.foldlM_nil, bind_pure]

theorem outputs_concat {start current next : State} {inputs : List Input} {input : Input}
    {results : List Output} {result : Output}
    (hpast : outputs step start inputs = .ok (results, current))
    (hlast : step current input = .ok (result, next)) :
    outputs step start (inputs ++ [input]) = .ok (results ++ [result], next) := by
  rw [outputs_concat_eq, hpast]
  change (step current input >>= fun answered =>
    (pure (results ++ [answered.1], answered.2) : Except Thrown (List Output × State))) = _
  rw [hlast]
  rfl

theorem outputs_prefix {start final : State} {first second : List Input} {results : List Output}
    (hok : outputs step start (first ++ second) = .ok (results, final)) :
    ∃ earlier middle, outputs step start first = .ok (earlier, middle) ∧ earlier <+: results := by
  induction second using List.reverseRecOn generalizing final results with
  | nil =>
      rw [List.append_nil] at hok
      exact ⟨results, final, hok, List.prefix_rfl⟩
  | append_singleton past input ih =>
      rw [← List.append_assoc, outputs_concat_eq] at hok
      cases hpast : outputs step start (first ++ past) with
      | error thrown =>
          rw [hpast] at hok
          cases hok
      | ok reached =>
          obtain ⟨earlier, middle, hfirst, hprefix⟩ := ih hpast
          rw [hpast] at hok
          change (step reached.2 input >>= fun answered =>
            (pure (reached.1 ++ [answered.1], answered.2) :
              Except Thrown (List Output × State))) = _ at hok
          cases hlast : step reached.2 input with
          | error thrown =>
              rw [hlast] at hok
              cases hok
          | ok answered =>
              rw [hlast] at hok
              obtain ⟨rfl, rfl⟩ := Prod.mk.inj (Except.ok.inj hok)
              exact ⟨earlier, middle, hfirst, hprefix.trans (List.prefix_append _ _)⟩

/-- **Total correctness of a stream.** `Right` judges an output by its input and the earlier ones. -/
theorem exists_outputs {start : State} (Allowed : Input → Prop)
    (Holds : List Input → State → Prop) (Right : List Input → Input → Output → Prop)
    (hstart : Holds [] start)
    (hstep : ∀ past current input, Allowed input → Holds past current →
      ∃ result next, step current input = .ok (result, next) ∧ Holds (past ++ [input]) next ∧
        Right past input result)
    {inputs : List Input} (hallowed : ∀ input ∈ inputs, Allowed input) :
    ∃ results final, outputs step start inputs = .ok (results, final) ∧ Holds inputs final ∧
      results.length = inputs.length ∧
      ∀ k (hk : k < inputs.length), ∃ result, results[k]? = some result ∧
        Right (inputs.take k) inputs[k] result := by
  induction inputs using List.reverseRecOn with
  | nil =>
      refine ⟨[], start, rfl, hstart, rfl, fun k hk => ?_⟩
      exact absurd hk (Nat.not_lt_zero k)
  | append_singleton past input ih =>
      have hpastAllowed : ∀ earlier ∈ past, Allowed earlier := fun earlier hearlier =>
        hallowed earlier (List.mem_append_left [input] hearlier)
      obtain ⟨results, current, hpast, hholds, hcount, hright⟩ := ih hpastAllowed
      obtain ⟨result, next, hlast, hnext, hresult⟩ :=
        hstep past current input (hallowed input List.mem_concat_self) hholds
      have hlength : (past ++ [input]).length = past.length + 1 := List.length_append
      refine ⟨results ++ [result], next, outputs_concat hpast hlast, hnext, ?_, fun k hk => ?_⟩
      · rw [hlength, List.length_append, hcount]
        rfl
      · rcases Nat.lt_or_eq_of_le (Nat.le_of_lt_succ (hlength ▸ hk)) with hearlier | rfl
        · obtain ⟨earlier, hget, hearlierRight⟩ := hright k hearlier
          refine ⟨earlier, ?_, ?_⟩
          · rw [List.getElem?_append_left (hcount ▸ hearlier), hget]
          · rw [List.take_append_of_le_length (Nat.le_of_lt hearlier), List.getElem_append_left hearlier]
            exact hearlierRight
        · refine ⟨result, ?_, ?_⟩
          · rw [← hcount, List.getElem?_concat_length]
          · rw [List.take_left, List.getElem_concat_length rfl]
            exact hresult

/-- **An interleaving that does not disturb.** The inputs of one tag are answered as they are without
the others, if under the guard a step of the tag does the same in both states and no other step
touches what they have in common. -/
theorem exists_outputs_filter {Label Abstract : Type} [DecidableEq Label] {label : Input → Label}
    {labelOut : Output → Label} {tag : Label} {advance : Abstract → Label → Abstract}
    {Guard : Abstract → Label → Prop} {start : State} {abstract : Abstract}
    (Same : Abstract → State → State → Prop) (hstart : Same abstract start start)
    (hown : ∀ abstract current alone input, Same abstract current alone → label input = tag →
      Guard abstract tag → ∃ result next aloneNext, step current input = .ok (result, next) ∧
        step alone input = .ok (result, aloneNext) ∧ labelOut result = tag ∧
        Same (advance abstract tag) next aloneNext)
    (hother : ∀ abstract current alone input, Same abstract current alone → label input ≠ tag →
      ∃ result next, step current input = .ok (result, next) ∧ labelOut result ≠ tag ∧
        Same (advance abstract (label input)) next alone)
    {inputs : List Input}
    (hguard : StepsAlong (fun abstract label => some (advance abstract label)) Guard abstract
      (inputs.map label)) :
    ∃ results final left, outputs step start inputs = .ok (results, final) ∧
      outputs step start (inputs.filter (label · = tag)) =
        .ok (results.filter (labelOut · = tag), left) ∧
      Same ((inputs.map label).foldl advance abstract) final left := by
  induction inputs using List.reverseRecOn with
  | nil => exact ⟨[], start, start, rfl, rfl, hstart⟩
  | append_singleton past input ih =>
      rw [List.map_append, List.map_singleton] at hguard ⊢
      obtain ⟨hprior, hlabel⟩ :=
        (stepsAlong_concat (run_total advance abstract (past.map label))).mp hguard
      obtain ⟨results, current, alone, hpast, halone, hsame⟩ := ih hprior
      rw [List.foldl_append, List.filter_append]
      by_cases htag : label input = tag
      · obtain ⟨result, next, aloneNext, hstep, haloneStep, hout, hnext⟩ :=
          hown _ current alone input hsame htag (htag ▸ hlabel)
        refine ⟨_, next, aloneNext, outputs_concat hpast hstep, ?_, htag ▸ hnext⟩
        have hinput : [input].filter (label · = tag) = [input] := by simp [htag]
        have hresult : [result].filter (labelOut · = tag) = [result] := by simp [hout]
        rw [List.filter_append, hinput, hresult]
        exact outputs_concat halone haloneStep
      · obtain ⟨result, next, hstep, hout, hnext⟩ := hother _ current alone input hsame htag
        refine ⟨_, next, alone, outputs_concat hpast hstep, ?_, hnext⟩
        have hinput : [input].filter (label · = tag) = [] := by simp [htag]
        have hresult : [result].filter (labelOut · = tag) = [] := by simp [hout]
        rw [List.filter_append, hinput, hresult, List.append_nil, List.append_nil]
        exact halone

/-! ### The same object inside another one -/

section

variable {Outer : Type} {stepOuter : Outer → Input → Except Thrown (Output × Outer)}
  {embed : State → Outer}
  (hstep : ∀ state input, stepOuter (embed state) input = (step state input).map (Prod.map id embed))

include hstep

theorem outputs_embed (start : State) (inputs : List Input) :
    outputs stepOuter (embed start) inputs =
      (outputs step start inputs).map (Prod.map id embed) := by
  induction inputs using List.reverseRecOn with
  | nil => rfl
  | append_singleton past input ih =>
      rw [outputs_concat_eq, outputs_concat_eq, ih]
      cases outputs step start past with
      | error thrown => rfl
      | ok reached =>
          change (stepOuter (embed reached.2) input >>= _) = _
          rw [hstep]
          change _ = Except.map (Prod.map id embed) (step reached.2 input >>= _)
          cases step reached.2 input with
          | error thrown => rfl
          | ok answered => rfl

theorem exists_outputs_embed {start : State} {inputs : List Input} {results : List Output} :
    (∃ final, outputs stepOuter (embed start) inputs = .ok (results, final)) ↔
      ∃ final, outputs step start inputs = .ok (results, final) := by
  rw [outputs_embed hstep]
  constructor
  · rintro ⟨final, hok⟩
    cases hinner : outputs step start inputs with
    | error thrown =>
        rw [hinner] at hok
        cases hok
    | ok reached =>
        rw [hinner] at hok
        obtain ⟨rfl, -⟩ := Prod.mk.inj (Except.ok.inj hok)
        exact ⟨reached.2, rfl⟩
  · rintro ⟨final, hok⟩
    rw [hok]
    exact ⟨embed final, rfl⟩

end

end SensorMouse.Lib
