import SensorMouse.Proof.Preview
import Mathlib.Algebra.Order.BigOperators.Group.List

/-!
# Two counters and one array

Both `computeValue`s of an averager fill `averageArray`, each by its own counter, and both add a
full block up in row 0. The rows below a counter are what its block has so far. A call spoils the
block of the other entry if it stores into one of these rows or, being the last of its own block,
sums into row 0 while the other block has begun. That is all that can go wrong, and whatever block is
completed after it was spoilt shows it: `entries_independent_iff`.
-/

namespace SensorMouse

open Java Lib

namespace AverageComputerForService

/-- The two entry points. -/
inductive Entry where
  | computeValue
  | computeValueShown
  deriving DecidableEq, Repr

inductive Call (F : Type) where
  | computeValue (x y : F)
  | computeValueShown (x y z : F)

/-- What a call returns, or the text it sets. -/
inductive Answer (F : Type) where
  | returned (values : Option (Fin 3 → Int))
  | shown (text : Option (F × F × F))

def Call.entry {F : Type} : Call F → Entry
  | .computeValue _ _ => .computeValue
  | .computeValueShown _ _ _ => .computeValueShown

def Answer.entry {F : Type} : Answer F → Entry
  | .returned _ => .computeValue
  | .shown _ => .computeValueShown

/-- The components an entry stores and sums. -/
def Entry.components : Entry → List (Fin 3)
  | .computeValue => [0, 1]
  | .computeValueShown => [0, 1, 2]

/-- The answer of a call that does not complete its block. -/
def Entry.silent {F : Type} : Entry → Answer F
  | .computeValue => .returned none
  | .computeValueShown => .shown none

def count {F : Type} (computer : AverageComputerForService F) : Entry → Nat
  | .computeValue => computer.count1
  | .computeValueShown => computer.count2

variable {F : Type} [JavaFloat F]

def perform (computer : AverageComputerForService F) :
    Call F → Except JavaException (Answer F × AverageComputerForService F)
  | .computeValue x y => do
      let (values, next) ← computer.computeValue x y
      pure (.returned values, next)
  | .computeValueShown x y z => do
      let (text, next) ← computer.computeValueShown x y z
      pure (.shown text, next)

/-- The row a call stores, in the components of its entry. -/
def Call.Stores (made : Call F) (m : F) (row : Row F) : Prop :=
  match made with
  | .computeValue x y => (row 0, row 1) = (x * m, y * m)
  | .computeValueShown x y z => (row 0, row 1, row 2) = (x * m, y * m, z * m)

/-- The answer of a call that completes its block; `third` is the value that is never computed. -/
def Entry.answer (o d third : Int) (totals : Fin 3 → F) : Entry → Answer F
  | .computeValue => .returned (some (Function.update (Function.update (fun _ => third) 0
      (AverageComputerForService.answer o d (totals 0))) 1
      (AverageComputerForService.answer o d (totals 1))))
  | .computeValueShown => .shown (some (totals 0 * (o : F) * (d : F), totals 1 * (o : F) * (d : F),
      totals 2 * (o : F) * (d : F)))

/-- What the first component of row 0 is left as. -/
def Entry.sum (o d : Int) (total : F) : Entry → F
  | .computeValue => total
  | .computeValueShown => total * (o : F) * (d : F)

/-! ### One call -/

theorem perform_computeValue {computer next : AverageComputerForService F} {x y : F}
    {values : Option (Fin 3 → Int)} (hcompute : computer.computeValue x y = .ok (values, next)) :
    computer.perform (.computeValue x y) = .ok (.returned values, next) := by
  change computer.computeValue x y >>= (fun result => pure (Answer.returned result.1, result.2)) = _
  rw [hcompute]
  rfl

theorem perform_computeValueShown {computer next : AverageComputerForService F} {x y z : F}
    {text : Option (F × F × F)} (hcompute : computer.computeValueShown x y z = .ok (text, next)) :
    computer.perform (.computeValueShown x y z) = .ok (.shown text, next) := by
  change computer.computeValueShown x y z >>=
    (fun result => pure (Answer.shown result.1, result.2)) = _
  rw [hcompute]
  rfl

/-- An averager of these settings, whatever its array holds. -/
structure Fits (n : Nat) (m : F) (o d : Int) (computer : AverageComputerForService F) : Prop where
  averageNum : computer.averageNum = n
  magnification : computer.magnification = m
  offset : computer.offset = o
  direction : computer.direction = d
  length : computer.averageArray.length = n
  third : computer.values 2 = 0

/-- What a call of `entry` that stores `row` does. -/
structure Makes (n : Nat) (m : F) (o d : Int) (entry : Entry) (row : Row F)
    (computer : AverageComputerForService F) (answer : Answer F)
    (next : AverageComputerForService F) : Prop where
  fits : Fits n m o d next
  kind : answer.entry = entry
  own : next.count entry = if computer.count entry + 1 = n then 0 else computer.count entry + 1
  other : ∀ e, e ≠ entry → next.count e = computer.count e
  waits : computer.count entry + 1 ≠ n → answer = entry.silent ∧
    next.averageArray = computer.averageArray.set (computer.count entry) row
  completes : computer.count entry + 1 = n →
    let stored := computer.averageArray.set (computer.count entry) row
    answer = entry.answer o d 0 (total stored) ∧
      ∃ sums : Row F, sums 0 = entry.sum o d (total stored 0) ∧
        next.averageArray = stored.set 0 sums

variable {n : Nat} {m : F} {o d : Int} {computer next : AverageComputerForService F}

omit [JavaFloat F] in
theorem Fits.last_iff (hfits : Fits n m o d computer) (count : Nat) :
    (count : Int) + 1 = computer.averageNum ↔ count + 1 = n := by
  rw [hfits.averageNum]
  norm_cast

omit [JavaFloat F] in
theorem Fits.length_set (hfits : Fits n m o d computer) (index : Nat) (row : Row F) :
    (computer.averageArray.set index row).length = n := by
  rw [List.length_set, hfits.length]

omit [JavaFloat F] in
theorem count_eq_of_ne_computeValue (hcount : next.count2 = computer.count2) :
    ∀ e, e ≠ Entry.computeValue → next.count e = computer.count e := by
  intro e hne
  cases e with
  | computeValue => exact absurd rfl hne
  | computeValueShown => exact hcount

omit [JavaFloat F] in
theorem count_eq_of_ne_computeValueShown (hcount : next.count1 = computer.count1) :
    ∀ e, e ≠ Entry.computeValueShown → next.count e = computer.count e := by
  intro e hne
  cases e with
  | computeValue => exact hcount
  | computeValueShown => exact absurd rfl hne

theorem Fits.makes_computeValue (hfits : Fits n m o d computer) (hlt : computer.count1 < n)
    (x y : F) :
    ∃ row answer next, computer.perform (.computeValue x y) = .ok (answer, next) ∧
      (Call.computeValue x y).Stores m row ∧
      Makes n m o d .computeValue row computer answer next := by
  obtain ⟨row, hrow, hcompute⟩ := exists_row_computeValue (hfits.length.symm ▸ hlt) x y
  rw [hfits.magnification] at hrow
  have hlength := hfits.length_set computer.count1 row
  by_cases hlast : computer.count1 + 1 = n
  · have hpositive : 0 < (computer.averageArray.set computer.count1 row).length := by omega
    have hfull : (computer.averageArray.set computer.count1 row).length =
        computer.averageNum.toNat := by
      rw [hlength, hfits.averageNum, Int.toNat_natCast]
    obtain ⟨sums, hsum, hemit⟩ := emit_both hpositive hfull computer.values
    rw [if_pos ((hfits.last_iff _).mpr hlast), hemit, ok_bind] at hcompute
    refine ⟨row, _, _, perform_computeValue hcompute, hrow, ?_, rfl, (if_pos hlast).symm,
      count_eq_of_ne_computeValue rfl, fun hnot => absurd hlast hnot,
      fun _ => ⟨?_, sums, hsum, rfl⟩⟩
    · exact ⟨hfits.averageNum, hfits.magnification, hfits.offset, hfits.direction,
        List.length_set.trans hlength, hfits.third⟩
    · refine congrArg (fun values => Answer.returned (some values)) ?_
      rw [hfits.offset, hfits.direction]
      funext i
      match i with
      | 0 => rfl
      | 1 => rfl
      | 2 => exact hfits.third
  · rw [if_neg ((hfits.last_iff _).not.mpr hlast)] at hcompute
    refine ⟨row, _, _, perform_computeValue hcompute, hrow, ?_, rfl, (if_neg hlast).symm,
      count_eq_of_ne_computeValue rfl, fun _ => ⟨rfl, rfl⟩, fun hyes => absurd hyes hlast⟩
    exact ⟨hfits.averageNum, hfits.magnification, hfits.offset, hfits.direction, hlength,
      hfits.third⟩

theorem Fits.makes_computeValueShown (hfits : Fits n m o d computer) (hlt : computer.count2 < n)
    (x y z : F) :
    ∃ row answer next, computer.perform (.computeValueShown x y z) = .ok (answer, next) ∧
      (Call.computeValueShown x y z).Stores m row ∧
      Makes n m o d .computeValueShown row computer answer next := by
  obtain ⟨row, hrow, hcompute⟩ := exists_row_computeValueShown (hfits.length.symm ▸ hlt) x y z
  rw [hfits.magnification] at hrow
  have hlength := hfits.length_set computer.count2 row
  by_cases hlast : computer.count2 + 1 = n
  · obtain ⟨first, rows, harray⟩ := List.exists_cons_of_length_pos
      (by omega : 0 < (computer.averageArray.set computer.count2 row).length)
    have hfull : computer.averageNum.toNat = rows.length + 1 := by
      rw [hfits.averageNum, Int.toNat_natCast, ← hlength, harray, List.length_cons]
    rw [if_pos ((hfits.last_iff _).mpr hlast), harray, emitShown_all hfull, ok_bind,
      load_of_lt (Nat.zero_lt_succ _), ok_bind, List.getElem_cons_zero] at hcompute
    rw [harray] at hlength
    refine ⟨row, _, _, perform_computeValueShown hcompute, hrow, ?_, rfl, (if_pos hlast).symm,
      count_eq_of_ne_computeValueShown rfl, fun hnot => absurd hlast hnot, fun _ => ⟨?_, ?_⟩⟩
    · exact ⟨hfits.averageNum, hfits.magnification, hfits.offset, hfits.direction, hlength,
        hfits.third⟩
    · change _ = Entry.answer o d 0 (total (computer.averageArray.set computer.count2 row)) _
      rw [harray, ← hfits.offset, ← hfits.direction]
      rfl
    · change ∃ sums : Row F, sums 0 = Entry.sum o d
          (total (computer.averageArray.set computer.count2 row) 0) _ ∧
        _ = (computer.averageArray.set computer.count2 row).set 0 sums
      rw [harray, ← hfits.offset, ← hfits.direction]
      exact ⟨_, rfl, rfl⟩
  · rw [if_neg ((hfits.last_iff _).not.mpr hlast)] at hcompute
    refine ⟨row, _, _, perform_computeValueShown hcompute, hrow, ?_, rfl, (if_neg hlast).symm,
      count_eq_of_ne_computeValueShown rfl, fun _ => ⟨rfl, rfl⟩, fun hyes => absurd hyes hlast⟩
    exact ⟨hfits.averageNum, hfits.magnification, hfits.offset, hfits.direction, hlength,
      hfits.third⟩

/-- Every call below the end of its block returns, and does what it makes. -/
theorem Fits.exists_makes (hfits : Fits n m o d computer) (made : Call F)
    (hlt : computer.count made.entry < n) :
    ∃ row answer next, computer.perform made = .ok (answer, next) ∧ made.Stores m row ∧
      Makes n m o d made.entry row computer answer next := by
  cases made with
  | computeValue x y => exact hfits.makes_computeValue hlt x y
  | computeValueShown x y z => exact hfits.makes_computeValueShown hlt x y z

/-! ### The counters alone -/

/-- How far each entry is in its block, and whether the rows of the block are still its own. -/
structure Phases where
  count : Entry → Nat := fun _ => 0
  spoilt : Entry → Bool := fun _ => false

/-- A call of `entry` writes a row of the block that `victim` has begun. -/
def Phases.Overwrites (n : Nat) (phases : Phases) (entry victim : Entry) : Prop :=
  phases.count entry < phases.count victim ∨
    (phases.count entry + 1 = n ∧ 0 < phases.count victim)

instance {n : Nat} {phases : Phases} {entry victim : Entry} :
    Decidable (phases.Overwrites n entry victim) :=
  inferInstanceAs (Decidable (_ ∨ _))

def Phases.advance (n : Nat) (phases : Phases) (entry : Entry) : Phases where
  count e :=
    if e ≠ entry then phases.count e
    else if phases.count e + 1 = n then 0 else phases.count e + 1
  spoilt e :=
    if e ≠ entry then phases.spoilt e || phases.Overwrites n entry e
    else if phases.count e + 1 = n then false else phases.spoilt e

/-- The call does not complete a block that was spoilt. -/
def Phases.Unspoilt (n : Nat) (phases : Phases) (entry : Entry) : Prop :=
  phases.count entry + 1 = n → phases.spoilt entry = false

instance {n : Nat} {phases : Phases} {entry : Entry} : Decidable (phases.Unspoilt n entry) :=
  inferInstanceAs (Decidable (_ → _))

/-- No block of these calls is completed after it was spoilt. -/
def BlocksKept (n : Nat) (entries : List Entry) : Prop :=
  StepsAlong (fun phases entry => some (phases.advance n entry)) (Phases.Unspoilt n) {} entries

instance {n : Nat} {entries : List Entry} : Decidable (BlocksKept n entries) :=
  inferInstanceAs (Decidable (StepsAlong _ _ _ _))

section

variable {phases : Phases} {entry e : Entry}

theorem Phases.advance_count_self : (phases.advance n entry).count entry =
    if phases.count entry + 1 = n then 0 else phases.count entry + 1 :=
  if_neg (not_not.mpr rfl)

theorem Phases.advance_count_of_ne (hne : e ≠ entry) :
    (phases.advance n entry).count e = phases.count e := if_pos hne

theorem Phases.advance_spoilt_self : (phases.advance n entry).spoilt entry =
    if phases.count entry + 1 = n then false else phases.spoilt entry :=
  if_neg (not_not.mpr rfl)

theorem Phases.advance_spoilt_of_ne (hne : e ≠ entry) : (phases.advance n entry).spoilt e =
    (phases.spoilt e || decide (phases.Overwrites n entry e)) := if_pos hne

/-- The counters stay below the length of a block. -/
def Phases.Below (n : Nat) (phases : Phases) : Prop := ∀ e, phases.count e < n

theorem Phases.Below.advance (hbelow : phases.Below n) (hpos : 0 < n) (entry : Entry) :
    (phases.advance n entry).Below n := by
  intro e
  by_cases hne : e = entry
  · subst hne
    rw [Phases.advance_count_self]
    by_cases hlast : phases.count e + 1 = n
    · rw [if_pos hlast]
      exact hpos
    · rw [if_neg hlast]
      have hlt := hbelow e
      omega
  · rw [Phases.advance_count_of_ne hne]
    exact hbelow e

end

section

variable {entry e : Entry} {row : Row F} {answer : Answer F} {phases : Phases}

theorem Makes.count_eq (hmakes : Makes n m o d entry row computer answer next)
    (hcounts : computer.count = phases.count) : next.count = (phases.advance n entry).count := by
  funext e
  by_cases hne : e = entry
  · subst hne
    rw [hmakes.own, hcounts, Phases.advance_count_self]
  · rw [hmakes.other e hne, hcounts, Phases.advance_count_of_ne hne]

theorem Makes.count_lt (hmakes : Makes n m o d entry row computer answer next)
    (hlt : computer.count entry < n) : next.count entry < n := by
  rw [hmakes.own]
  by_cases hlast : computer.count entry + 1 = n
  · rw [if_pos hlast]
    exact (Nat.zero_le _).trans_lt hlt
  · rw [if_neg hlast]
    exact lt_of_le_of_ne hlt hlast

omit [JavaFloat F] in
theorem forall_row_set {holds : Row F → Prop} {array : List (Row F)}
    (hall : ∀ other ∈ array, holds other) (hrow : holds row) (index : Nat) :
    ∀ other ∈ array.set index row, holds other := by
  intro other hother
  rcases List.mem_or_eq_of_mem_set hother with hold | rfl
  · exact hall other hold
  · exact hrow

/-- What holds of every row, of the stored one and of the sum of such rows holds of every row after
the call. -/
theorem Makes.forall_mem {holds : Row F → Prop}
    (hmakes : Makes n m o d entry row computer answer next)
    (hall : ∀ other ∈ computer.averageArray, holds other) (hrow : holds row)
    (hsum : ∀ stored : List (Row F), (∀ other ∈ stored, holds other) → ∀ sums : Row F,
      sums 0 = entry.sum o d (total stored 0) → holds sums) :
    ∀ other ∈ next.averageArray, holds other := by
  have hstored := forall_row_set hall hrow (computer.count entry)
  by_cases hlast : computer.count entry + 1 = n
  · obtain ⟨-, sums, hzero, harray⟩ := hmakes.completes hlast
    rw [harray]
    exact forall_row_set hstored (hsum _ hstored sums hzero) 0
  · rw [(hmakes.waits hlast).2]
    exact hstored

/-- The rows of a block that a call of the other entry leaves alone. -/
theorem Makes.take_eq (hmakes : Makes n m o d entry row computer answer next)
    (hcounts : computer.count = phases.count) (hkept : ¬ phases.Overwrites n entry e) :
    next.averageArray.take (phases.count e) = computer.averageArray.take (phases.count e) := by
  obtain ⟨hlater, hfirst⟩ := not_or.mp hkept
  have hle : phases.count e ≤ computer.count entry := by
    rw [hcounts]
    exact not_lt.mp hlater
  by_cases hlast : computer.count entry + 1 = n
  · have hzero : phases.count e = 0 := by
      by_contra hne
      exact hfirst ⟨hcounts ▸ hlast, Nat.pos_of_ne_zero hne⟩
    rw [hzero, List.take_zero, List.take_zero]
  · rw [(hmakes.waits hlast).2, List.take_set_of_le hle]

end

/-! ### A block that is not spoilt -/

theorem total_congr {array other : List (Row F)} {i : Fin 3}
    (hcolumn : array.map (· i) = other.map (· i)) : total array i = total other i :=
  congrArg blockSum hcolumn

theorem Call.Stores.eq_on {made : Call F} {row other : Row F} (hrow : made.Stores m row)
    (hother : made.Stores m other) : ∀ i ∈ made.entry.components, row i = other i := by
  cases made with
  | computeValue x y =>
      obtain ⟨h0, h1⟩ := Prod.mk.inj (hrow.trans (Eq.symm hother))
      simp only [Call.entry, Entry.components, List.forall_mem_cons, List.not_mem_nil]
      exact ⟨h0, h1, fun _ => False.elim⟩
  | computeValueShown x y z =>
      obtain ⟨h0, hrest⟩ := Prod.mk.inj (hrow.trans (Eq.symm hother))
      obtain ⟨h1, h2⟩ := Prod.mk.inj hrest
      simp only [Call.entry, Entry.components, List.forall_mem_cons, List.not_mem_nil]
      exact ⟨h0, h1, h2, fun _ => False.elim⟩

/-- An answer depends on the totals of the entry's components only. -/
theorem Entry.answer_congr {third : Int} {totals other : Fin 3 → F} {entry : Entry}
    (hsame : ∀ i ∈ entry.components, totals i = other i) :
    entry.answer o d third totals = entry.answer o d third other := by
  cases entry with
  | computeValue =>
      unfold Entry.answer
      simp only [hsame 0 (by decide), hsame 1 (by decide)]
  | computeValueShown =>
      unfold Entry.answer
      simp only [hsame 0 (by decide), hsame 1 (by decide), hsame 2 (by decide)]

/-- `alone` has had the calls of `entry` only: the block of the entry is the same in both, unless it
was spoilt. -/
structure Same (n : Nat) (m : F) (o d : Int) (entry : Entry) (phases : Phases)
    (current alone : AverageComputerForService F) : Prop where
  fits : Fits n m o d current
  fitsAlone : Fits n m o d alone
  below : phases.Below n
  counts : current.count = phases.count
  count : alone.count entry = phases.count entry
  rows : phases.spoilt entry = false → ∀ i ∈ entry.components,
    (current.averageArray.take (phases.count entry)).map (· i) =
      (alone.averageArray.take (phases.count entry)).map (· i)

section

variable {phases : Phases} {current alone : AverageComputerForService F} {made : Call F}

theorem Same.own (hsame : Same n m o d made.entry phases current alone) (hpos : 0 < n)
    (hunspoilt : phases.Unspoilt n made.entry) :
    ∃ answer next aloneNext, current.perform made = .ok (answer, next) ∧
      alone.perform made = .ok (answer, aloneNext) ∧ answer.entry = made.entry ∧
      Same n m o d made.entry (phases.advance n made.entry) next aloneNext := by
  have hlt : current.count made.entry < n := hsame.counts ▸ hsame.below made.entry
  have hltAlone : alone.count made.entry < n := hsame.count ▸ hsame.below made.entry
  obtain ⟨row, answer, next, hperform, hrow, hmakes⟩ := hsame.fits.exists_makes made hlt
  obtain ⟨other, answer', aloneNext, hperform', hother, hmakes'⟩ :=
    hsame.fitsAlone.exists_makes made hltAlone
  have hcount : current.count made.entry = phases.count made.entry := congrFun hsame.counts _
  have hcount' := hsame.count
  have hcounts := hmakes.count_eq hsame.counts
  have hcountsAlone : aloneNext.count made.entry =
      (phases.advance n made.entry).count made.entry := by
    rw [hmakes'.own, hcount', Phases.advance_count_self]
  -- The new row belongs to the block, and is the same in both.
  have hstored (hclean : phases.spoilt made.entry = false) : ∀ i ∈ made.entry.components,
      ((current.averageArray.set (phases.count made.entry) row).take
          (phases.count made.entry + 1)).map (· i) =
        ((alone.averageArray.set (phases.count made.entry) other).take
          (phases.count made.entry + 1)).map (· i) := by
    intro i hi
    have hin : phases.count made.entry < current.averageArray.length := by
      rw [hsame.fits.length]
      exact hsame.below made.entry
    have hin' : phases.count made.entry < alone.averageArray.length := by
      rw [hsame.fitsAlone.length]
      exact hsame.below made.entry
    rw [map_take_set_succ hin, map_take_set_succ hin', hsame.rows hclean i hi,
      hrow.eq_on hother i hi]
  by_cases hlast : phases.count made.entry + 1 = n
  · obtain ⟨hanswer, -⟩ := hmakes.completes (hcount ▸ hlast)
    obtain ⟨hanswer', -⟩ := hmakes'.completes (hcount' ▸ hlast)
    have hequal : answer = answer' := by
      rw [hanswer, hanswer', hcount, hcount']
      refine Entry.answer_congr fun i hi => total_congr ?_
      have hcolumn := hstored (hunspoilt hlast) i hi
      rw [hlast, List.take_of_length_le (hsame.fits.length_set _ _).le,
        List.take_of_length_le (hsame.fitsAlone.length_set _ _).le] at hcolumn
      exact hcolumn
    refine ⟨answer, next, aloneNext, hperform, hequal ▸ hperform', hmakes.kind, hmakes.fits,
      hmakes'.fits, hsame.below.advance hpos _, hcounts, hcountsAlone, fun _ i _ => ?_⟩
    rw [Phases.advance_count_self, if_pos hlast, List.take_zero, List.take_zero]
  · obtain ⟨hanswer, harray⟩ := hmakes.waits (hcount ▸ hlast)
    obtain ⟨hanswer', harray'⟩ := hmakes'.waits (hcount' ▸ hlast)
    refine ⟨answer, next, aloneNext, hperform, hanswer.trans hanswer'.symm ▸ hperform',
      hmakes.kind, hmakes.fits, hmakes'.fits, hsame.below.advance hpos _, hcounts, hcountsAlone,
      fun hclean i hi => ?_⟩
    rw [Phases.advance_spoilt_self, if_neg hlast] at hclean
    rw [Phases.advance_count_self, if_neg hlast, harray, harray', hcount, hcount']
    exact hstored hclean i hi

theorem Same.other {entry : Entry} (hsame : Same n m o d entry phases current alone) (hpos : 0 < n)
    (hne : made.entry ≠ entry) :
    ∃ answer next, current.perform made = .ok (answer, next) ∧ answer.entry ≠ entry ∧
      Same n m o d entry (phases.advance n made.entry) next alone := by
  have hlt : current.count made.entry < n := hsame.counts ▸ hsame.below made.entry
  obtain ⟨row, answer, next, hperform, -, hmakes⟩ := hsame.fits.exists_makes made hlt
  refine ⟨answer, next, hperform, hmakes.kind ▸ hne, hmakes.fits, hsame.fitsAlone,
    hsame.below.advance hpos _, hmakes.count_eq hsame.counts, ?_, fun hclean => ?_⟩
  · rw [Phases.advance_count_of_ne hne.symm, hsame.count]
  · rw [Phases.advance_spoilt_of_ne hne.symm, Bool.or_eq_false_iff] at hclean
    rw [Phases.advance_count_of_ne hne.symm,
      hmakes.take_eq hsame.counts (of_decide_eq_false hclean.2)]
    exact hsame.rows hclean.1

end

/-! ### Interleavings -/

/-- Each entry answers its calls as if they were the only ones. -/
def Independent {State : Type}
    (perform : State → Call F → Except JavaException (Answer F × State)) (fresh : State)
    (calls : List (Call F)) : Prop :=
  ∃ answers final, outputs perform fresh calls = .ok (answers, final) ∧
    ∀ entry : Entry, ∃ left, outputs perform fresh (calls.filter (·.entry = entry)) =
      .ok (answers.filter (·.entry = entry), left)

theorem fits_create (hcreate : create (n : Int) m o d = .ok computer) :
    Fits n m o d computer ∧ computer.count = (fun _ => 0) ∧
      ∀ row ∈ computer.averageArray, row = fun _ => 0 := by
  have hnonneg : ¬ (n : Int) < 0 := not_lt.mpr (Int.natCast_nonneg n)
  unfold create newArray at hcreate
  rw [if_neg hnonneg] at hcreate
  obtain rfl := Except.ok.inj hcreate
  refine ⟨⟨rfl, rfl, rfl, rfl, List.length_replicate, rfl⟩, ?_, fun row hrow => ?_⟩
  · funext entry
    cases entry <;> rfl
  · exact List.eq_of_mem_replicate hrow

theorem independent_of_blocksKept (hpos : 1 ≤ n) (hcreate : create (n : Int) m o d = .ok computer)
    {calls : List (Call F)} (hkept : BlocksKept n (calls.map Call.entry)) :
    Independent perform computer calls := by
  obtain ⟨hfits, hcounts, -⟩ := fits_create hcreate
  have hentry (entry : Entry) : ∃ answers final left,
      outputs perform computer calls = .ok (answers, final) ∧
        outputs perform computer (calls.filter (·.entry = entry)) =
          .ok (answers.filter (·.entry = entry), left) ∧
        Same n m o d entry ((calls.map Call.entry).foldl (Phases.advance n) {}) final left := by
    have hstart : Same n m o d entry {} computer computer :=
      ⟨hfits, hfits, fun _ => hpos, hcounts, congrFun hcounts entry, fun _ _ _ => rfl⟩
    refine exists_outputs_filter (Same n m o d entry) hstart ?_ ?_ hkept
    · rintro phases current alone made hsame rfl hunspoilt
      exact hsame.own hpos hunspoilt
    · intro phases current alone made hsame hne
      exact hsame.other hpos hne
  obtain ⟨answers, final, -, hanswers, -⟩ := hentry .computeValue
  refine ⟨answers, final, hanswers, fun entry => ?_⟩
  obtain ⟨answers', final', left, hanswers', hfiltered, -⟩ := hentry entry
  obtain ⟨rfl, -⟩ := Prod.mk.inj (Except.ok.inj (hanswers.symm.trans hanswers'))
  exact ⟨left, hfiltered⟩

/-! ### A block that is spoilt

Nothing of the calls but their order is given. The entry whose block is spoilt gets zeros, the other
one ones. Alone the entry answers with zeros, and a spoilt block has a sum of one at least.
-/

def Entry.call (x : ℚ) : Entry → Call ℚ
  | .computeValue => .computeValue x x
  | .computeValueShown => .computeValueShown x x x

@[simp]
theorem Entry.entry_call (x : ℚ) (entry : Entry) : (entry.call x).entry = entry := by
  cases entry <;> rfl

/-- The call of `entry` by which a spoilt block of `victim` is seen. -/
def marked (victim entry : Entry) : Call ℚ := entry.call (if entry = victim then 0 else 1)

theorem map_marked (victim : Entry) (entries : List Entry) :
    (entries.map (marked victim)).map Call.entry = entries := by
  rw [List.map_map]
  refine (List.map_congr_left fun entry _ => ?_).trans (List.map_id entries)
  exact Entry.entry_call _ entry

theorem Stores.first {x : ℚ} {entry : Entry} {row : Row ℚ} (hrow : (entry.call x).Stores 1 row) :
    row 0 = x := by
  cases entry with
  | computeValue => exact (Prod.mk.inj hrow).1.trans (mul_one x)
  | computeValueShown => exact (Prod.mk.inj hrow).1.trans (mul_one x)

theorem Entry.sum_one (entry : Entry) (total : ℚ) : entry.sum 1 1 total = total := by
  cases entry with
  | computeValue => rfl
  | computeValueShown => simp [Entry.sum]

def Answer.Zero : Answer ℚ → Prop
  | .returned values => ∀ found, values = some found → found 0 = 0
  | .shown text => ∀ found, text = some found → found.1 = 0

theorem Entry.zero_silent (entry : Entry) : (entry.silent : Answer ℚ).Zero := by
  cases entry with
  | computeValue => exact fun found hfound => absurd hfound.symm (Option.some_ne_none found)
  | computeValueShown => exact fun found hfound => absurd hfound.symm (Option.some_ne_none found)

theorem Entry.zero_answer {third : Int} {totals : Fin 3 → ℚ} (entry : Entry)
    (hzero : totals 0 = 0) : (entry.answer 1 1 third totals).Zero := by
  cases entry with
  | computeValue =>
      intro found hfound
      obtain rfl := Option.some.inj hfound
      change AverageComputerForService.answer 1 1 (totals 0) = 0
      rw [hzero]
      decide +kernel
  | computeValueShown =>
      intro found hfound
      obtain rfl := Option.some.inj hfound
      change totals 0 * _ * _ = 0
      rw [hzero, zero_mul, zero_mul]

theorem Entry.not_zero_answer {third : Int} {totals : Fin 3 → ℚ} (entry : Entry)
    (hone : 1 ≤ totals 0) : ¬ (entry.answer 1 1 third totals).Zero := by
  intro hzero
  cases entry with
  | computeValue =>
      have hanswer : saturate (trunc (totals 0 * ((1 : Int) : ℚ) * ((1 : Int) : ℚ))) = 0 :=
        hzero _ rfl
      have htrunc : 1 ≤ trunc (totals 0) := by
        unfold trunc
        rw [if_pos (by linarith)]
        exact Int.le_floor.mpr (by exact_mod_cast hone)
      rw [Int.cast_one, mul_one, mul_one] at hanswer
      unfold saturate minInt maxInt at hanswer
      omega
  | computeValueShown =>
      have hanswer : totals 0 * ((1 : Int) : ℚ) * ((1 : Int) : ℚ) = 0 := hzero _ rfl
      rw [Int.cast_one, mul_one, mul_one] at hanswer
      linarith

section

variable {array : List (Row ℚ)}

theorem total_eq_sum (i : Fin 3) : total array i = (array.map (· i)).sum := blockSum_rat _

theorem total_nonneg (hnonneg : ∀ row ∈ array, 0 ≤ row 0) : 0 ≤ total array 0 := by
  rw [total_eq_sum]
  refine List.sum_nonneg fun value hvalue => ?_
  obtain ⟨row, hrow, rfl⟩ := List.mem_map.mp hvalue
  exact hnonneg row hrow

theorem le_total (hnonneg : ∀ row ∈ array, 0 ≤ row 0) {row : Row ℚ} (hrow : row ∈ array) :
    row 0 ≤ total array 0 := by
  rw [total_eq_sum]
  refine List.single_le_sum (fun value hvalue => ?_) _ (List.mem_map_of_mem hrow)
  obtain ⟨other, hother, rfl⟩ := List.mem_map.mp hvalue
  exact hnonneg other hother

theorem total_eq_zero (hzero : ∀ row ∈ array, row 0 = 0) : total array 0 = 0 := by
  rw [total_eq_sum]
  refine List.sum_eq_zero fun value hvalue => ?_
  obtain ⟨row, hrow, rfl⟩ := List.mem_map.mp hvalue
  exact hzero row hrow

end

/-- The interleaved averager: where the victim's block is spoilt, one of its rows shows it. -/
structure Marked (n : Nat) (victim : Entry) (phases : Phases)
    (current : AverageComputerForService ℚ) : Prop where
  fits : Fits n 1 1 1 current
  below : phases.Below n
  counts : current.count = phases.count
  nonneg : ∀ row ∈ current.averageArray, 0 ≤ row 0
  mark : phases.spoilt victim = true →
    ∃ row ∈ current.averageArray.take (phases.count victim), 1 ≤ row 0

section

variable {victim entry : Entry} {phases : Phases} {current : AverageComputerForService ℚ}
  {row : Row ℚ} {answer : Answer ℚ} {next : AverageComputerForService ℚ}

/-- A row stored below the end of what is taken is taken. -/
theorem mem_take_set {array : List (Row ℚ)} {index length : Nat} (hindex : index < length)
    (hlength : length ≤ array.length) (row : Row ℚ) : row ∈ (array.set index row).take length := by
  have hget : ((array.set index row).take length)[index]? = some row := by
    rw [List.getElem?_take_of_lt hindex]
    exact List.getElem?_set_self (hindex.trans_le hlength)
  exact List.mem_of_getElem? hget

/-- The other entry's ones stay in the rows they spoil, and in the sum of them. -/
theorem Marked.mark_of_overwrites (hmarked : Marked n victim phases current) (hrow : 1 ≤ row 0)
    (hmakes : Makes n 1 1 1 entry row current answer next)
    (hover : phases.Overwrites n entry victim) :
    ∃ other ∈ next.averageArray.take (phases.count victim), 1 ≤ other 0 := by
  have hcount : current.count entry = phases.count entry := congrFun hmarked.counts entry
  have hlength : phases.count victim ≤ current.averageArray.length := by
    rw [hmarked.fits.length]
    exact (hmarked.below victim).le
  by_cases hlast : current.count entry + 1 = n
  · -- The sum stands in row 0, and the victim's block has begun.
    obtain ⟨-, sums, hsum, harray⟩ := hmakes.completes hlast
    have hbegun : 0 < phases.count victim := by
      rcases hover with hlater | ⟨-, hbegun⟩
      · exact (Nat.zero_le _).trans_lt hlater
      · exact hbegun
    have hin : row ∈ current.averageArray.set (current.count entry) row := by
      refine List.mem_set ?_ row
      rw [hmarked.fits.length]
      omega
    refine ⟨sums, ?_, ?_⟩
    · rw [harray]
      refine mem_take_set hbegun ?_ sums
      rwa [List.length_set]
    · rw [hsum, Entry.sum_one]
      exact hrow.trans (le_total
        (forall_row_set hmarked.nonneg (zero_le_one.trans hrow) (current.count entry)) hin)
  · have hlater : current.count entry < phases.count victim := by
      rcases hover with hlater | ⟨hlast', -⟩
      · exact hcount ▸ hlater
      · exact absurd (hcount ▸ hlast') hlast
    rw [(hmakes.waits hlast).2]
    exact ⟨row, mem_take_set hlater hlength row, hrow⟩

theorem Marked.perform (hmarked : Marked n victim phases current) (hpos : 0 < n) (entry : Entry) :
    ∃ answer next, current.perform (marked victim entry) = .ok (answer, next) ∧
      answer.entry = entry ∧ Marked n victim (phases.advance n entry) next ∧
      (entry = victim → ¬ phases.Unspoilt n entry → ¬ answer.Zero) := by
  have hentry : (marked victim entry).entry = entry := Entry.entry_call _ entry
  have hlt : current.count (marked victim entry).entry < n := by
    rw [hentry, hmarked.counts]
    exact hmarked.below entry
  obtain ⟨row, answer, next, hperform, hstores, hmakes⟩ := hmarked.fits.exists_makes _ hlt
  rw [hentry] at hmakes
  have hrow : row 0 = if entry = victim then 0 else 1 := Stores.first hstores
  have hnonneg : 0 ≤ row 0 := by
    rw [hrow]
    split
    · exact le_rfl
    · exact zero_le_one
  have hcount : current.count entry = phases.count entry := congrFun hmarked.counts entry
  refine ⟨answer, next, hperform, hmakes.kind,
    ⟨hmakes.fits, hmarked.below.advance hpos entry, hmakes.count_eq hmarked.counts,
      hmakes.forall_mem hmarked.nonneg hnonneg ?_, fun hspoilt => ?_⟩, ?_⟩
  · intro stored hstored sums hsum
    rw [hsum, Entry.sum_one]
    exact total_nonneg hstored
  · by_cases hown : victim = entry
    · subst hown
      rw [Phases.advance_spoilt_self] at hspoilt
      rw [Phases.advance_count_self]
      by_cases hlast : phases.count victim + 1 = n
      · rw [if_pos hlast] at hspoilt
        cases hspoilt
      · rw [if_neg hlast] at hspoilt ⊢
        obtain ⟨other, hother, hone⟩ := hmarked.mark hspoilt
        refine ⟨other, ?_, hone⟩
        rw [(hmakes.waits (hcount ▸ hlast)).2, hcount]
        refine List.take_subset_take_left _ (Nat.le_succ _) ?_
        rwa [List.take_set_of_le le_rfl]
    · rw [Phases.advance_count_of_ne hown]
      rw [Phases.advance_spoilt_of_ne hown, Bool.or_eq_true_iff] at hspoilt
      by_cases hover : phases.Overwrites n entry victim
      · refine hmarked.mark_of_overwrites ?_ hmakes hover
        rw [hrow, if_neg (Ne.symm hown)]
      · rw [hmakes.take_eq hmarked.counts hover]
        exact hmarked.mark (hspoilt.resolve_right fun hyes => hover (of_decide_eq_true hyes))
  · rintro rfl hspoilt
    obtain ⟨hlast, hspoilt⟩ := Classical.not_imp.mp hspoilt
    obtain ⟨other, hother, hone⟩ := hmarked.mark (eq_true_of_ne_false hspoilt)
    obtain ⟨hanswer, -⟩ := hmakes.completes (hcount ▸ hlast)
    rw [hanswer]
    refine entry.not_zero_answer (hone.trans ?_)
    refine le_total (forall_row_set hmarked.nonneg hnonneg _) ?_
    rw [hcount]
    rw [← List.take_set_of_le le_rfl] at hother
    exact List.mem_of_mem_take hother

end

/-- The interleaved run up to the call that shows the spoilt block. -/
theorem exists_marked_run {computer : AverageComputerForService ℚ} (hpos : 1 ≤ n)
    (hcreate : create (n : Int) (1 : ℚ) 1 1 = .ok computer) (victim : Entry)
    (entries : List Entry) :
    ∃ answers current, outputs perform computer (entries.map (marked victim)) =
        .ok (answers, current) ∧
      Marked n victim (entries.foldl (Phases.advance n) {}) current := by
  obtain ⟨hfits, hcounts, hfresh⟩ := fits_create hcreate
  have hnonneg : ∀ row ∈ computer.averageArray, 0 ≤ row 0 := fun row hrow => by
    rw [hfresh row hrow]
  have hstart : Marked n victim {} computer :=
    ⟨hfits, fun _ => hpos, hcounts, hnonneg, fun hspoilt => absurd hspoilt Bool.false_ne_true⟩
  obtain ⟨answers, current, hanswers, hmarked, -⟩ :=
    exists_outputs (fun made => ∃ entry, made = marked victim entry)
      (fun past current =>
        Marked n victim ((past.map Call.entry).foldl (Phases.advance n) {}) current)
      (fun _ _ _ => True) hstart
      (fun past current made hmade hcurrent => by
        obtain ⟨entry, rfl⟩ := hmade
        obtain ⟨answer, next, hperform, -, hnext, -⟩ := hcurrent.perform hpos entry
        refine ⟨answer, next, hperform, ?_, trivial⟩
        have hentry : [marked victim entry].map Call.entry = [entry] := map_marked victim [entry]
        rw [List.map_append, List.foldl_append, hentry]
        exact hnext)
      (fun made hmade => by
        obtain ⟨entry, -, rfl⟩ := List.mem_map.mp hmade
        exact ⟨entry, rfl⟩)
  rw [map_marked] at hmarked
  exact ⟨answers, current, hanswers, hmarked⟩

/-- The averager that one entry has only given zeros. -/
structure Blank (n : Nat) (entry : Entry) (current : AverageComputerForService ℚ) : Prop where
  fits : Fits n 1 1 1 current
  below : current.count entry < n
  zero : ∀ row ∈ current.averageArray, row 0 = 0

theorem Blank.perform {entry : Entry} {current : AverageComputerForService ℚ}
    (hblank : Blank n entry current) :
    ∃ answer next, current.perform (entry.call 0) = .ok (answer, next) ∧ Blank n entry next ∧
      answer.Zero := by
  have hentry : (entry.call 0).entry = entry := Entry.entry_call 0 entry
  obtain ⟨row, answer, next, hperform, hstores, hmakes⟩ :=
    hblank.fits.exists_makes (entry.call 0) (hentry.symm ▸ hblank.below)
  rw [hentry] at hmakes
  have hrow : row 0 = 0 := Stores.first hstores
  refine ⟨answer, next, hperform,
    ⟨hmakes.fits, hmakes.count_lt hblank.below, hmakes.forall_mem hblank.zero hrow ?_⟩, ?_⟩
  · intro stored hstored sums hsum
    rw [hsum, Entry.sum_one]
    exact total_eq_zero hstored
  · by_cases hlast : current.count entry + 1 = n
    · obtain ⟨hanswer, -⟩ := hmakes.completes hlast
      rw [hanswer]
      exact entry.zero_answer (total_eq_zero (forall_row_set hblank.zero hrow _))
    · rw [(hmakes.waits hlast).1]
      exact entry.zero_silent

/-- Alone, an entry that is given zeros answers with zeros. -/
theorem zero_of_alone {computer : AverageComputerForService ℚ} (hpos : 1 ≤ n)
    (hcreate : create (n : Int) (1 : ℚ) 1 1 = .ok computer) {entry : Entry} {calls : List (Call ℚ)}
    (hcalls : ∀ made ∈ calls, made = entry.call 0) {answers : List (Answer ℚ)}
    {left : AverageComputerForService ℚ}
    (hanswers : outputs perform computer calls = .ok (answers, left)) :
    ∀ answer ∈ answers, answer.Zero := by
  obtain ⟨hfits, hcounts, hfresh⟩ := fits_create hcreate
  have hstart : Blank n entry computer :=
    ⟨hfits, (congrFun hcounts entry).trans_lt hpos, fun row hrow => by rw [hfresh row hrow]⟩
  obtain ⟨answers', left', hanswers', -, hcount, hright⟩ :=
    exists_outputs (fun made => made = entry.call 0) (fun _ current => Blank n entry current)
      (fun _ _ (answer : Answer ℚ) => answer.Zero) hstart
      (fun past current made hmade hcurrent => by
        obtain ⟨answer, next, hperform, hnext, hzero⟩ := hcurrent.perform
        exact ⟨answer, next, hmade ▸ hperform, hnext, hzero⟩) hcalls
  obtain ⟨rfl, -⟩ := Prod.mk.inj (Except.ok.inj (hanswers.symm.trans hanswers'))
  intro answer hanswer
  obtain ⟨k, hk, hget⟩ := List.mem_iff_getElem.mp hanswer
  obtain ⟨result, hresult, hzero⟩ := hright k (hcount ▸ hk)
  rw [List.getElem?_eq_getElem hk, hget] at hresult
  exact Option.some.inj hresult ▸ hzero

theorem exists_not_independent {computer : AverageComputerForService ℚ} (hpos : 1 ≤ n)
    (hcreate : create (n : Int) (1 : ℚ) 1 1 = .ok computer) {entries : List Entry}
    (hspoilt : ¬ BlocksKept n entries) :
    ∃ victim, ¬ Independent perform computer (entries.map (marked victim)) := by
  obtain ⟨before, victim, after, phases, rfl, hphases, hshown⟩ :
      ∃ before victim after phases, entries = before ++ victim :: after ∧
        run (fun phases entry => some (Phases.advance n phases entry)) {} before = some phases ∧
        ¬ phases.Unspoilt n victim := by
    simpa only [BlocksKept, StepsAlong, not_forall, exists_prop] using hspoilt
  obtain rfl := Option.some.inj ((run_total (Phases.advance n) {} before).symm.trans hphases)
  obtain ⟨answers, current, hanswers, hmarked⟩ := exists_marked_run hpos hcreate victim before
  obtain ⟨answer, next, hperform, hentry, -, hnotZero⟩ := hmarked.perform hpos victim
  refine ⟨victim, fun hindependent => ?_⟩
  obtain ⟨all, final, hall, halone⟩ := hindependent
  -- The answer that shows the spoilt block is one of the answers of the run.
  rw [List.map_append, List.map_cons, List.append_cons] at hall
  obtain ⟨earlier, middle, hearlier, hprefix⟩ := outputs_prefix hall
  obtain ⟨rfl, -⟩ := Prod.mk.inj (Except.ok.inj
    ((outputs_concat hanswers hperform).symm.trans hearlier))
  have hin : answer ∈ all := hprefix.subset (List.mem_concat_self)
  obtain ⟨left, hfiltered⟩ := halone victim
  have hzeros : ∀ made ∈ ((before ++ victim :: after).map (marked victim)).filter
      (·.entry = victim), made = victim.call 0 := by
    intro made hmade
    obtain ⟨hmapped, htag⟩ := List.mem_filter.mp hmade
    obtain ⟨entry, -, rfl⟩ := List.mem_map.mp hmapped
    have hvictim : entry = victim := (Entry.entry_call _ entry).symm.trans (of_decide_eq_true htag)
    unfold marked
    rw [if_pos hvictim, hvictim]
  exact hnotZero rfl hshown (zero_of_alone hpos hcreate hzeros hfiltered answer
    (List.mem_filter.mpr ⟨hin, decide_eq_true hentry⟩))

end AverageComputerForService

/-! ### The averager of the settings screen -/

namespace AverageComputer

open PrefsEnum AverageComputerForService

variable {F : Type} [JavaFloat F]

def perform (computer : AverageComputer F) :
    Call F → Except JavaException (Answer F × AverageComputer F)
  | .computeValue x y => do
      let (values, next) ← computer.computeValue x y
      pure (.returned values, next)
  | .computeValueShown x y z => do
      let (text, next) ← computer.computeValueShown x y z
      pure (.shown text, next)

theorem perform_eq (threshold : F) (service : AverageComputerForService F) (made : Call F) :
    perform ⟨service, threshold⟩ made =
      (service.perform made).map (Prod.map id fun next => ⟨next, threshold⟩) := by
  cases made with
  | computeValue x y =>
      change (service.computeValue x y >>= _) >>= _ = Except.map _ (service.computeValue x y >>= _)
      cases service.computeValue x y with
      | error thrown => rfl
      | ok result => rfl
  | computeValueShown x y z =>
      change (service.computeValueShown x y z >>= _) >>= _ =
        Except.map _ (service.computeValueShown x y z >>= _)
      cases service.computeValueShown x y z with
      | error thrown => rfl
      | ok result => rfl

theorem independent_iff (threshold : F) (service : AverageComputerForService F)
    (calls : List (Call F)) :
    Independent perform ⟨service, threshold⟩ calls ↔
      Independent AverageComputerForService.perform service calls := by
  have hembed {made : List (Call F)} {answers : List (Answer F)} :=
    @exists_outputs_embed _ _ _ _ _ _ perform _ (perform_eq threshold) service made answers
  unfold Independent
  simp only [exists_and_right, hembed]

theorem create_eq_ok {sharedPrefs : SharedPrefs F} {computer : AverageComputer F} :
    create sharedPrefs = .ok computer ↔
      ∃ service, AverageComputerForService.create (getAverageNum sharedPrefs)
          (getMagnification sharedPrefs) (getOffset sharedPrefs) (getDirection sharedPrefs) =
            .ok service ∧
        computer = ⟨service, getThreshold sharedPrefs⟩ := by
  unfold create
  constructor
  · intro hcreate
    obtain ⟨service, hservice, hcomputer⟩ := bind_eq_ok.mp hcreate
    exact ⟨service, hservice, (Except.ok.inj hcomputer).symm⟩
  · rintro ⟨service, hservice, rfl⟩
    rw [hservice]
    rfl

end AverageComputer

namespace AverageComputerForService

/-- **The shared array.** In an order of calls the two entries are independent, whatever the
samples, the settings and the arithmetic, exactly if no block is completed after it was spoilt. -/
theorem entries_independent_iff {n : Nat} (hpos : 1 ≤ n) (entries : List Entry) :
    ((∀ (F : Type) [JavaFloat F] (m : F) (o d : Int) (computer : AverageComputerForService F)
        (calls : List (Call F)), create (n : Int) m o d = .ok computer →
        calls.map Call.entry = entries → Independent perform computer calls) ↔
      BlocksKept n entries) ∧
    ((∀ (F : Type) [JavaFloat F] (sharedPrefs : SharedPrefs F) (computer : AverageComputer F)
        (calls : List (Call F)), PrefsEnum.getAverageNum sharedPrefs = n →
        AverageComputer.create sharedPrefs = .ok computer → calls.map Call.entry = entries →
        Independent AverageComputer.perform computer calls) ↔
      BlocksKept n entries) := by
  obtain ⟨service, hservice⟩ := exists_create n (1 : ℚ) 1 1
  refine ⟨⟨fun hall => ?_, ?_⟩, ⟨fun hall => ?_, ?_⟩⟩
  · by_contra hspoilt
    obtain ⟨victim, hnot⟩ := exists_not_independent hpos hservice hspoilt
    exact hnot (hall ℚ 1 1 1 service _ hservice (map_marked victim entries))
  · rintro hkept F _ m o d computer calls hcreate rfl
    exact independent_of_blocksKept hpos hcreate hkept
  · by_contra hspoilt
    obtain ⟨victim, hnot⟩ := exists_not_independent hpos hservice hspoilt
    refine hnot ((AverageComputer.independent_iff 0 service _).mp ?_)
    exact hall ℚ ⟨n, 1, 1, true, 0⟩ _ _ rfl
      (AverageComputer.create_eq_ok.mpr ⟨service, hservice, rfl⟩) (map_marked victim entries)
  · rintro hkept F _ sharedPrefs computer calls hnum hcreate rfl
    obtain ⟨inner, hinner, rfl⟩ := AverageComputer.create_eq_ok.mp hcreate
    rw [hnum] at hinner
    exact (AverageComputer.independent_iff _ inner calls).mpr
      (independent_of_blocksKept hpos hinner hkept)

/-- A text of two samples, an answer to two more, and a block that is not completed. -/
theorem entries_independent_iff_two :
    1 ≤ 2 ∧ ∃ computer, create (2 : Nat) (1 / 2 : ℚ) 10 (-1) = .ok computer ∧
      Independent perform computer [.computeValueShown 1 2 3, .computeValueShown 4 5 6,
        .computeValue 7 8, .computeValue 9 10, .computeValueShown 11 12 13] := by
  obtain ⟨computer, hcreate⟩ := exists_create 2 (1 / 2 : ℚ) 10 (-1)
  exact ⟨by decide, computer, hcreate, (entries_independent_iff (by decide) _).1.mpr (by decide) ℚ
    (1 / 2) 10 (-1) computer _ hcreate rfl⟩

def Answer.first : Answer ℚ → Option Int
  | .returned values => values.map (· 0)
  | .shown _ => none

/-- The row of the first sample is overwritten before the second one completes the block: the answer
is 11 and not 2. -/
theorem entries_disturb :
    ¬ ∀ (n : Nat) (m : ℚ) (o d : Int) (computer : AverageComputerForService ℚ)
        (calls : List (Call ℚ)), 1 ≤ n → create (n : Int) m o d = .ok computer →
      Independent perform computer calls := by
  intro hclaim
  obtain ⟨computer, hcreate, hrun, hrunAlone⟩ : ∃ computer,
      create (2 : Nat) (1 : ℚ) 1 1 = .ok computer ∧
      (outputs perform computer [.computeValue 1 0, .computeValueShown 10 0 0,
        .computeValue 1 0]).toOption.map (fun result => result.1.map Answer.first) =
          some [none, none, some 11] ∧
      (outputs perform computer [.computeValue 1 0, .computeValue 1 0]).toOption.map
        (fun result => result.1.map Answer.first) = some [none, some 2] :=
    ⟨_, rfl, by decide +kernel, by decide +kernel⟩
  obtain ⟨answers, final, hanswers, halone⟩ := hclaim 2 1 1 1 computer
    [.computeValue 1 0, .computeValueShown 10 0 0, .computeValue 1 0] (by decide) hcreate
  obtain ⟨left, hleft⟩ := halone .computeValue
  rw [hanswers] at hrun
  have hfirsts : answers.map Answer.first = [none, none, some 11] := Option.some.inj hrun
  have hmem : some 11 ∈ answers.map Answer.first := by
    rw [hfirsts]
    decide
  obtain ⟨answer, hanswer, hfirst⟩ := List.mem_map.mp hmem
  have hentry : answer.entry = .computeValue := by
    cases answer with
    | returned values => rfl
    | shown text => cases hfirst
  change outputs perform computer [.computeValue 1 0, .computeValue 1 0] = _ at hleft
  rw [hleft] at hrunAlone
  have hfirstsAlone : (answers.filter (·.entry = .computeValue)).map Answer.first =
      [none, some 2] := Option.some.inj hrunAlone
  have hmemAlone : some 11 ∈ (answers.filter (·.entry = .computeValue)).map Answer.first :=
    List.mem_map.mpr ⟨answer, List.mem_filter.mpr ⟨hanswer, decide_eq_true hentry⟩, hfirst⟩
  rw [hfirstsAlone] at hmemAlone
  exact absurd hmemAlone (by decide)

end AverageComputerForService

end SensorMouse
