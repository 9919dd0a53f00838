import Mathlib.Data.List.Induction

/-!
# Bounded scans

A scan reads items one after another and stops at the first that `test` answers. It reads fewer than
`limit` of them: the `limit`-th only ends it, whatever that item holds.
-/

namespace SensorMouse.Lib

inductive ScanState (Answer : Type*) where
  | reading
  | hit (answer : Answer)
  | spent

namespace ScanState

variable {Item Answer : Type*}

/-- The state after one more item, `seen` of them having been read before. -/
def next (limit : Nat) (test : Item → Option Answer) (seen : Nat) (item : Item) :
    ScanState Answer :=
  if seen + 1 < limit then
    match test item with
    | some answer => hit answer
    | none => reading
  else spent

section

variable {limit seen : Nat} {test : Item → Option Answer} {item : Item}

theorem next_none (hlt : seen + 1 < limit) (htest : test item = none) :
    next limit test seen item = reading := by
  simp [next, hlt, htest]

theorem next_some (hlt : seen + 1 < limit) {answer : Answer} (htest : test item = some answer) :
    next limit test seen item = hit answer := by
  simp [next, hlt, htest]

theorem next_spent (hlimit : ¬ seen + 1 < limit) : next limit test seen item = spent := by
  simp [next, hlimit]

end

def isReading : ScanState Answer → Bool
  | reading => true
  | _ => false

theorem eq_reading_of_isReading {state : ScanState Answer} (hreading : state.isReading) :
    state = reading := by
  cases state with
  | reading => rfl
  | hit answer => cases hreading
  | spent => cases hreading

def answers : ScanState Answer → List Answer
  | hit answer => [answer]
  | _ => []

end ScanState

variable {Item Answer : Type*} {limit : Nat} {test : Item → Option Answer}

/-- A scan that has been given exactly `seen` is in this state. -/
inductive Scanned (limit : Nat) (test : Item → Option Answer) :
    List Item → ScanState Answer → Prop where
  | start : Scanned limit test [] .reading
  | read {seen : List Item} (hseen : Scanned limit test seen .reading) (item : Item) :
      Scanned limit test (seen ++ [item]) (ScanState.next limit test seen.length item)

namespace Scanned

/-- As long as it reads, it has found nothing and is below its limit. -/
theorem of_reading (hlimit : 0 < limit) {seen : List Item} {state : ScanState Answer}
    (hscanned : Scanned limit test seen state) (hreading : state = .reading) :
    seen.length < limit ∧ ∀ item ∈ seen, test item = none := by
  induction hscanned with
  | start => exact ⟨hlimit, by simp⟩
  | read hseen item ih =>
      obtain ⟨-, hnone⟩ := ih rfl
      unfold ScanState.next at hreading
      split_ifs at hreading with hlt
      cases htest : test item with
      | some answer => simp [htest] at hreading
      | none =>
          refine ⟨by simpa using hlt, fun other hother => ?_⟩
          rcases List.mem_append.mp hother with hold | hnew
          · exact hnone other hold
          · rwa [List.mem_singleton.mp hnew]

theorem of_hit (hlimit : 0 < limit) {seen : List Item} {answer : Answer}
    (hscanned : Scanned limit test seen (.hit answer)) :
    ∃ before item, seen = before ++ [item] ∧ seen.length < limit ∧
      (∀ other ∈ before, test other = none) ∧ test item = some answer := by
  generalize hstate : ScanState.hit answer = state at hscanned
  cases hscanned with
  | start => cases hstate
  | @read seen hseen item =>
      obtain ⟨-, hnone⟩ := of_reading hlimit hseen rfl
      unfold ScanState.next at hstate
      split_ifs at hstate with hlt
      cases htest : test item with
      | none => simp [htest] at hstate
      | some found =>
          obtain rfl : answer = found := by simpa [htest] using hstate
          exact ⟨seen, item, rfl, by simpa using hlt, hnone, htest⟩

theorem of_spent (hlimit : 0 < limit) {seen : List Item}
    (hscanned : Scanned limit test seen .spent) :
    seen.length = limit ∧ ∀ item ∈ seen.take (limit - 1), test item = none := by
  generalize hstate : ScanState.spent = state at hscanned
  cases hscanned with
  | start => cases hstate
  | @read seen hseen item =>
      obtain ⟨hbelow, hnone⟩ := of_reading hlimit hseen rfl
      unfold ScanState.next at hstate
      split_ifs at hstate with hlt
      · cases htest : test item <;> simp [htest] at hstate
      · have hlength : seen.length = limit - 1 := by omega
        refine ⟨by simp; omega, ?_⟩
        rwa [← hlength, List.take_left]

theorem length_le (hlimit : 0 < limit) {seen : List Item} {state : ScanState Answer}
    (hscanned : Scanned limit test seen state) : seen.length ≤ limit := by
  cases state with
  | reading => exact Nat.le_of_lt (of_reading hlimit hscanned rfl).1
  | hit answer =>
      obtain ⟨before, item, -, hlt, -⟩ := of_hit hlimit hscanned
      exact Nat.le_of_lt hlt
  | spent => exact Nat.le_of_eq (of_spent hlimit hscanned).1

/-- The first item the test answers, if it comes below the limit, is the last one read and the only
one answered. -/
theorem eq_hit_of_first (hlimit : 0 < limit) {seen : List Item} {state : ScanState Answer}
    (hscanned : Scanned limit test seen state) {index : Nat} {item : Item} {answer : Answer}
    (hindex : index + 1 < limit) (hitem : seen[index]? = some item)
    (hanswer : test item = some answer)
    (hfirst : ∀ earlier other, earlier < index → seen[earlier]? = some other → test other = none) :
    seen.length = index + 1 ∧ state = .hit answer := by
  have hmem : item ∈ seen := List.mem_of_getElem? hitem
  have hbelow : index < seen.length := (List.getElem?_eq_some_iff.mp hitem).1
  cases state with
  | reading =>
      have hnone := (of_reading hlimit hscanned rfl).2 item hmem
      rw [hanswer] at hnone
      cases hnone
  | spent =>
      obtain ⟨hlength, hnone⟩ := of_spent hlimit hscanned
      have htaken : item ∈ seen.take (limit - 1) := by
        refine List.mem_of_getElem? (i := index) ?_
        rwa [List.getElem?_take_of_lt (by omega)]
      rw [hnone item htaken] at hanswer
      cases hanswer
  | hit found =>
      obtain ⟨before, last, rfl, -, hnone, hlast⟩ := of_hit hlimit hscanned
      rw [List.length_append, List.length_singleton] at hbelow ⊢
      have hend : index = before.length := by
        by_contra hne
        have hinit : index < before.length := by omega
        rw [List.getElem?_append_left hinit] at hitem
        rw [hnone item (List.mem_of_getElem? hitem)] at hanswer
        cases hanswer
      subst hend
      obtain rfl : last = item := by simpa using hitem
      obtain rfl : found = answer := Option.some.inj (hlast.symm.trans hanswer)
      exact ⟨rfl, rfl⟩

/-- A scan that has met nothing below its limit has answered nothing, and reads on until it has been
given as many items as its limit says. -/
theorem of_no_hit (hlimit : 0 < limit) {seen : List Item} {state : ScanState Answer}
    (hscanned : Scanned limit test seen state)
    (hnone : ∀ index item, index + 1 < limit → seen[index]? = some item → test item = none) :
    state.answers = [] ∧ (state.isReading = decide (seen.length < limit)) := by
  cases state with
  | reading =>
      have hlt := (of_reading hlimit hscanned rfl).1
      exact ⟨rfl, by simpa [ScanState.isReading] using hlt⟩
  | spent =>
      have hlength := (of_spent hlimit hscanned).1
      exact ⟨rfl, by simp [ScanState.isReading, hlength]⟩
  | hit answer =>
      obtain ⟨before, item, rfl, hlt, -, hitem⟩ := of_hit hlimit hscanned
      have hlast := hnone before.length item (by simpa using hlt) (by simp)
      rw [hlast] at hitem
      cases hitem

end Scanned

end SensorMouse.Lib
