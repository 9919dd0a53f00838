import Mathlib.Data.Finset.Max

/-!
# Delayed work on one thread

A queue of items, each with the time it falls due. Posting appends an entry, taking an entry removes
that one copy, and removing by a test drops every pending copy that meets it. Nothing here says in
which order entries are taken: `IsNext` is the order of a thread that serves earlier due times
first, and a development that does not need it does not mention it.
-/

namespace SensorMouse.Lib

structure Entry (Item : Type) where
  id : Nat
  due : Nat
  item : Item
  deriving DecidableEq, Repr

structure DelayQueue (Item : Type) where
  now : Nat := 0
  nextId : Nat := 0
  pending : List (Entry Item) := []
  deriving DecidableEq, Repr

namespace DelayQueue

variable {Item : Type}

def post (queue : DelayQueue Item) (item : Item) (delay : Nat) : DelayQueue Item :=
  { queue with
    nextId := queue.nextId + 1
    pending := queue.pending ++ [⟨queue.nextId, queue.now + delay, item⟩] }

def remove (queue : DelayQueue Item) (drops : Item → Bool) : DelayQueue Item :=
  { queue with pending := queue.pending.filter fun entry => !drops entry.item }

def take [DecidableEq Item] (queue : DelayQueue Item) (entry : Entry Item) : DelayQueue Item :=
  { queue with pending := queue.pending.erase entry }

def advance (queue : DelayQueue Item) (elapsed : Nat) : DelayQueue Item :=
  { queue with now := queue.now + elapsed }

instance [DecidableEq Item] (queue : DelayQueue Item) (entry : Entry Item) :
    Decidable (entry ∈ queue.pending) :=
  inferInstance

/-- The entry may be served now by a thread that serves earlier due times first. -/
def IsNext (queue : DelayQueue Item) (entry : Entry Item) : Prop :=
  entry ∈ queue.pending ∧ entry.due ≤ queue.now ∧ ∀ other ∈ queue.pending, entry.due ≤ other.due

instance [DecidableEq Item] (queue : DelayQueue Item) (entry : Entry Item) :
    Decidable (queue.IsNext entry) :=
  inferInstanceAs (Decidable (_ ∧ _ ∧ _))

def count (queue : DelayQueue Item) (test : Item → Bool) : Nat :=
  queue.pending.countP fun entry => test entry.item

@[simp]
theorem now_advance (queue : DelayQueue Item) (elapsed : Nat) :
    (queue.advance elapsed).now = queue.now + elapsed := rfl

theorem mem_pending_post {queue : DelayQueue Item} {item : Item} {delay : Nat}
    {entry : Entry Item} :
    entry ∈ (queue.post item delay).pending ↔
      entry ∈ queue.pending ∨ entry = ⟨queue.nextId, queue.now + delay, item⟩ := by
  simp [post]

theorem mem_of_mem_take [DecidableEq Item] {queue : DelayQueue Item} {taken entry : Entry Item}
    (hmem : entry ∈ (queue.take taken).pending) : entry ∈ queue.pending :=
  List.mem_of_mem_erase hmem

theorem mem_take_of_ne [DecidableEq Item] {queue : DelayQueue Item} {taken entry : Entry Item}
    (hmem : entry ∈ queue.pending) (hne : entry ≠ taken) : entry ∈ (queue.take taken).pending :=
  (List.mem_erase_of_ne hne).mpr hmem

/-! ### Counting pending copies -/

@[simp]
theorem count_post (queue : DelayQueue Item) (test : Item → Bool) (item : Item) (delay : Nat) :
    (queue.post item delay).count test = queue.count test + if test item then 1 else 0 := by
  simp [count, post, List.countP_singleton]

theorem count_remove_of_imp (queue : DelayQueue Item) {test drops : Item → Bool}
    (himp : ∀ item, test item → drops item) : (queue.remove drops).count test = 0 := by
  rw [count, List.countP_eq_zero]
  intro entry hentry htest
  have hkept : drops entry.item = false := by
    simpa using (List.mem_filter.mp hentry).2
  rw [himp _ htest] at hkept
  exact Bool.noConfusion hkept

theorem count_remove_of_disjoint (queue : DelayQueue Item) {test drops : Item → Bool}
    (hdisjoint : ∀ item, test item → drops item = false) :
    (queue.remove drops).count test = queue.count test := by
  rw [count, count, remove, List.countP_filter]
  refine List.countP_congr fun entry _ => ?_
  cases htest : test entry.item with
  | false => simp
  | true => simp [hdisjoint _ htest]

theorem count_take [DecidableEq Item] {queue : DelayQueue Item} {entry : Entry Item}
    (hmem : entry ∈ queue.pending) (test : Item → Bool) :
    (queue.take entry).count test + (if test entry.item then 1 else 0) = queue.count test := by
  have hperm := (List.perm_cons_erase hmem).countP_eq fun other => test other.item
  rw [List.countP_cons] at hperm
  exact hperm.symm

theorem count_pos_of_mem {queue : DelayQueue Item} {entry : Entry Item} {test : Item → Bool}
    (hmem : entry ∈ queue.pending) (htest : test entry.item) : 0 < queue.count test :=
  List.countP_pos_iff.mpr ⟨entry, hmem, htest⟩

/-! ### Identities -/

/-- No pending entry has an identity that is still to be given out. -/
def Fresh (queue : DelayQueue Item) : Prop := ∀ entry ∈ queue.pending, entry.id < queue.nextId

theorem fresh_post {queue : DelayQueue Item} (hfresh : queue.Fresh) (item : Item) (delay : Nat) :
    (queue.post item delay).Fresh := by
  intro entry hmem
  rcases mem_pending_post.mp hmem with hold | rfl
  · exact (hfresh entry hold).trans (Nat.lt_succ_self _)
  · exact Nat.lt_succ_self _

theorem fresh_of_subset {queue smaller : DelayQueue Item} (hfresh : queue.Fresh)
    (hnext : smaller.nextId = queue.nextId)
    (hsubset : ∀ entry ∈ smaller.pending, entry ∈ queue.pending) : smaller.Fresh := by
  intro entry hmem
  rw [hnext]
  exact hfresh entry (hsubset entry hmem)

/-! ### Nobody overtakes for ever

An entry is served after the entries due before it, and none of these is posted once its own due time
has come. -/

/-- How many entries are due before this one. -/
def before (queue : DelayQueue Item) (entry : Entry Item) : Nat :=
  queue.pending.countP fun other => other.due < entry.due

theorem before_post {queue : DelayQueue Item} {entry : Entry Item} (hdue : entry.due ≤ queue.now)
    (item : Item) (delay : Nat) : (queue.post item delay).before entry = queue.before entry := by
  have hlate : ¬ queue.now + delay < entry.due := by omega
  simp [before, post, hlate]

theorem before_take [DecidableEq Item] {queue : DelayQueue Item} {entry other : Entry Item}
    (hmem : other ∈ queue.pending) (hlt : other.due < entry.due) :
    (queue.take other).before entry + 1 = queue.before entry := by
  have hperm := (List.perm_cons_erase hmem).countP_eq fun third => decide (third.due < entry.due)
  rw [List.countP_cons, if_pos (decide_eq_true hlt)] at hperm
  exact hperm.symm

theorem isNext_or_exists_isNext {queue : DelayQueue Item} {entry : Entry Item}
    (hmem : entry ∈ queue.pending) (hdue : entry.due ≤ queue.now) :
    queue.IsNext entry ∨ ∃ other, queue.IsNext other ∧ other.due < entry.due := by
  classical
  obtain ⟨first, hfirst, hleast⟩ := Finset.exists_min_image queue.pending.toFinset Entry.due
    ⟨entry, List.mem_toFinset.mpr hmem⟩
  have hleast' : ∀ other ∈ queue.pending, first.due ≤ other.due := fun other hother =>
    hleast other (List.mem_toFinset.mpr hother)
  have hpending : first ∈ queue.pending := List.mem_toFinset.mp hfirst
  by_cases hlt : first.due < entry.due
  · exact Or.inr ⟨first, ⟨hpending, by omega, hleast'⟩, hlt⟩
  · have hsame : first.due = entry.due := le_antisymm (hleast' entry hmem) (by omega)
    exact Or.inl ⟨hmem, hdue, fun other hother => hsame ▸ hleast' other hother⟩

end DelayQueue

end SensorMouse.Lib
