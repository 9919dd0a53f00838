import SensorMouse.Proof.ListenerView

/-!
# Mode messages of an earlier press

`ACTION_DOWN` resets `modeFlag` but leaves the messages of `modeHandler` in the queue, and the handler
sets `eventSendState` to MODE before it looks at `modeFlag`. A message that outlives its press is
without effect only where the state is MODE already and the message does nothing more than that:
`undisturbed_iff_harmless`. That a message which posts another is not without effect needs that the
posted one is dispatched in the end (`exists_run_isNext`).
-/

namespace SensorMouse.ButtonEventListener

open Lib

/-! ### What a callback does to the message queue -/

theorem handler_sendEventRunnable (listener : ButtonEventListener) (back cursor : Position) :
    (listener.sendEventRunnable back cursor).handler = listener.handler ∨
      ∃ item delay, 0 < delay ∧
        (listener.sendEventRunnable back cursor).handler = listener.handler.post item delay := by
  unfold sendEventRunnable
  cases listener.eventSendState with
  | init | cancel | mode | up | downAndUp => exact Or.inl rfl
  | down => exact Or.inr ⟨.sendEvent, sendDownDelay, by decide, rfl⟩
  | downed =>
      refine Or.inr ⟨.sendEvent, sendMoveDelay, by decide, ?_⟩
      dsimp only
      split_ifs <;> rfl

theorem handler_scanMove (listener : ButtonEventListener) (command : Option Int) :
    (listener.scanMove command).handler = listener.handler ∨
      ∃ item delay, 0 < delay ∧
        (listener.scanMove command).handler = listener.handler.post item delay := by
  unfold scanMove
  by_cases hcount : listener.modeStateCount + 1 < modeCounterThreshold
  · cases command with
    | none =>
        refine Or.inr ⟨.mode .move, modeScanDelay, by decide, ?_⟩
        simp [hcount, postDelayed]
    | some action =>
        refine Or.inl ?_
        simp [hcount, pushMotionEvent, call]
  · refine Or.inl ?_
    simp [hcount]

theorem handler_handleMessage (listener : ButtonEventListener) (what : ModeMessage)
    (cursor : Position) :
    (listener.handleMessage what cursor).handler = listener.handler ∨
      ∃ item delay, 0 < delay ∧
        (listener.handleMessage what cursor).handler = listener.handler.post item delay := by
  have hscans : listener.modeFlag = .key ∨ listener.modeFlag = .photo →
      (listener.handleMessage what cursor).handler = listener.handler ∨
        ∃ item delay, 0 < delay ∧
          (listener.handleMessage what cursor).handler = listener.handler.post item delay := by
    intro hflag
    cases what with
    | start =>
        obtain ⟨toast, startX, startY, hstart⟩ := handleMessage_start hflag cursor
        rw [hstart]
        exact Or.inr ⟨.mode .move, modeScanDelay, by decide, rfl⟩
    | move =>
        obtain ⟨lengthX, lengthY, hmove⟩ := handleMessage_move hflag cursor
        rw [hmove]
        exact handler_scanMove { listener with eventSendState := .mode } _
  cases hflag : listener.modeFlag with
  | init => exact Or.inl (by rw [handleMessage_init hflag])
  | b2Left => exact Or.inl (by rw [handleMessage_b2Left hflag]; rfl)
  | b2Right => exact Or.inl (by rw [handleMessage_b2Right hflag]; rfl)
  | key => exact hscans (Or.inl hflag)
  | photo => exact hscans (Or.inr hflag)

theorem handler_dispatch (listener : ButtonEventListener) (entry : Entry Callback)
    (back cursor : Position) :
    (listener.dispatch entry back cursor).handler = listener.handler.take entry ∨
      ∃ item delay, 0 < delay ∧ (listener.dispatch entry back cursor).handler =
        (listener.handler.take entry).post item delay := by
  unfold dispatch runCallback
  cases entry.item with
  | sendEvent =>
      exact handler_sendEventRunnable
        { listener with handler := listener.handler.take entry } back cursor
  | mode what =>
      exact handler_handleMessage
        { listener with handler := listener.handler.take entry } what cursor

theorem handler_onTouch (listener : ButtonEventListener) (event : TouchEvent) :
    ∃ kept : DelayQueue Callback, kept.nextId = listener.handler.nextId ∧
      (∀ entry ∈ kept.pending, entry ∈ listener.handler.pending) ∧
      ((listener.onTouch event).handler = kept ∨
        ∃ item delay, (listener.onTouch event).handler = kept.post item delay) := by
  have hcancel : ∀ moved : ButtonEventListener,
      moved.cancelIfMoved.handler.nextId = moved.handler.nextId ∧
        ∀ entry ∈ moved.cancelIfMoved.handler.pending, entry ∈ moved.handler.pending := by
    intro moved
    unfold cancelIfMoved
    split_ifs
    · exact ⟨rfl, fun entry hmem => List.mem_of_mem_filter hmem⟩
    · exact ⟨rfl, fun entry hmem => hmem⟩
  have hstart : ∀ moved : ButtonEventListener,
      moved.startModeIfRecognised.handler = moved.handler ∨
        ∃ item delay, moved.startModeIfRecognised.handler = moved.handler.post item delay := by
    intro moved
    unfold startModeIfRecognised
    split_ifs
    · cases recognise moved.isRight moved.lengthX moved.lengthY with
      | none => exact Or.inl rfl
      | some flag => exact Or.inr ⟨.mode .start, 0, rfl⟩
    · exact Or.inl rfl
  unfold onTouch
  cases event.action with
  | down => exact ⟨listener.handler, rfl, fun _ hmem => hmem, Or.inr ⟨.sendEvent, 100, rfl⟩⟩
  | other => exact ⟨listener.handler, rfl, fun _ hmem => hmem, Or.inl rfl⟩
  | move =>
      obtain ⟨hnext, hsubset⟩ := hcancel { listener with
        lengthX := event.x - listener.downX
        lengthY := event.y - listener.downY }
      exact ⟨_, hnext, hsubset, hstart _⟩

theorem fresh_step {listener next : ButtonEventListener} {event : Event}
    (hfresh : listener.handler.Fresh) (hstep : listener.step event = some next) :
    next.handler.Fresh := by
  cases event with
  | touch event =>
      obtain rfl : listener.onTouch event = next := Option.some.inj hstep
      obtain ⟨kept, hnext, hsubset, hhandler⟩ := handler_onTouch listener event
      have hkept : kept.Fresh := DelayQueue.fresh_of_subset hfresh hnext hsubset
      rcases hhandler with hhandler | ⟨item, delay, hhandler⟩
      · rwa [hhandler]
      · rw [hhandler]
        exact DelayQueue.fresh_post hkept item delay
  | touchActionUp =>
      obtain rfl : listener.onReceive = next := Option.some.inj hstep
      unfold onReceive
      split_ifs <;> exact hfresh
  | tick elapsed =>
      obtain rfl := Option.some.inj hstep
      exact hfresh
  | dispatch entry back cursor =>
      simp only [step] at hstep
      split_ifs at hstep
      obtain rfl : listener.dispatch entry back cursor = next := Option.some.inj hstep
      have htaken : (listener.handler.take entry).Fresh :=
        DelayQueue.fresh_of_subset hfresh rfl fun _ hmem => DelayQueue.mem_of_mem_take hmem
      rcases handler_dispatch listener entry back cursor with hhandler | ⟨item, delay, -, hhandler⟩
      · rwa [hhandler]
      · rw [hhandler]
        exact DelayQueue.fresh_post htaken item delay

/-! ### Every pending callback is dispatched in the end -/

def Event.IsDispatch : Event → Prop
  | .dispatch .. => True
  | _ => False

/-- A pending entry whose time has come is next after finitely many dispatches. -/
theorem exists_run_isNext {listener : ButtonEventListener} {entry : Entry Callback}
    (hmem : entry ∈ listener.handler.pending) (hdue : entry.due ≤ listener.handler.now) :
    ∃ later final, (∀ event ∈ later, event.IsDispatch) ∧
      run timedStep listener later = some final ∧ final.handler.IsNext entry := by
  induction hcount : listener.handler.before entry generalizing listener with
  | zero =>
      rcases DelayQueue.isNext_or_exists_isNext hmem hdue with hnext | ⟨other, hnext, hlt⟩
      · exact ⟨[], listener, by simp, rfl, hnext⟩
      · have hone := DelayQueue.before_take hnext.1 hlt
        omega
  | succ count ih =>
      rcases DelayQueue.isNext_or_exists_isNext hmem hdue with hnext | ⟨other, hnext, hlt⟩
      · exact ⟨[], listener, by simp, rfl, hnext⟩
      · have hone := DelayQueue.before_take hnext.1 hlt
        have hne : entry ≠ other := by
          rintro rfl
          omega
        have hkept : entry ∈ (listener.handler.take other).pending :=
          DelayQueue.mem_take_of_ne hmem hne
        let next := listener.dispatch other ⟨0, 0⟩ ⟨0, 0⟩
        have hstep : listener.timedStep (.dispatch other ⟨0, 0⟩ ⟨0, 0⟩) = some next := by
          simp [timedStep, hnext, next]
        have hqueue : entry ∈ next.handler.pending ∧ entry.due ≤ next.handler.now ∧
            next.handler.before entry = count := by
          rcases handler_dispatch listener other ⟨0, 0⟩ ⟨0, 0⟩ with
            hhandler | ⟨item, delay, -, hhandler⟩
          · rw [hhandler]
            exact ⟨hkept, hdue, by omega⟩
          · rw [hhandler]
            refine ⟨DelayQueue.mem_pending_post.mpr (Or.inl hkept), hdue, ?_⟩
            have hdueTaken : entry.due ≤ (listener.handler.take other).now := hdue
            rw [DelayQueue.before_post hdueTaken]
            omega
        obtain ⟨later, final, hlater, hrun, hfinal⟩ := ih hqueue.1 hqueue.2.1 hqueue.2.2
        refine ⟨.dispatch other ⟨0, 0⟩ ⟨0, 0⟩ :: later, final, ?_, ?_, hfinal⟩
        · intro event hevent
          rcases List.mem_cons.mp hevent with rfl | hevent
          · trivial
          · exact hlater event hevent
        · exact (run_cons_eq_some timedStep).mpr ⟨next, hstep, hrun⟩

theorem notMem_pending_of_run {listener final : ButtonEventListener} {later : List Event}
    {entry : Entry Callback} (hlater : ∀ event ∈ later, event.IsDispatch)
    (hnot : entry ∉ listener.handler.pending) (hdue : entry.due ≤ listener.handler.now)
    (hrun : run timedStep listener later = some final) : entry ∉ final.handler.pending := by
  have hfinal := run_invariant_of_labels
    (fun current => entry ∉ current.handler.pending ∧ entry.due ≤ current.handler.now)
    Event.IsDispatch hlater ⟨hnot, hdue⟩ ?_ hrun
  · exact hfinal.1
  · rintro current event next hevent ⟨hcurrent, hnow⟩ hstep
    cases event with
    | touch | touchActionUp | tick => exact hevent.elim
    | dispatch other back cursor =>
        simp only [timedStep] at hstep
        split_ifs at hstep
        obtain rfl : current.dispatch other back cursor = next := Option.some.inj hstep
        have htaken : entry ∉ (current.handler.take other).pending := fun hmem =>
          hcurrent (DelayQueue.mem_of_mem_take hmem)
        rcases handler_dispatch current other back cursor with
          hhandler | ⟨item, delay, hdelay, hhandler⟩
        · rw [hhandler]
          exact ⟨htaken, hnow⟩
        · rw [hhandler]
          refine ⟨fun hmem => ?_, hnow⟩
          rcases DelayQueue.mem_pending_post.mp hmem with hold | hnew
          · exact htaken hold
          · have hlate : entry.due = current.handler.now + delay := by rw [hnew]; rfl
            omega

/-! ### A message without effect -/

def Call.isPush : Call → Bool
  | .pushMotionEvent .. => true
  | _ => false

def observed (listener : ButtonEventListener) : SendState × List Call :=
  (listener.eventSendState, listener.calls.filter Call.isPush)

/-- The state in which `entry` had never been posted. -/
def without (listener : ButtonEventListener) (entry : Entry Callback) : ButtonEventListener :=
  { listener with handler := listener.handler.take entry }

/-- Whatever happens later, state and pushes are as if `entry` had never been posted. -/
def Undisturbed (listener : ButtonEventListener) (entry : Entry Callback) (back cursor : Position) :
    Prop :=
  ∀ later, (run timedStep (listener.dispatch entry back cursor) later).map observed =
    (run timedStep (listener.without entry) later).map observed

/-- The state is MODE already, and the message finds no gesture or a scan that is spent. -/
def Harmless (listener : ButtonEventListener) (what : ModeMessage) : Prop :=
  listener.eventSendState = .mode ∧
    (listener.modeFlag = .init ∨
      ((listener.modeFlag = .key ∨ listener.modeFlag = .photo) ∧ what = .move ∧
        modeCounterThreshold ≤ listener.modeStateCount + 1))

/-! #### Spent scans

Two listeners that differ only in scan counts past the threshold do the same. -/

def withCount (listener : ButtonEventListener) (count : Nat) : ButtonEventListener :=
  { listener with modeStateCount := count }

@[simp]
theorem withCount_self (listener : ButtonEventListener) :
    listener.withCount listener.modeStateCount = listener := rfl

/-- The same listener, up to the count of a spent scan. -/
def SameButSpent (listener other : ButtonEventListener) : Prop :=
  ∃ count, other = listener.withCount count ∧
    (count = listener.modeStateCount ∨
      (modeCounterThreshold ≤ listener.modeStateCount + 1 ∧ modeCounterThreshold ≤ count + 1))

theorem SameButSpent.refl (listener : ButtonEventListener) : SameButSpent listener listener :=
  ⟨listener.modeStateCount, (withCount_self listener).symm, Or.inl rfl⟩

theorem SameButSpent.observed_eq {listener other : ButtonEventListener}
    (hsame : SameButSpent listener other) : observed listener = observed other := by
  obtain ⟨count, hother, -⟩ := hsame
  rw [hother]
  rfl

theorem SameButSpent.map {listener other : ButtonEventListener}
    (hsame : SameButSpent listener other) (change : ButtonEventListener → ButtonEventListener)
    (hchange : ∀ moved count, change (moved.withCount count) = (change moved).withCount count) :
    SameButSpent (change listener) (change other) := by
  obtain ⟨count, rfl, hcount⟩ := hsame
  have hkept : change listener = (change listener).withCount listener.modeStateCount := by
    rw [← hchange, withCount_self]
  have hsameCount : (change listener).modeStateCount = listener.modeStateCount := by
    rw [hkept]
    rfl
  refine ⟨count, hchange listener count, ?_⟩
  rwa [hsameCount]

theorem onTouch_withCount (listener : ButtonEventListener) (event : TouchEvent) (count : Nat) :
    (listener.withCount count).onTouch event = (listener.onTouch event).withCount count := by
  have hcancel : ∀ moved : ButtonEventListener,
      (moved.withCount count).cancelIfMoved = moved.cancelIfMoved.withCount count := by
    intro moved
    by_cases hmoved : moved.eventSendState = .down ∧
        (|moved.lengthX| > buttonMoveOffset ∨ |moved.lengthY| > buttonMoveOffset)
    · simp [cancelIfMoved, withCount, hmoved]
    · simp [cancelIfMoved, withCount, hmoved]
  have hstart : ∀ moved : ButtonEventListener,
      (moved.withCount count).startModeIfRecognised = moved.startModeIfRecognised.withCount count := by
    intro moved
    by_cases hmoved : moved.eventSendState = .cancel
    · cases hflag : recognise moved.isRight moved.lengthX moved.lengthY <;>
        simp [startModeIfRecognised, withCount, postDelayed, hmoved, hflag]
    · simp [startModeIfRecognised, withCount, hmoved]
  unfold onTouch
  cases event.action with
  | down => rfl
  | other => rfl
  | move =>
      have hmoved : (listener.withCount count).onTouchMove event.x event.y =
          ({ listener with
            lengthX := event.x - listener.downX
            lengthY := event.y - listener.downY }.withCount
              count).cancelIfMoved.startModeIfRecognised := rfl
      dsimp only
      rw [hmoved, hcancel, hstart]
      rfl

theorem onReceive_withCount (listener : ButtonEventListener) (count : Nat) :
    (listener.withCount count).onReceive = listener.onReceive.withCount count := by
  cases hstate : listener.eventSendState <;> simp [onReceive, withCount, hstate, SendState.toInt]

theorem sendEventRunnable_withCount (listener : ButtonEventListener) (back cursor : Position)
    (count : Nat) :
    (listener.withCount count).sendEventRunnable back cursor =
      (listener.sendEventRunnable back cursor).withCount count := by
  cases hstate : listener.eventSendState with
  | downed =>
      by_cases hmoved : movedBeyond dragOffset listener.senderX cursor.x ||
          movedBeyond dragOffset listener.senderY cursor.y
      · simp [sendEventRunnable, withCount, hstate, hmoved, pushMotionEvent, call, postDelayed]
      · simp [sendEventRunnable, withCount, hstate, hmoved, postDelayed]
  | _ => simp [sendEventRunnable, withCount, hstate, pushMotionEvent, call, postDelayed]

theorem handleMessage_spent {listener : ButtonEventListener}
    (hflag : listener.modeFlag = .key ∨ listener.modeFlag = .photo)
    (hspent : modeCounterThreshold ≤ listener.modeStateCount + 1) (cursor : Position) :
    listener.handleMessage .move cursor =
      { listener with eventSendState := .mode }.withCount (listener.modeStateCount + 1) := by
  obtain ⟨lengthX, lengthY, hmove⟩ := handleMessage_move hflag cursor
  have hnot : ¬ listener.modeStateCount + 1 < modeCounterThreshold := by omega
  rw [hmove]
  simp [scanMove, hnot, withCount]

theorem handleMessage_start_withCount {listener : ButtonEventListener}
    (hflag : listener.modeFlag = .key ∨ listener.modeFlag = .photo) (cursor : Position)
    (count : Nat) :
    (listener.withCount count).handleMessage .start cursor =
      listener.handleMessage .start cursor := by
  rcases hflag with hflag | hflag <;> simp [handleMessage, withCount, hflag]

theorem handleMessage_sameButSpent {listener other : ButtonEventListener}
    (hsame : SameButSpent listener other) (what : ModeMessage) (cursor : Position) :
    SameButSpent (listener.handleMessage what cursor) (other.handleMessage what cursor) := by
  obtain ⟨count, rfl, hcount⟩ := hsame
  rcases hcount with rfl | ⟨hspent, hspent'⟩
  · rw [withCount_self]
    exact SameButSpent.refl _
  · have hscans : listener.modeFlag = .key ∨ listener.modeFlag = .photo →
        SameButSpent (listener.handleMessage what cursor)
          ((listener.withCount count).handleMessage what cursor) := by
      intro hflag
      cases what with
      | start =>
          rw [handleMessage_start_withCount hflag]
          exact SameButSpent.refl _
      | move =>
          have hflag' : (listener.withCount count).modeFlag = .key ∨
              (listener.withCount count).modeFlag = .photo := hflag
          rw [handleMessage_spent hflag hspent, handleMessage_spent hflag' hspent']
          refine ⟨count + 1, rfl, Or.inr ⟨?_, ?_⟩⟩
          · simp only [withCount]
            omega
          · omega
    have hkept : ∀ kept : ButtonEventListener, kept.modeStateCount = listener.modeStateCount →
        SameButSpent kept (kept.withCount count) := fun kept hkept =>
      ⟨count, rfl, Or.inr ⟨by omega, hspent'⟩⟩
    cases hflag : listener.modeFlag with
    | key => exact hscans (Or.inl hflag)
    | photo => exact hscans (Or.inr hflag)
    | init =>
        rw [handleMessage_init hflag, handleMessage_init (by exact hflag)]
        exact hkept { listener with eventSendState := .mode } rfl
    | b2Left =>
        rw [handleMessage_b2Left hflag, handleMessage_b2Left (by exact hflag)]
        exact hkept ({ listener with eventSendState := .mode }.pushMotionEvent _ 0 0) rfl
    | b2Right =>
        rw [handleMessage_b2Right hflag, handleMessage_b2Right (by exact hflag)]
        exact hkept ({ listener with eventSendState := .mode }.pushMotionEvent _ 0 0) rfl

theorem SameButSpent.dispatch {listener other : ButtonEventListener}
    (hsame : SameButSpent listener other) (entry : Entry Callback) (back cursor : Position) :
    SameButSpent (listener.dispatch entry back cursor) (other.dispatch entry back cursor) := by
  have htaken : SameButSpent (listener.without entry) (other.without entry) := by
    obtain ⟨count, rfl, hcount⟩ := hsame
    exact ⟨count, rfl, hcount⟩
  unfold ButtonEventListener.dispatch runCallback
  cases entry.item with
  | sendEvent =>
      exact htaken.map (fun moved => moved.sendEventRunnable back cursor) fun moved count =>
        sendEventRunnable_withCount moved back cursor count
  | mode what => exact handleMessage_sameButSpent htaken what cursor

theorem SameButSpent.step {listener other : ButtonEventListener}
    (hsame : SameButSpent listener other) (event : Event) :
    Option.Rel SameButSpent (listener.timedStep event) (other.timedStep event) := by
  cases event with
  | touch event =>
      exact .some (hsame.map (fun moved => moved.onTouch event) fun moved count =>
        onTouch_withCount moved event count)
  | touchActionUp => exact .some (hsame.map onReceive onReceive_withCount)
  | tick elapsed =>
      obtain ⟨count, rfl, hcount⟩ := hsame
      exact .some ⟨count, rfl, hcount⟩
  | dispatch entry back cursor =>
      have hhandler : other.handler = listener.handler := by
        obtain ⟨count, rfl, -⟩ := hsame
        rfl
      by_cases hnext : listener.handler.IsNext entry
      · simp only [timedStep, hhandler, hnext, ↓reduceIte]
        exact .some (hsame.dispatch entry back cursor)
      · simp only [timedStep, hhandler, hnext, ↓reduceIte]
        exact .none

theorem SameButSpent.run {listener other : ButtonEventListener}
    (hsame : SameButSpent listener other) (later : List Event) :
    (Lib.run timedStep listener later).map observed =
      (Lib.run timedStep other later).map observed :=
  run_map_eq_of_same observed SameButSpent (fun _ _ hpair => hpair.observed_eq)
    (fun _ _ event hpair => hpair.step event) hsame later

/-! ### Exactly when a stale message is without effect -/

/-- `entry` was posted before the latest `ACTION_DOWN` and is dispatched next. -/
def IsStaleNext (listener : ButtonEventListener) (entry : Entry Callback) : Prop :=
  ∃ (before after : List Event) (press : TouchEvent) (pressed : ButtonEventListener),
    press.action = .down ∧ run timedStep {} before = some pressed ∧
      entry ∈ pressed.handler.pending ∧ (∀ event ∈ after, ¬ event.IsPress) ∧
      run timedStep pressed (.touch press :: after) = some listener ∧
      listener.handler.IsNext entry

variable {listener : ButtonEventListener} {entry : Entry Callback} {what : ModeMessage}

theorem dispatch_mode (listener : ButtonEventListener) (hitem : entry.item = .mode what)
    (back cursor : Position) :
    listener.dispatch entry back cursor = (listener.without entry).handleMessage what cursor := by
  unfold dispatch runCallback
  rw [hitem]
  rfl

theorem eventSendState_dispatch_mode (listener : ButtonEventListener)
    (hitem : entry.item = .mode what) (back cursor : Position) :
    (listener.dispatch entry back cursor).eventSendState = .mode := by
  obtain ⟨outcome, hview⟩ := view_handleMessage (Nat.zero_le (listener.without entry).calls.length)
    what cursor
  rw [dispatch_mode listener hitem]
  refine (congrArg View.state hview).trans ?_
  cases outcome <;> rfl

theorem without_mode (hstate : listener.eventSendState = .mode) (entry : Entry Callback) :
    { listener.without entry with eventSendState := .mode } = listener.without entry := by
  unfold without
  rw [← hstate]

theorem undisturbed_of_harmless (hitem : entry.item = .mode what)
    (hharmless : Harmless listener what) (back cursor : Position) :
    Undisturbed listener entry back cursor := by
  obtain ⟨hstate, hflag⟩ := hharmless
  intro later
  rw [dispatch_mode listener hitem]
  rcases hflag with hinit | ⟨hscan, rfl, hspent⟩
  · have hinit' : (listener.without entry).modeFlag = .init := hinit
    rw [handleMessage_init hinit', without_mode hstate]
  · have hscan' : (listener.without entry).modeFlag = .key ∨
        (listener.without entry).modeFlag = .photo := hscan
    have hspent' : modeCounterThreshold ≤ (listener.without entry).modeStateCount + 1 := hspent
    rw [handleMessage_spent hscan' hspent', without_mode hstate]
    have hsame : SameButSpent (listener.without entry)
        ((listener.without entry).withCount ((listener.without entry).modeStateCount + 1)) :=
      ⟨_, rfl, Or.inr ⟨hspent', by omega⟩⟩
    exact (hsame.run later).symm

/-- A message that posts another is told apart when that one is dispatched. -/
theorem not_undisturbed_of_post (item : Callback) (delay : Nat) {back cursor : Position}
    (hfresh : listener.handler.Fresh)
    (hpost : (listener.dispatch entry back cursor).handler =
      (listener.handler.take entry).post item delay) :
    ¬ Undisturbed listener entry back cursor := by
  intro hundisturbed
  let posted : Entry Callback := ⟨listener.handler.nextId, listener.handler.now + delay, item⟩
  let waited (state : ButtonEventListener) : ButtonEventListener :=
    { state with handler := state.handler.advance delay }
  have hmem : posted ∈ (waited (listener.dispatch entry back cursor)).handler.pending := by
    have hnew : posted ∈ ((listener.handler.take entry).post item delay).pending :=
      DelayQueue.mem_pending_post.mpr (Or.inr rfl)
    rw [← hpost] at hnew
    exact hnew
  have hnow : (listener.dispatch entry back cursor).handler.now = listener.handler.now := by
    rw [hpost]
    rfl
  have hdue : posted.due ≤ (waited (listener.dispatch entry back cursor)).handler.now := by
    change listener.handler.now + delay ≤
      (listener.dispatch entry back cursor).handler.now + delay
    omega
  have hnot : posted ∉ (waited (listener.without entry)).handler.pending := by
    intro hold
    have hpending : posted ∈ listener.handler.pending := DelayQueue.mem_of_mem_take hold
    exact absurd (hfresh posted hpending) (lt_irrefl _)
  obtain ⟨later, final, hlater, hrun, hnext⟩ := exists_run_isNext hmem hdue
  have hdispatched : final.timedStep (.dispatch posted back cursor) =
      some (final.dispatch posted back cursor) := by
    simp [timedStep, hnext]
  have hrun' : run timedStep (listener.dispatch entry back cursor)
      (.tick delay :: (later ++ [.dispatch posted back cursor])) =
        some (final.dispatch posted back cursor) :=
    (run_cons_eq_some timedStep).mpr
      ⟨_, rfl, (run_concat_eq_some timedStep).mpr ⟨final, hrun, hdispatched⟩⟩
  have hsame := hundisturbed (.tick delay :: (later ++ [.dispatch posted back cursor]))
  rw [hrun', Option.map_some] at hsame
  obtain ⟨other, hother, -⟩ := Option.map_eq_some_iff.mp hsame.symm
  obtain ⟨started, hstarted, hrest⟩ := (run_cons_eq_some timedStep).mp hother
  obtain rfl : waited (listener.without entry) = started := Option.some.inj hstarted
  obtain ⟨middle, hmiddle, hlast⟩ := (run_concat_eq_some timedStep).mp hrest
  have hgone : posted ∉ middle.handler.pending := notMem_pending_of_run hlater hnot le_rfl hmiddle
  have hstuck : ¬ middle.handler.IsNext posted := fun hisNext => hgone hisNext.1
  simp [timedStep, hstuck] at hlast

theorem not_undisturbed_of_observed {back cursor : Position}
    (hobserved : observed (listener.dispatch entry back cursor) ≠ observed (listener.without entry)) :
    ¬ Undisturbed listener entry back cursor := fun hundisturbed =>
  hobserved (Option.some.inj (hundisturbed []))

theorem observed_pushMotionEvent_ne (listener : ButtonEventListener) (action x y : Int) :
    observed (listener.pushMotionEvent action x y) ≠ observed listener := by
  intro hsame
  have hcalls := congrArg (fun seen => seen.2.length) hsame
  simp [observed, pushMotionEvent, call, Call.isPush] at hcalls

theorem not_undisturbed_of_scan (hfresh : listener.handler.Fresh) (hitem : entry.item = .mode what)
    (hstate : listener.eventSendState = .mode)
    (hflag : listener.modeFlag = .key ∨ listener.modeFlag = .photo)
    (hlive : what = .move → listener.modeStateCount + 1 < modeCounterThreshold)
    (back cursor : Position) : ¬ Undisturbed listener entry back cursor := by
  have hflag' : (listener.without entry).modeFlag = .key ∨
      (listener.without entry).modeFlag = .photo := hflag
  have hdispatch := dispatch_mode listener hitem back cursor
  cases what with
  | start =>
      obtain ⟨toast, startX, startY, hstart⟩ := handleMessage_start hflag' cursor
      rw [hstart] at hdispatch
      refine not_undisturbed_of_post (.mode .move) modeScanDelay hfresh ?_
      rw [hdispatch]
      rfl
  | move =>
      obtain ⟨lengthX, lengthY, hmove⟩ := handleMessage_move hflag' cursor
      have hcount : (listener.without entry).modeStateCount + 1 < modeCounterThreshold := hlive rfl
      generalize (if (listener.without entry).modeFlag = ModeFlag.key then
        keyCommand lengthX lengthY else photoCommand lengthY) = command at hmove
      rw [hmove, without_mode hstate] at hdispatch
      cases command with
      | none =>
          refine not_undisturbed_of_post (.mode .move) modeScanDelay hfresh ?_
          have hrepost : (listener.without entry).scanMove none =
              ((listener.without entry).withCount
                ((listener.without entry).modeStateCount + 1)).postDelayed (.mode .move)
                  modeScanDelay := by
            simp [scanMove, hcount, withCount]
          rw [hdispatch, hrepost]
          rfl
      | some action =>
          refine not_undisturbed_of_observed ?_
          rw [hdispatch]
          have hpush : (listener.without entry).scanMove (some action) =
              ((listener.without entry).withCount
                ((listener.without entry).modeStateCount + 1)).pushMotionEvent action 0 0 := by
            simp [scanMove, hcount, withCount]
          rw [hpush]
          exact observed_pushMotionEvent_ne _ action 0 0

theorem not_undisturbed_of_not_harmless (hfresh : listener.handler.Fresh)
    (hitem : entry.item = .mode what) (hharmful : ¬ Harmless listener what)
    (back cursor : Position) : ¬ Undisturbed listener entry back cursor := by
  have hdispatch := dispatch_mode listener hitem back cursor
  by_cases hstate : listener.eventSendState = .mode
  · have hscan : listener.modeFlag = .key ∨ listener.modeFlag = .photo →
        ¬ Undisturbed listener entry back cursor := by
      intro hflag
      refine not_undisturbed_of_scan hfresh hitem hstate hflag (fun hmove => ?_) back cursor
      by_contra hspent
      exact hharmful ⟨hstate, Or.inr ⟨hflag, hmove, by omega⟩⟩
    cases hflag : listener.modeFlag with
    | init => exact absurd ⟨hstate, Or.inl hflag⟩ hharmful
    | key => exact hscan (Or.inl hflag)
    | photo => exact hscan (Or.inr hflag)
    | b2Left =>
        have hflag' : (listener.without entry).modeFlag = .b2Left := hflag
        rw [handleMessage_b2Left hflag', without_mode hstate] at hdispatch
        refine not_undisturbed_of_observed ?_
        rw [hdispatch]
        exact observed_pushMotionEvent_ne _ _ 0 0
    | b2Right =>
        have hflag' : (listener.without entry).modeFlag = .b2Right := hflag
        rw [handleMessage_b2Right hflag', without_mode hstate] at hdispatch
        refine not_undisturbed_of_observed ?_
        rw [hdispatch]
        exact observed_pushMotionEvent_ne _ _ 0 0
  · refine not_undisturbed_of_observed fun hsame => hstate ?_
    have hsameState := congrArg Prod.fst hsame
    exact hsameState.symm.trans (eventSendState_dispatch_mode listener hitem back cursor)

/-- **Exactly when a stale message is without effect.** A message posted before the latest
`ACTION_DOWN` leaves state and pushes as if it had never been posted exactly if the state is MODE
already and the message finds no gesture, or a scan past its threshold. -/
theorem undisturbed_iff_harmless (hstale : IsStaleNext listener entry)
    (hitem : entry.item = .mode what) (back cursor : Position) :
    Undisturbed listener entry back cursor ↔ Harmless listener what := by
  obtain ⟨before, after, press, pressed, -, hbefore, -, -, hrun, -⟩ := hstale
  have hpressed : pressed.handler.Fresh :=
    run_invariant (fun current => current.handler.Fresh) (by intro entry hmem; cases hmem)
      (fun _ _ _ hfresh hstep => fresh_step hfresh (step_of_timedStep hstep)) hbefore
  have hfresh : listener.handler.Fresh :=
    run_invariant (fun current => current.handler.Fresh) hpressed
      (fun _ _ _ hfresh hstep => fresh_step hfresh (step_of_timedStep hstep)) hrun
  constructor
  · intro hundisturbed
    by_contra hharmful
    exact not_undisturbed_of_not_harmless hfresh hitem hharmful back cursor hundisturbed
  · intro hharmless
    exact undisturbed_of_harmless hitem hharmless back cursor

/-- A KEY gesture is recognised and its scan starts; the finger is pressed again at 20. -/
def secondPressEvents : List Event :=
  [.touch ⟨.down, 0, 0⟩, .touch ⟨.move, 40, 0⟩, .dispatch ⟨1, 0, .mode .start⟩ ⟨5, 5⟩ ⟨5, 5⟩,
    .tick 20]

def scanEntry : Entry Callback := ⟨2, 50, .mode .move⟩

theorem isStaleNext_secondPress :
    ∃ listener, listener.eventSendState = .down ∧ IsStaleNext listener scanEntry := by
  have hboth : ((run timedStep {} secondPressEvents).bind fun pressed =>
      (run timedStep pressed [.touch ⟨.down, 0, 0⟩, .tick 30]).map fun listener =>
        decide (scanEntry ∈ pressed.handler.pending ∧ listener.handler.IsNext scanEntry ∧
          listener.eventSendState = .down)) = some true := by
    decide +kernel
  obtain ⟨pressed, hbefore, hheld⟩ := Option.bind_eq_some_iff.mp hboth
  obtain ⟨listener, hrun, hfacts⟩ := Option.map_eq_some_iff.mp hheld
  obtain ⟨hmem, hnext, hstate⟩ := of_decide_eq_true hfacts
  exact ⟨listener, hstate, secondPressEvents, [.tick 30], ⟨.down, 0, 0⟩, pressed, rfl, hbefore, hmem,
    by decide, hrun, hnext⟩

theorem undisturbed_iff_harmless_secondPress :
    ∃ listener, IsStaleNext listener scanEntry ∧
      (Undisturbed listener scanEntry ⟨5, 5⟩ ⟨5, 5⟩ ↔ Harmless listener .move) := by
  obtain ⟨listener, -, hstale⟩ := isStaleNext_secondPress
  exact ⟨listener, hstale, undisturbed_iff_harmless hstale rfl ⟨5, 5⟩ ⟨5, 5⟩⟩

theorem stale_scan_disturbs_secondPress :
    ¬ ∀ (listener : ButtonEventListener) (entry : Entry Callback) (what : ModeMessage)
      (back cursor : Position), IsStaleNext listener entry → entry.item = .mode what →
      Undisturbed listener entry back cursor := by
  intro hclaim
  obtain ⟨listener, hstate, hstale⟩ := isStaleNext_secondPress
  have hundisturbed := hclaim listener scanEntry .move ⟨5, 5⟩ ⟨5, 5⟩ hstale rfl []
  have hmode : (listener.dispatch scanEntry ⟨5, 5⟩ ⟨5, 5⟩).eventSendState = .mode :=
    eventSendState_dispatch_mode listener rfl ⟨5, 5⟩ ⟨5, 5⟩
  have hsame : (listener.dispatch scanEntry ⟨5, 5⟩ ⟨5, 5⟩).eventSendState =
      listener.eventSendState := congrArg Prod.fst (Option.some.inj hundisturbed)
  rw [hmode, hstate] at hsame
  cases hsame

end SensorMouse.ButtonEventListener
