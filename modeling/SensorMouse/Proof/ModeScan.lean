import SensorMouse.Lib.Scan
import SensorMouse.Proof.StaleMessages

/-!
# The scan of a key or photo gesture

`MODE_STATE_START` records the cursor and posts a `MODE_STATE_MOVE`; each of these reads the cursor and
posts another one until the displacement opens a command or the count runs out. Without a touch nothing
else changes what the handler reads, so the message loop is a bounded scan of the cursor positions:
`mode_scan_law`.
-/

namespace SensorMouse.ButtonEventListener

open Android Java Lib

/-! ### What the law speaks of -/

def Event.IsTouch : Event → Prop
  | .touch _ => True
  | _ => False

instance : (event : Event) → Decidable event.IsTouch
  | .touch _ => isTrue trivial
  | .touchActionUp => inferInstanceAs (Decidable False)
  | .tick _ => inferInstanceAs (Decidable False)
  | .dispatch .. => inferInstanceAs (Decidable False)

/-- The cursor position a mode message reads. -/
def Event.modeCursor : Event → Option Position
  | .dispatch entry _ cursor => if entry.item.isMode then some cursor else none
  | _ => none

/-- The positions `q_1, q_2, …` read by the mode messages handled in `events`. -/
def modeCursors (events : List Event) : List Position := events.filterMap Event.modeCursor

/-- The pushes made after the first `base` calls. -/
def pushedSince (base : Nat) (listener : ButtonEventListener) : List Call :=
  (listener.calls.drop base).filter Call.isPush

/-- A displacement that opens a command: on either axis for KEY, on the vertical one for PHOTO. -/
def Crosses (flag : ModeFlag) (dx dy : Int) : Prop :=
  (flag = .key ∧ (60 < |dx| ∨ 60 < |dy|)) ∨ (flag = .photo ∧ 60 < |dy|)

/-- The command of a crossing, the horizontal axis first. -/
def crossingCommand (flag : ModeFlag) (dx dy : Int) : Int :=
  if flag = .key then
    if 60 < dx then -KeyEvent.keycodeHome
    else if dx < -60 then -KeyEvent.keycodeBack
    else if 60 < dy then -KeyEvent.keycodeSearch
    else -KeyEvent.keycodeMenu
  else if 60 < dy then EventQueueHandler.sendPinch
  else EventQueueHandler.sendZoom

/-- What has been pushed and what is pending once the messages after START have read `cursors`; the
displacements from the start point are computed by `minus`. -/
structure ScanLaw (minus : Int → Int → Int) (flag : ModeFlag) (start : Position)
    (cursors : List Position) (pushed : List Call) (pending : Nat) : Prop where
  handled_le : cursors.length ≤ 40
  pending_eq_zero : cursors.length = 40 → pending = 0
  first_crossing : ∀ k q, 1 ≤ k → k ≤ 39 → cursors[k - 1]? = some q →
    Crosses flag (minus q.x start.x) (minus q.y start.y) →
    (∀ j p, 1 ≤ j → j < k → cursors[j - 1]? = some p →
      ¬ Crosses flag (minus p.x start.x) (minus p.y start.y)) →
    cursors.length = k ∧ pending = 0 ∧
      pushed = [.pushMotionEvent
        (crossingCommand flag (minus q.x start.x) (minus q.y start.y)) 0 0]
  no_crossing : (∀ k q, 1 ≤ k → k ≤ 39 → cursors[k - 1]? = some q →
    ¬ Crosses flag (minus q.x start.x) (minus q.y start.y)) →
    pushed = [] ∧ pending = if cursors.length < 40 then 1 else 0

/-! ### The handler is a scan -/

/-- What a `MODE_STATE_MOVE` that reads `cursor` asks for. -/
def asked (flag : ModeFlag) (start cursor : Position) : Option Int :=
  if flag = .key then keyCommand (wrap (cursor.x - start.x)) (wrap (cursor.y - start.y))
  else photoCommand (wrap (cursor.y - start.y))

/-- The commands of the handler are those of the law. -/
theorem asked_eq {flag : ModeFlag} (hflag : flag = .key ∨ flag = .photo) {start cursor : Position}
    {dx dy : Int} (hx : wrap (cursor.x - start.x) = dx) (hy : wrap (cursor.y - start.y) = dy) :
    (Crosses flag dx dy → asked flag start cursor = some (crossingCommand flag dx dy)) ∧
      (¬ Crosses flag dx dy → asked flag start cursor = none) := by
  have habs : ∀ z : Int, 60 < |z| ↔ 60 < z ∨ z < -60 := fun z => by
    rw [lt_abs]
    omega
  rcases hflag with rfl | rfl
  · simp only [Crosses, asked, keyCommand, crossingCommand, modeMouseOffsetThreshold, hx, hy, habs,
      true_and, reduceCtorEq, false_and, or_false, ↓reduceIte]
    split_ifs <;> simp <;> omega
  · simp only [Crosses, asked, photoCommand, crossingCommand, modeMouseOffsetThreshold, hy, habs,
      true_and, reduceCtorEq, false_and, false_or, ↓reduceIte]
    split_ifs <;> simp <;> omega

/-- What no message of the scan changes, and the next one reads. -/
structure Parked (base : Nat) (flag : ModeFlag) (start : Position)
    (listener : ButtonEventListener) : Prop where
  mode : listener.eventSendState = .mode
  flag_eq : listener.modeFlag = flag
  startX_eq : flag = .key → listener.startX = start.x
  startY_eq : listener.startY = start.y
  base_le : base ≤ listener.calls.length
  no_start : ∀ entry ∈ listener.handler.pending, entry.item ≠ .mode .start

/-- Between START and the next touch. `state` is where the scan of the positions read stands. -/
structure Scanning (base : Nat) (flag : ModeFlag) (start : Position) (cursors : List Position)
    (state : ScanState Int) (listener : ButtonEventListener) : Prop where
  parked : Parked base flag start listener
  scanned : Scanned modeCounterThreshold (asked flag start) cursors state
  count_eq : state = .reading → listener.modeStateCount = cursors.length
  pending_eq : listener.handler.count Callback.isMode = if state.isReading then 1 else 0
  pushed_eq : pushedSince base listener = state.answers.map fun action => .pushMotionEvent action 0 0

section

variable {base : Nat} {flag : ModeFlag} {start : Position} {cursors : List Position}
  {state : ScanState Int} {listener : ButtonEventListener}

theorem Parked.without (hparked : Parked base flag start listener) (entry : Entry Callback) :
    Parked base flag start (listener.without entry) :=
  { hparked with
    no_start := fun other hother => hparked.no_start other (DelayQueue.mem_of_mem_take hother) }

theorem Parked.withCount (hparked : Parked base flag start listener) (count : Nat) :
    Parked base flag start (listener.withCount count) :=
  { hparked with }

theorem Parked.post (hparked : Parked base flag start listener) (delay : Nat) :
    Parked base flag start (listener.postDelayed (.mode .move) delay) := by
  refine { hparked with no_start := fun entry hentry => ?_ }
  rcases DelayQueue.mem_pending_post.mp hentry with hold | rfl
  · exact hparked.no_start entry hold
  · simp

theorem Parked.push (hparked : Parked base flag start listener) (action : Int) :
    Parked base flag start (listener.pushMotionEvent action 0 0) := by
  have hbase := hparked.base_le
  refine { hparked with base_le := ?_ }
  simp only [pushMotionEvent, call, List.length_append]
  omega

theorem pushedSince_push (hbase : base ≤ listener.calls.length) (action : Int) :
    pushedSince base (listener.pushMotionEvent action 0 0) =
      pushedSince base listener ++ [.pushMotionEvent action 0 0] := by
  simp [pushedSince, pushMotionEvent, call, List.drop_append_of_le_length hbase, Call.isPush]

theorem dispatch_move_eq (hflag : flag = .key ∨ flag = .photo)
    (hparked : Parked base flag start listener) {entry : Entry Callback}
    (hitem : entry.item = .mode .move) (back cursor : Position) :
    listener.dispatch entry back cursor =
      (listener.without entry).scanMove (asked flag start cursor) := by
  have hmode : (listener.without entry).modeFlag = flag := hparked.flag_eq
  have hstartY : (listener.without entry).startY = start.y := hparked.startY_eq
  have hmove : (listener.without entry).handleMessage .move cursor =
      { listener.without entry with eventSendState := .mode }.scanMove (asked flag start cursor) := by
    rcases hflag with rfl | rfl
    · have hstartX : (listener.without entry).startX = start.x := hparked.startX_eq rfl
      rw [handleMessage_key_move hmode]
      simp [asked, hstartX, hstartY]
    · rw [handleMessage_photo_move hmode]
      simp [asked, hstartY]
  rw [dispatch_mode listener hitem back cursor, hmove, without_mode hparked.mode entry]

/-- A `MODE_STATE_MOVE`, taken from the queue, is one more item of the scan. -/
theorem Parked.scanMove (hparked : Parked base flag start listener)
    (hscanned : Scanned modeCounterThreshold (asked flag start) cursors .reading)
    (hcount : listener.modeStateCount = cursors.length)
    (hpending : listener.handler.count Callback.isMode = 0) (hpushed : pushedSince base listener = [])
    (cursor : Position) :
    Scanning base flag start (cursors ++ [cursor])
      (.next modeCounterThreshold (asked flag start) cursors.length cursor)
      (listener.scanMove (asked flag start cursor)) := by
  have hread := hscanned.read cursor
  have hcounted := hparked.withCount (listener.modeStateCount + 1)
  by_cases hlt : cursors.length + 1 < modeCounterThreshold
  · cases hasked : asked flag start cursor with
    | none =>
        have hmoved : listener.scanMove none =
            (listener.withCount (listener.modeStateCount + 1)).postDelayed (.mode .move)
              modeScanDelay := by
          simp [ButtonEventListener.scanMove, ButtonEventListener.withCount, hcount, hlt]
        rw [ScanState.next_none hlt hasked] at hread ⊢
        rw [hmoved]
        refine ⟨hcounted.post _, hread, fun _ => ?_, ?_, hpushed⟩
        · simp [ButtonEventListener.withCount, postDelayed, hcount]
        · simp [ButtonEventListener.withCount, postDelayed, hpending, Callback.isMode,
            ScanState.isReading]
    | some action =>
        have hmoved : listener.scanMove (some action) =
            (listener.withCount (listener.modeStateCount + 1)).pushMotionEvent action 0 0 := by
          simp [ButtonEventListener.scanMove, ButtonEventListener.withCount, hcount, hlt]
        rw [ScanState.next_some hlt hasked] at hread ⊢
        rw [hmoved]
        refine ⟨hcounted.push action, hread, fun hreading => ?_, hpending, ?_⟩
        · cases hreading
        · rw [pushedSince_push hcounted.base_le]
          exact congrArg (· ++ [Call.pushMotionEvent action 0 0]) hpushed
  · have hmoved : listener.scanMove (asked flag start cursor) =
        listener.withCount (listener.modeStateCount + 1) := by
      simp [ButtonEventListener.scanMove, ButtonEventListener.withCount, hcount, hlt]
    rw [ScanState.next_spent hlt] at hread ⊢
    rw [hmoved]
    refine ⟨hcounted, hread, fun hreading => ?_, hpending, hpushed⟩
    cases hreading

theorem Scanning.dispatch (hflag : flag = .key ∨ flag = .photo)
    (hscanning : Scanning base flag start cursors state listener) {entry : Entry Callback}
    (hmem : entry ∈ listener.handler.pending) (back cursor : Position) :
    ∃ reached, Scanning base flag start
      (cursors ++ (Event.dispatch entry back cursor).modeCursor.toList) reached
      (listener.dispatch entry back cursor) := by
  have htaken := DelayQueue.count_take hmem Callback.isMode
  have hparked := hscanning.parked.without entry
  cases hitem : entry.item with
  | sendEvent =>
      have hnone : (Event.dispatch entry back cursor).modeCursor = none := by
        simp [Event.modeCursor, hitem, Callback.isMode]
      have hignored : listener.dispatch entry back cursor = listener.without entry := by
        have hmode : (listener.without entry).eventSendState = .mode := hparked.mode
        have hrun : listener.dispatch entry back cursor =
            (listener.without entry).sendEventRunnable back cursor := by
          simp [ButtonEventListener.dispatch, runCallback, hitem, without]
        rw [hrun]
        simp [sendEventRunnable, hmode]
      rw [hitem, hscanning.pending_eq] at htaken
      rw [hnone, hignored, Option.toList_none, List.append_nil]
      exact ⟨state, hparked, hscanning.scanned, hscanning.count_eq, htaken, hscanning.pushed_eq⟩
  | mode what =>
      have hmove : what = .move := by
        cases what with
        | start => exact absurd hitem (hscanning.parked.no_start entry hmem)
        | move => rfl
      have hread : (Event.dispatch entry back cursor).modeCursor = some cursor := by
        simp [Event.modeCursor, hitem, Callback.isMode]
      subst hmove
      rw [hitem, hscanning.pending_eq] at htaken
      -- A mode message was pending, so the scan had not ended.
      have hreading : state.isReading := by
        by_contra hended
        rw [if_neg hended] at htaken
        exact Nat.succ_ne_zero _ htaken
      obtain rfl := ScanState.eq_reading_of_isReading hreading
      rw [hread, Option.toList_some, dispatch_move_eq hflag hscanning.parked hitem back cursor]
      exact ⟨_, hparked.scanMove hscanning.scanned (hscanning.count_eq rfl)
        (Nat.add_right_cancel htaken) hscanning.pushed_eq cursor⟩

/-- One event without a touch: at most one more position is read. -/
theorem Scanning.step (hflag : flag = .key ∨ flag = .photo)
    (hscanning : Scanning base flag start cursors state listener) {event : Event}
    {next : ButtonEventListener} (htouch : ¬ event.IsTouch)
    (hstep : listener.step event = some next) :
    ∃ reached, Scanning base flag start (cursors ++ event.modeCursor.toList) reached next := by
  cases event with
  | touch event => exact absurd trivial htouch
  | touchActionUp =>
      have hignored : listener.onReceive = listener := by
        simp [onReceive, hscanning.parked.mode]
      obtain rfl : listener = next := Option.some.inj (hignored ▸ hstep)
      exact ⟨state, by simpa [Event.modeCursor] using hscanning⟩
  | tick elapsed =>
      obtain rfl := Option.some.inj hstep
      have hnone : (Event.tick elapsed).modeCursor = none := rfl
      rw [hnone, Option.toList_none, List.append_nil]
      exact ⟨state, { hscanning.parked with }, hscanning.scanned, hscanning.count_eq,
        hscanning.pending_eq, hscanning.pushed_eq⟩
  | dispatch entry back cursor =>
      simp only [ButtonEventListener.step] at hstep
      split_ifs at hstep with hmem
      obtain rfl : listener.dispatch entry back cursor = next := Option.some.inj hstep
      exact hscanning.dispatch hflag hmem back cursor

theorem Scanning.run (hflag : flag = .key ∨ flag = .photo)
    (hscanning : Scanning base flag start cursors state listener) {events : List Event}
    (htouch : ∀ event ∈ events, ¬ event.IsTouch) {final : ButtonEventListener}
    (hrun : run ButtonEventListener.step listener events = some final) :
    ∃ reached, Scanning base flag start (cursors ++ modeCursors events) reached final := by
  induction events generalizing listener cursors state with
  | nil =>
      obtain rfl : listener = final := by simpa using hrun
      exact ⟨state, by simpa [modeCursors] using hscanning⟩
  | cons event rest ih =>
      obtain ⟨next, hnext, hrest⟩ := (run_cons_eq_some _).mp hrun
      obtain ⟨middle, hmiddle⟩ := hscanning.step hflag (htouch event (List.mem_cons_self ..)) hnext
      have hsplit : modeCursors (event :: rest) = event.modeCursor.toList ++ modeCursors rest := by
        cases hread : event.modeCursor <;> simp [modeCursors, hread]
      rw [hsplit, ← List.append_assoc]
      exact ih hmiddle (fun other hother => htouch other (List.mem_cons_of_mem _ hother)) hrest

/-- `MODE_STATE_START` opens the scan. -/
theorem scanning_start (hflag : listener.modeFlag = .key ∨ listener.modeFlag = .photo)
    {entry : Entry Callback} (hmem : entry ∈ listener.handler.pending)
    (hitem : entry.item = .mode .start) (honly : listener.handler.count Callback.isMode = 1)
    (back start : Position) :
    Scanning listener.calls.length listener.modeFlag start [] .reading
      (listener.dispatch entry back start) := by
  have htaken := DelayQueue.count_take hmem Callback.isMode
  rw [hitem, honly] at htaken
  have hnone : (listener.without entry).handler.count Callback.isMode = 0 :=
    Nat.add_right_cancel htaken
  have hno : ∀ other ∈ (listener.without entry).handler.pending, other.item ≠ .mode .start := by
    intro other hother hstart
    have hmode := List.countP_eq_zero.mp hnone other hother
    rw [hstart] at hmode
    exact hmode rfl
  have hstarted : ∃ toast startX, (listener.modeFlag = .key → startX = start.x) ∧
      listener.dispatch entry back start = ({ listener.without entry with
        eventSendState := .mode
        modeStateCount := 0
        startX := startX
        startY := start.y }.call (.showToast toast)).postDelayed (.mode .move) modeScanDelay := by
    rw [dispatch_mode listener hitem back start]
    rcases hflag with hflag | hflag
    · have hkey : (listener.without entry).modeFlag = .key := hflag
      exact ⟨0, start.x, fun _ => rfl, handleMessage_key_start hkey start⟩
    · have hphoto : (listener.without entry).modeFlag = .photo := hflag
      refine ⟨1, listener.startX, fun hkey => ?_, handleMessage_photo_start hphoto start⟩
      rw [hflag] at hkey
      cases hkey
  obtain ⟨toast, startX, hstartX, hstarted⟩ := hstarted
  rw [hstarted]
  have hparked : Parked listener.calls.length listener.modeFlag start
      ({ listener.without entry with
        eventSendState := .mode
        modeStateCount := 0
        startX := startX
        startY := start.y }.call (.showToast toast)) :=
    { mode := rfl
      flag_eq := rfl
      startX_eq := hstartX
      startY_eq := rfl
      base_le := by simp [call, without]
      no_start := hno }
  refine ⟨hparked.post _, .start, fun _ => rfl, ?_, ?_⟩
  · simp [postDelayed, call, hnone, Callback.isMode, ScanState.isReading]
  · simp [pushedSince, postDelayed, call, without, Call.isPush, ScanState.answers]

end

/-! ### The law -/

theorem asked_eq_none {flag : ModeFlag} (hflag : flag = .key ∨ flag = .photo)
    {start cursor : Position} {minus : Int → Int → Int}
    (hx : wrap (cursor.x - start.x) = minus cursor.x start.x)
    (hy : wrap (cursor.y - start.y) = minus cursor.y start.y) :
    asked flag start cursor = none ↔
      ¬ Crosses flag (minus cursor.x start.x) (minus cursor.y start.y) := by
  obtain ⟨hcrosses, hnot⟩ := asked_eq hflag hx hy
  refine ⟨fun hnone hcross => ?_, hnot⟩
  rw [hcrosses hcross] at hnone
  cases hnone

/-- The law in the differences the handler computes, or in any that agree with them. -/
theorem Scanning.scanLaw {base : Nat} {flag : ModeFlag} {start : Position}
    {cursors : List Position} {state : ScanState Int} {listener : ButtonEventListener}
    (hflag : flag = .key ∨ flag = .photo)
    (hscanning : Scanning base flag start cursors state listener) {minus : Int → Int → Int}
    (hminus : ∀ q ∈ cursors, wrap (q.x - start.x) = minus q.x start.x ∧
      wrap (q.y - start.y) = minus q.y start.y) :
    ScanLaw minus flag start cursors (pushedSince base listener)
      (listener.handler.count Callback.isMode) := by
  have hscanned := hscanning.scanned
  have hlimit : 0 < modeCounterThreshold := by decide
  have hasked : ∀ {index : Nat} {q : Position}, cursors[index]? = some q →
      (asked flag start q = none ↔
        ¬ Crosses flag (minus q.x start.x) (minus q.y start.y)) := by
    intro index q hq
    obtain ⟨hx, hy⟩ := hminus q (List.mem_of_getElem? hq)
    exact asked_eq_none hflag hx hy
  refine ⟨hscanned.length_le hlimit, fun hall => ?_, fun k q hone hk hq hcross hfirst => ?_,
    fun hnone => ?_⟩
  · have hended : ¬ state.isReading := fun hreading => by
      have hlt := (hscanned.of_reading hlimit (ScanState.eq_reading_of_isReading hreading)).1
      rw [hall] at hlt
      exact lt_irrefl _ hlt
    rw [hscanning.pending_eq, if_neg hended]
  · obtain ⟨hx, hy⟩ := hminus q (List.mem_of_getElem? hq)
    have hbelow : k - 1 + 1 < modeCounterThreshold := by
      unfold modeCounterThreshold
      omega
    obtain ⟨hlength, rfl⟩ := hscanned.eq_hit_of_first hlimit hbelow hq
      ((asked_eq hflag hx hy).1 hcross) fun j p hj hp =>
        (hasked hp).mpr (hfirst (j + 1) p (by omega) (by omega) hp)
    exact ⟨by omega, hscanning.pending_eq, hscanning.pushed_eq⟩
  · obtain ⟨hanswers, hreading⟩ := hscanned.of_no_hit hlimit fun index q hindex hq =>
      (hasked hq).mpr (hnone (index + 1) q (by omega)
        (by unfold modeCounterThreshold at hindex; omega) hq)
    have hpushed := hscanning.pushed_eq
    have hpending := hscanning.pending_eq
    rw [hanswers] at hpushed
    simp only [hreading, decide_eq_true_eq] at hpending
    exact ⟨hpushed, hpending⟩

/-- **The scan law.** From the `MODE_STATE_START` of a key or photo gesture on, as long as the button
is not touched, the messages handled, the command pushed and what stays pending are those of `ScanLaw`,
in the `int` differences of the handler, and in exact ones where these are in the range of `int`. -/
theorem mode_scan_law {listener final : ButtonEventListener} {entry : Entry Callback}
    {back start : Position} {events : List Event} (hmem : entry ∈ listener.handler.pending)
    (hitem : entry.item = .mode .start)
    (hflag : listener.modeFlag = .key ∨ listener.modeFlag = .photo)
    (honly : listener.handler.count Callback.isMode = 1)
    (htouch : ∀ event ∈ events, ¬ event.IsTouch)
    (hrun : run step listener (.dispatch entry back start :: events) = some final) :
    ScanLaw (fun a b => wrap (a - b)) listener.modeFlag start (modeCursors events)
        (pushedSince listener.calls.length final) (final.handler.count Callback.isMode) ∧
      ((∀ q ∈ modeCursors events, InRange (q.x - start.x) ∧ InRange (q.y - start.y)) →
        ScanLaw (fun a b => a - b) listener.modeFlag start (modeCursors events)
          (pushedSince listener.calls.length final) (final.handler.count Callback.isMode)) := by
  obtain ⟨next, hnext, hrest⟩ := (run_cons_eq_some step).mp hrun
  simp only [step] at hnext
  split_ifs at hnext
  obtain rfl : listener.dispatch entry back start = next := Option.some.inj hnext
  obtain ⟨state, hscanning⟩ :=
    (scanning_start hflag hmem hitem honly back start).run hflag htouch hrest
  rw [List.nil_append] at hscanning
  refine ⟨hscanning.scanLaw hflag fun _ _ => ⟨rfl, rfl⟩, fun hrange => ?_⟩
  refine hscanning.scanLaw hflag fun q hq => ?_
  exact ⟨wrap_of_inRange (hrange q hq).1, wrap_of_inRange (hrange q hq).2⟩

/-- A press that has moved to the right: a key gesture, its START not yet handled. -/
def keyGesture : ButtonEventListener :=
  (({} : ButtonEventListener).onTouch ⟨.down, 0, 0⟩).onTouch ⟨.move, 40, 0⟩

/-- The second position read is beyond the offset on both axes. -/
def keyGestureEvents : List Event :=
  [.tick 50, .touchActionUp, .dispatch ⟨2, 50, .mode .move⟩ ⟨0, 0⟩ ⟨160, 100⟩,
    .tick 50, .dispatch ⟨3, 100, .mode .move⟩ ⟨0, 0⟩ ⟨161, 170⟩]

theorem mode_scan_law_keyGesture :
    ∃ final, run step keyGesture
        (.dispatch ⟨1, 0, .mode .start⟩ ⟨0, 0⟩ ⟨100, 100⟩ :: keyGestureEvents) = some final ∧
      ScanLaw (fun a b => a - b) .key ⟨100, 100⟩ [⟨160, 100⟩, ⟨161, 170⟩]
        [.pushMotionEvent (-KeyEvent.keycodeHome) 0 0] 0 := by
  have heval : (run step keyGesture
      (.dispatch ⟨1, 0, .mode .start⟩ ⟨0, 0⟩ ⟨100, 100⟩ :: keyGestureEvents)).map
      (fun final => (pushedSince keyGesture.calls.length final,
        final.handler.count Callback.isMode)) =
      some ([.pushMotionEvent (-KeyEvent.keycodeHome) 0 0], 0) := by
    decide +kernel
  obtain ⟨final, hrun, hseen⟩ := Option.map_eq_some_iff.mp heval
  obtain ⟨hpushed, hpending⟩ := Prod.mk.inj hseen
  have hlaw := (mode_scan_law (by decide +kernel) rfl (by decide +kernel) (by decide +kernel)
    (by decide) hrun).2 (by decide)
  have hflag : keyGesture.modeFlag = .key := by decide +kernel
  rw [hflag, hpushed, hpending] at hlaw
  exact ⟨final, hrun, hlaw⟩

end SensorMouse.ButtonEventListener
