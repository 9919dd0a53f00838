import SensorMouse.Proof.ClickPoint
import SensorMouse.Proof.ServiceRing

/-!
# Where pointer events land

A pointer event is pushed at the point `getPositon` shows for a cursor: the present one, or for a
`DOWN` in state `DOWN` the one recorded half a ring of samples ago. The point is 30 below the cursor,
and the cursor may stand on the right edge and on the lower one. So a push lands on the display exactly
if its cursor stands in the frame of `InFrame`.
-/

namespace SensorMouse

open Android Java Lib

namespace ButtonEventListener

/-- The point of a pointer event. -/
def Call.point : Call → Option (Int × Int)
  | .pushMotionEvent action x y =>
      if action = MotionEvent.actionDown ∨ action = MotionEvent.actionMove ∨
          action = MotionEvent.actionUp then some (x, y)
      else none
  | _ => none

def points (listener : ButtonEventListener) : List (Int × Int) := listener.calls.filterMap Call.point

theorem point_of_mark_eq_none {made : Call} (hmark : made.mark = none) : made.point = none := by
  cases made with
  | getTimebackPosition | lockMouseAWhile x y wait | showToast index => rfl
  | pushMotionEvent action x y =>
      simp only [Call.mark] at hmark
      simp only [Call.point]
      split_ifs at hmark with hdown hmove hup
      rw [if_neg (by simp [hdown, hmove, hup])]

end ButtonEventListener

def OnDisplay (screenWidth screenHeight : Int) (point : Int × Int) : Prop :=
  (0 ≤ point.1 ∧ point.1 < screenWidth) ∧ (0 ≤ point.2 ∧ point.2 < screenHeight)

/-- The cursor positions that are shown on the display. -/
def InFrame (screenWidth screenHeight : Int) (position : Int × Int) : Prop :=
  (0 ≤ position.1 ∧ position.1 < screenWidth) ∧
    (-30 ≤ position.2 ∧ position.2 < screenHeight - 30)

instance (screenWidth screenHeight : Int) (point : Int × Int) :
    Decidable (OnDisplay screenWidth screenHeight point) := inferInstanceAs (Decidable (_ ∧ _))

instance (screenWidth screenHeight : Int) (position : Int × Int) :
    Decidable (InFrame screenWidth screenHeight position) := inferInstanceAs (Decidable (_ ∧ _))

theorem onDisplay_shown_iff {screenWidth screenHeight : Int} (hheight : screenHeight ≤ maxInt)
    {position : Int × Int} (hrange : InRange position.2) :
    OnDisplay screenWidth screenHeight (shown position) ↔
      InFrame screenWidth screenHeight position := by
  obtain ⟨hlower, hupper⟩ := hrange
  unfold maxInt at hheight hupper
  unfold minInt at hlower
  unfold OnDisplay InFrame shown wrap
  omega

namespace ControllerService

open ButtonEventListener (movedBeyond dragOffset)

variable {F : Type} {service next : ControllerService F} {screenWidth screenHeight : Int} {unit : Nat}

/-- The cursor half a ring of samples ago; until then the ring shows the origin. -/
def formerCursor (service : ControllerService F) : Int × Int :=
  if service.lookBackUnit ≤ service.sampler.passed then
    unshown (service.sampler.samples.getD (service.sampler.passed - service.lookBackUnit) (0, 0))
  else unshown (0, 0)

/-- The cursors at whose points `sendEventRunnable` pushes pointer events. -/
def sentFrom (service : ControllerService F) : List (Int × Int) :=
  let listener := service.buttonManager.buttonEventListener
  let present := (service.mouseManager.x, service.mouseManager.y)
  match listener.eventSendState with
  | .down =>
      if service.sampler.compute.getTimebackPosition.isOk then [service.formerCursor] else []
  | .up => [present]
  | .downAndUp => [present, present]
  | .downed =>
      if movedBeyond dragOffset listener.senderX service.cursor.x ||
          movedBeyond dragOffset listener.senderY service.cursor.y then [present]
      else []
  | _ => []

def pushedFrom (service : ControllerService F) : Event F → List (Int × Int)
  | .dispatch entry => if entry.item = .sendEvent then service.sentFrom else []
  | _ => []

theorem pushedFrom_sendEvent {entry : Entry ButtonEventListener.Callback}
    (hitem : entry.item = .sendEvent) : service.pushedFrom (.dispatch entry) = service.sentFrom :=
  if_pos hitem

theorem pushedFrom_mode {entry : Entry ButtonEventListener.Callback}
    {what : ButtonEventListener.ModeMessage} (hitem : entry.item = .mode what) :
    service.pushedFrom (.dispatch entry) = [] := if_neg (by simp [hitem])

/-- The position the ring finds is the one the former cursor is shown at. -/
theorem Steady.shown_formerCursor (hsteady : Steady screenWidth screenHeight unit service)
    (hpos : 1 ≤ unit) (hrange : (2 * unit : Nat) ≤ maxInt) {back : Int × Int}
    {compute : TimeBackCompute}
    (hback : service.sampler.compute.getTimebackPosition = .ok (back, compute)) :
    shown service.formerCursor = back := by
  obtain ⟨-, -, hentry⟩ :=
    (hsteady.rings.getTimebackPosition_eq_ok hpos hrange).mp ⟨compute, hback⟩
  rw [hsteady.rings.ahead hpos] at hentry
  unfold formerCursor
  rw [lookBackUnit_eq hsteady.rings]
  split_ifs at hentry ⊢ with hwarm
  · rw [List.getD_eq_getElem?_getD, hentry]
    exact shown_unshown (hsteady.samples back (List.mem_of_getElem? hentry))
  · rw [Option.some.inj hentry.symm]
    decide

variable [JavaFloat F]

omit [JavaFloat F] in
theorem points_button {event : Event F} {given : ButtonManager.Event}
    {made : List ButtonEventListener.Call} (hgiven : service.toButton event = some given)
    (hlooks : ¬ service.IsLookBack event) (hmakes : service.buttonManager.Makes given made) :
    made.filterMap ButtonEventListener.Call.point = (service.pushedFrom event).map shown := by
  cases event with
  | dispatch entry =>
      obtain rfl := Option.some.inj hgiven
      unfold ButtonManager.Makes ButtonEventListener.Makes at hmakes
      cases hitem : entry.item with
      | mode what =>
          simp only [hitem] at hmakes
          rw [pushedFrom_mode hitem, List.filterMap_eq_nil_iff.mpr fun call hcall =>
            ButtonEventListener.point_of_mark_eq_none (hmakes call hcall).2]
          rfl
      | sendEvent =>
          simp only [hitem] at hmakes
          rw [hmakes, pushedFrom_sendEvent hitem]
          unfold sentFrom ButtonEventListener.sent
          cases hstate : service.buttonManager.buttonEventListener.eventSendState with
          | down => exact absurd ⟨hitem, hstate⟩ hlooks
          | init | cancel | mode | up | downAndUp => simp only [hstate]; rfl
          | downed =>
              simp only [hstate]
              split_ifs
              · rfl
              · rfl
  | touch | touchActionUp | handleMessage | offer | notify | consume =>
      obtain rfl := Option.some.inj hgiven
      rw [show made = [] from hmakes]
      rfl
  | sensorCallback | unlock | sample | tick | onDestroy => cases hgiven

/-- What a step pushes, it pushes at the points its cursors are shown at. -/
theorem Steady.points_step (hsteady : Steady screenWidth screenHeight unit service)
    (hpos : 1 ≤ unit) (hrange : (2 * unit : Nat) ≤ maxInt) {event : Event F}
    (hstep : service.step event = some next) :
    next.buttonManager.buttonEventListener.points =
      service.buttonManager.buttonEventListener.points ++ (service.pushedFrom event).map shown := by
  have hnone : next.buttonManager.buttonEventListener.calls =
      service.buttonManager.buttonEventListener.calls → service.pushedFrom event = [] →
      next.buttonManager.buttonEventListener.points =
        service.buttonManager.buttonEventListener.points ++
          (service.pushedFrom event).map shown := by
    intro hcalls hpushed
    unfold ButtonEventListener.points
    rw [hcalls, hpushed, List.map_nil, List.append_nil]
  cases stepped_of_step hstep with
  | button hgiven hlooks hmanager =>
      obtain ⟨made, hcalls, hmakes⟩ := ButtonManager.makes_of_step hmanager
      unfold ButtonEventListener.points
      rw [hcalls, List.filterMap_append, points_button hgiven hlooks hmakes]
  | @lookBack entry back compute manager hlooks hback hmanager =>
      obtain ⟨switch, timers, thrown, hobeyed⟩ := service.obey_lookBack manager compute back
      obtain ⟨made, hcalls, hmakes⟩ := ButtonManager.makes_of_step hmanager
      obtain ⟨hitem, hdown⟩ := hlooks
      simp only [ButtonManager.Makes, ButtonEventListener.Makes, hitem, ButtonEventListener.sent,
        hdown] at hmakes
      have hpushed : service.pushedFrom (.dispatch entry) = [service.formerCursor] := by
        rw [pushedFrom_sendEvent hitem, sentFrom]
        simp [hdown, hback, Except.isOk, Except.toBool]
      rw [hobeyed, hpushed]
      unfold ButtonEventListener.points
      rw [hcalls, hmakes, List.filterMap_append, List.map_singleton,
        hsteady.shown_formerCursor hpos hrange hback]
      rfl
  | @lookBackThrows entry thrown hlooks hthrown =>
      obtain ⟨hitem, hdown⟩ := hlooks
      refine hnone rfl ?_
      rw [pushedFrom_sendEvent hitem, sentFrom]
      simp [hdown, hthrown, Except.isOk, Except.toBool]
  | onDestroy hidle =>
      have hlistener := service.buttonManager.buttonEventListener_stopButton
      exact hnone (congrArg ButtonEventListener.calls hlistener) rfl
  | sensorCallback | sensorCallbackThrows | unlock | sample | sampleThrows | tick =>
      exact hnone rfl rfl

/-- Every pointer event pushed so far is on the display. -/
def LandsOnDisplay (screenWidth screenHeight : Int) (service : ControllerService F) : Prop :=
  ∀ point ∈ service.buttonManager.buttonEventListener.points, OnDisplay screenWidth screenHeight point

/-- The cursors a step pushes from stand in the frame. -/
def PushesFromFrame (screenWidth screenHeight : Int) (service : ControllerService F)
    (event : Event F) : Prop :=
  ∀ position ∈ service.pushedFrom event, InFrame screenWidth screenHeight position

instance (screenWidth screenHeight : Int) (service : ControllerService F) (event : Event F) :
    Decidable (PushesFromFrame screenWidth screenHeight service event) :=
  inferInstanceAs (Decidable (∀ position ∈ _, _))

omit [JavaFloat F] in
theorem Steady.inRange_pushedFrom (hsteady : Steady screenWidth screenHeight unit service)
    {event : Event F} {position : Int × Int} (hmem : position ∈ service.pushedFrom event) :
    InRange position.2 := by
  have hformer : InRange service.formerCursor.2 := by
    unfold formerCursor
    split_ifs
    · exact inRange_unshown _
    · exact inRange_unshown _
  have hsent : ∀ position ∈ service.sentFrom, InRange position.2 := by
    have hpresent := hsteady.cursor
    unfold sentFrom
    cases hstate : service.buttonManager.buttonEventListener.eventSendState with
    | init | cancel | mode => simp [hstate]
    | up | downAndUp => simpa [hstate] using hpresent
    | down =>
        simp only [hstate]
        split_ifs
        · simpa using hformer
        · simp
    | downed =>
        simp only [hstate]
        split_ifs
        · simpa using hpresent
        · simp
  cases event with
  | dispatch entry =>
      cases hitem : entry.item with
      | sendEvent =>
          rw [pushedFrom_sendEvent hitem] at hmem
          exact hsent position hmem
      | mode what =>
          rw [pushedFrom_mode hitem] at hmem
          cases hmem
  | touch | touchActionUp | handleMessage | offer | notify | consume | sensorCallback | unlock
  | sample | tick | onDestroy => cases hmem

theorem Steady.landsOnDisplay_step_iff (hsteady : Steady screenWidth screenHeight unit service)
    (hpos : 1 ≤ unit) (hrange : (2 * unit : Nat) ≤ maxInt) (hheight : screenHeight ≤ maxInt)
    {event : Event F} (hstep : service.step event = some next) :
    LandsOnDisplay screenWidth screenHeight next ↔
      LandsOnDisplay screenWidth screenHeight service ∧
        PushesFromFrame screenWidth screenHeight service event := by
  have hshown : (∀ position ∈ service.pushedFrom event,
      OnDisplay screenWidth screenHeight (shown position)) ↔
        PushesFromFrame screenWidth screenHeight service event :=
    forall₂_congr fun position hmem =>
      onDisplay_shown_iff hheight (hsteady.inRange_pushedFrom hmem)
  unfold LandsOnDisplay
  rw [hsteady.points_step hpos hrange hstep, List.forall_mem_append, List.forall_mem_map, hshown]

/-- **Exactly when every pointer event lands on the display.** From the start of a service on, every
`DOWN`, `MOVE` and `UP` pushed is on the display exactly if every cursor that is pushed from stands left
of the right edge and between 30 above the upper edge and 30 above the lower one. -/
theorem landsOnDisplay_iff {intent : Intent F} {start final : ControllerService F}
    {events : List (Event F)} (hheight : 1 ≤ screenHeight) (hint : screenHeight ≤ maxInt)
    (hstart : onStartCommand screenWidth screenHeight intent = .ok start)
    (hrun : run step start events = some final) :
    LandsOnDisplay screenWidth screenHeight final ↔
      StepsAlong step (PushesFromFrame screenWidth screenHeight) start events := by
  have hscreen : InRange screenHeight := ⟨by unfold minInt; omega, hint⟩
  obtain ⟨unit, ⟨hpos, hrange⟩, hsteady⟩ :=
    exists_steady_of_onStartCommand hscreen (by omega) hstart
  refine holds_iff_stepsAlong hsteady ?_ (fun current event next hcurrent hstep =>
    ⟨hcurrent.step hpos hrange hscreen hstep,
      hcurrent.landsOnDisplay_step_iff hpos hrange hint hstep⟩) hrun
  obtain ⟨computer, period, back, wait, compute, -, rfl⟩ := exists_of_onStartCommand hstart
  intro point hmem
  cases hmem

/-- A ring of two cells, and the first sample. -/
def tapIntent : Intent ℚ := { averageNum := some 1, timeunit := some 1 }

def sampleEvents : List (Event ℚ) := List.replicate 6 .sample

def quickTapEvents : List (Event ℚ) :=
  sampleEvents ++ [.touch ⟨.down, 0, 0⟩, .tick 100, .dispatch ⟨0, 100, .sendEvent⟩]

theorem landsOnDisplay_iff_quickTap :
    ∃ start final : ControllerService ℚ, onStartCommand 480 800 tapIntent = .ok start ∧
      run step start quickTapEvents = some final ∧
      final.buttonManager.buttonEventListener.points = [(240, 430)] ∧
      LandsOnDisplay 480 800 final := by
  have hfacts : ((onStartCommand 480 800 tapIntent).toOption.bind fun start =>
      (run step start quickTapEvents).map fun final =>
        decide (StepsAlong step (PushesFromFrame 480 800) start quickTapEvents ∧
          final.buttonManager.buttonEventListener.points = [(240, 430)])) = some true := by
    decide +kernel
  obtain ⟨start, final, hstart, hrun, hsteps, hpoints⟩ := exists_run_of_bind_eq _ hfacts
  have hcreate := toOption_eq_some.mp hstart
  exact ⟨start, final, hcreate, hrun, hpoints,
    (landsOnDisplay_iff (by decide) (by decide) hcreate hrun).mpr hsteps⟩

/-- A press finds the ring with `timeUnit` recorded positions. -/
def PressesWarm (service : ControllerService F) : Event F → Prop
  | .touch event => event.action = .down →
      service.mouseManager.timeUnit ≤ service.sampler.passed
  | _ => True

instance decidablePressesWarm (service : ControllerService F) :
    (event : Event F) → Decidable (service.PressesWarm event)
  | .touch _ => inferInstanceAs (Decidable (_ → _))
  | .touchActionUp | .dispatch _ | .handleMessage _ | .offer _ | .notify | .consume _
  | .sensorCallback _ _ _ _ | .unlock _ | .sample | .tick _ | .onDestroy => isTrue trivial

/-- The cursor is pushed against the right edge before the sample and the tap. -/
def edgeTapEvents : List (Event ℚ) := .sensorCallback true 0 500 0 :: quickTapEvents

theorem not_landsOnDisplay_edgeTap :
    ¬ ∀ (screenWidth screenHeight : Int) (intent : Intent ℚ) (start final : ControllerService ℚ)
        (events : List (Event ℚ)), 1 ≤ screenWidth → 1 ≤ screenHeight →
      onStartCommand screenWidth screenHeight intent = .ok start →
      run step start events = some final → StepsAlong step Timely start events →
      (∀ isPortrait x y z, .sensorCallback isPortrait x y z ∈ events → isPortrait = true) →
      StepsAlong step PressesWarm start events → LandsOnDisplay screenWidth screenHeight final := by
  intro hclaim
  have hfacts : ((onStartCommand 480 800 tapIntent).toOption.bind fun start =>
      (run step start edgeTapEvents).map fun final =>
        decide (StepsAlong step Timely start edgeTapEvents ∧
          StepsAlong step PressesWarm start edgeTapEvents ∧
          (480, 430) ∈ final.buttonManager.buttonEventListener.points)) = some true := by
    decide +kernel
  obtain ⟨start, final, hstart, hrun, htimely, hwarm, hpoint⟩ := exists_run_of_bind_eq _ hfacts
  have hlands := hclaim 480 800 tapIntent start final edgeTapEvents (by decide) (by decide)
    (toOption_eq_some.mp hstart) hrun htimely
    (by simp [edgeTapEvents, quickTapEvents, sampleEvents]) hwarm
  exact absurd (hlands _ hpoint) (by decide)

end ControllerService

end SensorMouse
