import SensorMouse.Proof.BlockLaw
import SensorMouse.Proof.EdgeSaturation
import SensorMouse.Proof.ModeScan

/-!
# Reaching the keys

A KEY scan asks for a key once the cursor is more than 60 away from where the scan started. The cursor
does not leave the screen sideways, so HOME and BACK need that much room on their side. SEARCH and MENU
need it above or below, or a vertical edge within the 60: a sample that goes past such an edge leaves
the other coordinate as it falls, and the cursor is still in the column of the start.
-/

namespace SensorMouse

open Android Java Lib ButtonEventListener

/-! ### The keys -/

/-- The keys of the KEY mode. -/
inductive Key where
  | home
  | back
  | search
  | menu
  deriving DecidableEq, Repr

namespace Key

def keyCode : Key → Int
  | home => KeyEvent.keycodeHome
  | back => KeyEvent.keycodeBack
  | search => KeyEvent.keycodeSearch
  | menu => KeyEvent.keycodeMenu

/-- The displacements that ask for a key. -/
def Asked (lengthX lengthY : Int) : Key → Prop
  | home => 60 < lengthX
  | back => lengthX < -60
  | search => (-60 ≤ lengthX ∧ lengthX ≤ 60) ∧ 60 < lengthY
  | menu => (-60 ≤ lengthX ∧ lengthX ≤ 60) ∧ lengthY < -60

instance decidableAsked {lengthX lengthY : Int} :
    (key : Key) → Decidable (key.Asked lengthX lengthY)
  | home => inferInstanceAs (Decidable (_ < _))
  | back => inferInstanceAs (Decidable (_ < _))
  | search => inferInstanceAs (Decidable (_ ∧ _))
  | menu => inferInstanceAs (Decidable (_ ∧ _))

/-- A vertical edge that the cursor can be sent past without leaving the column of `x`. -/
def BesideEdge (width x : Int) : Prop := x ≤ 60 ∨ (width ≤ x + 60 ∧ width < maxInt)

/-- The starting points from which there is room for a key. -/
def HasRoom (width height x y : Int) : Key → Prop
  | home => x + 60 < width
  | back => 60 < x
  | search => y + 60 < height ∨ BesideEdge width x
  | menu => 60 < y ∨ BesideEdge width x

theorem keyCommand_eq_some {lengthX lengthY : Int} (key : Key) :
    keyCommand lengthX lengthY = some (-key.keyCode) ↔ key.Asked lengthX lengthY := by
  unfold keyCommand modeMouseOffsetThreshold
  cases key with
  | home | back | search | menu =>
      unfold Asked keyCode
      split_ifs <;> simp [KeyEvent.keycodeHome, KeyEvent.keycodeBack, KeyEvent.keycodeSearch,
        KeyEvent.keycodeMenu] <;> omega

end Key

/-! ### Where the samples leave the cursor -/

/-- What the clamp makes of the sum of a position and a displacement: y is clamped only if x need not
be. -/
def Placed (width height x y : Int) : Prop :=
  (0 ≤ x ∧ x ≤ width) ∧
    ((0 ≤ y ∧ y ≤ height) ∨ x = 0 ∨ (x = width ∧ width < maxInt))

theorem placed_clampTo {width height x y : Int} (hwidth : 0 ≤ width) (hheight : 0 ≤ height)
    (hx : x ≤ maxInt) : Placed width height (MouseManager.clampTo width height x y).1
      (MouseManager.clampTo width height x y).2 := by
  unfold MouseManager.clampTo Placed
  split_ifs <;> dsimp only <;> omega

/-- The heights of two cursors differ by what their positions do. -/
theorem wrap_sub_getPositon (y start : Int) :
    wrap (wrap (y + 30) - wrap (start + 30)) = wrap (y - start) := by
  unfold wrap
  omega

/-- A displacement that is not clamped is found again, also where the sum wraps. -/
theorem wrap_add_sub (y : Int) {dy : Int} (hdy : InRange dy) : wrap (wrap (y + dy) - y) = dy := by
  obtain ⟨hlower, hupper⟩ := hdy
  unfold minInt at hlower
  unfold maxInt at hupper
  unfold wrap
  omega

theorem wrap_sub_within {size first second : Int} (hsize : size ≤ maxInt)
    (hfirst : 0 ≤ first ∧ first ≤ size) (hsecond : 0 ≤ second ∧ second ≤ size) :
    wrap (second - first) = second - first := by
  refine wrap_of_inRange ⟨?_, ?_⟩
  · unfold minInt
    unfold maxInt at hsize
    omega
  · omega

section

variable {width height x y : Int} {key : Key}

theorem hasRoom_of_asked (hwidth : width ≤ maxInt) (hheight : height ≤ maxInt) {x' y' : Int}
    (hx : 0 ≤ x ∧ x ≤ width) (hy : 0 ≤ y ∧ y ≤ height) (hplaced : Placed width height x' y')
    (hasked : key.Asked (wrap (x' - x)) (wrap (y' - y))) : key.HasRoom width height x y := by
  obtain ⟨hx', hcolumn⟩ := hplaced
  -- In the column of the start, y is clamped unless the cursor is at an edge.
  have hlengthY (hnear : -60 ≤ x' - x ∧ x' - x ≤ 60) :
      Key.BesideEdge width x ∨ ((0 ≤ y' ∧ y' ≤ height) ∧ wrap (y' - y) = y' - y) := by
    unfold Key.BesideEdge
    rcases hcolumn with hy' | rfl | ⟨rfl, hint⟩
    · exact Or.inr ⟨hy', wrap_sub_within hheight hy hy'⟩
    · omega
    · omega
  rw [wrap_sub_within hwidth hx hx'] at hasked
  cases key with
  | home | back =>
      unfold Key.Asked at hasked
      unfold Key.HasRoom
      omega
  | search | menu =>
      obtain ⟨hnear, hbeyond⟩ := hasked
      rcases hlengthY hnear with hedge | ⟨hy', hlength⟩
      · exact Or.inr hedge
      · rw [hlength] at hbeyond
        exact Or.inl (by omega)

/-- A step past the edge beside the start: the cursor stays in the column, and y is left alone. -/
theorem exists_pastEdge (hx : 0 ≤ x ∧ x ≤ width) (hedge : Key.BesideEdge width x) (height : Int) :
    ∃ dx x', InRange dx ∧ (0 ≤ x' ∧ x' ≤ width) ∧ (-60 ≤ x' - x ∧ x' - x ≤ 60) ∧
      ∀ y, MouseManager.clampTo width height (wrap (x + dx)) y = (x', y) := by
  rcases hedge with hleft | ⟨hright, hint⟩
  · have hpast : wrap (x + (-1 - x)) = -1 := by
      rw [add_sub_cancel]
      rfl
    refine ⟨-1 - x, 0, ⟨?_, ?_⟩, by omega, by omega, fun y => ?_⟩
    · unfold minInt
      omega
    · unfold maxInt
      omega
    · unfold MouseManager.clampTo
      rw [hpast]
      exact if_pos (by decide)
  · have hpast : wrap (x + (width + 1 - x)) = width + 1 := by
      rw [add_sub_cancel]
      refine wrap_of_inRange ⟨?_, hint⟩
      unfold minInt
      omega
    refine ⟨width + 1 - x, width, ⟨?_, ?_⟩, by omega, by omega, fun y => ?_⟩
    · unfold minInt
      omega
    · unfold maxInt
      omega
    · unfold MouseManager.clampTo
      rw [hpast, if_neg (by omega), if_pos (by omega)]

theorem clampTo_of_within {x y : Int} (hx : 0 ≤ x ∧ x ≤ width) (hy : 0 ≤ y ∧ y ≤ height) :
    MouseManager.clampTo width height x y = (x, y) := by
  unfold MouseManager.clampTo
  rw [if_neg (by omega), if_neg (by omega), if_neg (by omega), if_neg (by omega)]

/-- A displacement of the cursor from `(x, y)` asks for the key. -/
def Key.AskedBy (width height x y dx dy : Int) (key : Key) : Prop :=
  let placed := MouseManager.clampTo width height (wrap (x + dx)) (wrap (y + dy))
  key.Asked (wrap (placed.1 - x)) (wrap (placed.2 - y))

theorem askedBy_of_within (hwidth : width ≤ maxInt) (hheight : height ≤ maxInt)
    (hx : 0 ≤ x ∧ x ≤ width) (hy : 0 ≤ y ∧ y ≤ height) {dx dy : Int}
    (hx' : 0 ≤ x + dx ∧ x + dx ≤ width) (hy' : 0 ≤ y + dy ∧ y + dy ≤ height)
    (hasked : key.Asked dx dy) : key.AskedBy width height x y dx dy := by
  have hsumX : wrap (x + dx) = x + dx :=
    wrap_of_inRange ⟨(by decide : minInt ≤ 0).trans hx'.1, hx'.2.trans hwidth⟩
  have hsumY : wrap (y + dy) = y + dy :=
    wrap_of_inRange ⟨(by decide : minInt ≤ 0).trans hy'.1, hy'.2.trans hheight⟩
  unfold Key.AskedBy
  rw [hsumX, hsumY, clampTo_of_within hx' hy']
  dsimp only
  rw [wrap_sub_within hwidth hx hx', wrap_sub_within hheight hy hy', add_sub_cancel_left,
    add_sub_cancel_left]
  exact hasked

theorem exists_askedBy_of_besideEdge (hwidth : width ≤ maxInt) (hx : 0 ≤ x ∧ x ≤ width)
    (hedge : Key.BesideEdge width x) {dy : Int} (hdy : InRange dy)
    (hasked : ∀ lengthX, -60 ≤ lengthX ∧ lengthX ≤ 60 → key.Asked lengthX dy) :
    ∃ dx dy, InRange dx ∧ InRange dy ∧ key.AskedBy width height x y dx dy := by
  obtain ⟨dx, x', hdx, hx', hnear, hclamp⟩ := exists_pastEdge hx hedge height
  refine ⟨dx, dy, hdx, hdy, ?_⟩
  unfold Key.AskedBy
  rw [hclamp]
  dsimp only
  rw [wrap_sub_within hwidth hx hx', wrap_add_sub y hdy]
  exact hasked _ hnear

/-- Where there is room for a key, one displacement asks for it. -/
theorem exists_askedBy (hwidth : width ≤ maxInt) (hheight : height ≤ maxInt)
    (hx : 0 ≤ x ∧ x ≤ width) (hy : 0 ≤ y ∧ y ≤ height) (hroom : key.HasRoom width height x y) :
    ∃ dx dy, InRange dx ∧ InRange dy ∧ key.AskedBy width height x y dx dy := by
  have hwithin {dx dy : Int} := @askedBy_of_within _ _ _ _ key hwidth hheight hx hy dx dy
  cases key with
  | home =>
      unfold Key.HasRoom at hroom
      exact ⟨61, 0, by decide, by decide, hwithin (by omega) (by omega) (by decide)⟩
  | back =>
      unfold Key.HasRoom at hroom
      exact ⟨-61, 0, by decide, by decide, hwithin (by omega) (by omega) (by decide)⟩
  | search =>
      rcases hroom with hbelow | hedge
      · exact ⟨0, 61, by decide, by decide, hwithin (by omega) (by omega) (by decide)⟩
      · have hasked : ∀ lengthX, -60 ≤ lengthX ∧ lengthX ≤ 60 → Key.search.Asked lengthX 61 :=
          fun lengthX hnear => ⟨hnear, by decide⟩
        exact exists_askedBy_of_besideEdge hwidth hx hedge (by decide) hasked
  | menu =>
      rcases hroom with habove | hedge
      · exact ⟨0, -61, by decide, by decide, hwithin (by omega) (by omega) (by decide)⟩
      · have hasked : ∀ lengthX, -60 ≤ lengthX ∧ lengthX ≤ 60 → Key.menu.Asked lengthX (-61) :=
          fun lengthX hnear => ⟨hnear, by decide⟩
        exact exists_askedBy_of_besideEdge hwidth hx hedge (by decide) hasked

end

namespace MouseManager

variable {F : Type} [JavaFloat F] {mouse next : MouseManager F}

def Stands (mouse : MouseManager F) : Prop :=
  Placed mouse.screenWidth mouse.screenHeight mouse.x mouse.y

/-- A sample leaves the cursor where the clamp may put it. -/
theorem stands_of_sensorCallback (hwidth : 0 ≤ mouse.screenWidth) (hheight : 0 ≤ mouse.screenHeight)
    {isPortrait : Bool} {x y z : F} (hstands : mouse.Stands)
    (hmouse : mouse.sensorCallback isPortrait x y z = .ok next) :
    (next.screenWidth = mouse.screenWidth ∧ next.screenHeight = mouse.screenHeight) ∧
      next.Stands := by
  rcases exists_of_sensorCallback hmouse with ⟨computer, rfl⟩ | ⟨-, computer, position, rfl⟩
  · exact ⟨⟨rfl, rfl⟩, hstands⟩
  · refine ⟨⟨rfl, rfl⟩, ?_⟩
    refine placed_clampTo hwidth hheight ?_
    rw [displaced_fst]
    exact (wrap_inRange _).2

/-- Where all settings are one, a sample of two `int`s is the displacement. -/
theorem sensorCallback_of_window {mouse : MouseManager ℚ} {samples : List (ℚ × ℚ)}
    (haccepts : mouse.Accepts)
    (hwindow : AverageComputerForService.Window 1 (1 : ℚ) 1 1 samples mouse.computer) {dx dy : Int}
    (hdx : InRange dx) (hdy : InRange dy) (z : ℚ) :
    ∃ next, mouse.sensorCallback true dy dx z = .ok next ∧
      (next.x, next.y) = clampTo mouse.screenWidth mouse.screenHeight (wrap (mouse.x + dx))
        (wrap (mouse.y + dy)) := by
  obtain ⟨values, computer, hcompute, -, hfirst, hsecond⟩ :=
    hwindow.computeValue_of_dvd Nat.one_pos dy dx (one_dvd _)
  have hlatest : Blocks.latest 1 (samples ++ [((dy : ℚ), (dx : ℚ))]) = [((dy : ℚ), (dx : ℚ))] := by
    unfold Blocks.latest
    rw [List.length_append, List.length_singleton, Nat.add_sub_cancel, List.drop_left]
  have hcast {z : Int} (hz : InRange z) : AverageComputerForService.answer 1 1
      (AverageComputerForService.blockSum [(z : ℚ) * 1]) = z := by
    have htotal : ((z : ℚ) * 1) * ((1 : Int) : ℚ) * ((1 : Int) : ℚ) = z := by
      rw [Int.cast_one, mul_one, mul_one, mul_one]
    have htrunc : trunc (z : ℚ) = z := by
      unfold trunc
      rw [Int.floor_intCast, Int.ceil_intCast, ite_self]
    change saturate (trunc (((z : ℚ) * 1) * ((1 : Int) : ℚ) * ((1 : Int) : ℚ))) = z
    rw [htotal, htrunc, saturate_of_inRange hz]
  rw [hlatest, List.map_singleton, hcast hdy] at hfirst
  rw [hlatest, List.map_singleton, hcast hdx] at hsecond
  refine ⟨_, (sensorCallback_eq_ok haccepts).mpr ⟨some values, computer, hcompute, rfl⟩, ?_⟩
  change clampTo _ _ (wrap (mouse.x + values 1)) (wrap (mouse.y + values 0)) = _
  rw [hfirst, hsecond]

end MouseManager

/-! ### The scan and the samples -/

/-- The handler of a KEY gesture, and the cursor it reads. -/
structure KeyScan (F : Type) where
  listener : ButtonEventListener
  mouse : MouseManager F

namespace KeyScan

variable {F : Type}

/-- A sample of the sensor, or an event of the handler's thread other than a touch. -/
inductive Event (F : Type) where
  | sensorCallback (x y z : F)
  | touchActionUp
  | tick (elapsed : Nat)
  | dispatch (entry : Entry Callback) (back : Position)

def cursor (scan : KeyScan F) : Position := ⟨scan.mouse.getPositon.1, scan.mouse.getPositon.2⟩

def hear (scan : KeyScan F) (event : ButtonEventListener.Event) : Option (KeyScan F) :=
  (scan.listener.step event).map fun listener => { scan with listener := listener }

variable [JavaFloat F]

/-- The screen is upright; a message reads the cursor where it is. -/
def step (scan : KeyScan F) : Event F → Option (KeyScan F)
  | .sensorCallback x y z =>
      (scan.mouse.sensorCallback true x y z).toOption.map fun mouse => { scan with mouse := mouse }
  | .touchActionUp => scan.hear .touchActionUp
  | .tick elapsed => scan.hear (.tick elapsed)
  | .dispatch entry back => scan.hear (.dispatch entry back scan.cursor)

/-- `entry` is the `MODE_STATE_START` of a KEY gesture, and no other message of the mode waits. -/
structure Starts (scan : KeyScan F) (entry : Entry Callback) : Prop where
  pending : entry ∈ scan.listener.handler.pending
  item : entry.item = .mode .start
  flag : scan.listener.modeFlag = .key
  only : scan.listener.handler.count Callback.isMode = 1

/-- Samples and messages there are by which the scan pushes the key. -/
def Pushes (scan : KeyScan F) (entry : Entry Callback) (key : Key) : Prop :=
  ∃ back events final, run step scan (.dispatch entry back :: events) = some final ∧
    Call.pushMotionEvent (-key.keyCode) 0 0 ∈
      pushedSince scan.listener.calls.length final.listener

/-- A scan from `(x, y)`: the cursors it has read are where the clamp may have put them. -/
structure Watched (width height x y : Int) (base : Nat) (cursors : List Position)
    (state : ScanState Int) (scan : KeyScan F) : Prop where
  scanning : Scanning base .key ⟨x, wrap (y + 30)⟩ cursors state scan.listener
  seen : ∀ q ∈ cursors, ∃ x' y', q = ⟨x', wrap (y' + 30)⟩ ∧ Placed width height x' y'
  screenWidth : scan.mouse.screenWidth = width
  screenHeight : scan.mouse.screenHeight = height
  stands : scan.mouse.Stands

section

variable {width height x y : Int} {base : Nat} {cursors : List Position} {state : ScanState Int}
  {scan next : KeyScan F} {entry : Entry Callback} {key : Key}

omit [JavaFloat F] in
/-- An event of the thread reads the cursor at most. -/
theorem Watched.hear (hwatched : Watched width height x y base cursors state scan)
    {event : ButtonEventListener.Event} (htouch : ¬ event.IsTouch)
    (hcursor : ∀ q, event.modeCursor = some q → q = scan.cursor)
    (hhear : scan.hear event = some next) :
    ∃ reached, Watched width height x y base (cursors ++ event.modeCursor.toList) reached next := by
  obtain ⟨listener, hstep, rfl⟩ := Option.map_eq_some_iff.mp hhear
  obtain ⟨reached, hscanning⟩ := hwatched.scanning.step (Or.inl rfl) htouch hstep
  refine ⟨reached, hscanning, fun q hq => ?_, hwatched.screenWidth, hwatched.screenHeight,
    hwatched.stands⟩
  rcases List.mem_append.mp hq with hold | hnew
  · exact hwatched.seen q hold
  · obtain rfl := hcursor q (Option.mem_toList.mp hnew)
    have hstands := hwatched.stands
    unfold MouseManager.Stands at hstands
    rw [hwatched.screenWidth, hwatched.screenHeight] at hstands
    exact ⟨scan.mouse.x, scan.mouse.y, rfl, hstands⟩

theorem Watched.step (hwatched : Watched width height x y base cursors state scan)
    (hwidth : 0 ≤ width) (hheight : 0 ≤ height) {event : Event F}
    (hstep : scan.step event = some next) :
    ∃ cursors' state', Watched width height x y base cursors' state' next := by
  cases event with
  | sensorCallback x' y' z =>
      obtain ⟨mouse, hmouse, rfl⟩ := Option.map_eq_some_iff.mp hstep
      obtain ⟨⟨hsameWidth, hsameHeight⟩, hstands⟩ := MouseManager.stands_of_sensorCallback
        (hwatched.screenWidth.symm ▸ hwidth) (hwatched.screenHeight.symm ▸ hheight) hwatched.stands
        (toOption_eq_some.mp hmouse)
      exact ⟨cursors, state, hwatched.scanning, hwatched.seen,
        hsameWidth.trans hwatched.screenWidth, hsameHeight.trans hwatched.screenHeight, hstands⟩
  | touchActionUp | tick =>
      obtain ⟨reached, hnext⟩ := hwatched.hear id (fun q hq => by cases hq) hstep
      exact ⟨_, reached, hnext⟩
  | dispatch entry back =>
      have hcursor : ∀ q, (ButtonEventListener.Event.dispatch entry back scan.cursor).modeCursor =
          some q → q = scan.cursor := by
        intro q hq
        exact (Option.some.inj (Option.ite_none_right_eq_some.mp hq).2).symm
      obtain ⟨reached, hnext⟩ := hwatched.hear id hcursor hstep
      exact ⟨_, reached, hnext⟩

theorem Watched.run (hwatched : Watched width height x y base cursors state scan)
    (hwidth : 0 ≤ width) (hheight : 0 ≤ height) {events : List (Event F)} {final : KeyScan F}
    (hrun : run KeyScan.step scan events = some final) :
    ∃ cursors' state', Watched width height x y base cursors' state' final := by
  refine run_invariant (fun scan => ∃ cursors' state',
    Watched width height x y base cursors' state' scan) ⟨cursors, state, hwatched⟩ ?_ hrun
  rintro current event next ⟨cursors', state', hcurrent⟩ hstep
  exact hcurrent.step hwidth hheight hstep

omit [JavaFloat F] in
/-- A scan asks for a key only at a cursor that it has read. -/
theorem Watched.exists_asked (hwatched : Watched width height x y base cursors state scan)
    (hpushed : Call.pushMotionEvent (-key.keyCode) 0 0 ∈ pushedSince base scan.listener) :
    ∃ x' y', Placed width height x' y' ∧ key.Asked (wrap (x' - x)) (wrap (y' - y)) := by
  rw [hwatched.scanning.pushed_eq] at hpushed
  obtain ⟨action, hanswer, haction⟩ := List.mem_map.mp hpushed
  injection haction with haction
  cases state with
  | reading => cases hanswer
  | spent => cases hanswer
  | hit answer =>
      obtain rfl := List.mem_singleton.mp hanswer
      obtain ⟨before, q, rfl, -, -, hasked⟩ :=
        hwatched.scanning.scanned.of_hit (by decide : 0 < modeCounterThreshold)
      obtain ⟨x', y', rfl, hplaced⟩ := hwatched.seen q List.mem_concat_self
      refine ⟨x', y', hplaced, (Key.keyCommand_eq_some key).mp ?_⟩
      rw [← haction, ← hasked, ← wrap_sub_getPositon y' y]
      rfl

theorem Starts.watched (hstarts : scan.Starts entry) (hstands : scan.mouse.Stands)
    (back : Position) :
    ∃ started, scan.step (.dispatch entry back) = some started ∧ started.mouse = scan.mouse ∧
      Watched scan.mouse.screenWidth scan.mouse.screenHeight scan.mouse.x scan.mouse.y
        scan.listener.calls.length [] .reading started := by
  have hlistener : scan.listener.step (.dispatch entry back scan.cursor) =
      some (scan.listener.dispatch entry back scan.cursor) := if_pos hstarts.pending
  refine ⟨{ scan with listener := scan.listener.dispatch entry back scan.cursor }, ?_, rfl, ?_⟩
  · unfold step hear
    simp only [hlistener]
    rfl
  · have hscanning := scanning_start (Or.inl hstarts.flag) hstarts.pending hstarts.item hstarts.only
      back scan.cursor
    rw [hstarts.flag] at hscanning
    exact ⟨hscanning, fun q hq => absurd hq List.not_mem_nil, rfl, rfl, hstands⟩

/-- No samples take the cursor where a key is asked for that there is no room for. -/
theorem hasRoom_of_pushes (hstarts : scan.Starts entry) (hwidth : scan.mouse.screenWidth ≤ maxInt)
    (hheight : scan.mouse.screenHeight ≤ maxInt)
    (hx : 0 ≤ scan.mouse.x ∧ scan.mouse.x ≤ scan.mouse.screenWidth)
    (hy : 0 ≤ scan.mouse.y ∧ scan.mouse.y ≤ scan.mouse.screenHeight)
    (hpushes : scan.Pushes entry key) :
    key.HasRoom scan.mouse.screenWidth scan.mouse.screenHeight scan.mouse.x scan.mouse.y := by
  obtain ⟨back, events, final, hrun, hpushed⟩ := hpushes
  obtain ⟨started, hstarted, hrest⟩ := (run_cons_eq_some _).mp hrun
  obtain ⟨other, hother, -, hwatched⟩ := hstarts.watched ⟨hx, Or.inl hy⟩ back
  obtain rfl := Option.some.inj (hother.symm.trans hstarted)
  obtain ⟨cursors, state, hfinal⟩ :=
    hwatched.run (hx.1.trans hx.2) (hy.1.trans hy.2) hrest
  obtain ⟨x', y', hplaced, hasked⟩ := hfinal.exists_asked hpushed
  exact hasRoom_of_asked hwidth hheight hx hy hplaced hasked

end

/-- A scan that reads a cursor whose displacement asks for the key pushes it. -/
theorem pushed_of_dispatch {base : Nat} {start cursor : Position} {listener : ButtonEventListener}
    {key : Key} (hscanning : Scanning base .key start [] .reading listener)
    (hasked : asked .key start cursor = some (-key.keyCode)) (back : Position) :
    ∃ entry, entry ∈ listener.handler.pending ∧ pushedSince base
      (listener.dispatch entry back cursor) = [.pushMotionEvent (-key.keyCode) 0 0] := by
  have hpending : 0 < listener.handler.count Callback.isMode := by
    rw [hscanning.pending_eq]
    exact Nat.one_pos
  obtain ⟨entry, hmem, hmode⟩ := List.countP_pos_iff.mp hpending
  obtain ⟨reached, hreached⟩ := hscanning.dispatch (Or.inl rfl) hmem back cursor
  have hread : (ButtonEventListener.Event.dispatch entry back cursor).modeCursor = some cursor :=
    if_pos hmode
  rw [hread, Option.toList_some, List.nil_append] at hreached
  obtain ⟨-, rfl⟩ := hreached.scanned.eq_hit_of_first (by decide : 0 < modeCounterThreshold)
    (by decide : 0 + 1 < modeCounterThreshold) rfl hasked
    fun earlier other hearlier => absurd hearlier (Nat.not_lt_zero earlier)
  exact ⟨entry, hmem, hreached.pushed_eq⟩

section

variable {scan : KeyScan ℚ} {entry : Entry Callback} {samples : List (ℚ × ℚ)} {key : Key}

/-- Where there is room, one sample before the first message is enough. -/
theorem pushes_of_hasRoom (hstarts : scan.Starts entry) (haccepts : scan.mouse.Accepts)
    (hwindow : AverageComputerForService.Window 1 (1 : ℚ) 1 1 samples scan.mouse.computer)
    (hwidth : scan.mouse.screenWidth ≤ maxInt) (hheight : scan.mouse.screenHeight ≤ maxInt)
    (hx : 0 ≤ scan.mouse.x ∧ scan.mouse.x ≤ scan.mouse.screenWidth)
    (hy : 0 ≤ scan.mouse.y ∧ scan.mouse.y ≤ scan.mouse.screenHeight)
    (hroom : key.HasRoom scan.mouse.screenWidth scan.mouse.screenHeight scan.mouse.x
      scan.mouse.y) :
    scan.Pushes entry key := by
  obtain ⟨dx, dy, hdx, hdy, haskedBy⟩ := exists_askedBy hwidth hheight hx hy hroom
  obtain ⟨started, hstarted, hmouse, hwatched⟩ := hstarts.watched ⟨hx, Or.inl hy⟩ ⟨0, 0⟩
  obtain ⟨moved, hmoved, hplace⟩ :=
    MouseManager.sensorCallback_of_window haccepts hwindow hdx hdy 0
  have hasked : asked .key ⟨scan.mouse.x, wrap (scan.mouse.y + 30)⟩
      ⟨moved.x, wrap (moved.y + 30)⟩ = some (-key.keyCode) := by
    unfold Key.AskedBy at haskedBy
    rw [← hplace] at haskedBy
    dsimp only at haskedBy
    rw [← wrap_sub_getPositon moved.y] at haskedBy
    exact (Key.keyCommand_eq_some key).mpr haskedBy
  obtain ⟨message, hmem, hpushed⟩ := pushed_of_dispatch hwatched.scanning hasked ⟨0, 0⟩
  have hsample : started.step (.sensorCallback dy dx 0) = some { started with mouse := moved } := by
    change (started.mouse.sensorCallback true dy dx 0).toOption.map _ = _
    rw [hmouse, hmoved]
    rfl
  have hread : ({ started with mouse := moved } : KeyScan ℚ).step (.dispatch message ⟨0, 0⟩) =
      some ⟨started.listener.dispatch message ⟨0, 0⟩ ⟨moved.x, wrap (moved.y + 30)⟩, moved⟩ :=
    congrArg (Option.map fun listener => (⟨listener, moved⟩ : KeyScan ℚ)) (if_pos hmem)
  refine ⟨⟨0, 0⟩, [.sensorCallback dy dx 0, .dispatch message ⟨0, 0⟩], _,
    (run_cons_eq_some _).mpr ⟨started, hstarted, (run_cons_eq_some _).mpr
      ⟨_, hsample, (run_cons_eq_some _).mpr ⟨_, hread, rfl⟩⟩⟩, ?_⟩
  dsimp only
  rw [hpushed]
  exact List.mem_singleton_self _

/-- **Reaching the keys.** From a start on the screen there are samples by which the scan pushes a key
exactly if there is room for the key. -/
theorem pushes_iff_hasRoom (hstarts : scan.Starts entry) (haccepts : scan.mouse.Accepts)
    (hwindow : AverageComputerForService.Window 1 (1 : ℚ) 1 1 samples scan.mouse.computer)
    (hwidth : scan.mouse.screenWidth ≤ maxInt) (hheight : scan.mouse.screenHeight ≤ maxInt)
    (hx : 0 ≤ scan.mouse.x ∧ scan.mouse.x ≤ scan.mouse.screenWidth)
    (hy : 0 ≤ scan.mouse.y ∧ scan.mouse.y ≤ scan.mouse.screenHeight) (key : Key) :
    scan.Pushes entry key ↔
      key.HasRoom scan.mouse.screenWidth scan.mouse.screenHeight scan.mouse.x scan.mouse.y :=
  ⟨hasRoom_of_pushes hstarts hwidth hheight hx hy,
    pushes_of_hasRoom hstarts haccepts hwindow hwidth hheight hx hy⟩

end

theorem starts_keyGesture (mouse : MouseManager ℚ) :
    (⟨keyGesture, mouse⟩ : KeyScan ℚ).Starts ⟨1, 0, .mode .start⟩ := by
  have hmem : (⟨1, 0, .mode .start⟩ : Entry Callback) ∈ keyGesture.handler.pending := by
    decide +kernel
  have hflag : keyGesture.modeFlag = .key := by decide +kernel
  have honly : keyGesture.handler.count Callback.isMode = 1 := by decide +kernel
  exact ⟨hmem, rfl, hflag, honly⟩

/-- The cursor at `(x, y)` of a screen of 480 by 800, the settings all one. -/
theorem exists_mouse {x y : Int} (hx : 0 ≤ x ∧ x ≤ 480) (hy : 0 ≤ y ∧ y ≤ 800) :
    ∃ mouse, (MouseManager.create 480 800 1 (1 : ℚ) 1 1 20 200 1000).map
        (fun created => created.startMouse.updateMousePosition x y) = .ok mouse ∧
      mouse.Accepts ∧ AverageComputerForService.Window 1 (1 : ℚ) 1 1 [] mouse.computer ∧
      mouse.screenWidth = 480 ∧ mouse.screenHeight = 800 ∧ mouse.x = x ∧ mouse.y = y := by
  obtain ⟨computer, hcomputer⟩ : ∃ computer,
      AverageComputerForService.create ((1 : Nat) : Int) (1 : ℚ) 1 1 = .ok computer := ⟨_, rfl⟩
  have hwindow := AverageComputerForService.window_create hcomputer
  obtain rfl := Except.ok.inj hcomputer
  have hplace := clampTo_of_within hx hy
  exact ⟨_, rfl, rfl, hwindow, rfl, rfl, congrArg Prod.fst hplace, congrArg Prod.snd hplace⟩

/-- From the middle of the screen every key can be reached. -/
theorem pushes_iff_hasRoom_middle :
    ∃ mouse : MouseManager ℚ, mouse.x = 240 ∧ mouse.y = 400 ∧
      ∀ key, (⟨keyGesture, mouse⟩ : KeyScan ℚ).Pushes ⟨1, 0, .mode .start⟩ key := by
  have hxWithin : (0 : Int) ≤ 240 ∧ (240 : Int) ≤ 480 := by decide
  have hyWithin : (0 : Int) ≤ 400 ∧ (400 : Int) ≤ 800 := by decide
  obtain ⟨mouse, -, haccepts, hwindow, hwidth, hheight, hx, hy⟩ := exists_mouse hxWithin hyWithin
  refine ⟨mouse, hx, hy, fun key => ?_⟩
  have hreach := @pushes_iff_hasRoom ⟨keyGesture, mouse⟩ _ [] (starts_keyGesture mouse) haccepts
    hwindow
  dsimp only at hreach
  rw [hwidth, hheight, hx, hy] at hreach
  refine (hreach (by decide) (by decide) hxWithin hyWithin key).mpr ?_
  cases key with
  | home | back => exact (by decide : (60 : Int) < 240)
  | search | menu => exact Or.inl (by decide)

/-- At the right edge there is no room for HOME. -/
theorem not_pushes_home :
    ¬ ∀ (scan : KeyScan ℚ) (entry : Entry Callback) (samples : List (ℚ × ℚ)) (key : Key),
      scan.Starts entry → scan.mouse.Accepts →
      AverageComputerForService.Window 1 (1 : ℚ) 1 1 samples scan.mouse.computer →
      120 < scan.mouse.screenWidth → scan.mouse.screenWidth ≤ maxInt →
      120 < scan.mouse.screenHeight → scan.mouse.screenHeight ≤ maxInt →
      0 ≤ scan.mouse.x ∧ scan.mouse.x ≤ scan.mouse.screenWidth →
      0 ≤ scan.mouse.y ∧ scan.mouse.y ≤ scan.mouse.screenHeight → scan.Pushes entry key := by
  intro hclaim
  have hxWithin : (0 : Int) ≤ 480 ∧ (480 : Int) ≤ 480 := by decide
  have hyWithin : (0 : Int) ≤ 400 ∧ (400 : Int) ≤ 800 := by decide
  obtain ⟨mouse, -, haccepts, hwindow, hwidth, hheight, hx, hy⟩ := exists_mouse hxWithin hyWithin
  have hstarts := starts_keyGesture mouse
  have hpushes := hclaim ⟨keyGesture, mouse⟩ _ [] .home hstarts haccepts hwindow
  have hroom := @hasRoom_of_pushes _ _ ⟨keyGesture, mouse⟩ _ .home hstarts
  dsimp only at hpushes hroom
  rw [hwidth, hheight, hx, hy] at hpushes hroom
  have hedge := hroom (by decide) (by decide) hxWithin hyWithin
    (hpushes (by decide) (by decide) (by decide) (by decide) hxWithin hyWithin)
  exact absurd hedge (by decide : ¬ (480 : Int) + 60 < 480)

end KeyScan

end SensorMouse
