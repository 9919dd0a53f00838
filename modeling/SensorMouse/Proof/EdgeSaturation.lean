import SensorMouse.Proof.CursorBox

/-!
# Moves against an edge

The sum of the cursor's position and a displacement is an `int`. A displacement beyond the right edge
by more than the type holds wraps to the left of the screen, and the clamp brings the cursor to the
left edge. No sum of a position on the screen and an `int` is too small for the type, so the left edge
is met as it should be: `horizontal_saturates_iff`.
-/

namespace SensorMouse

open Java

variable {F : Type} [JavaFloat F]

namespace AverageComputerForService

variable {computer next : AverageComputerForService F}

theorem emit_eq_ok {before after : List (Row F) × (Fin 3 → Int)} {i : Fin 3}
    (hemit : computer.emit before i = .ok after) :
    ∃ array total, after = (array, Function.update before.2 i
      (JavaFloat.toInt (total * (computer.offset : F) * (computer.direction : F)))) := by
  obtain ⟨array, -, hrest⟩ := bind_eq_ok.mp hemit
  obtain ⟨total, -, hpair⟩ := bind_eq_ok.mp hrest
  exact ⟨array, total, (Except.ok.inj hpair).symm⟩

/-- What the averager emits are casts of a `float`. -/
theorem inRange_of_computeValue {x y : F} {values : Fin 3 → Int}
    (hcompute : computer.computeValue x y = .ok (some values, next)) :
    InRange (values 0) ∧ InRange (values 1) := by
  obtain ⟨first, -, hrest⟩ := bind_eq_ok.mp hcompute
  obtain ⟨second, -, hlast⟩ := bind_eq_ok.mp hrest
  split_ifs at hlast with hfull
  · obtain ⟨after, hfold, hanswer⟩ := bind_eq_ok.mp hlast
    obtain ⟨middle, hzero, hrest⟩ := bind_eq_ok.mp hfold
    obtain ⟨last, hone, hpure⟩ := bind_eq_ok.mp hrest
    obtain ⟨array, total, rfl⟩ := emit_eq_ok hzero
    obtain ⟨array', total', rfl⟩ := emit_eq_ok hone
    obtain rfl := Except.ok.inj hpure
    obtain ⟨hvalues, -⟩ := Prod.mk.inj (Except.ok.inj hanswer)
    obtain rfl := Option.some.inj hvalues
    dsimp only
    rw [Function.update_of_ne (by decide), Function.update_self, Function.update_self]
    exact ⟨JavaFloat.toInt_inRange _, JavaFloat.toInt_inRange _⟩
  · cases hlast

end AverageComputerForService

/-! ### Saturation -/

/-- The point of `0 .. width` nearest to `z`. -/
def nearestWithin (width z : Int) : Int := max 0 (min width z)

namespace MouseManager

variable {mouse next : MouseManager F}

/-- The horizontal displacement of an answer. -/
def horizontal (isPortrait : Bool) (values : Fin 3 → Int) : Int :=
  if isPortrait then values 1 else values 0

omit [JavaFloat F] in
/-- The horizontal tests come first, so they always act. -/
theorem clamped_fst (hwidth : 0 ≤ mouse.screenWidth) (x y : Int) :
    (mouse.clamped x y).1 = nearestWithin mouse.screenWidth x := by
  unfold clamped clampTo nearestWithin
  split_ifs <;> dsimp only <;> omega

omit [JavaFloat F] in
theorem displaced_fst (isPortrait : Bool) (values : Fin 3 → Int) :
    (mouse.displaced isPortrait values).1 = wrap (mouse.x + horizontal isPortrait values) := by
  unfold displaced horizontal
  cases isPortrait <;> rfl

/-- Only a sum above the type is met at the wrong edge, and there is one edge if the width is 0. -/
theorem nearestWithin_wrap_iff {width x dx : Int} (hx : 0 ≤ x) (hxWidth : x ≤ width)
    (hwidth : width ≤ maxInt) (hdx : InRange dx) :
    nearestWithin width (wrap (x + dx)) = nearestWithin width (x + dx) ↔
      x + dx ≤ maxInt ∨ width = 0 := by
  obtain ⟨hlower, hupper⟩ := hdx
  unfold minInt at hlower
  unfold maxInt at hwidth hupper ⊢
  by_cases hrange : x + dx ≤ 2147483647
  · have hsame : wrap (x + dx) = x + dx := wrap_of_inRange ⟨by unfold minInt; omega, hrange⟩
    rw [hsame]
    exact iff_of_true rfl (Or.inl hrange)
  · have hwrapped : wrap (x + dx) < 0 := by
      unfold wrap
      omega
    unfold nearestWithin
    omega

/-- **Saturation at the edges.** A horizontal displacement leaves the cursor at the point of the screen
nearest to the exact sum exactly if the sum is an `int`, or the screen has no width. -/
theorem horizontal_saturates_iff {isPortrait : Bool} {x y z : F} {values : Fin 3 → Int}
    {computer : AverageComputerForService F}
    (hx : 0 ≤ mouse.x) (hxWidth : mouse.x ≤ mouse.screenWidth)
    (hwidth : mouse.screenWidth ≤ maxInt) (haccepts : mouse.Accepts)
    (hvalues : mouse.computer.computeValue x y = .ok (some values, computer))
    (hnext : mouse.sensorCallback isPortrait x y z = .ok next) :
    next.x = nearestWithin mouse.screenWidth (mouse.x + horizontal isPortrait values) ↔
      mouse.x + horizontal isPortrait values ≤ maxInt ∨ mouse.screenWidth = 0 := by
  have hdx : InRange (horizontal isPortrait values) := by
    obtain ⟨hfirst, hsecond⟩ := AverageComputerForService.inRange_of_computeValue hvalues
    cases isPortrait with
    | true => exact hsecond
    | false => exact hfirst
  have hmoved : next.x =
      nearestWithin mouse.screenWidth (wrap (mouse.x + horizontal isPortrait values)) := by
    obtain ⟨position, found, hfound, rfl⟩ := (sensorCallback_eq_ok haccepts).mp hnext
    obtain ⟨rfl, rfl⟩ := Prod.mk.inj (Except.ok.inj (hfound.symm.trans hvalues))
    rw [← displaced_fst]
    exact @clamped_fst _ mouse (hx.trans hxWidth) _ _
  rw [hmoved]
  exact nearestWithin_wrap_iff hx hxWidth hwidth hdx

/-- A cursor in the middle of the screen, and a sample whose cast saturates. -/
theorem exists_saturatedSample :
    ∃ (mouse next : MouseManager ℚ) (values : Fin 3 → Int) (computer : AverageComputerForService ℚ),
      (MouseManager.create 480 800 1 1 1 1 20 200 1000).map startMouse = .ok mouse ∧
      (mouse.screenWidth = 480 ∧ mouse.x = 240) ∧ mouse.Accepts ∧
      mouse.computer.computeValue 0 3000000000 = .ok (some values, computer) ∧
      mouse.sensorCallback true 0 3000000000 0 = .ok next ∧
      horizontal true values = 2147483647 ∧ next.x = 0 := by
  have hfacts : (((@MouseManager.create ℚ _ 480 800 1 1 1 1 20 200 1000).map
      startMouse).toOption.bind fun mouse =>
      (mouse.computer.computeValue 0 3000000000).toOption.bind fun answer =>
      (mouse.sensorCallback true 0 3000000000 0).toOption.bind fun next =>
      answer.1.map fun values =>
        decide ((mouse.screenWidth = 480 ∧ mouse.x = 240) ∧ mouse.Accepts ∧
          horizontal true values = 2147483647 ∧ next.x = 0)) = some true := by
    decide +kernel
  obtain ⟨mouse, hmouse, hrest⟩ := Option.bind_eq_some_iff.mp hfacts
  obtain ⟨⟨position, computer⟩, hcompute, hrest⟩ := Option.bind_eq_some_iff.mp hrest
  obtain ⟨next, hnext, hrest⟩ := Option.bind_eq_some_iff.mp hrest
  obtain ⟨values, rfl, hall⟩ := Option.map_eq_some_iff.mp hrest
  obtain ⟨hplace, haccepts, hdx, hleft⟩ := of_decide_eq_true hall
  exact ⟨mouse, next, values, computer, toOption_eq_some.mp hmouse, hplace, haccepts,
    toOption_eq_some.mp hcompute, toOption_eq_some.mp hnext, hdx, hleft⟩

theorem horizontal_saturates_iff_saturatedSample :
    ∃ (mouse next : MouseManager ℚ) (values : Fin 3 → Int) (computer : AverageComputerForService ℚ),
      mouse.computer.computeValue 0 3000000000 = .ok (some values, computer) ∧
      mouse.sensorCallback true 0 3000000000 0 = .ok next ∧
      (next.x = nearestWithin mouse.screenWidth (mouse.x + horizontal true values) ↔
        mouse.x + horizontal true values ≤ maxInt ∨ mouse.screenWidth = 0) := by
  obtain ⟨mouse, next, values, computer, -, ⟨hwidth, hx⟩, haccepts, hvalues, hnext, -⟩ :=
    exists_saturatedSample
  exact ⟨mouse, next, values, computer, hvalues, hnext,
    horizontal_saturates_iff (by rw [hx]; decide) (by rw [hx, hwidth]; decide)
      (by rw [hwidth]; decide) haccepts hvalues hnext⟩

theorem not_horizontal_saturates :
    ¬ ∀ (screenWidth screenHeight averageNum : Int) (magnification : ℚ)
        (offset direction unit back wait : Int) (mouse next : MouseManager ℚ) (isPortrait : Bool)
        (x y z : ℚ) (values : Fin 3 → Int) (computer : AverageComputerForService ℚ),
      (MouseManager.create screenWidth screenHeight averageNum magnification offset direction unit
        back wait).map startMouse = .ok mouse →
      0 ≤ mouse.x → mouse.x ≤ mouse.screenWidth → mouse.screenWidth ≤ maxInt → mouse.Accepts →
      mouse.computer.computeValue x y = .ok (some values, computer) →
      mouse.sensorCallback isPortrait x y z = .ok next →
      next.x = nearestWithin mouse.screenWidth (mouse.x + horizontal isPortrait values) := by
  intro hclaim
  obtain ⟨mouse, next, values, computer, hmouse, ⟨hwidth, hx⟩, haccepts, hvalues, hnext, hdx, hleft⟩ :=
    exists_saturatedSample
  have hright := hclaim 480 800 1 1 1 1 20 200 1000 mouse next true 0 3000000000 0 values computer
    hmouse (by rw [hx]; decide) (by rw [hx, hwidth]; decide) (by rw [hwidth]; decide) haccepts
    hvalues hnext
  rw [hleft, hx, hwidth, hdx] at hright
  exact absurd hright (by decide)

end MouseManager

end SensorMouse
