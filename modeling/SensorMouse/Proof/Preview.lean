import SensorMouse.Proof.BlockLaw
import SensorMouse.Mouse.AverageComputer

/-!
# The preview of the settings screen

What the text of the settings screen is for: to show what the mouse will do. The preview keeps the
samples since the averaging number was last set, each with the settings it arrived under, and shows
the sums over its latest block. `preview_law` is the refinement, and a block under one setting shows
what the mouse computes of it.
-/

namespace SensorMouse

open Java Lib

/-! ### The preview -/

structure MouseSettings (F : Type) where
  averageNum : Nat
  magnification : F
  offset : Int
  direction : Int
  deriving DecidableEq

/-- `since` are the samples since the averaging number was set, with the settings at arrival. -/
structure Preview (F : Type) where
  settings : MouseSettings F
  since : List (MouseSettings F × F × F × F) := []

namespace Preview

variable {F : Type}

def start (sharedPrefs : SharedPrefs F) : Preview F where
  settings := {
    averageNum := (PrefsEnum.getAverageNum sharedPrefs).toNat
    magnification := PrefsEnum.getMagnification sharedPrefs
    offset := PrefsEnum.getOffset sharedPrefs
    direction := PrefsEnum.getDirection sharedPrefs }

def change (preview : Preview F) (sharedPrefs : SharedPrefs F) (key : String) : Preview F :=
  let settings := preview.settings
  if key = PrefsEnum.averageNum.getKey then
    ⟨{ settings with averageNum := (PrefsEnum.getAverageNum sharedPrefs).toNat }, []⟩
  else if key = PrefsEnum.magnification.getKey then
    { preview with
      settings := { settings with magnification := PrefsEnum.getMagnification sharedPrefs } }
  else if key = PrefsEnum.offset.getKey then
    { preview with settings := { settings with offset := PrefsEnum.getOffset sharedPrefs } }
  else if key = PrefsEnum.direction.getKey then
    { preview with settings := { settings with direction := PrefsEnum.getDirection sharedPrefs } }
  else preview

def advance (preview : Preview F) : AverageComputer.Event F → Preview F
  | .sensorCallback x y z =>
      { preview with since := preview.since ++ [(preview.settings, x, y, z)] }
  | .onSharedPreferenceChanged sharedPrefs key => preview.change sharedPrefs key

/-- The samples a text is computed from. -/
def block (preview : Preview F) : List (MouseSettings F × F × F × F) :=
  Blocks.latest preview.settings.averageNum preview.since

/-- Offset and direction are those of the moment, the magnification that of the sample. -/
def shown (preview : Preview ℚ) (component : ℚ × ℚ × ℚ → ℚ) : ℚ :=
  preview.settings.offset * preview.settings.direction *
    (preview.block.map fun entry => entry.1.magnification * component entry.2).sum

def text (preview : Preview ℚ) : AverageComputer.Event ℚ → Option (ℚ × ℚ × ℚ)
  | .sensorCallback x y z =>
      let next := preview.advance (.sensorCallback x y z)
      if next.settings.averageNum ∣ next.since.length then
        some (next.shown (·.1), next.shown (·.2.1), next.shown (·.2.2))
      else none
  | .onSharedPreferenceChanged _ _ => none

end Preview

/-- The averaging number is positive wherever it is set. -/
def AverageComputer.Event.Positive {F : Type} : AverageComputer.Event F → Prop
  | .sensorCallback _ _ _ => True
  | .onSharedPreferenceChanged sharedPrefs key =>
      key = PrefsEnum.averageNum.getKey → 1 ≤ PrefsEnum.getAverageNum sharedPrefs

instance decidablePositive {F : Type} :
    (event : AverageComputer.Event F) → Decidable event.Positive
  | .sensorCallback _ _ _ => isTrue trivial
  | .onSharedPreferenceChanged _ _ => inferInstanceAs (Decidable (_ → _))

/-! ### The loops of the shown text -/

namespace AverageComputerForService

variable {F : Type} [JavaFloat F]

theorem emitShown_cons {computer : AverageComputerForService F} {rows : List (Row F)}
    (hfull : computer.averageNum.toNat = rows.length + 1) (first : Row F) (i : Fin 3) :
    computer.emitShown (first :: rows) i =
      .ok (Function.update first i (total (first :: rows) i * (computer.offset : F) *
        (computer.direction : F)) :: rows) := by
  have hfirst (row : Row F) : 0 < (row :: rows).length := Nat.zero_lt_succ _
  unfold emitShown
  rw [accumulate_cons hfull, ok_bind, getCell_of_lt (hfirst _), ok_bind, List.getElem_cons_zero,
    Function.update_self, setCell_of_lt (hfirst _), List.getElem_cons_zero, Function.update_idem]
  rfl

/-- A round touches its own component of the first row only. -/
theorem emitShown_all {computer : AverageComputerForService F} {rows : List (Row F)}
    (hfull : computer.averageNum.toNat = rows.length + 1) (first : Row F) :
    [0, 1, 2].foldlM computer.emitShown (first :: rows) =
      .ok ((fun i => total (first :: rows) i * (computer.offset : F) *
        (computer.direction : F)) :: rows) := by
  rw [List.foldlM_cons, emitShown_cons hfull, ok_bind, List.foldlM_cons, emitShown_cons hfull,
    ok_bind, List.foldlM_cons, emitShown_cons hfull, ok_bind, List.foldlM_nil]
  refine congrArg (fun row => Except.ok (row :: rows)) ?_
  funext i
  match i with
  | 0 => rfl
  | 1 => rfl
  | 2 => rfl

/-- The call stores one row and, if it is the last one, sums the array. -/
theorem exists_row_computeValueShown {computer : AverageComputerForService F}
    (hlt : computer.count2 < computer.averageArray.length) (x y z : F) :
    ∃ row : Row F, (row 0, row 1, row 2) = (x * computer.magnification, y * computer.magnification,
        z * computer.magnification) ∧
      computer.computeValueShown x y z =
        if (computer.count2 : Int) + 1 = computer.averageNum then do
          let array ← [0, 1, 2].foldlM computer.emitShown
            (computer.averageArray.set computer.count2 row)
          let shown ← load array 0
          pure (some (shown 0, shown 1, shown 2),
            { computer with averageArray := array, count2 := 0 })
        else
          pure (none, { computer with
            averageArray := computer.averageArray.set computer.count2 row
            count2 := computer.count2 + 1 }) := by
  have hlt' (row : Row F) :
      computer.count2 < (computer.averageArray.set computer.count2 row).length := by
    rwa [List.length_set]
  refine ⟨Function.update (Function.update (Function.update computer.averageArray[computer.count2] 0
    (x * computer.magnification)) 1 (y * computer.magnification)) 2 (z * computer.magnification),
    rfl, ?_⟩
  unfold computeValueShown
  rw [setCell_of_lt hlt, ok_bind, setCell_of_lt (hlt' _), ok_bind, List.getElem_set_self,
    List.set_set, setCell_of_lt (hlt' _), ok_bind, List.getElem_set_self, List.set_set]

end AverageComputerForService

/-! ### The code follows the preview -/

namespace AverageComputer

variable {F : Type} [JavaFloat F]

/-- A sample as the averager stores it. -/
def magnified (entry : MouseSettings F × F × F × F) : F × F × F :=
  (entry.2.1 * entry.1.magnification, entry.2.2.1 * entry.1.magnification,
    entry.2.2.2 * entry.1.magnification)

/-- The averager has the settings of the preview, and its array the block that is not complete. -/
structure Follows (preview : Preview F) (computer : AverageComputer F) : Prop where
  positive : 0 < preview.settings.averageNum
  averageNum : computer.averageNum = preview.settings.averageNum
  magnification : computer.magnification = preview.settings.magnification
  offset : computer.offset = preview.settings.offset
  direction : computer.direction = preview.settings.direction
  length : computer.averageArray.length = preview.settings.averageNum
  count2 : computer.count2 = preview.since.length % preview.settings.averageNum
  cells : (computer.averageArray.take computer.count2).map (fun row => (row 0, row 1, row 2)) =
    (Blocks.unfinished preview.settings.averageNum preview.since).map magnified

variable {preview : Preview F} {computer : AverageComputer F}

theorem exists_create {sharedPrefs : SharedPrefs F}
    (hpos : 1 ≤ PrefsEnum.getAverageNum sharedPrefs) :
    ∃ computer, create sharedPrefs = .ok computer ∧ Follows (Preview.start sharedPrefs) computer := by
  have hnonneg : ¬ PrefsEnum.getAverageNum sharedPrefs < 0 := by omega
  have hnum : 0 < (PrefsEnum.getAverageNum sharedPrefs).toNat := by omega
  have hcast : ((PrefsEnum.getAverageNum sharedPrefs).toNat : Int) =
      PrefsEnum.getAverageNum sharedPrefs := Int.toNat_of_nonneg (by omega)
  unfold create AverageComputerForService.create newArray
  rw [if_neg hnonneg]
  exact ⟨_, rfl, hnum, hcast.symm, rfl, rfl, rfl, List.length_replicate, (Nat.zero_mod _).symm, rfl⟩

/-- Only a change of the averaging number touches the block. -/
theorem Follows.onSharedPreferenceChanged (hfollows : Follows preview computer)
    {sharedPrefs : SharedPrefs F} {key : String}
    (hpos : key = PrefsEnum.averageNum.getKey → 1 ≤ PrefsEnum.getAverageNum sharedPrefs) :
    ∃ next, computer.onSharedPreferenceChanged sharedPrefs key = .ok next ∧
      Follows (preview.change sharedPrefs key) next := by
  unfold AverageComputer.onSharedPreferenceChanged Preview.change
  obtain ⟨hpositive, haverageNum, hmagnification, hoffset, hdirection, hlength, hcount, hcells⟩ :=
    hfollows
  by_cases hnum : key = PrefsEnum.averageNum.getKey
  · have hone := hpos hnum
    have hnonneg : ¬ PrefsEnum.getAverageNum sharedPrefs < 0 := by omega
    have hnumPos : 0 < (PrefsEnum.getAverageNum sharedPrefs).toNat := by omega
    have hcast : ((PrefsEnum.getAverageNum sharedPrefs).toNat : Int) =
        PrefsEnum.getAverageNum sharedPrefs := Int.toNat_of_nonneg (by omega)
    unfold newArray
    rw [if_pos hnum, if_pos hnum, if_neg hnonneg]
    exact ⟨_, rfl, hnumPos, hcast.symm, hmagnification, hoffset, hdirection,
      List.length_replicate, (Nat.zero_mod _).symm, rfl⟩
  rw [if_neg hnum, if_neg hnum]
  split_ifs with hmagnificationKey hoffsetKey hdirectionKey hthresholdKey
  · exact ⟨_, rfl, hpositive, haverageNum, rfl, hoffset, hdirection, hlength, hcount, hcells⟩
  · exact ⟨_, rfl, hpositive, haverageNum, hmagnification, rfl, hdirection, hlength, hcount, hcells⟩
  · exact ⟨_, rfl, hpositive, haverageNum, hmagnification, hoffset, rfl, hlength, hcount, hcells⟩
  · exact ⟨_, rfl, hpositive, haverageNum, hmagnification, hoffset, hdirection, hlength, hcount,
      hcells⟩
  · exact ⟨_, rfl, hpositive, haverageNum, hmagnification, hoffset, hdirection, hlength, hcount,
      hcells⟩

theorem Follows.count2_lt (hfollows : Follows preview computer) :
    computer.count2 < computer.averageArray.length := by
  rw [hfollows.count2, hfollows.length]
  exact Nat.mod_lt _ hfollows.positive

theorem Follows.last_iff (hfollows : Follows preview computer) :
    (computer.count2 : Int) + 1 = computer.averageNum ↔
      preview.settings.averageNum ∣ preview.since.length + 1 := by
  rw [hfollows.averageNum, hfollows.count2, Blocks.dvd_iff_mod_add_one hfollows.positive]
  norm_cast

theorem Follows.cells_set (hfollows : Follows preview computer) {x y z : F} {row : Row F}
    (hrow : (row 0, row 1, row 2) =
      (x * computer.magnification, y * computer.magnification, z * computer.magnification)) :
    ((computer.averageArray.set computer.count2 row).take (computer.count2 + 1)).map
        (fun row => (row 0, row 1, row 2)) =
      (Blocks.unfinished preview.settings.averageNum preview.since ++
        [(preview.settings, x, y, z)]).map magnified := by
  calc ((computer.averageArray.set computer.count2 row).take (computer.count2 + 1)).map
        (fun row => (row 0, row 1, row 2))
      = (computer.averageArray.take computer.count2).map (fun row => (row 0, row 1, row 2)) ++
          [(row 0, row 1, row 2)] :=
        AverageComputerForService.map_take_set_succ hfollows.count2_lt row _
    _ = (Blocks.unfinished preview.settings.averageNum preview.since).map magnified ++
          [magnified (preview.settings, x, y, z)] := by
        rw [hfollows.cells, hrow, hfollows.magnification]
        rfl
    _ = _ := by
        rw [List.map_append]
        rfl

/-- What the text shows of a block, in the averager's own arithmetic. -/
def shownSum (settings : MouseSettings F) (block : List (MouseSettings F × F × F × F))
    (component : F × F × F → F) : F :=
  AverageComputerForService.blockSum (block.map fun entry => component (magnified entry)) *
    (settings.offset : F) * (settings.direction : F)

/-- One component of the array's sum, times the settings, is what the text shows of the block. -/
theorem Follows.total_eq_shownSum (hfollows : Follows preview computer) {array : List (Row F)}
    {block : List (MouseSettings F × F × F × F)}
    (hblock : array.map (fun row => (row 0, row 1, row 2)) = block.map magnified) (i : Fin 3)
    (component : F × F × F → F)
    (hcomponent : ∀ row : Row F, component (row 0, row 1, row 2) = row i) :
    AverageComputerForService.total array i * (computer.offset : F) * (computer.direction : F) =
      shownSum preview.settings block component := by
  have hcolumn : array.map (· i) = block.map fun entry => component (magnified entry) := by
    calc array.map (· i)
        = array.map (component ∘ fun row => (row 0, row 1, row 2)) :=
          List.map_congr_left fun row _ => (hcomponent row).symm
      _ = (block.map magnified).map component := by rw [← hblock, List.map_map]
      _ = block.map fun entry => component (magnified entry) := List.map_map
  unfold AverageComputerForService.total shownSum
  rw [hcolumn, hfollows.offset, hfollows.direction]

theorem Follows.computeValueShown_of_not_dvd (hfollows : Follows preview computer) (x y z : F)
    (hdvd : ¬ preview.settings.averageNum ∣ preview.since.length + 1) :
    ∃ next, computer.computeValueShown x y z = .ok (none, next) ∧
      Follows (preview.advance (.sensorCallback x y z)) next := by
  obtain ⟨row, hrow, hcompute⟩ :=
    AverageComputerForService.exists_row_computeValueShown hfollows.count2_lt x y z
  rw [if_neg (hfollows.last_iff.not.mpr hdvd)] at hcompute
  have hcells := hfollows.cells_set hrow
  rw [← Blocks.unfinished_concat_of_not_dvd hfollows.positive hdvd] at hcells
  have hcount : computer.count2 + 1 =
      (preview.since ++ [(preview.settings, x, y, z)]).length % preview.settings.averageNum := by
    rw [List.length_append, List.length_singleton,
      Blocks.mod_add_one_of_not_dvd hfollows.positive hdvd, hfollows.count2]
  have hlength : (computer.averageArray.set computer.count2 row).length =
      preview.settings.averageNum := by rw [List.length_set, hfollows.length]
  unfold AverageComputer.computeValueShown
  rw [hcompute]
  exact ⟨_, rfl, hfollows.positive, hfollows.averageNum, hfollows.magnification, hfollows.offset,
    hfollows.direction, hlength, hcount, hcells⟩

theorem Follows.computeValueShown_of_dvd (hfollows : Follows preview computer) (x y z : F)
    (hdvd : preview.settings.averageNum ∣ preview.since.length + 1) :
    let after := preview.advance (.sensorCallback x y z)
    ∃ next, computer.computeValueShown x y z = .ok (some (shownSum after.settings after.block (·.1),
        shownSum after.settings after.block (·.2.1), shownSum after.settings after.block (·.2.2)),
        next) ∧
      Follows after next := by
  intro after
  obtain ⟨row, hrow, hcompute⟩ :=
    AverageComputerForService.exists_row_computeValueShown hfollows.count2_lt x y z
  have hlast := hfollows.last_iff.mpr hdvd
  have hlength : (computer.averageArray.set computer.count2 row).length =
      preview.settings.averageNum := by rw [List.length_set, hfollows.length]
  have hcount : computer.count2 + 1 = preview.settings.averageNum := by
    rw [hfollows.averageNum] at hlast
    exact_mod_cast hlast
  have hblock := hfollows.cells_set hrow
  rw [hcount, List.take_of_length_le hlength.le, ← Blocks.latest_concat_of_dvd hfollows.positive hdvd]
    at hblock
  change _ = after.block.map magnified at hblock
  have hpositive : 0 < (computer.averageArray.set computer.count2 row).length := by
    rw [hlength]
    exact hfollows.positive
  rw [if_pos hlast] at hcompute
  obtain ⟨first, rows, harray⟩ := List.exists_cons_of_length_pos hpositive
  have hfull : computer.averageNum.toNat = rows.length + 1 := by
    rw [hfollows.averageNum, Int.toNat_natCast, ← hlength, harray, List.length_cons]
  rw [harray] at hblock
  rw [harray, AverageComputerForService.emitShown_all hfull, ok_bind,
    load_of_lt (Nat.zero_lt_succ _), ok_bind, List.getElem_cons_zero,
    hfollows.total_eq_shownSum hblock 0 (·.1) fun _ => rfl,
    hfollows.total_eq_shownSum hblock 1 (·.2.1) fun _ => rfl,
    hfollows.total_eq_shownSum hblock 2 (·.2.2) fun _ => rfl] at hcompute
  have hkept : rows.length + 1 = preview.settings.averageNum := by
    rw [← hlength, harray, List.length_cons]
  have hcountAfter : 0 = after.since.length % preview.settings.averageNum := by
    change 0 = (preview.since ++ [(preview.settings, x, y, z)]).length % _
    rw [List.length_append, List.length_singleton, Nat.mod_eq_zero_of_dvd hdvd]
  have hcellsAfter : [] =
      (Blocks.unfinished preview.settings.averageNum after.since).map magnified := by
    change [] = (Blocks.unfinished _ (preview.since ++ [(preview.settings, x, y, z)])).map _
    rw [Blocks.unfinished_concat_of_dvd hdvd]
    rfl
  unfold AverageComputer.computeValueShown
  rw [hcompute]
  exact ⟨_, rfl, hfollows.positive, hfollows.averageNum, hfollows.magnification, hfollows.offset,
    hfollows.direction, hkept, hcountAfter, hcellsAfter⟩

/-! ### Exact arithmetic -/

theorem shownSum_rat (settings : MouseSettings ℚ) (block : List (MouseSettings ℚ × ℚ × ℚ × ℚ))
    {component : ℚ × ℚ × ℚ → ℚ} (hcomponent : ∀ entry : MouseSettings ℚ × ℚ × ℚ × ℚ,
      component (magnified entry) = component entry.2 * entry.1.magnification) :
    shownSum settings block component = settings.offset * settings.direction *
      (block.map fun entry => entry.1.magnification * component entry.2).sum := by
  unfold shownSum
  rw [AverageComputerForService.blockSum_rat]
  simp only [hcomponent, mul_comm (component _)]
  ring

/-- Each event keeps the averager in step with the preview and sets the preview's text. -/
theorem Follows.handle {preview : Preview ℚ} {computer : AverageComputer ℚ}
    (hfollows : Follows preview computer) {event : Event ℚ} (hpositive : event.Positive) :
    ∃ next, computer.handle event = .ok (preview.text event, next) ∧
      Follows (preview.advance event) next := by
  cases event with
  | onSharedPreferenceChanged sharedPrefs key =>
      obtain ⟨next, hchanged, hnext⟩ := hfollows.onSharedPreferenceChanged hpositive
      refine ⟨next, ?_, hnext⟩
      unfold AverageComputer.handle
      simp only [hchanged, ok_bind]
      rfl
  | sensorCallback x y z =>
      have hlength : (preview.advance (.sensorCallback x y z)).since.length =
          preview.since.length + 1 := List.length_append
      have hsettings : (preview.advance (.sensorCallback x y z)).settings = preview.settings := rfl
      unfold AverageComputer.handle Preview.text
      simp only [hlength, hsettings]
      by_cases hdvd : preview.settings.averageNum ∣ preview.since.length + 1
      · obtain ⟨next, hcompute, hnext⟩ := hfollows.computeValueShown_of_dvd x y z hdvd
        rw [shownSum_rat _ _ fun _ => rfl, shownSum_rat _ _ fun _ => rfl,
          shownSum_rat _ _ fun _ => rfl] at hcompute
        rw [if_pos hdvd]
        exact ⟨next, hcompute, hnext⟩
      · rw [if_neg hdvd]
        exact hfollows.computeValueShown_of_not_dvd x y z hdvd

end AverageComputer

namespace Preview

theorem text_eq_some {preview : Preview ℚ} {event : AverageComputer.Event ℚ} {text : ℚ × ℚ × ℚ}
    (htext : preview.text event = some text) :
    let after := preview.advance event
    after.settings = preview.settings ∧ after.block.length = after.settings.averageNum ∧
      text = (after.shown (·.1), after.shown (·.2.1), after.shown (·.2.2)) := by
  intro after
  cases event with
  | onSharedPreferenceChanged sharedPrefs key => cases htext
  | sensorCallback x y z =>
      have hlength : after.since.length = preview.since.length + 1 := List.length_append
      obtain ⟨hdvd, htext⟩ := Option.ite_none_right_eq_some.mp htext
      have hle : after.settings.averageNum ≤ after.since.length :=
        Nat.le_of_dvd (by omega) hdvd
      refine ⟨rfl, ?_, (Option.some.inj htext).symm⟩
      unfold block Blocks.latest
      rw [List.length_drop]
      omega

/-- Under one setting the mouse computes, of the same samples, what the preview shows. -/
theorem exists_mouse_answer {settings : MouseSettings ℚ} (hpos : 0 < settings.averageNum)
    {block : List (MouseSettings ℚ × ℚ × ℚ × ℚ)} (hlength : block.length = settings.averageNum)
    (hsteady : ∀ entry ∈ block, entry.1 = settings) :
    let shown (component : ℚ × ℚ × ℚ → ℚ) : ℚ := settings.offset * settings.direction *
      (block.map fun entry => entry.1.magnification * component entry.2).sum
    ∃ service answers left values,
      AverageComputerForService.create (settings.averageNum : Int) settings.magnification
        settings.offset settings.direction = .ok service ∧
      service.answerAll (block.map fun entry => (entry.2.1, entry.2.2.1)) = .ok (answers, left) ∧
      answers.getLast? = some (some values) ∧ values 0 = saturate (trunc (shown (·.1))) ∧
      values 1 = saturate (trunc (shown (·.2.1))) := by
  intro shown
  set given := block.map fun entry => (entry.2.1, entry.2.2.1)
  have hgiven : given.length = settings.averageNum := by rw [List.length_map, hlength]
  obtain ⟨service, hcreate⟩ := AverageComputerForService.exists_create settings.averageNum
    settings.magnification settings.offset settings.direction
  obtain ⟨answers, left, hanswers, hcount, hright⟩ :=
    AverageComputerForService.exists_answerAll hpos hcreate given
  obtain ⟨result, hget, hresult⟩ := hright (settings.averageNum - 1) (by omega)
  rw [Nat.sub_add_cancel hpos, ← hgiven, List.take_length] at hresult
  obtain ⟨values, rfl, hfirst, hsecond⟩ := hresult.some_of_dvd (dvd_refl _)
  have hlatest : Blocks.latest given.length given = given := by
    unfold Blocks.latest
    rw [Nat.sub_self, List.drop_zero]
  have hshown (component : ℚ × ℚ → ℚ) :
      (given.map fun sample => settings.magnification * component sample).sum =
        (block.map fun entry =>
          entry.1.magnification * component (entry.2.1, entry.2.2.1)).sum := by
    rw [List.map_map]
    refine congrArg List.sum (List.map_congr_left fun entry hentry => ?_)
    rw [hsteady entry hentry]
    rfl
  refine ⟨service, answers, left, values, hcreate, hanswers, ?_, ?_, ?_⟩
  · rw [List.getLast?_eq_getElem?, hcount, hgiven, hget]
  · rw [hfirst, hlatest, AverageComputerForService.answer_blockSum_rat _ _ _ Prod.fst, hshown]
  · rw [hsecond, hlatest, AverageComputerForService.answer_blockSum_rat _ _ _ Prod.snd, hshown]

/-- **The preview law.** Every text is set when the preview sets it, to what the preview shows; and a
block under one setting shows what a fresh averager of the mouse answers to its samples. -/
theorem preview_law {sharedPrefs : SharedPrefs ℚ} {events : List (AverageComputer.Event ℚ)}
    (hstart : 1 ≤ PrefsEnum.getAverageNum sharedPrefs)
    (hevents : ∀ event ∈ events, event.Positive) :
    ∃ computer texts final, AverageComputer.create sharedPrefs = .ok computer ∧
      outputs AverageComputer.handle computer events = .ok (texts, final) ∧
      texts.length = events.length ∧
      ∀ k (hk : k < events.length),
        let preview := (events.take k).foldl advance (start sharedPrefs)
        let after := preview.advance events[k]
        texts[k]? = some (preview.text events[k]) ∧
        ∀ shown, preview.text events[k] = some shown →
          (∀ entry ∈ after.block, entry.1 = after.settings) →
          InRange (trunc shown.1) → InRange (trunc shown.2.1) →
          ∃ service answers left values,
            AverageComputerForService.create (after.settings.averageNum : Int)
              after.settings.magnification after.settings.offset after.settings.direction =
                .ok service ∧
            service.answerAll (after.block.map fun entry => (entry.2.1, entry.2.2.1)) =
              .ok (answers, left) ∧
            answers.getLast? = some (some values) ∧ values 0 = trunc shown.1 ∧
            values 1 = trunc shown.2.1 := by
  obtain ⟨computer, hcreate, hfollows⟩ := AverageComputer.exists_create hstart
  obtain ⟨texts, final, htexts, -, hcount, hright⟩ :=
    exists_outputs AverageComputer.Event.Positive
      (fun past computer => AverageComputer.Follows (past.foldl advance (start sharedPrefs)) computer)
      (fun past event text =>
        0 < (past.foldl advance (start sharedPrefs)).settings.averageNum ∧
          text = (past.foldl advance (start sharedPrefs)).text event) hfollows
      (fun past current event hpositive hcurrent => by
        obtain ⟨next, hhandle, hnext⟩ := hcurrent.handle hpositive
        rw [List.foldl_append]
        exact ⟨_, next, hhandle, hnext, hcurrent.positive, rfl⟩) hevents
  refine ⟨computer, texts, final, hcreate, htexts, hcount, fun k hk => ?_⟩
  obtain ⟨text, hget, hpos, rfl⟩ := hright k hk
  intro preview after
  refine ⟨hget, fun shown htext hsteady hfirst hsecond => ?_⟩
  obtain ⟨hsettings, hlength, rfl⟩ := text_eq_some htext
  obtain ⟨service, answers, left, values, hservice, hanswers, hlast, hzero, hone⟩ :=
    exists_mouse_answer (hsettings ▸ hpos) hlength hsteady
  refine ⟨service, answers, left, values, hservice, hanswers, hlast, ?_, ?_⟩
  · rw [hzero]
    exact saturate_of_inRange hfirst
  · rw [hone]
    exact saturate_of_inRange hsecond

/-- The magnification changes after the first of two samples, then a block runs under one setting. -/
theorem preview_law_two :
    let sharedPrefs : SharedPrefs ℚ := ⟨2, 1 / 2, 10, false, 0⟩
    let events : List (AverageComputer.Event ℚ) := [.sensorCallback 1 2 3,
      .onSharedPreferenceChanged { sharedPrefs with magnification := 3 } "magnification_edit",
      .sensorCallback 1 1 1, .sensorCallback 2 1 0, .sensorCallback 1 5 0]
    ∃ computer texts final, AverageComputer.create sharedPrefs = .ok computer ∧
      outputs AverageComputer.handle computer events = .ok (texts, final) ∧
      texts[2]? = some (some ((-35 : ℚ), (-40 : ℚ), (-45 : ℚ))) ∧
      texts[4]? = some (some ((-90 : ℚ), (-180 : ℚ), (0 : ℚ))) ∧
      ∃ service answers left values, AverageComputerForService.create 2 (3 : ℚ) 10 (-1) = .ok service ∧
        service.answerAll [(2, 1), (1, 5)] = .ok (answers, left) ∧
        answers.getLast? = some (some values) ∧ values 0 = -90 ∧ values 1 = -180 := by
  intro sharedPrefs events
  obtain ⟨computer, texts, final, hcreate, htexts, -, hright⟩ :=
    @preview_law sharedPrefs events (by decide) (by decide)
  obtain ⟨hmixed, -⟩ := hright 2 (by decide)
  obtain ⟨hsteady, hmouse⟩ := hright 4 (by decide)
  obtain ⟨service, answers, left, values, hservice, hanswers, hlast, hzero, hone⟩ :=
    hmouse (-90, -180, 0) (by decide +kernel) (by decide +kernel) (by decide +kernel)
      (by decide +kernel)
  refine ⟨computer, texts, final, hcreate, htexts, hmixed.trans (by decide +kernel),
    hsteady.trans (by decide +kernel), service, answers, left, values, hservice, hanswers, hlast,
    hzero.trans (by decide +kernel), hone.trans (by decide +kernel)⟩

end Preview

end SensorMouse
