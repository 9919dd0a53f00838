import SensorMouse.Lib.Run
import SensorMouse.Activity.SensorApp

/-!
# What is stored, and what the service was started with

After the first start every setting has a text, and from then on a text only changes on a settings
screen. Both settings screens stop the service when they open and it starts on a screen of its own, so
what it was started with cannot fall behind what is stored.
-/

namespace SensorMouse

open Java Lib

theorem Thrown.bind_eq_ok {α β : Type} {first : Except Thrown α} {rest : α → Except Thrown β}
    {result : β} :
    first >>= rest = .ok result ↔ ∃ value, first = .ok value ∧ rest value = .ok result := by
  cases first with
  | error thrown =>
      constructor
      · intro hthrown
        cases hthrown
      · rintro ⟨value, hvalue, -⟩
        cases hvalue
  | ok value =>
      constructor
      · intro hrest
        exact ⟨value, rfl, hrest⟩
      · rintro ⟨other, hother, hrest⟩
        obtain rfl : value = other := Except.ok.inj hother
        exact hrest

namespace StoredPrefs

section

variable {prefs : StoredPrefs}

theorem strings_putString_self (prefs : StoredPrefs) (key value : String) :
    (prefs.putString key value).strings key = some value := by
  unfold putString
  simp

theorem strings_putString_of_ne {key other : String} (hne : other ≠ key) (value : String) :
    (prefs.putString key value).strings other = prefs.strings other := by
  unfold putString
  simp [hne]

theorem elementAt_natCast {α : Type} {list : List α} {i : Nat} (hi : i < list.length) :
    elementAt list (i : Int) = .ok list[i] := by
  unfold elementAt
  rw [if_neg (by omega), Int.toNat_natCast, List.getElem?_eq_getElem hi]

end

theorem parseInt_eq_ok [JavaInteger] {text : Option String} {value : Int} :
    parseInt text = .ok value ↔ text.bind JavaInteger.parseInt = some value := by
  unfold parseInt
  cases text.bind JavaInteger.parseInt with
  | none => simp
  | some other => simp

theorem parseInt_some [JavaInteger] (text : String) :
    (∃ value, parseInt (some text) = .ok value) ↔ (JavaInteger.parseInt text).isSome = true := by
  simp only [parseInt_eq_ok, Option.bind_some, Option.isSome_iff_exists]

theorem parseInt_toString [JavaInteger] {value : Int} (hrange : InRange value) :
    parseInt (some (toString value)) = .ok value :=
  parseInt_eq_ok.mpr (JavaInteger.parseInt_toString hrange)

theorem parseInt_natCast [JavaInteger] {i : Nat} (hi : (i : Int) ≤ maxInt) :
    parseInt (some (toString (i : Int))) = .ok (i : Int) := by
  refine parseInt_toString ⟨?_, hi⟩
  unfold minInt
  omega

theorem parseFloat_some {F : Type} [JavaText F] (text : String) :
    (∃ value : F, parseFloat (some text) = .ok value) ↔
      (JavaText.parseFloat text : Option F).isSome = true := by
  unfold parseFloat
  constructor
  · rintro ⟨value, hvalue⟩
    cases hparse : (JavaText.parseFloat text : Option F) with
    | none => simp [hparse] at hvalue
    | some other => rfl
  · intro hsome
    obtain ⟨value, hvalue⟩ := Option.isSome_iff_exists.mp hsome
    exact ⟨value, by simp only [hvalue]⟩

end StoredPrefs

theorem ButtonKey.getKey_injective : Function.Injective ButtonKey.getKey := by
  intro first second
  cases first <;> cases second <;> simp [ButtonKey.getKey, ButtonSettingActivity.backTimeKey,
    ButtonSettingActivity.timeUnitKey, ButtonSettingActivity.timeWaitKey]

theorem getKey_ne_getKey (key : PrefsEnum) (button : ButtonKey) : key.getKey ≠ button.getKey := by
  cases key <;> cases button <;> simp [PrefsEnum.getKey, ButtonKey.getKey,
    ButtonSettingActivity.backTimeKey, ButtonSettingActivity.timeUnitKey,
    ButtonSettingActivity.timeWaitKey]

namespace SensorApp

variable {F : Type} {sensors : List Sensor} {prefs : StoredPrefs} {app next : SensorApp F}

/-! ### The stored texts -/

/-- Every setting has a text; those that are chosen from a list name an entry. The list of a phone
without sensors is taken to have one. -/
structure Stored (sensors : List Sensor) (prefs : StoredPrefs) : Prop where
  typed : ∀ key, IsText key → ∃ text, prefs.strings key.getKey = some text
  button : ∀ key : ButtonKey, ∃ text, prefs.strings key.getKey = some text
  sensor : ∃ i : Nat, i < max 1 sensors.length ∧
    prefs.strings PrefsEnum.selectedSensor.getKey = some (toString (i : Int))
  delay : ∃ i : Nat, i < SensorHelper.sensorDelayNames.length ∧
    prefs.strings PrefsEnum.sensorDelay.getKey = some (toString (i : Int))
  initialised : prefs.hasSetDefaultValues = true

theorem Stored.putTyped (hstored : Stored sensors prefs) {key : PrefsEnum} (hkey : IsText key)
    (text : String) : Stored sensors (prefs.putString key.getKey text) := by
  have hother : ∀ other, other ≠ key →
      (prefs.putString key.getKey text).strings other.getKey = prefs.strings other.getKey :=
    fun other hne => StoredPrefs.strings_putString_of_ne
      (fun hsame => hne (PrefsEnum.getKey_injective hsame)) text
  refine ⟨fun other hother' => ?_, fun button => ?_, ?_, ?_, hstored.initialised⟩
  · by_cases hsame : other = key
    · subst hsame
      exact ⟨text, StoredPrefs.strings_putString_self prefs other.getKey text⟩
    · rw [hother other hsame]
      exact hstored.typed other hother'
  · rw [StoredPrefs.strings_putString_of_ne (getKey_ne_getKey key button).symm]
    exact hstored.button button
  · rw [hother]
    · exact hstored.sensor
    · rintro rfl
      exact hkey
  · rw [hother]
    · exact hstored.delay
    · rintro rfl
      exact hkey

theorem Stored.putButton (hstored : Stored sensors prefs) (key : ButtonKey) (text : String) :
    Stored sensors (prefs.putString key.getKey text) := by
  have hother : ∀ other : PrefsEnum,
      (prefs.putString key.getKey text).strings other.getKey = prefs.strings other.getKey :=
    fun other => StoredPrefs.strings_putString_of_ne (getKey_ne_getKey other key) text
  refine ⟨fun other htext => ?_, fun button => ?_, ?_, ?_, hstored.initialised⟩
  · rw [hother]
    exact hstored.typed other htext
  · by_cases hsame : button = key
    · subst hsame
      exact ⟨text, StoredPrefs.strings_putString_self prefs button.getKey text⟩
    · rw [StoredPrefs.strings_putString_of_ne fun h => hsame (ButtonKey.getKey_injective h)]
      exact hstored.button button
  · rw [hother]
    exact hstored.sensor
  · rw [hother]
    exact hstored.delay

theorem Stored.putChosen (hstored : Stored app.sensors prefs) {key : PrefsEnum} {i : Nat}
    (hi : i < app.entries key) :
    Stored app.sensors (prefs.putString key.getKey (toString (i : Int))) := by
  have hother : ∀ other, other ≠ key →
      (prefs.putString key.getKey (toString (i : Int))).strings other.getKey =
        prefs.strings other.getKey :=
    fun other hne => StoredPrefs.strings_putString_of_ne
      (fun hsame => hne (PrefsEnum.getKey_injective hsame)) _
  refine ⟨fun other htext => ?_, fun button => ?_, ?_, ?_, hstored.initialised⟩
  · rw [hother]
    · exact hstored.typed other htext
    · rintro rfl
      cases other <;> first | exact htext | exact absurd hi (Nat.not_lt_zero i)
  · rw [StoredPrefs.strings_putString_of_ne (getKey_ne_getKey key button).symm]
    exact hstored.button button
  · by_cases hsame : PrefsEnum.selectedSensor = key
    · subst hsame
      exact ⟨i, Nat.lt_of_lt_of_le hi (Nat.le_max_right _ _),
        StoredPrefs.strings_putString_self prefs _ _⟩
    · rw [hother _ hsame]
      exact hstored.sensor
  · by_cases hsame : PrefsEnum.sensorDelay = key
    · subst hsame
      exact ⟨i, hi, StoredPrefs.strings_putString_self prefs _ _⟩
    · rw [hother _ hsame]
      exact hstored.delay

theorem Stored.putDirection (hstored : Stored sensors prefs) (direction : Option Bool) :
    Stored sensors { prefs with direction := direction } :=
  ⟨hstored.typed, hstored.button, hstored.sensor, hstored.delay, hstored.initialised⟩

/-- Another start finds nothing to set. -/
theorem Stored.setDefaultValues (hstored : Stored sensors prefs) : prefs.setDefaultValues = prefs := by
  have hbutton : ∀ key : ButtonKey, (prefs.strings key.getKey).isSome = true := by
    intro key
    obtain ⟨text, htext⟩ := hstored.button key
    rw [htext]
    rfl
  have hback := hbutton .backTime
  have hunit := hbutton .timeUnit
  have hwait := hbutton .timeWait
  have hinitialised := hstored.initialised
  simp only [ButtonKey.getKey] at hback hunit hwait
  cases prefs with
  | mk strings direction initialised =>
      simp only at hback hunit hwait hinitialised
      simp only [StoredPrefs.setDefaultValues, hinitialised, if_true, StoredPrefs.setDefaults,
        StoredPrefs.buttonSettingDefaults, List.foldl_cons, List.foldl_nil, hback, hunit, hwait]

theorem createMain_of_stored (hstored : Stored app.sensors app.prefs) :
    app.createMain = { app with screen := .main, alive := true } := by
  obtain ⟨i, -, hi⟩ := hstored.sensor
  unfold createMain StoredPrefs.getSummary
  rw [hstored.setDefaultValues]
  simp only [hi]

/-- The last gyroscope is one of the sensors. -/
theorem gyroscopePosition_lt (sensors : List Sensor) :
    gyroscopePosition sensors < max 1 sensors.length := by
  unfold gyroscopePosition
  have hscan : ∀ (pairs : List (Sensor × Nat)) (bound start : Nat), start < bound →
      (∀ pair ∈ pairs, pair.2 < bound) →
      pairs.foldl (fun type entry => if entry.1.type = typeGyroscope then entry.2 else type) start <
        bound := by
    intro pairs bound
    induction pairs with
    | nil =>
        intro start hstart _
        exact hstart
    | cons pair rest ih =>
        intro start hstart hpairs
        rw [List.foldl_cons]
        refine ih _ ?_ fun other hother => hpairs other (List.mem_cons_of_mem _ hother)
        by_cases htype : pair.1.type = typeGyroscope
        · rw [if_pos htype]
          exact hpairs pair (List.mem_cons_self ..)
        · rw [if_neg htype]
          exact hstart
  refine hscan _ _ 0 (by omega) fun pair hpair => ?_
  have hlt := (List.mem_zipIdx hpair).2.1
  omega

theorem stored_createMain (sensors : List Sensor) :
    Stored sensors (createMain ({ sensors := sensors } : SensorApp F)).prefs := by
  have hchosen := gyroscopePosition_lt sensors
  refine ⟨fun key hkey => ?_, fun key => ?_, ⟨_, hchosen, ?_⟩, ⟨3, by decide, ?_⟩, ?_⟩
  · cases key <;> first | exact absurd hkey id | exact ⟨_, rfl⟩
  · cases key <;> exact ⟨_, rfl⟩
  · rfl
  · rfl
  · rfl

/-! ### Every reachable state -/

/-- On a settings screen. -/
def Editing : Screen F → Prop
  | .setting _ | .buttonSetting _ => True
  | _ => False

/-- Screens that are left are not edited, nor is the one below. -/
theorem not_editing_previous (screen : Screen F) : ¬ Editing (previous screen) := by
  cases screen <;> exact id

section

variable [JavaFloat F] [JavaInteger] [JavaText F]

omit [JavaInteger] [JavaText F] in
theorem startService_eq_some {sensors : List Sensor} {read started : Extras F} :
    startService sensors read = some started ↔
      read = started ∧ ∃ made, onStartCommand sensors started = .ok made := by
  unfold startService
  constructor
  · intro hstart
    cases hmade : onStartCommand sensors read with
    | error thrown =>
        rw [hmade] at hstart
        cases hstart
    | ok made =>
        rw [hmade] at hstart
        obtain rfl := Option.some.inj hstart
        exact ⟨rfl, made, hmade⟩
  · rintro ⟨rfl, made, hmade⟩
    rw [hmade]

/-- Nothing was ever started, or every setting has a text; the service does not run while settings are
edited, and what runs was started with what is stored. -/
structure Reached (app : SensorApp F) : Prop where
  stored : app = { sensors := app.sensors } ∨ Stored app.sensors app.prefs
  idle : Editing app.screen → app.service = none
  current : ∀ started, app.service = some started →
    extras app.prefs = .ok started ∧ startService app.sensors started = some started

theorem reached_start (sensors : List Sensor) : Reached ({ sensors := sensors } : SensorApp F) :=
  ⟨Or.inl rfl, fun hediting => hediting.elim, fun _ hstarted => by cases hstarted⟩

theorem Reached.throws (hreached : Reached app) (hstored : Stored app.sensors app.prefs)
    (thrown : Thrown) : Reached (app.throws thrown) :=
  ⟨Or.inr hstored, fun hediting => hediting.elim, hreached.current⟩

theorem Reached.shows (hreached : Reached app) (hstored : Stored app.sensors app.prefs)
    {shown : Except Thrown (Screen F)}
    (hidle : ∀ screen, shown = .ok screen → Editing screen → app.service = none) :
    Reached (app.shows shown) := by
  cases shown with
  | error thrown => exact hreached.throws hstored thrown
  | ok screen => exact ⟨Or.inr hstored, hidle screen rfl, hreached.current⟩

theorem Reached.createMain (hreached : Reached app) (hstored : Stored app.sensors app.prefs) :
    Reached app.createMain := by
  rw [createMain_of_stored hstored]
  exact ⟨Or.inr hstored, fun hediting => hediting.elim, hreached.current⟩

theorem reached_stopService (hstored : Stored app.sensors app.prefs) : Reached app.stopService :=
  ⟨Or.inr hstored, fun _ => rfl, fun _ hstarted => by cases hstarted⟩

theorem Reached.createSensorList (hreached : Reached app) (hstored : Stored app.sensors app.prefs) :
    Reached app.createSensorList := by
  refine hreached.shows hstored fun screen hscreen hediting => ?_
  split_ifs at hscreen
  cases hscreen
  exact hediting.elim

theorem Reached.createSensorDetail (hreached : Reached app) (hstored : Stored app.sensors app.prefs)
    (position : Nat) : Reached (app.createSensorDetail position) := by
  unfold SensorApp.createSensorDetail
  split_ifs
  · exact hreached.throws hstored _
  · refine hreached.shows hstored fun screen hscreen hediting => ?_
    obtain ⟨sensor, -, hscreen⟩ := Thrown.bind_eq_ok.mp hscreen
    obtain ⟨type, -, hscreen⟩ := Thrown.bind_eq_ok.mp hscreen
    obtain ⟨delay, -, hscreen⟩ := Thrown.bind_eq_ok.mp hscreen
    cases hscreen
    exact hediting.elim

theorem Reached.createButtonSetting (hreached : Reached app)
    (hstored : Stored app.sensors app.prefs) : Reached app.createButtonSetting := by
  unfold SensorApp.createButtonSetting
  split_ifs
  · exact hreached.throws hstored _
  · exact (reached_stopService hstored).shows hstored fun _ _ _ => rfl

/-- A settings screen is open, so the service does not run. -/
theorem Reached.edited (hreached : Reached app) (hediting : Editing app.screen)
    {prefs : StoredPrefs} (hprefs : Stored app.sensors prefs) {shown : Except Thrown (Screen F)} :
    Reached ({ app with prefs := prefs }.shows shown) := by
  have hnone := hreached.idle hediting
  have hedited : Reached ({ app with prefs := prefs } : SensorApp F) :=
    ⟨Or.inr hprefs, fun _ => hnone, fun _ hstarted => by
      rw [hnone] at hstarted
      cases hstarted⟩
  exact hedited.shows hprefs fun _ _ _ => hnone

theorem Reached.storeButton (hreached : Reached app) (hstored : Stored app.sensors app.prefs)
    (hediting : Editing app.screen) (summaries : ButtonSummaries) (key : ButtonKey) (text : String) :
    Reached (app.storeButton summaries key text) := by
  unfold SensorApp.storeButton
  split_ifs
  · exact hreached
  · exact hreached.edited hediting (hstored.putButton key text)

theorem Reached.createMouseStart (hreached : Reached app) (hstored : Stored app.sensors app.prefs) :
    Reached app.createMouseStart := by
  unfold SensorApp.createMouseStart
  split_ifs
  · split
    · exact hreached.throws hstored _
    · exact hreached.throws hstored _
  · split
    · exact hreached.throws hstored _
    · rename_i read hread
      refine ⟨Or.inr hstored, fun hediting => hediting.elim, fun started hstarted => ?_⟩
      obtain ⟨rfl, -⟩ := startService_eq_some.mp hstarted
      exact ⟨hread, hstarted⟩

theorem Reached.createSetting (hreached : Reached app) (hstored : Stored app.sensors app.prefs) :
    Reached app.createSetting := by
  unfold SensorApp.createSetting
  split_ifs
  · exact hreached.throws hstored _
  · split
    · exact hreached.throws hstored _
    · exact (reached_stopService hstored).shows hstored fun _ _ _ => rfl

theorem Reached.recreate (hreached : Reached app) (hstored : Stored app.sensors app.prefs) :
    Reached app.recreate := by
  unfold SensorApp.recreate
  split
  · exact hreached
  · exact hreached.createMain hstored
  · exact hreached.createSensorList hstored
  · exact hreached.createSensorDetail hstored _
  · exact hreached.throws hstored _
  · exact hreached.throws hstored _
  · exact hreached.createMouseStart hstored

theorem Reached.clickMain (hreached : Reached app) (hstored : Stored app.sensors app.prefs)
    {position : Nat} (hclick : app.clickMain position = some next) : Reached next := by
  unfold SensorApp.clickMain at hclick
  split at hclick
  · exact Option.some.inj hclick ▸ hreached.createMouseStart hstored
  · exact Option.some.inj hclick ▸ reached_stopService hstored
  · exact Option.some.inj hclick ▸ hreached.createSensorList hstored
  · exact Option.some.inj hclick ▸ hreached.createSetting hstored
  · exact Option.some.inj hclick ▸ hreached.createButtonSetting hstored
  · cases hclick

theorem Reached.change (hreached : Reached app) (hediting : Editing app.screen)
    (activity : SettingActivity F) {prefs : StoredPrefs} (hprefs : Stored app.sensors prefs)
    (key : PrefsEnum) : Reached (app.change activity prefs key) :=
  hreached.edited hediting hprefs

theorem Reached.store (hreached : Reached app) (hediting : Editing app.screen)
    (activity : SettingActivity F) {key : PrefsEnum} {text : String}
    (hprefs : Stored app.sensors (app.prefs.putString key.getKey text)) :
    Reached (app.store activity key text) := by
  unfold SensorApp.store
  split_ifs
  · exact hreached
  · exact hreached.change hediting activity hprefs key

theorem Reached.perform (hreached : Reached app) (hstored : Stored app.sensors app.prefs)
    {event : Event F} (hperform : app.perform event = some next) : Reached next := by
  cases event with
  | launch => simp only [SensorApp.perform, reduceCtorEq] at hperform
  | restore => simp only [SensorApp.perform, reduceCtorEq] at hperform
  | click position =>
      simp only [SensorApp.perform] at hperform
      split at hperform
      · exact hreached.clickMain hstored hperform
      · cases hperform
  | clickSensor position =>
      simp only [SensorApp.perform] at hperform
      split at hperform
      · split_ifs at hperform
        exact Option.some.inj hperform ▸ hreached.createSensorDetail hstored position
      · cases hperform
  | edit key text =>
      simp only [SensorApp.perform] at hperform
      split at hperform
      · rename_i activity hscreen
        split_ifs at hperform with hkey
        exact Option.some.inj hperform ▸ hreached.store (by rw [hscreen]; trivial) activity
          (hstored.putTyped hkey text)
      · cases hperform
  | editButton key text =>
      simp only [SensorApp.perform] at hperform
      split at hperform
      · rename_i summaries hscreen
        exact Option.some.inj hperform ▸ hreached.storeButton hstored (by rw [hscreen]; trivial)
          summaries key text
      · cases hperform
  | choose key index =>
      simp only [SensorApp.perform] at hperform
      split at hperform
      · rename_i activity hscreen
        split_ifs at hperform with hindex
        exact Option.some.inj hperform ▸ hreached.store (by rw [hscreen]; trivial) activity
          (hstored.putChosen hindex)
      · cases hperform
  | toggle =>
      simp only [SensorApp.perform] at hperform
      split at hperform
      · rename_i activity hscreen
        exact Option.some.inj hperform ▸ hreached.change (by rw [hscreen]; trivial) activity
          (hstored.putDirection _) _
      · cases hperform
  | sensorCallback x y z =>
      simp only [SensorApp.perform] at hperform
      split at hperform
      · rename_i activity hscreen
        exact Option.some.inj hperform ▸ hreached.shows hstored
          fun _ _ _ => hreached.idle (by rw [hscreen]; trivial)
      · cases hperform
  | rotate => exact Option.some.inj hperform ▸ hreached.recreate hstored
  | back =>
      cases hperform
      exact ⟨Or.inr hstored, fun hediting => absurd hediting (not_editing_previous app.screen),
        hreached.current⟩
  | kill =>
      cases hperform
      exact ⟨Or.inr hstored, hreached.idle, hreached.current⟩

theorem Reached.step (hreached : Reached app) {event : Event F} (hstep : app.step event = some next) :
    Reached next := by
  rcases hreached.stored with hfresh | hstored
  · -- nothing but a first start is possible
    rw [hfresh] at hstep
    cases event <;> simp only [SensorApp.step, Bool.false_eq_true, if_false, reduceCtorEq,
      Option.some.injEq] at hstep
    subst hstep
    exact ⟨Or.inr (stored_createMain app.sensors), fun hediting => hediting.elim,
      fun _ hstarted => by cases hstarted⟩
  · cases event with
    | launch =>
        simp only [SensorApp.step] at hstep
        split at hstep
        · exact Option.some.inj hstep ▸ hreached.createMain hstored
        · cases hstep
    | restore =>
        simp only [SensorApp.step] at hstep
        split at hstep
        · cases hstep
        · split_ifs at hstep
          exact Option.some.inj hstep ▸ hreached.recreate hstored
    | _ =>
        simp only [SensorApp.step] at hstep
        split_ifs at hstep
        exact hreached.perform hstored hstep

end

end SensorApp

end SensorMouse
