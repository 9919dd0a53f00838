import SensorMouse.Proof.ServiceSettings

/-!
# When a screen crashes

Numbers are stored as typed and read again by everything that needs them. Which texts are accepted
where, which sensors can be looked at, what a sample finds in the averager and what is left of a
process that was ended: in every run the screens stay up exactly if every step keeps to these.
-/

namespace SensorMouse

open Java Lib

namespace SensorApp

open StoredPrefs AverageComputer

section

variable {F : Type} [JavaFloat F] [JavaInteger] [JavaText F] {sensors : List Sensor}
  {prefs : StoredPrefs} {app next : SensorApp F}

/-! ### Which screens open -/

/-- What the open screen has read can be read again. -/
def Opened (sensors : List Sensor) (prefs : StoredPrefs) : Screen F → Prop
  | .closed | .main | .sensorList => True
  | .sensorDetail position => ∃ sensor, sensors[position]? = some sensor ∧ HasType sensor
  | .setting activity => sensors ≠ [] ∧ Readable F prefs ∧ Computes prefs activity.computer
  | .buttonSetting _ => ButtonReadable prefs
  | .mouseStart => ∃ started : Extras F, extras prefs = .ok started

/-- A state after the first start: what is stored, what the open screen has, and, as long as nothing
was thrown, what can be read. -/
structure Sound (app : SensorApp F) : Prop where
  stored : Stored app.sensors app.prefs
  opened : Opened app.sensors app.prefs app.screen
  readable : app.thrown = none → Readable F app.prefs ∧ ButtonReadable app.prefs

/-- An event leads to a state of this kind, and throws unless `guard` holds. -/
structure Leads (app next : SensorApp F) (guard : Prop) : Prop where
  sound : Sound next
  sensors : next.sensors = app.sensors
  thrown : next.thrown = none ↔ app.thrown = none ∧ guard

theorem Leads.congr {guard other : Prop} (hleads : Leads app next guard)
    (hguard : app.thrown = none → (guard ↔ other)) : Leads app next other :=
  ⟨hleads.sound, hleads.sensors, hleads.thrown.trans (and_congr_right hguard)⟩

theorem Sound.throws (hsound : Sound app) (thrown : Thrown) : Leads app (app.throws thrown) False :=
  ⟨⟨hsound.stored, trivial, fun h => by cases h⟩, rfl, ⟨fun h => (by cases h), fun h => h.2.elim⟩⟩

/-- What is stored changes if anything, and the screen is another one. -/
theorem leads_shows {prefs : StoredPrefs} (hstored : Stored app.sensors prefs)
    {shown : Except Thrown (Screen F)}
    (hshown : ∀ screen, shown = .ok screen → Opened app.sensors prefs screen ∧
      (app.thrown = none → Readable F prefs ∧ ButtonReadable prefs)) :
    Leads app ({ app with prefs := prefs }.shows shown) (∃ screen, shown = .ok screen) := by
  cases shown with
  | error thrown =>
      refine ⟨⟨hstored, trivial, fun h => by cases h⟩, rfl, ⟨fun h => (by cases h), ?_⟩⟩
      rintro ⟨-, screen, hscreen⟩
      cases hscreen
  | ok screen =>
      obtain ⟨hopened, hreadable⟩ := hshown screen rfl
      exact ⟨⟨hstored, hopened, hreadable⟩, rfl, ⟨fun h => ⟨h, screen, rfl⟩, fun h => h.1⟩⟩

theorem Sound.shows (hsound : Sound app) {shown : Except Thrown (Screen F)}
    (hopened : ∀ screen, shown = .ok screen → Opened app.sensors app.prefs screen) :
    Leads app (app.shows shown) (∃ screen, shown = .ok screen) :=
  leads_shows hsound.stored fun screen hscreen => ⟨hopened screen hscreen, hsound.readable⟩

theorem Sound.stopService (hsound : Sound app) : Leads app app.stopService True :=
  ⟨⟨hsound.stored, hsound.opened, hsound.readable⟩, rfl, (and_iff_left trivial).symm⟩

theorem Leads.trans {later : SensorApp F} {guard other : Prop} (hfirst : Leads app next guard)
    (hrest : Leads next later other) : Leads app later (guard ∧ other) :=
  ⟨hrest.sound, hrest.sensors.trans hfirst.sensors,
    hrest.thrown.trans (by rw [hfirst.thrown, and_assoc])⟩

/-! ### The steps -/

theorem Sound.createMain (hsound : Sound app) : Leads app app.createMain True := by
  rw [createMain_of_stored hsound.stored]
  exact ⟨⟨hsound.stored, trivial, hsound.readable⟩, rfl, (and_iff_left trivial).symm⟩

theorem Sound.createSensorList (hsound : Sound app) :
    Leads app app.createSensorList (app.alive = true) := by
  refine (hsound.shows fun screen hscreen => ?_).congr fun _ => ?_
  · split_ifs at hscreen
    cases hscreen
    trivial
  · by_cases halive : app.alive = true
    · rw [if_pos halive]
      exact iff_of_true ⟨_, rfl⟩ halive
    · rw [if_neg halive]
      exact iff_of_false (fun h => by cases h.choose_spec) halive

theorem Sound.createSensorDetail (hsound : Sound app) (halive : app.alive = true)
    (position : Nat) : Leads app (app.createSensorDetail position)
      (∃ sensor, app.sensors[position]? = some sensor ∧ HasType sensor) := by
  have hsensor : ∀ {sensor : Sensor}, StoredPrefs.elementAt app.sensors position = .ok sensor ↔
      app.sensors[position]? = some sensor := by
    intro sensor
    unfold StoredPrefs.elementAt
    rw [if_neg (by omega), Int.toNat_natCast]
    cases app.sensors[position]? with
    | none => simp
    | some other => simp
  unfold SensorApp.createSensorDetail
  rw [if_neg (by rw [halive]; decide)]
  have hshown : ∀ screen : Screen F, (do
      let sensor ← StoredPrefs.elementAt app.sensors position
      let _ ← StoredPrefs.elementAt SensorHelper.sensorTypes (sensor.type - 1)
      let _ ← app.prefs.getSensorDelay
      pure (.sensorDetail position)) = Except.ok screen ↔
        screen = .sensorDetail position ∧
          ∃ sensor, app.sensors[position]? = some sensor ∧ HasType sensor := by
    intro screen
    obtain ⟨delay, -, hdelay, -⟩ := hsound.stored.getSensorDelay
    constructor
    · intro hscreen
      obtain ⟨sensor, hread, hscreen⟩ := Thrown.bind_eq_ok.mp hscreen
      obtain ⟨name, hname, hscreen⟩ := Thrown.bind_eq_ok.mp hscreen
      rw [hdelay] at hscreen
      exact ⟨(Except.ok.inj hscreen).symm, sensor, hsensor.mp hread,
        (exists_type_iff sensor).mp ⟨name, hname⟩⟩
    · rintro ⟨rfl, sensor, hread, htype⟩
      obtain ⟨name, hname⟩ := (exists_type_iff sensor).mpr htype
      rw [hsensor.mpr hread]
      refine Thrown.bind_eq_ok.mpr ⟨sensor, rfl, Thrown.bind_eq_ok.mpr ⟨name, hname, ?_⟩⟩
      rw [hdelay]
      rfl
  refine (hsound.shows fun screen hscreen => ?_).congr fun _ => ?_
  · obtain ⟨rfl, hopened⟩ := (hshown screen).mp hscreen
    exact hopened
  · simp only [hshown, exists_eq_left]

theorem Sound.createButtonSetting (hsound : Sound app) (halive : app.alive = true) :
    Leads app app.createButtonSetting (ButtonReadable app.prefs) := by
  unfold SensorApp.createButtonSetting
  rw [if_neg (by rw [halive]; decide)]
  have hreads : ∀ screen : Screen F, (do
      let summaries ← ButtonSettingActivity.createSummaries app.prefs
      pure (.buttonSetting summaries)) = Except.ok screen →
        ButtonReadable app.prefs ∧ ∃ summaries, screen = .buttonSetting summaries := by
    intro screen hscreen
    obtain ⟨summaries, hsummaries, hscreen⟩ := Thrown.bind_eq_ok.mp hscreen
    obtain ⟨backTime, hback, hsummaries⟩ := Thrown.bind_eq_ok.mp hsummaries
    obtain ⟨timeUnit, hunit, -⟩ := Thrown.bind_eq_ok.mp hsummaries
    exact ⟨buttonReadable_iff.mpr ⟨⟨backTime, hback⟩, timeUnit, hunit⟩, summaries,
      (Except.ok.inj hscreen).symm⟩
  have hshown := hsound.stopService.trans (hsound.stopService.sound.shows fun screen hscreen => by
    obtain ⟨hreadable, summaries, rfl⟩ := hreads screen hscreen
    exact hreadable)
  refine hshown.congr fun _ => ⟨?_, ?_⟩
  · rintro ⟨-, screen, hscreen⟩
    exact (hreads screen hscreen).1
  · intro hreadable
    obtain ⟨⟨backTime, hback⟩, timeUnit, hunit⟩ := buttonReadable_iff.mp hreadable
    refine ⟨trivial, ?_⟩
    unfold ButtonSettingActivity.createSummaries
    rw [hback, hunit]
    exact ⟨_, rfl⟩

theorem Sound.createSetting (hsound : Sound app) (hsize : (app.sensors.length : Int) ≤ maxInt)
    (halive : app.alive = true) :
    Leads app app.createSetting (Readable F app.prefs ∧ app.sensors ≠ []) := by
  unfold SensorApp.createSetting
  rw [if_neg (by rw [halive]; decide)]
  cases hconstruct : (AverageComputer.construct app.prefs : Except Thrown (AverageComputer F)) with
  | error thrown =>
      refine (hsound.throws thrown).congr fun _ => iff_of_false id fun hguard => ?_
      obtain ⟨computer, hcomputer⟩ := (exists_construct_iff app.prefs).mpr hguard.1
      cases hconstruct.symm.trans hcomputer
  | ok computer =>
      have hreadable := (exists_construct_iff app.prefs).mp ⟨computer, hconstruct⟩
      obtain ⟨delay, -, hdelay, -⟩ := hsound.stored.getSensorDelay
      have hopens : ∀ screen : Screen F, (do
          let summaries ← SettingActivity.createSummaries app.sensors app.prefs
          let _ ← app.prefs.getSelectedSensor app.sensors
          let _ ← app.prefs.getSensorDelay
          pure (.setting ⟨summaries, computer⟩)) = Except.ok screen →
            app.sensors ≠ [] ∧ ∃ summaries, screen = .setting ⟨summaries, computer⟩ := by
        intro screen hscreen
        obtain ⟨summaries, hsummaries, hscreen⟩ := Thrown.bind_eq_ok.mp hscreen
        obtain ⟨sensor, -, hscreen⟩ := Thrown.bind_eq_ok.mp hscreen
        rw [hdelay] at hscreen
        exact ⟨(exists_createSummaries_iff hsound.stored hsize).mp ⟨summaries, hsummaries⟩,
          summaries, (Except.ok.inj hscreen).symm⟩
      have hshown := hsound.stopService.trans
        (hsound.stopService.sound.shows fun screen hscreen => by
          obtain ⟨hsensors, summaries, rfl⟩ := hopens screen hscreen
          exact ⟨hsensors, hreadable, computes_construct hconstruct⟩)
      refine hshown.congr fun _ => ⟨?_, ?_⟩
      · rintro ⟨-, screen, hscreen⟩
        exact ⟨hreadable, (hopens screen hscreen).1⟩
      · rintro ⟨-, hsensors⟩
        obtain ⟨summaries, hsummaries⟩ :=
          (exists_createSummaries_iff hsound.stored hsize).mpr hsensors
        obtain ⟨sensor, hsensor⟩ := (hsound.stored.getSelectedSensor hsize).mpr hsensors
        refine ⟨trivial, .setting ⟨summaries, computer⟩, ?_⟩
        rw [hsummaries, hsensor, hdelay]
        rfl

theorem Sound.createMouseStart (hsound : Sound app) (halive : app.alive = true) :
    Leads app app.createMouseStart (∃ started : Extras F, extras app.prefs = .ok started) := by
  unfold SensorApp.createMouseStart
  rw [if_neg (by rw [halive]; decide)]
  cases hextras : (extras app.prefs : Except Thrown (Extras F)) with
  | error thrown =>
      exact (hsound.throws thrown).congr fun _ =>
        iff_of_false id fun h => by cases h.choose_spec
  | ok started =>
      have hopened : ∃ started : Extras F, extras app.prefs = .ok started := ⟨started, hextras⟩
      exact ⟨⟨hsound.stored, hopened, hsound.readable⟩, rfl,
        (and_iff_left ⟨started, rfl⟩).symm⟩

/-- Without its process, only the menu can be made again. -/
theorem recreate_of_dead (hdead : app.alive = false) (hscreen : app.screen ≠ .closed) :
    (app.screen = .main ∧ app.recreate = app.createMain) ∨
      (app.screen ≠ .main ∧ ∃ thrown, app.recreate = app.throws thrown) := by
  unfold SensorApp.recreate
  cases hsame : app.screen with
  | closed => exact absurd hsame hscreen
  | main => exact Or.inl ⟨rfl, rfl⟩
  | sensorList =>
      refine Or.inr ⟨nofun, .nullPointer, ?_⟩
      simp only [SensorApp.createSensorList, hdead, Bool.false_eq_true, if_false, SensorApp.shows]
  | sensorDetail position => exact Or.inr ⟨nofun, .nullPointer, if_pos hdead⟩
  | setting activity => exact Or.inr ⟨nofun, .instantiation, rfl⟩
  | buttonSetting summaries => exact Or.inr ⟨nofun, .instantiation, rfl⟩
  | mouseStart =>
      refine Or.inr ⟨nofun, ?_⟩
      simp only [SensorApp.createMouseStart, if_pos hdead]
      split
      · exact ⟨_, rfl⟩
      · exact ⟨_, rfl⟩

theorem Sound.recreate_dead (hsound : Sound app) (hdead : app.alive = false)
    (hscreen : app.screen ≠ .closed) : Leads app app.recreate (app.screen = .main) := by
  rcases recreate_of_dead hdead hscreen with ⟨hmain, hrecreate⟩ | ⟨hother, thrown, hrecreate⟩
  · rw [hrecreate]
    exact hsound.createMain.congr fun _ => iff_of_true trivial hmain
  · rw [hrecreate]
    exact (hsound.throws thrown).congr fun _ => iff_of_false id hother

/-- A screen that was opened opens again, but for the settings screens. -/
theorem Sound.recreate (hsound : Sound app) (halive : app.alive = true) :
    Leads app app.recreate (¬ Editing app.screen) := by
  have hopened := hsound.opened
  unfold SensorApp.recreate
  cases hsame : app.screen with
  | closed => exact ⟨hsound, rfl, (and_iff_left id).symm⟩
  | main => exact hsound.createMain.congr fun _ => iff_of_true trivial id
  | sensorList => exact hsound.createSensorList.congr fun _ => iff_of_true halive id
  | sensorDetail position =>
      rw [hsame] at hopened
      exact (hsound.createSensorDetail halive position).congr fun _ => iff_of_true hopened id
  | setting activity =>
      exact (hsound.throws .instantiation).congr fun _ => iff_of_false id fun h => h trivial
  | buttonSetting summaries =>
      exact (hsound.throws .instantiation).congr fun _ => iff_of_false id fun h => h trivial
  | mouseStart =>
      rw [hsame] at hopened
      exact (hsound.createMouseStart halive).congr fun _ => iff_of_true hopened id

theorem Sound.storeButton (hsound : Sound app) {summaries : ButtonSummaries}
    (hscreen : app.screen = .buttonSetting summaries) (key : ButtonKey) (text : String) :
    Leads app (app.storeButton summaries key text)
      (key ≠ .timeWait → (JavaInteger.parseInt text).isSome = true) := by
  have hopened : ButtonReadable app.prefs := by
    have hopened := hsound.opened
    rwa [hscreen] at hopened
  unfold SensorApp.storeButton
  by_cases hsame : app.prefs.strings key.getKey = some text
  · -- the text that was there was read when the screen opened
    rw [if_pos hsame]
    exact ⟨hsound, rfl, (and_iff_left ((buttonReads_iff hsame).mp (hopened key))).symm⟩
  · rw [if_neg hsame]
    have htext := StoredPrefs.strings_putString_self app.prefs key.getKey text
    have hother : ∀ other, other ≠ key →
        (app.prefs.putString key.getKey text).strings other.getKey =
          app.prefs.strings other.getKey := fun other hne =>
      StoredPrefs.strings_putString_of_ne (fun h => hne (ButtonKey.getKey_injective h)) text
    have hreads : ButtonReads (app.prefs.putString key.getKey text) key →
        ButtonReadable (app.prefs.putString key.getKey text) := by
      intro hkey other
      by_cases hedited : other = key
      · exact hedited ▸ hkey
      · exact (buttonReads_congr (hother other hedited)).mpr (hopened other)
    have hsettings : Readable F app.prefs → Readable F (app.prefs.putString key.getKey text) := by
      intro hreadable setting
      refine (reads_congr ?_).mpr (hreadable setting)
      exact StoredPrefs.strings_putString_of_ne (getKey_ne_getKey setting key) text
    rw [← buttonReads_iff htext, ← exists_button_iff summaries]
    refine (leads_shows (hsound.stored.putButton key text) fun screen hshown => ?_).congr
      fun _ => ⟨?_, ?_⟩
    · obtain ⟨next, hnext, hshown⟩ := Thrown.bind_eq_ok.mp hshown
      obtain rfl := Except.ok.inj hshown
      have hkey := (exists_button_iff summaries key).mp ⟨next, hnext⟩
      exact ⟨hreads hkey, fun hnone => ⟨hsettings (hsound.readable hnone).1, hreads hkey⟩⟩
    · rintro ⟨screen, hshown⟩
      obtain ⟨next, hnext, -⟩ := Thrown.bind_eq_ok.mp hshown
      exact ⟨next, hnext⟩
    · rintro ⟨next, hnext⟩
      exact ⟨_, Thrown.bind_eq_ok.mpr ⟨next, hnext, rfl⟩⟩

theorem Sound.change (hsound : Sound app) (hsize : (app.sensors.length : Int) ≤ maxInt)
    {activity : SettingActivity F} (hscreen : app.screen = .setting activity) {key : PrefsEnum}
    (hprefs : Stored app.sensors prefs)
    (hother : ∀ other, other ≠ key → prefs.strings other.getKey = app.prefs.strings other.getKey)
    (hbutton : ∀ button : ButtonKey,
      prefs.strings button.getKey = app.prefs.strings button.getKey) :
    Leads app (app.change activity prefs key) (Reads F prefs key) := by
  have hopened := hsound.opened
  rw [hscreen] at hopened
  obtain ⟨hsensors, hreadable, hformed, hnum⟩ := hopened
  have hchanged : ∀ screen : Screen F, (do
      let next ← activity.onSharedPreferenceChanged app.sensors prefs key
      pure (.setting next)) = Except.ok screen →
        Reads F prefs key ∧ ∃ next, screen = .setting next ∧ Computes prefs next.computer := by
    intro screen hchange
    obtain ⟨next, hnext, hchange⟩ := Thrown.bind_eq_ok.mp hchange
    obtain ⟨summaries, -, hnext⟩ := Thrown.bind_eq_ok.mp hnext
    obtain ⟨computer, hcomputer, hnext⟩ := Thrown.bind_eq_ok.mp hnext
    obtain rfl := Except.ok.inj hnext
    refine ⟨reads_of_onPrefsChanged hcomputer, _, (Except.ok.inj hchange).symm, ?_⟩
    refine computes_onPrefsChanged hformed (fun hne => ?_) hcomputer
    rw [← hnum]
    exact congrArg StoredPrefs.parseInt (hother _ hne.symm)
  have hreads : Reads F prefs key → Readable F prefs := by
    intro hkey other
    by_cases hsame : other = key
    · exact hsame ▸ hkey
    · exact (reads_congr (hother other hsame)).mpr (hreadable other)
  have hbuttons : ButtonReadable app.prefs → ButtonReadable prefs := fun h button =>
    (buttonReads_congr (hbutton button)).mpr (h button)
  refine (leads_shows hprefs fun screen hshown => ?_).congr fun _ => ⟨?_, fun hkey => ?_⟩
  · obtain ⟨hkey, next, rfl, hcomputes⟩ := hchanged screen hshown
    exact ⟨⟨hsensors, hreads hkey, hcomputes⟩,
      fun hnone => ⟨hreads hkey, hbuttons (hsound.readable hnone).2⟩⟩
  · rintro ⟨screen, hshown⟩
    exact (hchanged screen hshown).1
  · obtain ⟨summaries, hsummaries⟩ :=
      exists_changeSummaries hprefs hsize hsensors activity.summaries key
    obtain ⟨computer, hcomputer⟩ := (exists_onPrefsChanged_iff hformed).mpr hkey
    refine ⟨.setting ⟨summaries, computer⟩, ?_⟩
    unfold SettingActivity.onSharedPreferenceChanged
    rw [hsummaries, hcomputer]
    rfl

theorem Sound.store (hsound : Sound app) (hsize : (app.sensors.length : Int) ≤ maxInt)
    {activity : SettingActivity F} (hscreen : app.screen = .setting activity) {key : PrefsEnum}
    {text : String} (hprefs : Stored app.sensors (app.prefs.putString key.getKey text)) :
    Leads app (app.store activity key text) (Accepted F key text) := by
  unfold SensorApp.store
  by_cases hsame : app.prefs.strings key.getKey = some text
  · have hopened := hsound.opened
    rw [hscreen] at hopened
    rw [if_pos hsame]
    exact ⟨hsound, rfl,
      (and_iff_left ((reads_iff_accepted hsame).mp (hopened.2.1 key))).symm⟩
  · rw [if_neg hsame]
    rw [← reads_iff_accepted (StoredPrefs.strings_putString_self app.prefs key.getKey text)]
    refine hsound.change hsize hscreen hprefs (fun other hne => ?_) fun button => ?_
    · exact StoredPrefs.strings_putString_of_ne (fun h => hne (PrefsEnum.getKey_injective h)) text
    · exact StoredPrefs.strings_putString_of_ne (getKey_ne_getKey key button).symm text

/-- What an event needs in order not to throw. -/
def Harmless (app : SensorApp F) : Event F → Prop
  | .click 0 => ∃ value, app.prefs.getTimeWait = .ok value
  | .click 3 => app.sensors ≠ []
  | .clickSensor position => ∃ sensor, app.sensors[position]? = some sensor ∧ HasType sensor
  | .edit key text => Accepted F key text
  | .editButton key text => key ≠ .timeWait → (JavaInteger.parseInt text).isSome = true
  | .sensorCallback _ _ _ => app.prefs.getAverageNum ≠ .ok 0
  | .rotate => ¬ Editing app.screen
  | .restore => app.screen = .main
  | .launch | .click _ | .choose _ _ | .toggle | .back | .kill => True

theorem Sound.clickMain (hsound : Sound app) (hsize : (app.sensors.length : Int) ≤ maxInt)
    (halive : app.alive = true) {position : Nat} (hclick : app.clickMain position = some next) :
    Leads app next (Harmless app (.click position)) := by
  unfold SensorApp.clickMain at hclick
  split at hclick
  · obtain rfl := Option.some.inj hclick
    refine (hsound.createMouseStart halive).congr fun hnone => ?_
    rw [exists_extras_iff hsound.stored hsize]
    obtain ⟨hreadable, hbuttons⟩ := hsound.readable hnone
    obtain ⟨n, hnum⟩ := hreadable .averageNum
    exact ⟨fun h => h.2.2.2.2,
      fun hwait => ⟨⟨n, hnum⟩, hreadable .magnification, hreadable .offset, hbuttons, hwait⟩⟩
  · exact Option.some.inj hclick ▸ hsound.stopService
  · obtain rfl := Option.some.inj hclick
    exact hsound.createSensorList.congr fun _ => iff_of_true halive trivial
  · obtain rfl := Option.some.inj hclick
    exact (hsound.createSetting hsize halive).congr fun hnone =>
      and_iff_right (hsound.readable hnone).1
  · obtain rfl := Option.some.inj hclick
    exact (hsound.createButtonSetting halive).congr fun hnone =>
      iff_of_true (hsound.readable hnone).2 trivial
  · cases hclick

theorem Sound.perform (hsound : Sound app) (hsize : (app.sensors.length : Int) ≤ maxInt)
    (halive : app.alive = true) {event : Event F} (hperform : app.perform event = some next) :
    Leads app next (Harmless app event) := by
  cases event with
  | launch => simp only [SensorApp.perform, reduceCtorEq] at hperform
  | restore => simp only [SensorApp.perform, reduceCtorEq] at hperform
  | click position =>
      simp only [SensorApp.perform] at hperform
      split at hperform
      · exact hsound.clickMain hsize halive hperform
      · cases hperform
  | clickSensor position =>
      simp only [SensorApp.perform] at hperform
      split at hperform
      · split_ifs at hperform
        exact Option.some.inj hperform ▸ hsound.createSensorDetail halive position
      · cases hperform
  | edit key text =>
      simp only [SensorApp.perform] at hperform
      split at hperform
      · rename_i activity hscreen
        split_ifs at hperform with hkey
        exact Option.some.inj hperform ▸
          hsound.store hsize hscreen (hsound.stored.putTyped hkey text)
      · cases hperform
  | editButton key text =>
      simp only [SensorApp.perform] at hperform
      split at hperform
      · rename_i summaries hscreen
        exact Option.some.inj hperform ▸ hsound.storeButton hscreen key text
      · cases hperform
  | choose key index =>
      simp only [SensorApp.perform] at hperform
      split at hperform
      · rename_i activity hscreen
        split_ifs at hperform with hindex
        obtain rfl := Option.some.inj hperform
        refine (hsound.store hsize hscreen (hsound.stored.putChosen hindex)).congr fun _ => ?_
        -- only the two lists have entries, and the averager reads neither
        cases key <;> first | exact Iff.rfl | exact absurd hindex (Nat.not_lt_zero index)
      · cases hperform
  | toggle =>
      simp only [SensorApp.perform] at hperform
      split at hperform
      · rename_i activity hscreen
        exact Option.some.inj hperform ▸ hsound.change hsize hscreen
          (hsound.stored.putDirection _) (fun _ _ => rfl) fun _ => rfl
      · cases hperform
  | sensorCallback x y z =>
      simp only [SensorApp.perform] at hperform
      split at hperform
      · rename_i activity hscreen
        obtain rfl := Option.some.inj hperform
        have hopened := hsound.opened
        rw [hscreen] at hopened
        obtain ⟨hsensors, hreadable, hcomputes⟩ := hopened
        refine (hsound.shows fun screen hshown => ?_).congr fun _ => ?_
        · obtain ⟨changed, hchanged, hshown⟩ := Thrown.bind_eq_ok.mp hshown
          obtain rfl := Except.ok.inj hshown
          exact ⟨hsensors, hreadable, computes_sensorCallback hcomputes hchanged⟩
        · have hzero : Harmless app (.sensorCallback x y z) ↔ activity.computer.averageNum ≠ 0 := by
            change app.prefs.getAverageNum ≠ .ok 0 ↔ _
            rw [hcomputes.2, ne_eq, Except.ok.injEq]
          rw [hzero, ← exists_sensorCallback_iff hcomputes.1 x y z]
          constructor
          · rintro ⟨screen, hshown⟩
            obtain ⟨changed, hchanged, -⟩ := Thrown.bind_eq_ok.mp hshown
            exact ⟨changed, hchanged⟩
          · rintro ⟨changed, hchanged⟩
            exact ⟨_, Thrown.bind_eq_ok.mpr ⟨changed, hchanged, rfl⟩⟩
      · cases hperform
  | rotate => exact Option.some.inj hperform ▸ hsound.recreate halive
  | back =>
      obtain rfl := Option.some.inj hperform
      have hopened : Opened app.sensors app.prefs (SensorApp.previous app.screen) := by
        cases app.screen <;> trivial
      exact ⟨⟨hsound.stored, hopened, hsound.readable⟩, rfl, (and_iff_left trivial).symm⟩
  | kill =>
      obtain rfl := Option.some.inj hperform
      exact ⟨⟨hsound.stored, hsound.opened, hsound.readable⟩, rfl, (and_iff_left trivial).symm⟩

theorem Sound.step (hsound : Sound app) (hsize : (app.sensors.length : Int) ≤ maxInt)
    {event : Event F} (hstep : app.step event = some next) :
    Leads app next (Harmless app event) := by
  cases event with
  | launch =>
      simp only [SensorApp.step] at hstep
      split at hstep
      · exact Option.some.inj hstep ▸ hsound.createMain
      · cases hstep
  | restore =>
      simp only [SensorApp.step] at hstep
      split at hstep
      · cases hstep
      · rename_i hclosed
        split_ifs at hstep with halive
        obtain rfl := Option.some.inj hstep
        exact hsound.recreate_dead (Bool.eq_false_iff.mpr halive) hclosed
  | _ =>
      simp only [SensorApp.step] at hstep
      split_ifs at hstep with halive
      exact hsound.perform hsize halive hstep

/-- The first start fills in defaults that can be read. -/
theorem sound_createMain (sensors : List Sensor) :
    Leads ({ sensors := sensors } : SensorApp F)
      (createMain ({ sensors := sensors } : SensorApp F)) True := by
  exact ⟨⟨stored_createMain sensors, trivial, fun _ => readable_createMain sensors⟩, rfl,
    (and_iff_left trivial).symm⟩

/-- Before the first start there is nothing to be read. -/
def Started (app : SensorApp F) : Prop := app = { sensors := app.sensors } ∨ Sound app

theorem Started.step (hstarted : Started app) (hsize : (app.sensors.length : Int) ≤ maxInt)
    {event : Event F} (hstep : app.step event = some next) :
    Leads app next (Harmless app event) := by
  rcases hstarted with hfresh | hsound
  · -- nothing but a first start is possible
    rw [hfresh] at hstep ⊢
    cases event <;> simp only [SensorApp.step, Bool.false_eq_true, if_false, reduceCtorEq,
      Option.some.injEq] at hstep
    subst hstep
    exact sound_createMain app.sensors
  · exact hsound.step hsize hstep

/-- **When a screen crashes.** In a run of the screens from the first start on nothing is thrown if and
only if every step is harmless: texts of the settings screens are numbers when they are typed, the
waiting time when the mouse is started, samples find rows to fall into, only sensors with a type are
looked at, the settings are opened on a phone that has sensors, the phone is not turned on a settings
screen, and a process that was ended had the menu open. -/
theorem not_thrown_iff (sensors : List Sensor) (hsize : (sensors.length : Int) ≤ maxInt)
    {events : List (Event F)} {final : SensorApp F}
    (hrun : run SensorApp.step { sensors := sensors } events = some final) :
    final.thrown = none ↔ StepsAlong SensorApp.step Harmless { sensors := sensors } events := by
  refine @holds_iff_stepsAlong _ _ _ (fun app : SensorApp F => Started app ∧ app.sensors = sensors)
    (fun app : SensorApp F => app.thrown = none) _ _ _ _ ⟨Or.inl rfl, rfl⟩ rfl ?_ hrun
  rintro app event next ⟨hstarted, rfl⟩ hstep
  have hleads := hstarted.step hsize hstep
  exact ⟨⟨Or.inr hleads.sound, hleads.sensors⟩, hleads.thrown⟩

end

theorem not_thrown_edited :
    ∃ final : SensorApp ℚ,
      run SensorApp.step { sensors := phoneSensors } editedEvents = some final ∧
        final.thrown = none ∧
        StepsAlong SensorApp.step Harmless ({ sensors := phoneSensors } : SensorApp ℚ)
          editedEvents := by
  obtain ⟨final, started, hrun, hnone, -⟩ :=
    @run_editedEvents ℚ _ _ _ phoneSensors (by decide) (by decide)
  exact ⟨final, hrun, hnone, (not_thrown_iff phoneSensors (by decide) hrun).mp hnone⟩

end SensorApp

end SensorMouse
