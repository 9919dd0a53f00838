import SensorMouse.Activity.ControllerService
import SensorMouse.Proof.LookBack
import SensorMouse.Proof.ReadableSettings

/-!
# What the service runs with

The service gets the settings when its screen opens, and makes its own averager, sensor and ring of
them. What it is started with is what is stored then, and it stays what is stored: nothing is typed
while the service runs. Whether the start goes through is seen from the texts.
-/

namespace SensorMouse

open Java Lib

theorem AverageComputerForService.exists_create_iff {F : Type} [JavaFloat F] (averageNum : Int)
    (magnification : F) (offset direction : Int) :
    (∃ computer, create averageNum magnification offset direction = .ok computer) ↔
      0 ≤ averageNum := by
  constructor
  · rintro ⟨computer, hcreate⟩
    by_contra hneg
    unfold create newArray at hcreate
    rw [if_pos (not_le.mp hneg)] at hcreate
    cases hcreate
  · intro hnonneg
    obtain ⟨n, rfl⟩ := Int.eq_ofNat_of_zero_le hnonneg
    exact exists_create n magnification offset direction

/-- The intent as the service reads it; it looks the sensor up apart. -/
def Extras.intent {F : Type} (extras : Extras F) : Intent F where
  averageNum := some extras.averageNum
  magnification := some extras.magnification
  offset := some extras.offset
  direction := some extras.direction
  timeunit := some extras.timeunit
  backtime := some extras.backtime
  timewait := some extras.timewait

namespace SensorApp

open StoredPrefs AverageComputer

section

variable {F : Type} [JavaFloat F] {sensors : List Sensor} {started : Extras F}

/-! ### The start of the service -/

theorem exists_onStartCommand_iff :
    (∃ made, onStartCommand sensors started = .ok made) ↔
      0 ≤ started.averageNum ∧ (∃ sensor, elementAt sensors started.selectPosition = .ok sensor) ∧
        ∃ compute, TimeBackCompute.create started.timeunit started.backtime = .ok compute := by
  rw [← AverageComputerForService.exists_create_iff started.averageNum started.magnification
    started.offset started.direction]
  unfold onStartCommand
  constructor
  · rintro ⟨made, hmade⟩
    obtain ⟨computer, hcomputer, hmade⟩ := Thrown.bind_eq_ok.mp hmade
    obtain ⟨sensor, hsensor, hmade⟩ := Thrown.bind_eq_ok.mp hmade
    obtain ⟨compute, hcompute, -⟩ := Thrown.bind_eq_ok.mp hmade
    exact ⟨⟨computer, Thrown.lift_eq_ok.mp hcomputer⟩, ⟨sensor, hsensor⟩, compute,
      Thrown.lift_eq_ok.mp hcompute⟩
  · rintro ⟨⟨computer, hcomputer⟩, ⟨sensor, hsensor⟩, compute, hcompute⟩
    rw [hcomputer, hsensor, hcompute]
    exact ⟨(), rfl⟩

/-- What the screens see of the start is whether the service itself gets through it with its sensor. -/
theorem exists_onStartCommand_iff_service (screenWidth screenHeight : Int) :
    (∃ made, onStartCommand sensors started = .ok made) ↔
      (∃ sensor, elementAt sensors started.selectPosition = .ok sensor) ∧
        ∃ service, ControllerService.onStartCommand screenWidth screenHeight started.intent =
          .ok service := by
  rw [exists_onStartCommand_iff, ← AverageComputerForService.exists_create_iff started.averageNum
    started.magnification started.offset started.direction]
  constructor
  · rintro ⟨⟨computer, hcomputer⟩, hsensor, compute, hcompute⟩
    refine ⟨hsensor, ?_⟩
    unfold ControllerService.onStartCommand MouseManager.create Extras.intent
    exact ⟨_, bind_eq_ok.mpr ⟨_, bind_eq_ok.mpr ⟨computer, hcomputer, rfl⟩,
      bind_eq_ok.mpr ⟨compute, hcompute, rfl⟩⟩⟩
  · rintro ⟨hsensor, service, hservice⟩
    unfold ControllerService.onStartCommand MouseManager.create Extras.intent at hservice
    obtain ⟨mouse, hmouse, hservice⟩ := bind_eq_ok.mp hservice
    obtain ⟨computer, hcomputer, hmouse⟩ := bind_eq_ok.mp hmouse
    obtain ⟨compute, hcompute, -⟩ := bind_eq_ok.mp hservice
    obtain rfl := Except.ok.inj hmouse
    exact ⟨⟨computer, hcomputer⟩, hsensor, compute, hcompute⟩

end

section

variable {F : Type} [JavaFloat F] [JavaInteger] [JavaText F] {sensors : List Sensor}
  {prefs : StoredPrefs} {app : SensorApp F} {started : Extras F}

variable (F) in
/-- What the service reads: what the averager of the settings screen does but for the threshold, and
the texts of the buttons. -/
structure Startable (prefs : StoredPrefs) : Prop where
  settings : ∀ key, key ≠ .threshold → Reads F prefs key
  buttons : ButtonReadable prefs

theorem startable_of_started (hextras : extras prefs = .ok started)
    (hstart : startService sensors started = some started) : sensors ≠ [] ∧ Startable F prefs := by
  have hread := extras_eq_ok.mp hextras
  obtain ⟨-, hmade⟩ := startService_eq_some.mp hstart
  obtain ⟨hnonneg, ⟨sensor, hsensor⟩, -⟩ := exists_onStartCommand_iff.mp hmade
  obtain ⟨n, hn⟩ := Int.eq_ofNat_of_zero_le hnonneg
  refine ⟨?_, fun key hkey => ?_, buttonReadable_iff.mpr ⟨⟨_, hread.backtime⟩, _, hread.timeunit⟩⟩
  · rintro rfl
    unfold elementAt at hsensor
    simp at hsensor
  · cases key with
    | averageNum => exact ⟨n, hread.averageNum.trans (congrArg _ hn)⟩
    | magnification => exact ⟨_, hread.magnification⟩
    | offset => exact ⟨_, hread.offset⟩
    | threshold => exact absurd rfl hkey
    | direction | selectedSensor | sensorDelay => trivial

/-- With a unit of time that makes a ring, the service starts. -/
theorem exists_started {unit : Nat} (hstored : Stored sensors prefs)
    (hsize : (sensors.length : Int) ≤ maxInt) (hsensors : sensors ≠ [])
    (hstartable : Startable F prefs) (hunit : prefs.getTimeUnit = .ok (unit : Int))
    (hpos : 1 ≤ unit) (hring : (2 * unit : Nat) ≤ maxInt)
    (hwait : ∃ value, prefs.getTimeWait = .ok value) :
    ∃ started : Extras F, ReadAs prefs started ∧ startService sensors started = some started := by
  obtain ⟨n, hnum⟩ := hstartable.settings .averageNum (by decide)
  obtain ⟨magnification, hmagnification⟩ := hstartable.settings .magnification (by decide)
  obtain ⟨offset, hoffset⟩ := hstartable.settings .offset (by decide)
  obtain ⟨⟨backtime, hback⟩, -⟩ := buttonReadable_iff.mp hstartable.buttons
  obtain ⟨delay, -, hdelay, -⟩ := hstored.getSensorDelay
  obtain ⟨position, -, hposition⟩ := hstored.getSelectPosition hsize
  obtain ⟨timewait, hwait⟩ := hwait
  have hsensor : ∃ sensor, elementAt sensors (position : Int) = .ok sensor := by
    obtain ⟨sensor, hsensor⟩ := (hstored.getSelectedSensor hsize).mpr hsensors
    unfold getSelectedSensor at hsensor
    rw [hposition] at hsensor
    exact ⟨sensor, hsensor⟩
  refine ⟨⟨n, magnification, offset, prefs.getDirection, delay, position, unit, backtime, timewait⟩,
    ⟨hnum, hmagnification, hoffset, rfl, hdelay, hposition, hunit, hback, hwait⟩, ?_⟩
  exact startService_eq_some.mpr ⟨rfl, exists_onStartCommand_iff.mpr
    ⟨Int.natCast_nonneg n, hsensor, Sampler.exists_create hpos hring backtime⟩⟩

/-! ### Screens that open, and texts that are taken -/

theorem createSetting_of_readable (hstored : Stored app.sensors app.prefs)
    (hsize : (app.sensors.length : Int) ≤ maxInt) (halive : app.alive = true)
    (hreadable : Readable F app.prefs) (hsensors : app.sensors ≠ []) :
    ∃ activity, WellFormed activity.computer ∧
      app.createSetting = { app.stopService with screen := .setting activity } := by
  obtain ⟨computer, hconstruct⟩ := (exists_construct_iff app.prefs).mpr hreadable
  obtain ⟨summaries, hsummaries⟩ := (exists_createSummaries_iff hstored hsize).mpr hsensors
  obtain ⟨sensor, hsensor⟩ := (hstored.getSelectedSensor hsize).mpr hsensors
  obtain ⟨delay, -, hdelay, -⟩ := hstored.getSensorDelay
  refine ⟨⟨summaries, computer⟩, (computes_construct hconstruct).1, ?_⟩
  unfold SensorApp.createSetting
  rw [if_neg (by rw [halive]; decide), hconstruct, hsummaries, hsensor, hdelay]
  rfl

omit [JavaFloat F] [JavaText F] in
theorem createButtonSetting_of_readable (halive : app.alive = true)
    (hreadable : ButtonReadable app.prefs) :
    ∃ summaries,
      app.createButtonSetting = { app.stopService with screen := .buttonSetting summaries } := by
  obtain ⟨⟨backTime, hback⟩, timeUnit, hunit⟩ := buttonReadable_iff.mp hreadable
  refine ⟨⟨toString backTime ++ "ms", toString timeUnit ++ "/unit", toString timeUnit ++ "/unit"⟩, ?_⟩
  unfold SensorApp.createButtonSetting ButtonSettingActivity.createSummaries
  rw [if_neg (by rw [halive]; decide), hback, hunit]
  rfl

theorem createMouseStart_of_started (halive : app.alive = true) (hread : ReadAs app.prefs started)
    (hstart : startService app.sensors started = some started) :
    app.createMouseStart = { app with screen := .mouseStart, service := some started } := by
  unfold SensorApp.createMouseStart
  rw [if_neg (by rw [halive]; decide), extras_eq_ok.mpr hread]
  simp only [hstart]

omit [JavaFloat F] [JavaInteger] [JavaText F] in
theorem putString_self {key text : String} (htext : prefs.strings key = some text) :
    prefs.putString key text = prefs := by
  unfold putString
  rw [← htext, Function.update_eq_self]

/-- A text that the averager takes is stored, and the screen stays. -/
theorem store_of_accepted (hsize : (app.sensors.length : Int) ≤ maxInt) (hsensors : app.sensors ≠ [])
    {activity : SettingActivity F} (hscreen : app.screen = .setting activity)
    (hformed : WellFormed activity.computer) {key : PrefsEnum} {text : String}
    (hprefs : Stored app.sensors (app.prefs.putString key.getKey text))
    (haccepted : Accepted F key text) :
    ∃ changed, app.store activity key text =
      { app with prefs := app.prefs.putString key.getKey text, screen := .setting changed } := by
  unfold SensorApp.store
  by_cases hsame : app.prefs.strings key.getKey = some text
  · refine ⟨activity, ?_⟩
    rw [if_pos hsame, putString_self hsame, ← hscreen]
  · rw [if_neg hsame]
    have htext := strings_putString_self app.prefs key.getKey text
    obtain ⟨summaries, hsummaries⟩ :=
      exists_changeSummaries hprefs hsize hsensors activity.summaries key
    obtain ⟨computer, hcomputer⟩ :=
      (exists_onPrefsChanged_iff hformed).mpr ((reads_iff_accepted htext).mpr haccepted)
    refine ⟨⟨summaries, computer⟩, ?_⟩
    unfold SensorApp.change SettingActivity.onSharedPreferenceChanged
    rw [hsummaries, hcomputer]
    rfl

/-- Any other text is stored too, and closes the task. -/
theorem store_of_not_accepted {activity : SettingActivity F} {key : PrefsEnum} {text : String}
    (hdiffers : app.prefs.strings key.getKey ≠ some text) (hrejected : ¬ Accepted F key text) :
    ∃ thrown, app.store activity key text =
      { app with prefs := app.prefs.putString key.getKey text }.throws thrown := by
  have htext := strings_putString_self app.prefs key.getKey text
  unfold SensorApp.store SensorApp.change
  rw [if_neg hdiffers]
  cases hchange : activity.onSharedPreferenceChanged app.sensors
      (app.prefs.putString key.getKey text) key with
  | error thrown => exact ⟨thrown, rfl⟩
  | ok changed =>
      obtain ⟨summaries, -, hrest⟩ := Thrown.bind_eq_ok.mp hchange
      obtain ⟨computer, hcomputer, -⟩ := Thrown.bind_eq_ok.mp hrest
      exact absurd ((reads_iff_accepted htext).mp (reads_of_onPrefsChanged hcomputer)) hrejected

omit [JavaFloat F] [JavaText F] in
/-- A text of the buttons that its screen can read is stored, and the screen stays. -/
theorem storeButton_of_reads {summaries : ButtonSummaries}
    (hscreen : app.screen = .buttonSetting summaries) {key : ButtonKey} {text : String}
    (hreads : ButtonReads (app.prefs.putString key.getKey text) key) :
    ∃ changed, app.storeButton summaries key text =
      { app with prefs := app.prefs.putString key.getKey text, screen := .buttonSetting changed } := by
  unfold SensorApp.storeButton
  by_cases hsame : app.prefs.strings key.getKey = some text
  · refine ⟨summaries, ?_⟩
    rw [if_pos hsame, putString_self hsame, ← hscreen]
  · obtain ⟨changed, hchanged⟩ := (exists_button_iff summaries key).mpr hreads
    refine ⟨changed, ?_⟩
    simp only [if_neg hsame, hchanged]
    rfl

/-! ### After the first start -/

omit [JavaFloat F] in
/-- What a first start stores can be read. -/
theorem readable_createMain (sensors : List Sensor) :
    Readable F (createMain ({ sensors := sensors } : SensorApp F)).prefs ∧
      ButtonReadable (createMain ({ sensors := sensors } : SensorApp F)).prefs := by
  refine ⟨fun key => ?_,
    buttonReadable_iff.mpr ⟨⟨300, @parseInt_toString _ 300 (by decide)⟩, 10,
      @parseInt_toString _ 10 (by decide)⟩⟩
  cases key with
  | averageNum => exact ⟨5, @parseInt_toString _ 5 (by decide)⟩
  | offset => exact ⟨1, @parseInt_toString _ 1 (by decide)⟩
  | magnification => exact (StoredPrefs.parseFloat_some "5.0").mpr JavaText.isSome_parseFloat_five
  | threshold => exact (StoredPrefs.parseFloat_some "0.0").mpr JavaText.isSome_parseFloat_zero
  | direction | selectedSensor | sensorDelay => trivial

/-- The settings open right after the first start. -/
theorem exists_run_setting (hsize : (sensors.length : Int) ≤ maxInt) (hsensors : sensors ≠ []) :
    ∃ activity : SettingActivity F, WellFormed activity.computer ∧
      run SensorApp.step { sensors := sensors } [.launch, .click 3] =
        some { createMain { sensors := sensors } with screen := .setting activity } := by
  let menu : SensorApp F := createMain { sensors := sensors }
  have hstored : Stored menu.sensors menu.prefs := stored_createMain sensors
  have halive : menu.alive = true := rfl
  obtain ⟨activity, hformed, hopen⟩ :=
    createSetting_of_readable hstored hsize halive (readable_createMain sensors).1 hsensors
  have hclick : menu.step (.click 3) = some { menu with screen := .setting activity } :=
    congrArg some hopen
  refine ⟨activity, hformed, ?_⟩
  rw [run_cons, show SensorApp.step _ Event.launch = some menu from rfl, Option.bind_some, run_cons,
    hclick]
  rfl

/-- Another number of samples is typed, the mouse is started, and the process is ended and comes back
on the menu. -/
def editedEvents : List (Event F) :=
  [.launch, .click 3, .edit .averageNum "7", .back, .click 0, .back, .kill, .restore]

theorem run_editedEvents (hsize : (sensors.length : Int) ≤ maxInt) (hsensors : sensors ≠ []) :
    ∃ (final : SensorApp F) (started : Extras F),
      run SensorApp.step { sensors := sensors } editedEvents = some final ∧ final.thrown = none ∧
        final.service = some started ∧ started.averageNum = 7 := by
  let first : SensorApp F := createMain { sensors := sensors }
  obtain ⟨activity, hformed, hopened⟩ := @exists_run_setting F _ _ _ sensors hsize hsensors
  obtain ⟨hreadable, hbuttons⟩ := @readable_createMain F _ _ sensors
  have hseven : InRange 7 := by decide
  have haccepted : Accepted F .averageNum "7" := ⟨7, JavaInteger.parseInt_toString hseven⟩
  -- the menu behind the screen on which the text was typed
  let menu : SensorApp F :=
    { first with prefs := first.prefs.putString PrefsEnum.averageNum.getKey "7" }
  have htyped : IsText PrefsEnum.averageNum := trivial
  have hstored : Stored menu.sensors menu.prefs := (stored_createMain sensors).putTyped htyped "7"
  obtain ⟨changed, hstore⟩ := @store_of_accepted F _ _ _ { first with screen := .setting activity }
    hsize hsensors activity rfl hformed .averageNum "7" hstored haccepted
  have hstartable : Startable F menu.prefs := by
    refine ⟨fun key _ => readable_putString (fun other _ => hreadable other) haccepted key,
      fun key => (buttonReads_congr ?_).mpr (hbuttons key)⟩
    exact strings_putString_of_ne (getKey_ne_getKey .averageNum key).symm "7"
  have hunit : menu.prefs.getTimeUnit = .ok (10 : Nat) := @parseInt_toString _ 10 (by decide)
  have hwait : menu.prefs.getTimeWait = .ok 100 := @parseInt_toString _ 100 (by decide)
  obtain ⟨started, hread, hstart⟩ := exists_started hstored hsize hsensors hstartable hunit
    (by decide) (by decide) ⟨100, hwait⟩
  have hnum : started.averageNum = 7 := by
    have htext : menu.prefs.getAverageNum = .ok 7 :=
      (congrArg StoredPrefs.parseInt (strings_putString_self first.prefs _ "7")).trans
        (parseInt_toString hseven)
    exact Except.ok.inj (hread.averageNum.symm.trans htext)
  let final : SensorApp F := { menu with service := some started }
  refine ⟨final, started, ?_, rfl, rfl, hnum⟩
  have hedit : ({ first with screen := .setting activity } : SensorApp F).step
      (.edit .averageNum "7") = some { menu with screen := .setting changed } := congrArg some hstore
  have hback : ({ menu with screen := .setting changed } : SensorApp F).step .back = some menu := rfl
  have hclick : menu.step (.click 0) = some { final with screen := .mouseStart } :=
    congrArg some (createMouseStart_of_started rfl hread hstart)
  have hleave : ({ final with screen := .mouseStart } : SensorApp F).step .back = some final := rfl
  have hkill : final.step .kill = some { final with alive := false } := rfl
  have hrestore : ({ final with alive := false } : SensorApp F).step .restore = some final :=
    congrArg some (createMain_of_stored hstored)
  refine (run_append_eq_some SensorApp.step).mpr ⟨_, hopened, ?_⟩
  rw [run_cons, hedit, Option.bind_some, run_cons, hback, Option.bind_some, run_cons, hclick,
    Option.bind_some, run_cons, hleave, Option.bind_some, run_cons, hkill, Option.bind_some, run_cons,
    hrestore]
  rfl

/-- **What runs is what is stored.** In every run of the screens from the first start on, whatever is
typed and whatever ends the process, the service runs with the settings that are stored at that
moment. -/
theorem service_has_stored_settings (sensors : List Sensor) {events : List (Event F)}
    {final : SensorApp F}
    (hrun : run SensorApp.step { sensors := sensors } events = some final) (started : Extras F)
    (hstarted : final.service = some started) : extras final.prefs = .ok started :=
  ((run_invariant Reached (reached_start sensors)
    (fun _ _ _ hreached hstep => hreached.step hstep) hrun).current started hstarted).1

end

/-- A phone with two sensors. -/
def phoneSensors : List Sensor := [⟨"accelerometer", 1⟩, ⟨"gyroscope", typeGyroscope⟩]

theorem service_has_stored_settings_edited :
    ∃ (final : SensorApp ℚ) (started : Extras ℚ),
      run SensorApp.step { sensors := phoneSensors } editedEvents = some final ∧
        final.service = some started ∧ started.averageNum = 7 ∧ extras final.prefs = .ok started := by
  obtain ⟨final, started, hrun, -, hstarted, hnum⟩ :=
    @run_editedEvents ℚ _ _ _ phoneSensors (by decide) (by decide)
  exact ⟨final, started, hrun, hstarted, hnum,
    service_has_stored_settings phoneSensors hrun started hstarted⟩

end SensorApp

end SensorMouse
