import SensorMouse.Proof.AppCrashes

/-!
# Locked out of the settings

A text that is not a number is stored before it is read, and the screen it could be corrected on reads
it when it opens. So what crashed once crashes for good: from any state the settings can be reached
again exactly if their texts can be read now, and the service can be brought to run exactly if those it
needs can. A number is read as what the averager can be made of, a block length below zero is not.
-/

namespace SensorMouse

open Java Lib

namespace SensorApp

open AverageComputer

section

variable {F : Type} [JavaFloat F] [JavaInteger] [JavaText F] {sensors : List Sensor}
  {prefs : StoredPrefs} {app next final : SensorApp F}

/-! ### Where the stored texts change -/

omit [JavaFloat F] [JavaInteger] [JavaText F] in
theorem prefs_shows (app : SensorApp F) (shown : Except Thrown (Screen F)) :
    (app.shows shown).prefs = app.prefs := by
  cases shown with
  | error thrown => rfl
  | ok screen => rfl

omit [JavaFloat F] [JavaInteger] [JavaText F] in
theorem prefs_createMain (hstored : Stored app.sensors app.prefs) :
    app.createMain.prefs = app.prefs := by
  rw [createMain_of_stored hstored]

omit [JavaFloat F] [JavaText F] in
theorem prefs_createSensorDetail (app : SensorApp F) (position : Nat) :
    (app.createSensorDetail position).prefs = app.prefs := by
  unfold SensorApp.createSensorDetail
  split_ifs
  · rfl
  · exact prefs_shows app _

omit [JavaFloat F] [JavaText F] in
theorem prefs_createButtonSetting (app : SensorApp F) :
    app.createButtonSetting.prefs = app.prefs := by
  unfold SensorApp.createButtonSetting
  split_ifs
  · rfl
  · exact prefs_shows app.stopService _

theorem prefs_createSetting (app : SensorApp F) : app.createSetting.prefs = app.prefs := by
  unfold SensorApp.createSetting
  split_ifs
  · rfl
  · split
    · rfl
    · exact prefs_shows app.stopService _

theorem prefs_createMouseStart (app : SensorApp F) : app.createMouseStart.prefs = app.prefs := by
  unfold SensorApp.createMouseStart
  split_ifs
  · split
    · rfl
    · rfl
  · split
    · rfl
    · rfl

theorem prefs_recreate (hstored : Stored app.sensors app.prefs) :
    app.recreate.prefs = app.prefs := by
  unfold SensorApp.recreate
  split
  · rfl
  · exact prefs_createMain hstored
  · exact prefs_shows app _
  · exact prefs_createSensorDetail app _
  · rfl
  · rfl
  · exact prefs_createMouseStart app

theorem prefs_clickMain {position : Nat} (hclick : app.clickMain position = some next) :
    next.prefs = app.prefs := by
  unfold SensorApp.clickMain at hclick
  split at hclick
  · exact Option.some.inj hclick ▸ prefs_createMouseStart app
  · exact Option.some.inj hclick ▸ rfl
  · exact Option.some.inj hclick ▸ prefs_shows app _
  · exact Option.some.inj hclick ▸ prefs_createSetting app
  · exact Option.some.inj hclick ▸ prefs_createButtonSetting app
  · cases hclick

/-- The texts of a settings screen stay unless it is the one that is open. -/
structure Keeps (app next : SensorApp F) : Prop where
  settings : (∀ activity, app.screen ≠ .setting activity) →
    ∀ key : PrefsEnum, next.prefs.strings key.getKey = app.prefs.strings key.getKey
  buttons : (∀ summaries, app.screen ≠ .buttonSetting summaries) →
    ∀ key : ButtonKey, next.prefs.strings key.getKey = app.prefs.strings key.getKey

omit [JavaFloat F] [JavaInteger] [JavaText F] in
theorem keeps_of_eq (hsame : next.prefs = app.prefs) : Keeps app next := by
  constructor
  · intro _ key
    rw [hsame]
  · intro _ key
    rw [hsame]

theorem keeps_change {activity : SettingActivity F} (hscreen : app.screen = .setting activity)
    {key : PrefsEnum} (hbutton : ∀ button : ButtonKey,
      prefs.strings button.getKey = app.prefs.strings button.getKey) :
    Keeps app (app.change activity prefs key) := by
  constructor
  · intro hother
    exact absurd hscreen (hother activity)
  · intro _ button
    have hprefs : (app.change activity prefs key).prefs = prefs :=
      prefs_shows { app with prefs := prefs } _
    rw [hprefs]
    exact hbutton button

theorem keeps_store {activity : SettingActivity F} (hscreen : app.screen = .setting activity)
    (key : PrefsEnum) (text : String) : Keeps app (app.store activity key text) := by
  unfold SensorApp.store
  split_ifs
  · exact keeps_of_eq rfl
  · refine keeps_change hscreen fun button => ?_
    exact StoredPrefs.strings_putString_of_ne (getKey_ne_getKey key button).symm text

omit [JavaFloat F] [JavaText F] in
theorem keeps_storeButton {summaries : ButtonSummaries}
    (hscreen : app.screen = .buttonSetting summaries) (key : ButtonKey) (text : String) :
    Keeps app (app.storeButton summaries key text) := by
  unfold SensorApp.storeButton
  split_ifs
  · exact keeps_of_eq rfl
  · constructor
    · intro _ setting
      rw [prefs_shows]
      exact StoredPrefs.strings_putString_of_ne (getKey_ne_getKey setting key) text
    · intro hother
      exact absurd hscreen (hother summaries)

theorem keeps_perform (hstored : Stored app.sensors app.prefs) {event : Event F}
    (hperform : app.perform event = some next) : Keeps app next := by
  cases event with
  | launch => simp only [SensorApp.perform, reduceCtorEq] at hperform
  | restore => simp only [SensorApp.perform, reduceCtorEq] at hperform
  | click position =>
      simp only [SensorApp.perform] at hperform
      split at hperform
      · exact keeps_of_eq (prefs_clickMain hperform)
      · cases hperform
  | clickSensor position =>
      simp only [SensorApp.perform] at hperform
      split at hperform
      · split_ifs at hperform
        exact Option.some.inj hperform ▸ keeps_of_eq (prefs_createSensorDetail app position)
      · cases hperform
  | edit key text =>
      simp only [SensorApp.perform] at hperform
      split at hperform
      · rename_i activity hscreen
        split_ifs at hperform
        exact Option.some.inj hperform ▸ keeps_store hscreen key text
      · cases hperform
  | editButton key text =>
      simp only [SensorApp.perform] at hperform
      split at hperform
      · rename_i summaries hscreen
        exact Option.some.inj hperform ▸ keeps_storeButton hscreen key text
      · cases hperform
  | choose key index =>
      simp only [SensorApp.perform] at hperform
      split at hperform
      · rename_i activity hscreen
        split_ifs at hperform
        exact Option.some.inj hperform ▸ keeps_store hscreen key _
      · cases hperform
  | toggle =>
      simp only [SensorApp.perform] at hperform
      split at hperform
      · rename_i activity hscreen
        exact Option.some.inj hperform ▸ keeps_change hscreen fun _ => rfl
      · cases hperform
  | sensorCallback x y z =>
      simp only [SensorApp.perform] at hperform
      split at hperform
      · exact Option.some.inj hperform ▸ keeps_of_eq (prefs_shows app _)
      · cases hperform
  | rotate => exact Option.some.inj hperform ▸ keeps_of_eq (prefs_recreate hstored)
  | back => exact Option.some.inj hperform ▸ keeps_of_eq rfl
  | kill => exact Option.some.inj hperform ▸ keeps_of_eq rfl

theorem keeps_step (hstored : Stored app.sensors app.prefs) {event : Event F}
    (hstep : app.step event = some next) : Keeps app next := by
  cases event with
  | launch =>
      simp only [SensorApp.step] at hstep
      split at hstep
      · exact Option.some.inj hstep ▸ keeps_of_eq (prefs_createMain hstored)
      · cases hstep
  | restore =>
      simp only [SensorApp.step] at hstep
      split at hstep
      · cases hstep
      · split_ifs at hstep
        exact Option.some.inj hstep ▸ keeps_of_eq (prefs_recreate hstored)
  | _ =>
      simp only [SensorApp.step] at hstep
      split_ifs at hstep
      exact keeps_perform hstored hstep

/-! ### What stays unread -/

omit [JavaFloat F] in
theorem Startable.congr {other : StoredPrefs} (hstartable : Startable F prefs)
    (hsettings : ∀ key : PrefsEnum, other.strings key.getKey = prefs.strings key.getKey)
    (hbuttons : ButtonReadable prefs → ButtonReadable other) : Startable F other :=
  ⟨fun key hkey => (reads_congr (hsettings key)).mpr (hstartable.settings key hkey),
    hbuttons hstartable.buttons⟩

theorem Sound.readable_of_step (hsound : Sound app) {event : Event F}
    (hstep : app.step event = some next) (hreadable : Readable F next.prefs) :
    Readable F app.prefs := by
  have hopened := hsound.opened
  by_cases hsetting : ∃ activity, app.screen = .setting activity
  · obtain ⟨activity, hscreen⟩ := hsetting
    rw [hscreen] at hopened
    exact hopened.2.1
  · intro key
    refine (reads_congr ?_).mp (hreadable key)
    exact (keeps_step hsound.stored hstep).settings (fun activity h => hsetting ⟨activity, h⟩) key

theorem Sound.buttonReadable_of_step (hsound : Sound app) {event : Event F}
    (hstep : app.step event = some next) (hreadable : ButtonReadable next.prefs) :
    ButtonReadable app.prefs := by
  have hopened := hsound.opened
  by_cases hsetting : ∃ summaries, app.screen = .buttonSetting summaries
  · obtain ⟨summaries, hscreen⟩ := hsetting
    rw [hscreen] at hopened
    exact hopened
  · intro key
    refine (buttonReads_congr ?_).mp (hreadable key)
    exact (keeps_step hsound.stored hstep).buttons (fun summaries h => hsetting ⟨summaries, h⟩) key

/-- What the service needs of the settings can be read before a step if it can be read after it. -/
theorem Sound.startable_of_step (hsound : Sound app) {event : Event F}
    (hstep : app.step event = some next) (hstartable : Startable F next.prefs) :
    Startable F app.prefs := by
  have hopened := hsound.opened
  have hbuttons := hsound.buttonReadable_of_step hstep hstartable.buttons
  by_cases hsetting : ∃ activity, app.screen = .setting activity
  · obtain ⟨activity, hscreen⟩ := hsetting
    rw [hscreen] at hopened
    exact ⟨fun key _ => hopened.2.1 key, hbuttons⟩
  · refine hstartable.congr (fun key => ?_) fun _ => hbuttons
    exact ((keeps_step hsound.stored hstep).settings
      (fun activity h => hsetting ⟨activity, h⟩) key).symm

/-- Nothing that could not be read becomes readable. -/
theorem Sound.of_run (hsound : Sound app) (hsize : (app.sensors.length : Int) ≤ maxInt)
    {later : List (Event F)} (hrun : run SensorApp.step app later = some final) :
    Sound final ∧ final.sensors = app.sensors ∧
      (Readable F final.prefs → Readable F app.prefs) ∧
      (ButtonReadable final.prefs → ButtonReadable app.prefs) ∧
      (Startable F final.prefs → Startable F app.prefs) := by
  refine run_invariant (fun current : SensorApp F => Sound current ∧
    current.sensors = app.sensors ∧ (Readable F current.prefs → Readable F app.prefs) ∧
    (ButtonReadable current.prefs → ButtonReadable app.prefs) ∧
    (Startable F current.prefs → Startable F app.prefs)) ⟨hsound, rfl, id, id, id⟩ ?_ hrun
  rintro current event next ⟨hcurrent, hsensors, hreadable, hbuttons, hstartable⟩ hstep
  have hleads := hcurrent.step (hsensors ▸ hsize) hstep
  refine ⟨hleads.sound, hleads.sensors.trans hsensors, fun h => hreadable ?_,
    fun h => hbuttons ?_, fun h => hstartable ?_⟩
  · exact hcurrent.readable_of_step hstep h
  · exact hcurrent.buttonReadable_of_step hstep h
  · exact hcurrent.startable_of_step hstep h

/-! ### The way back -/

/-- From everywhere the menu can be opened again. -/
theorem Sound.exists_run_main (hsound : Sound app) :
    ∃ later service thrown, run SensorApp.step app later =
      some { app with screen := .main, alive := true, service := service, thrown := thrown } := by
  have hlaunch : ∀ closed : SensorApp F, Stored closed.sensors closed.prefs →
      closed.screen = .closed →
      closed.step .launch = some { closed with screen := .main, alive := true } := by
    intro closed hstored hscreen
    simp only [SensorApp.step, hscreen, createMain_of_stored hstored]
  by_cases halive : app.alive = true
  · refine ⟨[.back, .back, .back, .launch], app.service, app.thrown, ?_⟩
    have hback : ∀ screen : Screen F, ({ app with screen := screen } : SensorApp F).step .back =
        some { app with screen := previous screen } := by
      intro screen
      simp only [SensorApp.step, halive, if_true, SensorApp.perform]
    have hclosed : previous (previous (previous app.screen)) = .closed := by
      cases app.screen <;> rfl
    have hfirst : app.step .back = some { app with screen := previous app.screen } :=
      hback app.screen
    simp only [run_cons, hfirst, Option.bind_some, hback, hclosed]
    rw [hlaunch { app with screen := .closed } hsound.stored rfl]
    rfl
  · by_cases hscreen : app.screen = .closed
    · refine ⟨[.launch], app.service, app.thrown, ?_⟩
      rw [run_cons, hlaunch app hsound.stored hscreen]
      rfl
    · have hdead : app.alive = false := Bool.eq_false_iff.mpr halive
      have hrestore : app.step .restore = some app.recreate := by
        cases hsame : app.screen with
        | closed => exact absurd hsame hscreen
        | _ => simp only [SensorApp.step, hsame, hdead, Bool.false_eq_true, if_false]
      rcases recreate_of_dead hdead hscreen with ⟨-, hrecreate⟩ | ⟨-, thrown, hrecreate⟩
      · refine ⟨[.restore], app.service, app.thrown, ?_⟩
        rw [run_cons, hrestore, hrecreate, createMain_of_stored hsound.stored]
        rfl
      · refine ⟨[.restore, .launch], app.service, some thrown, ?_⟩
        rw [run_cons, hrestore, hrecreate, Option.bind_some, run_cons,
          hlaunch (app.throws thrown) hsound.stored rfl]
        rfl

section

variable {menu : SensorApp F}

theorem step_click (hscreen : menu.screen = .main) (halive : menu.alive = true) (position : Nat) :
    menu.step (.click position) = menu.clickMain position := by
  simp only [SensorApp.step, halive, if_true, SensorApp.perform, hscreen]

theorem step_editButton {summaries : ButtonSummaries}
    (hscreen : menu.screen = .buttonSetting summaries) (halive : menu.alive = true)
    (key : ButtonKey) (text : String) :
    menu.step (.editButton key text) = some (menu.storeButton summaries key text) := by
  simp only [SensorApp.step, halive, if_true, SensorApp.perform, hscreen]

omit [JavaFloat F] [JavaText F] in
theorem getTimeUnit_putString (prefs : StoredPrefs) :
    (prefs.putString ButtonKey.timeUnit.getKey "10").getTimeUnit = .ok (10 : Nat) := by
  have htext := StoredPrefs.strings_putString_self prefs ButtonKey.timeUnit.getKey "10"
  exact (congrArg (fun text : Option String => StoredPrefs.parseInt (some (text.getD "10")))
    htext).trans (@StoredPrefs.parseInt_toString _ 10 (by decide))

omit [JavaFloat F] [JavaText F] in
theorem getTimeWait_putString (prefs : StoredPrefs) :
    (prefs.putString ButtonKey.timeWait.getKey "100").getTimeWait = .ok 100 :=
  (congrArg StoredPrefs.parseInt (StoredPrefs.strings_putString_self prefs _ "100")).trans
    (@StoredPrefs.parseInt_toString _ 100 (by decide))

omit [JavaFloat F] in
/-- What the service needs stays readable when a text of the buttons is put right. -/
theorem Startable.putButton (hstartable : Startable F prefs) {key : ButtonKey} {text : String}
    (hreads : ButtonReads (prefs.putString key.getKey text) key) :
    Startable F (prefs.putString key.getKey text) := by
  refine hstartable.congr (fun setting => ?_) fun hreadable other => ?_
  · exact StoredPrefs.strings_putString_of_ne (getKey_ne_getKey setting key) text
  · by_cases hsame : other = key
    · subst hsame
      exact hreads
    · refine (buttonReads_congr ?_).mpr (hreadable other)
      exact StoredPrefs.strings_putString_of_ne (fun h => hsame (ButtonKey.getKey_injective h)) text

/-- A unit of time that makes no ring and a waiting time that cannot be read are put right first: the
screen of the buttons takes them. -/
theorem exists_run_service (hstored : Stored menu.sensors menu.prefs)
    (hsize : (menu.sensors.length : Int) ≤ maxInt) (hscreen : menu.screen = .main)
    (halive : menu.alive = true) (hsensors : menu.sensors ≠ []) (hstartable : Startable F menu.prefs) :
    ∃ later final, run SensorApp.step menu later = some final ∧ final.service ≠ none := by
  let unit := menu.prefs.putString ButtonKey.timeUnit.getKey "10"
  let prefs := unit.putString ButtonKey.timeWait.getKey "100"
  have hread : ButtonReads unit .timeUnit := ⟨_, getTimeUnit_putString menu.prefs⟩
  have hwait : ButtonReads prefs .timeWait := trivial
  have hkept : Startable F prefs := (hstartable.putButton hread).putButton hwait
  let fixed : SensorApp F := { menu with prefs := prefs, service := none }
  have hfixed : Stored fixed.sensors fixed.prefs :=
    (hstored.putButton .timeUnit "10").putButton .timeWait "100"
  obtain ⟨started, hstart, hservice⟩ := exists_started hfixed hsize hsensors hkept
    (getTimeUnit_putString menu.prefs) (by decide) (by decide) ⟨100, getTimeWait_putString unit⟩
  obtain ⟨summaries, hopen⟩ := createButtonSetting_of_readable halive hstartable.buttons
  obtain ⟨first, hfirst⟩ := @storeButton_of_reads F _
    { menu.stopService with screen := .buttonSetting summaries } summaries rfl .timeUnit "10" hread
  obtain ⟨second, hsecond⟩ := @storeButton_of_reads F _
    { menu.stopService with prefs := unit, screen := .buttonSetting first } first rfl .timeWait "100"
    trivial
  have hclick : menu.step (.click 4) =
      some { menu.stopService with screen := .buttonSetting summaries } := by
    rw [step_click hscreen halive]
    exact congrArg some hopen
  have hunitTyped : ({ menu.stopService with screen := .buttonSetting summaries } : SensorApp F).step
      (.editButton .timeUnit "10") =
        some { menu.stopService with prefs := unit, screen := .buttonSetting first } := by
    refine (step_editButton ?_ ?_ _ _).trans (congrArg some hfirst)
    · rfl
    · exact halive
  have hwaitTyped : ({ menu.stopService with
      prefs := unit, screen := .buttonSetting first } : SensorApp F).step
        (.editButton .timeWait "100") = some { fixed with screen := .buttonSetting second } := by
    refine (step_editButton ?_ ?_ _ _).trans (congrArg some hsecond)
    · rfl
    · exact halive
  have hback : ({ fixed with screen := .buttonSetting second } : SensorApp F).step .back =
      some { fixed with screen := .main } := if_pos halive
  have hmouse : ({ fixed with screen := .main } : SensorApp F).step (.click 0) =
      some { fixed with screen := .mouseStart, service := some started } := by
    refine (step_click ?_ ?_ 0).trans
      (congrArg some (createMouseStart_of_started halive hstart hservice))
    · rfl
    · exact halive
  refine ⟨[.click 4, .editButton .timeUnit "10", .editButton .timeWait "100", .back, .click 0],
    { fixed with screen := .mouseStart, service := some started }, ?_, Option.some_ne_none started⟩
  rw [run_cons, hclick, Option.bind_some, run_cons, hunitTyped, Option.bind_some, run_cons,
    hwaitTyped, Option.bind_some, run_cons, hback, Option.bind_some, run_cons, hmouse]
  rfl

end

/-! ### From any state on -/

/-- After the first start. -/
theorem sound_of_launch {past : List (Event F)} (hsize : (sensors.length : Int) ≤ maxInt)
    (hrun : run SensorApp.step { sensors := sensors } (.launch :: past) = some app) :
    Sound app ∧ app.sensors = sensors ∧ Reached app := by
  have hreached := run_invariant Reached (reached_start sensors)
    (fun _ _ _ hreached hstep => hreached.step hstep) hrun
  obtain ⟨first, hfirst, hrest⟩ := (run_cons_eq_some _).mp hrun
  obtain rfl : createMain { sensors := sensors } = first := Option.some.inj hfirst
  obtain ⟨hsound, hsame, -⟩ := (sound_createMain sensors).sound.of_run hsize hrest
  exact ⟨hsound, hsame, hreached⟩

theorem service_of_run (hreached : Reached app) (hsound : Sound app)
    (hsize : (app.sensors.length : Int) ≤ maxInt) {later : List (Event F)}
    (hrun : run SensorApp.step app later = some final) (hservice : final.service ≠ none) :
    app.sensors ≠ [] ∧ Startable F app.prefs := by
  have hfinal := run_invariant Reached hreached
    (fun _ _ _ hreached hstep => hreached.step hstep) hrun
  obtain ⟨hlast, hsensors, -, -, hstartable⟩ := hsound.of_run hsize hrun
  obtain ⟨started, hstarted⟩ := Option.ne_none_iff_exists'.mp hservice
  obtain ⟨hextras, hstart⟩ := hfinal.current started hstarted
  obtain ⟨hne, hlater⟩ := startable_of_started hextras hstart
  exact ⟨hsensors ▸ hne, hstartable hlater⟩

/-- **Locked out for good.** In every state after the first start: the settings screen can be reached
again if and only if the phone has a sensor and the averager can read its settings now, the screen of
the button settings if and only if it can read its two texts now, and the service can be brought to run
again if and only if the phone has a sensor and all of these texts but the threshold can be read now. -/
theorem opens_again_iff (sensors : List Sensor) (hsize : (sensors.length : Int) ≤ maxInt)
    {past : List (Event F)} {app : SensorApp F}
    (hrun : run SensorApp.step { sensors := sensors } (.launch :: past) = some app) :
    ((∃ later final activity, run SensorApp.step app later = some final ∧
      final.screen = .setting activity) ↔ sensors ≠ [] ∧ Readable F app.prefs) ∧
    ((∃ later final summaries, run SensorApp.step app later = some final ∧
      final.screen = .buttonSetting summaries) ↔ ButtonReadable app.prefs) ∧
    ((∃ later final, run SensorApp.step app later = some final ∧ final.service ≠ none) ↔
      sensors ≠ [] ∧ Startable F app.prefs) := by
  obtain ⟨hsound, rfl, hreached⟩ := sound_of_launch hsize hrun
  obtain ⟨later, service, thrown, hmain⟩ := hsound.exists_run_main
  let menu : SensorApp F :=
    { app with screen := .main, alive := true, service := service, thrown := thrown }
  have hstored : Stored menu.sensors menu.prefs := hsound.stored
  have hthen : ∀ {more : List (Event F)} {final : SensorApp F},
      run SensorApp.step menu more = some final →
        run SensorApp.step app (later ++ more) = some final := by
    intro more final hmore
    exact (run_append_eq_some _).mpr ⟨menu, hmain, hmore⟩
  refine ⟨⟨?_, ?_⟩, ⟨?_, ?_⟩, ⟨?_, ?_⟩⟩
  · rintro ⟨later, final, activity, hlater, hscreen⟩
    obtain ⟨hlast, hsensors, hreadable, -, -⟩ := hsound.of_run hsize hlater
    have hopened := hlast.opened
    rw [hscreen] at hopened
    exact ⟨hsensors ▸ hopened.1, hreadable hopened.2.1⟩
  · rintro ⟨hsensors, hreadable⟩
    have halive : menu.alive = true := rfl
    obtain ⟨activity, -, hopen⟩ :=
      createSetting_of_readable hstored hsize halive hreadable hsensors
    have hclick : run SensorApp.step menu [.click 3] =
        some { menu.stopService with screen := .setting activity } := by
      rw [run_cons, step_click rfl halive]
      exact congrArg some hopen
    exact ⟨later ++ [.click 3], _, activity, hthen hclick, rfl⟩
  · rintro ⟨later, final, summaries, hlater, hscreen⟩
    obtain ⟨hlast, hsensors, -, hbuttons, -⟩ := hsound.of_run hsize hlater
    have hopened := hlast.opened
    rw [hscreen] at hopened
    exact hbuttons hopened
  · intro hreadable
    have halive : menu.alive = true := rfl
    obtain ⟨summaries, hopen⟩ := createButtonSetting_of_readable halive hreadable
    have hclick : run SensorApp.step menu [.click 4] =
        some { menu.stopService with screen := .buttonSetting summaries } := by
      rw [run_cons, step_click rfl halive]
      exact congrArg some hopen
    exact ⟨later ++ [.click 4], _, summaries, hthen hclick, rfl⟩
  · rintro ⟨later, final, hlater, hservice⟩
    exact service_of_run hreached hsound hsize hlater hservice
  · rintro ⟨hsensors, hstartable⟩
    obtain ⟨more, final, hmore, hservice⟩ :=
      exists_run_service hstored hsize rfl rfl hsensors hstartable
    exact ⟨later ++ more, final, hthen hmore, hservice⟩

end

/-- The task is closed by a negative number of samples, and opened again. -/
theorem opens_again_negative :
    ∃ app : SensorApp ℚ,
      run SensorApp.step { sensors := phoneSensors }
        [.launch, .click 3, .edit .averageNum "-3", .launch] = some app ∧
      (¬ ∃ later final activity, run SensorApp.step app later = some final ∧
        final.screen = .setting activity) ∧
      (∃ later final summaries, run SensorApp.step app later = some final ∧
        final.screen = .buttonSetting summaries) ∧
      ¬ ∃ later final, run SensorApp.step app later = some final ∧ final.service ≠ none := by
  let first : SensorApp ℚ := createMain { sensors := phoneSensors }
  let prefs := first.prefs.putString PrefsEnum.averageNum.getKey "-3"
  have hparse : JavaInteger.parseInt "-3" = some (-3) :=
    JavaInteger.parseInt_toString (by decide : InRange (-3))
  have hrejected : ¬ Accepted ℚ .averageNum "-3" := by
    rintro ⟨n, hn⟩
    have hsame := Option.some.inj (hparse.symm.trans hn)
    omega
  have hunread : ¬ Reads ℚ prefs .averageNum := fun hreads =>
    hrejected ((reads_iff_accepted (StoredPrefs.strings_putString_self first.prefs _ _)).mp hreads)
  obtain ⟨activity, -, hopened⟩ := @exists_run_setting ℚ _ _ _ phoneSensors (by decide) (by decide)
  obtain ⟨thrown, hstore⟩ := @store_of_not_accepted ℚ _ _ _ { first with screen := .setting activity }
    activity .averageNum "-3" (show first.prefs.strings _ ≠ _ by decide) hrejected
  let app : SensorApp ℚ := createMain ({ first with prefs := prefs }.throws thrown)
  have hedit : ({ first with screen := .setting activity } : SensorApp ℚ).step
      (.edit .averageNum "-3") = some ({ first with prefs := prefs }.throws thrown) :=
    congrArg some hstore
  have hlaunch : ({ first with prefs := prefs }.throws thrown).step .launch = some app := rfl
  have hrun : run SensorApp.step ({ sensors := phoneSensors } : SensorApp ℚ)
      [.launch, .click 3, .edit .averageNum "-3", .launch] = some app := by
    refine (run_append_eq_some SensorApp.step).mpr ⟨_, hopened, ?_⟩
    rw [run_cons, hedit, Option.bind_some, run_cons, hlaunch]
    rfl
  obtain ⟨hsetting, hbuttons, hservice⟩ := opens_again_iff phoneSensors (by decide) hrun
  have hkept : ButtonReadable app.prefs := by
    intro key
    refine (buttonReads_congr ?_).mpr ((@readable_createMain ℚ _ _ phoneSensors).2 key)
    cases key <;> rfl
  refine ⟨app, hrun, fun hopens => ?_, hbuttons.mpr hkept, fun hruns => ?_⟩
  · exact hunread ((hsetting.mp hopens).2 .averageNum)
  · exact hunread ((hservice.mp hruns).2.settings .averageNum (by decide))

end SensorApp

end SensorMouse
