import SensorMouse.Proof.Preview
import SensorMouse.Proof.StoredTexts

/-!
# Which settings can be read

The averager, the summaries and the screen that starts the service each read some of the texts that are
stored. Here it is said of each of them which texts it gets through with, and that the averager of the
settings screen keeps as many samples to a block as is stored.
-/

namespace SensorMouse

open Java Lib

theorem Thrown.lift_eq_ok {α : Type} {outcome : Except JavaException α} {value : α} :
    Thrown.lift outcome = .ok value ↔ outcome = .ok value := by
  cases outcome with
  | ok other => exact ⟨fun h => congrArg _ (Except.ok.inj h), fun h => congrArg _ (Except.ok.inj h)⟩
  | error thrown =>
      constructor
      · intro hlift
        cases hlift
      · intro herror
        cases herror

namespace AverageComputer

variable {F : Type} [JavaFloat F] {computer : AverageComputer F}

/-- What the settings screen's averager looks like: with no rows, or in the middle of a block. -/
def WellFormed (computer : AverageComputer F) : Prop :=
  (computer.averageNum = 0 ∧ computer.averageArray = []) ∨
    ∃ preview, Follows preview computer

theorem wellFormed_create {sharedPrefs : SharedPrefs F}
    (hnonneg : 0 ≤ PrefsEnum.getAverageNum sharedPrefs) :
    ∃ computer, create sharedPrefs = .ok computer ∧ WellFormed computer ∧
      computer.averageNum = PrefsEnum.getAverageNum sharedPrefs := by
  rcases eq_or_lt_of_le hnonneg with hzero | hpos
  · unfold create AverageComputerForService.create newArray
    rw [if_neg (by omega), ← hzero]
    exact ⟨_, rfl, Or.inl ⟨rfl, rfl⟩, rfl⟩
  · obtain ⟨computer, hcreate, hfollows⟩ := exists_create (Int.add_one_le_iff.mpr hpos)
    refine ⟨computer, hcreate, Or.inr ⟨_, hfollows⟩, ?_⟩
    rw [hfollows.averageNum]
    exact Int.toNat_of_nonneg hnonneg

theorem nonneg_of_create {sharedPrefs : SharedPrefs F} (hcreate : create sharedPrefs = .ok computer) :
    0 ≤ PrefsEnum.getAverageNum sharedPrefs := by
  by_contra hneg
  unfold create AverageComputerForService.create newArray at hcreate
  rw [if_pos (not_le.mp hneg)] at hcreate
  cases hcreate

/-- A change of another setting than the number of samples. -/
theorem WellFormed.change (hformed : WellFormed computer) {sharedPrefs : SharedPrefs F} {key : String}
    (hkey : key ≠ PrefsEnum.averageNum.getKey) :
    ∃ next, computer.onSharedPreferenceChanged sharedPrefs key = .ok next ∧ WellFormed next ∧
      next.averageNum = computer.averageNum := by
  rcases hformed with ⟨hzero, hempty⟩ | ⟨preview, hfollows⟩
  · unfold AverageComputer.onSharedPreferenceChanged
    rw [if_neg hkey]
    split_ifs <;> exact ⟨_, rfl, Or.inl ⟨hzero, hempty⟩, rfl⟩
  · have hpos : key = PrefsEnum.averageNum.getKey → 1 ≤ PrefsEnum.getAverageNum sharedPrefs :=
      fun h => absurd h hkey
    obtain ⟨next, hchange, hnext⟩ := hfollows.onSharedPreferenceChanged hpos
    refine ⟨next, hchange, Or.inr ⟨_, hnext⟩, ?_⟩
    rw [hnext.averageNum, hfollows.averageNum]
    unfold Preview.change
    rw [if_neg hkey]
    split_ifs <;> rfl

theorem wellFormed_changeNum (computer : AverageComputer F) {sharedPrefs : SharedPrefs F}
    (hnonneg : 0 ≤ PrefsEnum.getAverageNum sharedPrefs) :
    ∃ next, computer.onSharedPreferenceChanged sharedPrefs PrefsEnum.averageNum.getKey = .ok next ∧
      WellFormed next ∧ next.averageNum = PrefsEnum.getAverageNum sharedPrefs := by
  unfold AverageComputer.onSharedPreferenceChanged newArray
  rw [if_pos rfl, if_neg (by omega)]
  obtain ⟨n, hn⟩ := Int.eq_ofNat_of_zero_le hnonneg
  refine ⟨_, rfl, ?_, rfl⟩
  rcases Nat.eq_zero_or_pos n with rfl | hpos
  · exact Or.inl ⟨hn, by rw [hn]; rfl⟩
  · refine Or.inr ⟨⟨⟨n, computer.magnification, computer.offset, computer.direction⟩, []⟩, hpos, hn,
      rfl, rfl, rfl, ?_, (Nat.zero_mod n).symm, rfl⟩
    rw [hn]
    exact List.length_replicate

theorem nonneg_of_changeNum {sharedPrefs : SharedPrefs F} {next : AverageComputer F}
    (hchange : computer.onSharedPreferenceChanged sharedPrefs PrefsEnum.averageNum.getKey = .ok next) :
    0 ≤ PrefsEnum.getAverageNum sharedPrefs := by
  by_contra hneg
  unfold AverageComputer.onSharedPreferenceChanged newArray at hchange
  rw [if_pos rfl, if_pos (not_le.mp hneg)] at hchange
  cases hchange

theorem WellFormed.computeValueShown (hformed : WellFormed computer)
    (hpos : computer.averageNum ≠ 0) (x y z : F) :
    ∃ text next, computer.computeValueShown x y z = .ok (text, next) ∧ WellFormed next ∧
      next.averageNum = computer.averageNum := by
  rcases hformed with ⟨hzero, -⟩ | ⟨preview, hfollows⟩
  · exact absurd hzero hpos
  · by_cases hdvd : preview.settings.averageNum ∣ preview.since.length + 1
    · obtain ⟨next, hcompute, hnext⟩ := hfollows.computeValueShown_of_dvd x y z hdvd
      exact ⟨_, next, hcompute, Or.inr ⟨_, hnext⟩, hnext.averageNum.trans hfollows.averageNum.symm⟩
    · obtain ⟨next, hcompute, hnext⟩ := hfollows.computeValueShown_of_not_dvd x y z hdvd
      exact ⟨_, next, hcompute, Or.inr ⟨_, hnext⟩, hnext.averageNum.trans hfollows.averageNum.symm⟩

/-- A sample that finds no rows. -/
theorem not_computeValueShown (hempty : computer.averageArray = []) (x y z : F)
    (result : Option (F × F × F) × AverageComputer F) :
    computer.computeValueShown x y z ≠ .ok result := by
  unfold AverageComputer.computeValueShown AverageComputerForService.computeValueShown
    AverageComputerForService.setCell load
  rw [hempty]
  intro hcompute
  cases hcompute

end AverageComputer

namespace SensorApp

open StoredPrefs AverageComputer

variable {F : Type} {sensors : List Sensor} {prefs : StoredPrefs} {app next : SensorApp F}

/-- A sensor that has a name among the types. -/
def HasType (sensor : Sensor) : Prop := 1 ≤ sensor.type ∧ sensor.type ≤ 13

theorem exists_type_iff (sensor : Sensor) :
    (∃ name, StoredPrefs.elementAt SensorHelper.sensorTypes (sensor.type - 1) = .ok name) ↔
      HasType sensor := by
  unfold HasType
  constructor
  · rintro ⟨name, hname⟩
    unfold StoredPrefs.elementAt at hname
    by_cases hneg : sensor.type - 1 < 0
    · rw [if_pos hneg] at hname
      cases hname
    · rw [if_neg hneg] at hname
      by_cases hlt : (sensor.type - 1).toNat < SensorHelper.sensorTypes.length
      · simp only [SensorHelper.sensorTypes, List.length_cons, List.length_nil] at hlt
        omega
      · rw [List.getElem?_eq_none (not_lt.mp hlt)] at hname
        cases hname
  · intro htype
    obtain ⟨n, hn⟩ := Int.eq_ofNat_of_zero_le (show 0 ≤ sensor.type - 1 by omega)
    rw [hn]
    have hlt : n < SensorHelper.sensorTypes.length := by
      simp only [SensorHelper.sensorTypes, List.length_cons, List.length_nil]
      omega
    exact ⟨_, StoredPrefs.elementAt_natCast hlt⟩

theorem exists_sensorCallback_iff [JavaFloat F] {activity : SettingActivity F}
    (hformed : WellFormed activity.computer) (x y z : F) :
    (∃ next, activity.sensorCallback x y z = .ok next) ↔ activity.computer.averageNum ≠ 0 := by
  constructor
  · rintro ⟨next, hnext⟩ hzero
    obtain ⟨result, hresult, -⟩ := Thrown.bind_eq_ok.mp hnext
    rcases hformed with ⟨-, hempty⟩ | ⟨preview, hfollows⟩
    · exact not_computeValueShown hempty x y z result (Thrown.lift_eq_ok.mp hresult)
    · have hpositive := hfollows.positive
      have hsame := hfollows.averageNum
      omega
  · intro hpos
    obtain ⟨text, computer, hcompute, -⟩ := hformed.computeValueShown hpos x y z
    exact ⟨_, Thrown.bind_eq_ok.mpr ⟨_, Thrown.lift_eq_ok.mpr hcompute, rfl⟩⟩

/-! ### The settings screen -/

section

variable [JavaInteger]

/-- What is chosen from a list can be read. -/
theorem Stored.getSensorDelay (hstored : Stored sensors prefs) :
    ∃ delay name, prefs.getSensorDelay = .ok delay ∧ SettingActivity.delayName prefs = .ok name := by
  obtain ⟨i, hi, htext⟩ := hstored.delay
  have hdelay : prefs.getSensorDelay = .ok (i : Int) := by
    unfold StoredPrefs.getSensorDelay
    rw [htext]
    refine parseInt_natCast ?_
    simp only [SensorHelper.sensorDelayNames, List.length_cons, List.length_nil] at hi
    unfold maxInt
    omega
  refine ⟨i, SensorHelper.sensorDelayNames[i], hdelay, ?_⟩
  unfold SettingActivity.delayName
  rw [hdelay]
  exact elementAt_natCast hi

theorem Stored.getSelectPosition (hstored : Stored sensors prefs)
    (hsize : (sensors.length : Int) ≤ maxInt) :
    ∃ i : Nat, i < max 1 sensors.length ∧ prefs.getSelectPosition = .ok (i : Int) := by
  obtain ⟨i, hi, htext⟩ := hstored.sensor
  refine ⟨i, hi, ?_⟩
  unfold StoredPrefs.getSelectPosition
  rw [htext]
  refine parseInt_natCast ?_
  unfold maxInt at hsize ⊢
  omega

theorem Stored.getSelectedSensor (hstored : Stored sensors prefs)
    (hsize : (sensors.length : Int) ≤ maxInt) :
    (∃ sensor, prefs.getSelectedSensor sensors = .ok sensor) ↔ sensors ≠ [] := by
  obtain ⟨i, hi, hposition⟩ := hstored.getSelectPosition hsize
  unfold StoredPrefs.getSelectedSensor
  rw [hposition]
  constructor
  · rintro ⟨sensor, hsensor⟩ rfl
    have helement : elementAt ([] : List Sensor) (i : Int) = .ok sensor := hsensor
    unfold elementAt at helement
    simp at helement
  · intro hsensors
    have hpos := List.length_pos_iff.mpr hsensors
    have hlt : i < sensors.length := by omega
    exact ⟨sensors[i], elementAt_natCast hlt⟩

theorem exists_createSummaries_iff (hstored : Stored sensors prefs)
    (hsize : (sensors.length : Int) ≤ maxInt) :
    (∃ summaries, SettingActivity.createSummaries sensors prefs = .ok summaries) ↔
      sensors ≠ [] := by
  obtain ⟨-, name, -, hname⟩ := hstored.getSensorDelay
  rw [← hstored.getSelectedSensor hsize]
  unfold SettingActivity.createSummaries
  rw [hname]
  constructor
  · rintro ⟨summaries, hsummaries⟩
    obtain ⟨sensor, hsensor, -⟩ := Thrown.bind_eq_ok.mp hsummaries
    exact ⟨sensor, hsensor⟩
  · rintro ⟨sensor, hsensor⟩
    rw [hsensor]
    exact ⟨_, rfl⟩

theorem exists_changeSummaries (hstored : Stored sensors prefs)
    (hsize : (sensors.length : Int) ≤ maxInt) (hsensors : sensors ≠ [])
    (summaries : PrefsEnum → Option String) (key : PrefsEnum) :
    ∃ changed, SettingActivity.changeSummaries sensors prefs summaries key = .ok changed := by
  obtain ⟨-, name, -, hname⟩ := hstored.getSensorDelay
  obtain ⟨sensor, hsensor⟩ := (hstored.getSelectedSensor hsize).mpr hsensors
  cases key with
  | selectedSensor =>
      refine ⟨Function.update summaries .selectedSensor (some sensor.name), ?_⟩
      unfold SettingActivity.changeSummaries
      rw [hsensor]
      rfl
  | sensorDelay =>
      refine ⟨Function.update summaries .sensorDelay (some name), ?_⟩
      unfold SettingActivity.changeSummaries
      rw [hname]
      rfl
  | _ => exact ⟨_, rfl⟩

end

variable [JavaInteger] [JavaText F]

variable (F) in
/-- What the averager reads of one setting can be read, and a number of samples is not negative. -/
def Reads (prefs : StoredPrefs) : PrefsEnum → Prop
  | .averageNum => ∃ n : Nat, prefs.getAverageNum = .ok (n : Int)
  | .magnification => ∃ value : F, prefs.getMagnification = .ok value
  | .offset => ∃ value, prefs.getOffset = .ok value
  | .threshold => ∃ value : F, prefs.getThreshold = .ok value
  | .direction | .selectedSensor | .sensorDelay => True

variable (F) in
/-- A text that the averager takes for a setting. -/
def Accepted : PrefsEnum → String → Prop
  | .averageNum, text => ∃ n : Nat, JavaInteger.parseInt text = some (n : Int)
  | .offset, text => (JavaInteger.parseInt text).isSome = true
  | .magnification, text | .threshold, text => (JavaText.parseFloat text : Option F).isSome = true
  | .direction, _ | .selectedSensor, _ | .sensorDelay, _ => True

theorem reads_congr {other : StoredPrefs} {key : PrefsEnum}
    (hsame : prefs.strings key.getKey = other.strings key.getKey) :
    Reads F prefs key ↔ Reads F other key := by
  cases key <;> simp only [Reads, StoredPrefs.getAverageNum, StoredPrefs.getMagnification,
    StoredPrefs.getOffset, StoredPrefs.getThreshold, hsame]

theorem reads_iff_accepted {key : PrefsEnum} {text : String}
    (htext : prefs.strings key.getKey = some text) : Reads F prefs key ↔ Accepted F key text := by
  cases key with
  | averageNum =>
      simp only [Reads, Accepted, StoredPrefs.getAverageNum, htext, StoredPrefs.parseInt_eq_ok,
        Option.bind_some]
  | offset =>
      simp only [Reads, Accepted, StoredPrefs.getOffset, htext, StoredPrefs.parseInt_some]
  | magnification =>
      simp only [Reads, Accepted, StoredPrefs.getMagnification, htext, StoredPrefs.parseFloat_some]
  | threshold =>
      simp only [Reads, Accepted, StoredPrefs.getThreshold, htext, StoredPrefs.parseFloat_some]
  | direction => exact Iff.rfl
  | selectedSensor => exact Iff.rfl
  | sensorDelay => exact Iff.rfl

variable (F) in
/-- What the averager is made from. -/
def Readable (prefs : StoredPrefs) : Prop := ∀ key, Reads F prefs key

/-- What the screen of the button settings reads of one text; the waiting time it only stores. -/
def ButtonReads (prefs : StoredPrefs) : ButtonKey → Prop
  | .backTime => ∃ value, prefs.getBackTime = .ok value
  | .timeUnit => ∃ value, prefs.getTimeUnit = .ok value
  | .timeWait => True

theorem buttonReads_congr {other : StoredPrefs} {key : ButtonKey}
    (hsame : prefs.strings key.getKey = other.strings key.getKey) :
    ButtonReads prefs key ↔ ButtonReads other key := by
  cases key with
  | timeWait => exact Iff.rfl
  | backTime =>
      have hread : prefs.getBackTime = other.getBackTime := congrArg StoredPrefs.parseInt hsame
      simp only [ButtonReads, hread]
  | timeUnit =>
      have hread : prefs.getTimeUnit = other.getTimeUnit :=
        congrArg (fun text : Option String => StoredPrefs.parseInt (some (text.getD "10"))) hsame
      simp only [ButtonReads, hread]

theorem buttonReads_iff {key : ButtonKey} {text : String}
    (htext : prefs.strings key.getKey = some text) :
    ButtonReads prefs key ↔ (key ≠ .timeWait → (JavaInteger.parseInt text).isSome = true) := by
  rw [← StoredPrefs.parseInt_some]
  cases key with
  | timeWait => exact iff_of_true trivial fun hne => absurd rfl hne
  | backTime =>
      have hread : prefs.getBackTime = StoredPrefs.parseInt (some text) :=
        congrArg StoredPrefs.parseInt htext
      rw [← hread]
      exact ⟨fun h _ => h, fun h => h nofun⟩
  | timeUnit =>
      have hread : prefs.getTimeUnit = StoredPrefs.parseInt (some text) :=
        congrArg (fun text : Option String => StoredPrefs.parseInt (some (text.getD "10"))) htext
      rw [← hread]
      exact ⟨fun h _ => h, fun h => h nofun⟩

/-- What the screen of the button settings reads. -/
def ButtonReadable (prefs : StoredPrefs) : Prop := ∀ key, ButtonReads prefs key

theorem buttonReadable_iff :
    ButtonReadable prefs ↔
      (∃ value, prefs.getBackTime = .ok value) ∧ ∃ value, prefs.getTimeUnit = .ok value := by
  constructor
  · intro hreadable
    exact ⟨hreadable .backTime, hreadable .timeUnit⟩
  · rintro ⟨hback, hunit⟩ key
    cases key with
    | backTime => exact hback
    | timeUnit => exact hunit
    | timeWait => trivial

/-- A text that the averager takes leaves everything readable. -/
theorem readable_putString {key : PrefsEnum} {text : String}
    (hother : ∀ other, other ≠ key → Reads F prefs other) (haccepted : Accepted F key text) :
    Readable F (prefs.putString key.getKey text) := by
  intro other
  by_cases hsame : other = key
  · subst hsame
    exact (reads_iff_accepted (strings_putString_self prefs other.getKey text)).mpr haccepted
  · refine (reads_congr ?_).mpr (hother other hsame)
    exact strings_putString_of_ne (fun h => hsame (PrefsEnum.getKey_injective h)) text

theorem exists_button_iff (summaries : ButtonSummaries) (key : ButtonKey) :
    (∃ next, ButtonSettingActivity.onSharedPreferenceChanged prefs summaries key = .ok next) ↔
      ButtonReads prefs key := by
  constructor
  · rintro ⟨next, hnext⟩
    cases key with
    | timeWait => trivial
    | backTime =>
        obtain ⟨value, hvalue, -⟩ := Thrown.bind_eq_ok.mp hnext
        exact ⟨value, hvalue⟩
    | timeUnit =>
        obtain ⟨value, hvalue, -⟩ := Thrown.bind_eq_ok.mp hnext
        exact ⟨value, hvalue⟩
  · intro hreads
    cases key with
    | timeWait => exact ⟨summaries, rfl⟩
    | backTime =>
        obtain ⟨value, hvalue⟩ := hreads
        exact ⟨_, Thrown.bind_eq_ok.mpr ⟨value, hvalue, rfl⟩⟩
    | timeUnit =>
        obtain ⟨value, hvalue⟩ := hreads
        exact ⟨_, Thrown.bind_eq_ok.mpr ⟨value, hvalue, rfl⟩⟩

/-- The averager has as many samples to a block as is stored. -/
def Computes [JavaFloat F] (prefs : StoredPrefs) (computer : AverageComputer F) : Prop :=
  WellFormed computer ∧ prefs.getAverageNum = .ok computer.averageNum

/-- Every setting reads as the service gets it. -/
structure ReadAs (prefs : StoredPrefs) (started : Extras F) : Prop where
  averageNum : prefs.getAverageNum = .ok started.averageNum
  magnification : prefs.getMagnification = .ok started.magnification
  offset : prefs.getOffset = .ok started.offset
  direction : prefs.getDirection = started.direction
  sensorDelay : prefs.getSensorDelay = .ok started.sensorDelay
  selectPosition : prefs.getSelectPosition = .ok started.selectPosition
  timeunit : prefs.getTimeUnit = .ok started.timeunit
  backtime : prefs.getBackTime = .ok started.backtime
  timewait : prefs.getTimeWait = .ok started.timewait

theorem extras_eq_ok {started : Extras F} : extras prefs = .ok started ↔ ReadAs prefs started := by
  unfold extras prefsExtras
  constructor
  · intro hstarted
    obtain ⟨rest, hrest, hstarted⟩ := Thrown.bind_eq_ok.mp hstarted
    obtain ⟨averageNum, hnum, hrest⟩ := Thrown.bind_eq_ok.mp hrest
    obtain ⟨magnification, hmagnification, hrest⟩ := Thrown.bind_eq_ok.mp hrest
    obtain ⟨offset, hoffset, hrest⟩ := Thrown.bind_eq_ok.mp hrest
    obtain ⟨sensorDelay, hdelay, hrest⟩ := Thrown.bind_eq_ok.mp hrest
    obtain ⟨selectPosition, hposition, hrest⟩ := Thrown.bind_eq_ok.mp hrest
    obtain ⟨timeunit, hunit, hstarted⟩ := Thrown.bind_eq_ok.mp hstarted
    obtain ⟨backtime, hback, hstarted⟩ := Thrown.bind_eq_ok.mp hstarted
    obtain ⟨timewait, hwait, hstarted⟩ := Thrown.bind_eq_ok.mp hstarted
    obtain rfl := Except.ok.inj hrest
    obtain rfl := Except.ok.inj hstarted
    exact ⟨hnum, hmagnification, hoffset, rfl, hdelay, hposition, hunit, hback, hwait⟩
  · rintro ⟨hnum, hmagnification, hoffset, hdirection, hdelay, hposition, hunit, hback, hwait⟩
    rw [hnum, hmagnification, hoffset, hdirection, hdelay, hposition, hunit, hback, hwait]
    rfl

/-- What the service is started with can be read if the settings are and the waiting time is. -/
theorem exists_extras_iff (hstored : Stored sensors prefs)
    (hsize : (sensors.length : Int) ≤ maxInt) :
    (∃ started : Extras F, extras prefs = .ok started) ↔
      (∃ value, prefs.getAverageNum = .ok value) ∧ (∃ value : F, prefs.getMagnification = .ok value) ∧
        (∃ value, prefs.getOffset = .ok value) ∧ ButtonReadable prefs ∧
          ∃ value, prefs.getTimeWait = .ok value := by
  obtain ⟨delay, -, hdelay, -⟩ := hstored.getSensorDelay
  obtain ⟨position, -, hposition⟩ := hstored.getSelectPosition hsize
  simp only [extras_eq_ok]
  constructor
  · rintro ⟨started, hread⟩
    exact ⟨⟨_, hread.averageNum⟩, ⟨_, hread.magnification⟩, ⟨_, hread.offset⟩,
      buttonReadable_iff.mpr ⟨⟨_, hread.backtime⟩, _, hread.timeunit⟩, _, hread.timewait⟩
  · rintro ⟨⟨averageNum, hnum⟩, ⟨magnification, hmagnification⟩, ⟨offset, hoffset⟩, hreadable,
      timewait, hwait⟩
    obtain ⟨⟨backtime, hback⟩, timeunit, hunit⟩ := buttonReadable_iff.mp hreadable
    exact ⟨⟨averageNum, magnification, offset, prefs.getDirection, delay, position, timeunit, backtime,
      timewait⟩, hnum, hmagnification, hoffset, rfl, hdelay, hposition, hunit, hback, hwait⟩

theorem exists_construct_iff [JavaFloat F] (prefs : StoredPrefs) :
    (∃ computer : AverageComputer F, AverageComputer.construct prefs = .ok computer) ↔
      Readable F prefs := by
  constructor
  · rintro ⟨computer, hconstruct⟩
    unfold AverageComputer.construct at hconstruct
    obtain ⟨averageNum, hnum, hconstruct⟩ := Thrown.bind_eq_ok.mp hconstruct
    obtain ⟨magnification, hmagnification, hconstruct⟩ := Thrown.bind_eq_ok.mp hconstruct
    obtain ⟨offset, hoffset, hconstruct⟩ := Thrown.bind_eq_ok.mp hconstruct
    obtain ⟨threshold, hthreshold, hconstruct⟩ := Thrown.bind_eq_ok.mp hconstruct
    have hnonneg : 0 ≤ averageNum := nonneg_of_create (Thrown.lift_eq_ok.mp hconstruct)
    obtain ⟨n, rfl⟩ := Int.eq_ofNat_of_zero_le hnonneg
    intro key
    cases key with
    | averageNum => exact ⟨n, hnum⟩
    | magnification => exact ⟨_, hmagnification⟩
    | offset => exact ⟨_, hoffset⟩
    | threshold => exact ⟨_, hthreshold⟩
    | direction => trivial
    | selectedSensor => trivial
    | sensorDelay => trivial
  · intro hreadable
    obtain ⟨n, hnum⟩ := hreadable .averageNum
    obtain ⟨magnification, hmagnification⟩ := hreadable .magnification
    obtain ⟨offset, hoffset⟩ := hreadable .offset
    obtain ⟨threshold, hthreshold⟩ := hreadable .threshold
    let sharedPrefs : SharedPrefs F :=
      ⟨n, magnification, offset, prefs.direction.getD true, threshold⟩
    have hnonneg : 0 ≤ PrefsEnum.getAverageNum sharedPrefs := Int.natCast_nonneg n
    obtain ⟨computer, hcreate, -, -⟩ := wellFormed_create hnonneg
    refine ⟨computer, ?_⟩
    unfold AverageComputer.construct
    rw [hnum, hmagnification, hoffset, hthreshold]
    exact Thrown.lift_eq_ok.mpr hcreate

theorem computes_construct [JavaFloat F] {computer : AverageComputer F}
    (hconstruct : AverageComputer.construct prefs = .ok computer) : Computes prefs computer := by
  obtain ⟨n, hnum⟩ := (exists_construct_iff prefs).mp ⟨computer, hconstruct⟩ .averageNum
  unfold AverageComputer.construct at hconstruct
  obtain ⟨averageNum, hread, hconstruct⟩ := Thrown.bind_eq_ok.mp hconstruct
  obtain rfl : (n : Int) = averageNum := Except.ok.inj (hnum.symm.trans hread)
  obtain ⟨magnification, -, hconstruct⟩ := Thrown.bind_eq_ok.mp hconstruct
  obtain ⟨offset, -, hconstruct⟩ := Thrown.bind_eq_ok.mp hconstruct
  obtain ⟨threshold, -, hconstruct⟩ := Thrown.bind_eq_ok.mp hconstruct
  have hnonneg : 0 ≤ PrefsEnum.getAverageNum (⟨n, magnification, offset, prefs.direction.getD true,
    threshold⟩ : SharedPrefs F) := Int.natCast_nonneg n
  obtain ⟨other, hcreate, hformed, hsame⟩ := wellFormed_create hnonneg
  obtain rfl : computer = other :=
    Except.ok.inj ((Thrown.lift_eq_ok.mp hconstruct).symm.trans hcreate)
  exact ⟨hformed, hnum.trans (congrArg _ hsame.symm)⟩

/-! ### The averager hears of a change -/

section

variable [JavaFloat F] {computer changed : AverageComputer F} {key : PrefsEnum}

theorem onPrefsChanged_num (computer : AverageComputer F) (prefs : StoredPrefs) :
    (∃ changed, computer.onPrefsChanged prefs PrefsEnum.averageNum.getKey = .ok changed) ↔
      Reads F prefs .averageNum := by
  unfold AverageComputer.onPrefsChanged
  rw [if_pos rfl]
  constructor
  · rintro ⟨changed, hchanged⟩
    obtain ⟨value, hvalue, hlift⟩ := Thrown.bind_eq_ok.mp hchanged
    have hnonneg : 0 ≤ value := nonneg_of_changeNum (Thrown.lift_eq_ok.mp hlift)
    obtain ⟨n, rfl⟩ := Int.eq_ofNat_of_zero_le hnonneg
    exact ⟨n, hvalue⟩
  · rintro ⟨n, hvalue⟩
    rw [hvalue]
    let seen : SharedPrefs F := ⟨n, computer.magnification, computer.offset,
      prefs.direction.getD true, computer.threshold⟩
    have hnonneg : 0 ≤ PrefsEnum.getAverageNum seen := Int.natCast_nonneg n
    obtain ⟨changed, hchanged, -⟩ := wellFormed_changeNum computer hnonneg
    exact ⟨changed, Thrown.lift_eq_ok.mpr hchanged⟩

/-- What the averager sees of the stored settings after a change of another one. -/
theorem onPrefsChanged_of_ne (computer : AverageComputer F) (prefs : StoredPrefs)
    (hkey : key ≠ .averageNum) (hreads : Reads F prefs key) :
    ∃ seen : SharedPrefs F, computer.onPrefsChanged prefs key.getKey =
      Thrown.lift (computer.onSharedPreferenceChanged seen key.getKey) := by
  unfold AverageComputer.onPrefsChanged
  cases key with
  | averageNum => exact absurd rfl hkey
  | magnification =>
      obtain ⟨value, hvalue⟩ := hreads
      rw [if_neg (by decide), if_pos rfl, hvalue]
      exact ⟨_, rfl⟩
  | offset =>
      obtain ⟨value, hvalue⟩ := hreads
      rw [if_neg (by decide), if_neg (by decide), if_pos rfl, hvalue]
      exact ⟨_, rfl⟩
  | threshold =>
      obtain ⟨value, hvalue⟩ := hreads
      rw [if_neg (by decide), if_neg (by decide), if_neg (by decide), if_pos rfl, hvalue]
      exact ⟨_, rfl⟩
  | _ =>
      rw [if_neg (by decide), if_neg (by decide), if_neg (by decide), if_neg (by decide)]
      exact ⟨⟨computer.averageNum, computer.magnification, computer.offset,
        prefs.direction.getD true, computer.threshold⟩, rfl⟩

theorem reads_of_onPrefsChanged (hchanged : computer.onPrefsChanged prefs key.getKey = .ok changed) :
    Reads F prefs key := by
  cases key with
  | averageNum => exact (onPrefsChanged_num computer prefs).mp ⟨changed, hchanged⟩
  | magnification =>
      unfold AverageComputer.onPrefsChanged at hchanged
      rw [if_neg (by decide), if_pos rfl] at hchanged
      obtain ⟨value, hvalue, -⟩ := Thrown.bind_eq_ok.mp hchanged
      exact ⟨value, hvalue⟩
  | offset =>
      unfold AverageComputer.onPrefsChanged at hchanged
      rw [if_neg (by decide), if_neg (by decide), if_pos rfl] at hchanged
      obtain ⟨value, hvalue, -⟩ := Thrown.bind_eq_ok.mp hchanged
      exact ⟨value, hvalue⟩
  | threshold =>
      unfold AverageComputer.onPrefsChanged at hchanged
      rw [if_neg (by decide), if_neg (by decide), if_neg (by decide), if_pos rfl] at hchanged
      obtain ⟨value, hvalue, -⟩ := Thrown.bind_eq_ok.mp hchanged
      exact ⟨value, hvalue⟩
  | direction => trivial
  | selectedSensor => trivial
  | sensorDelay => trivial

theorem exists_onPrefsChanged_iff (hformed : WellFormed computer) :
    (∃ changed, computer.onPrefsChanged prefs key.getKey = .ok changed) ↔ Reads F prefs key := by
  refine ⟨fun hchanged => reads_of_onPrefsChanged hchanged.choose_spec, fun hreads => ?_⟩
  by_cases hkey : key = .averageNum
  · subst hkey
    exact (onPrefsChanged_num computer prefs).mpr hreads
  · obtain ⟨seen, hseen⟩ := onPrefsChanged_of_ne computer prefs hkey hreads
    have hne : key.getKey ≠ PrefsEnum.averageNum.getKey :=
      fun hsame => hkey (PrefsEnum.getKey_injective hsame)
    obtain ⟨changed, hchange, -⟩ := @WellFormed.change _ _ _ hformed seen _ hne
    exact ⟨changed, hseen.trans (Thrown.lift_eq_ok.mpr hchange)⟩

/-- After a change the averager again has as many samples to a block as is stored. -/
theorem computes_onPrefsChanged (hformed : WellFormed computer)
    (hother : key ≠ .averageNum → prefs.getAverageNum = .ok computer.averageNum)
    (hchanged : computer.onPrefsChanged prefs key.getKey = .ok changed) : Computes prefs changed := by
  by_cases hkey : key = .averageNum
  · subst hkey
    unfold AverageComputer.onPrefsChanged at hchanged
    rw [if_pos rfl] at hchanged
    obtain ⟨value, hvalue, hlift⟩ := Thrown.bind_eq_ok.mp hchanged
    have hchange := Thrown.lift_eq_ok.mp hlift
    obtain ⟨next, hnext, hsound, hsame⟩ := wellFormed_changeNum computer (nonneg_of_changeNum hchange)
    obtain rfl : changed = next := Except.ok.inj (hchange.symm.trans hnext)
    exact ⟨hsound, hvalue.trans (congrArg _ hsame.symm)⟩
  · obtain ⟨seen, hseen⟩ :=
      onPrefsChanged_of_ne computer prefs hkey (reads_of_onPrefsChanged hchanged)
    have hne : key.getKey ≠ PrefsEnum.averageNum.getKey :=
      fun hsame => hkey (PrefsEnum.getKey_injective hsame)
    obtain ⟨next, hnext, hsound, hsame⟩ := @WellFormed.change _ _ _ hformed seen _ hne
    have hchange := Thrown.lift_eq_ok.mp (hseen.symm.trans hchanged)
    obtain rfl : changed = next := Except.ok.inj (hchange.symm.trans hnext)
    exact ⟨hsound, (hother hkey).trans (congrArg _ hsame.symm)⟩

omit [JavaText F] in
theorem computes_sensorCallback {activity changed : SettingActivity F}
    (hcomputes : Computes prefs activity.computer) {x y z : F}
    (hchanged : activity.sensorCallback x y z = .ok changed) : Computes prefs changed.computer := by
  have hpos := (exists_sensorCallback_iff hcomputes.1 x y z).mp ⟨changed, hchanged⟩
  obtain ⟨text, computer, hcompute, hformed, hsame⟩ := hcomputes.1.computeValueShown hpos x y z
  unfold SettingActivity.sensorCallback at hchanged
  rw [hcompute] at hchanged
  obtain rfl := Except.ok.inj hchanged
  exact ⟨hformed, hcomputes.2.trans (congrArg _ hsame.symm)⟩

end

end SensorApp

end SensorMouse
