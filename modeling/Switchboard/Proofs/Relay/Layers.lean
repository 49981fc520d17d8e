import Mathlib
import Switchboard.Proofs.Digits
import Switchboard.Proofs.Json.RoundTrip
import Switchboard.Relay.Options

/-!
# Layers of a configuration

A setting of a relay has the value that its variable spells, else the value that the file gives,
else its default (`Setting.Decided`), each setting for itself. Which file is read, if any, is up to
one more variable (`FileRead`). A configuration is loaded exactly if the file that is named can be
read and no setting that has to be positive is zero in the end (`Config.load_layered`). So a lower
layer does not matter once a higher one speaks, and a variable that spells nothing is as good as
none.
-/

namespace Switchboard

/-! ## Variables -/

namespace Settings

/-- The text of a variable that is valid text. -/
theorem text?_eq_some_iff {environment : Environment} {name text : String} :
    environment.text? name = some text ↔ environment.lookup name = some text.toUTF8 := by
  rw [Environment.text?, Option.bind_eq_some_iff]
  constructor
  · rintro ⟨bytes, hbytes, htext⟩
    rw [hbytes, Json.fromUTF8?_eq_some_iff.mp htext]
  · intro hlookup
    exact ⟨text.toUTF8, hlookup, Json.fromUTF8?_toUTF8 text⟩

/-- A text spells a word: decimal digits, at least one, behind at most one plus sign. -/
def SpellsWord (text : String) (word : UInt64) : Prop :=
  ∃ sign ds, text.toList = sign ++ ds.map Nat.digitChar ∧ (sign = [] ∨ sign = ['+']) ∧ ds ≠ [] ∧
    (∀ d ∈ ds, d < 10) ∧ Digits.value 10 ds = word.toNat

theorem digitChar_ne_plus {d : Nat} (hd : d < 10) : Nat.digitChar d ≠ '+' := by
  intro hplus
  have hdigit := Digits.ofChar?_digitChar hd (by decide)
  rw [hplus] at hdigit
  cases hdigit

theorem variableWord?_eq_some_iff {text : String} {word : UInt64} :
    variableWord? text = some word ↔ SpellsWord text word := by
  rw [variableWord?]
  constructor
  · intro h
    split at h
    · rename_i cs htext
      obtain ⟨ds, hcs, hds⟩ := Digits.word?_eq_some_iff.mp h
      exact ⟨['+'], ds, by rw [htext, hcs]; rfl, Or.inr rfl, hds⟩
    · obtain ⟨ds, hcs, hds⟩ := Digits.word?_eq_some_iff.mp h
      exact ⟨[], ds, hcs, Or.inl rfl, hds⟩
  · rintro ⟨sign, ds, htext, rfl | rfl, hds⟩
    · rw [htext, List.nil_append]
      split
      · rename_i cs hplus
        -- A digit is no plus sign.
        cases ds with
        | nil => exact absurd rfl hds.1
        | cons d ds =>
            have hd : d < 10 := hds.2.1 d List.mem_cons_self
            exact absurd (List.cons.inj hplus).1 (digitChar_ne_plus hd)
      · exact Digits.word?_eq_some_iff.mpr ⟨ds, rfl, hds⟩
    · rw [htext]
      exact Digits.word?_eq_some_iff.mpr ⟨ds, rfl, hds⟩

end Settings

/-! ## Settings -/

/-- A setting of a relay whose values are of type `α`. -/
structure Setting (α : Type) where
  /-- The variable that may give the value. -/
  name : String
  /-- The value that a text is read as. -/
  read? : String → Option α
  /-- The texts that spell a value. -/
  Spells : String → α → Prop
  read?_eq_some_iff : ∀ {text value}, read? text = some value ↔ Spells text value
  /-- The value among given settings. -/
  given? : Settings → Option α
  /-- The value in a configuration. -/
  value : Config → α

namespace Setting

/-- A setting that is a word. -/
def ofWord (name : String) (given? : Settings → Option UInt64) (value : Config → UInt64) :
    Setting UInt64 where
  name := name
  read? := Settings.variableWord?
  Spells := Settings.SpellsWord
  read?_eq_some_iff := Settings.variableWord?_eq_some_iff
  given? := given?
  value := value

variable {α : Type}

/-- The bytes of a variable are a text that spells a value. -/
def SpelledBy (setting : Setting α) (bytes : ByteArray) (value : α) : Prop :=
  ∃ text : String, bytes = text.toUTF8 ∧ setting.Spells text value

/-- The environment gives the setting a value. -/
def Overridden (setting : Setting α) (environment : Settings.Environment) (value : α) : Prop :=
  ∃ bytes, environment.lookup setting.name = some bytes ∧ setting.SpelledBy bytes value

/-- The value that a setting has over the settings of a file. -/
inductive Decided (setting : Setting α) (environment : Settings.Environment) (file : Settings) :
    α → Prop
  /-- The environment goes first. -/
  | override {value : α} (hvalue : setting.Overridden environment value) :
      Decided setting environment file value
  /-- The file counts where the environment gives nothing. -/
  | file {value : α} (hnone : ∀ other, ¬ setting.Overridden environment other)
      (hvalue : setting.given? file = some value) : Decided setting environment file value
  /-- The default counts where nothing is given. -/
  | default (hnone : ∀ other, ¬ setting.Overridden environment other)
      (hfile : setting.given? file = none) :
      Decided setting environment file (setting.value {})

/-- The value that the environment gives, as it is computed. -/
def fromEnvironment? (setting : Setting α) (environment : Settings.Environment) : Option α :=
  (environment.text? setting.name).bind setting.read?

theorem fromEnvironment?_eq_some_iff {setting : Setting α} {environment : Settings.Environment}
    {value : α} :
    setting.fromEnvironment? environment = some value ↔ setting.Overridden environment value := by
  rw [fromEnvironment?, Option.bind_eq_some_iff]
  constructor
  · rintro ⟨text, htext, hvalue⟩
    exact ⟨_, Settings.text?_eq_some_iff.mp htext, text, rfl, setting.read?_eq_some_iff.mp hvalue⟩
  · rintro ⟨bytes, hbytes, text, rfl, hvalue⟩
    exact ⟨text, Settings.text?_eq_some_iff.mpr hbytes, setting.read?_eq_some_iff.mpr hvalue⟩

theorem fromEnvironment?_eq_none_iff {setting : Setting α} {environment : Settings.Environment} :
    setting.fromEnvironment? environment = none ↔
      ∀ value, ¬ setting.Overridden environment value := by
  rw [Option.eq_none_iff_forall_not_mem]
  exact forall_congr' fun value => not_congr fromEnvironment?_eq_some_iff

/-- The layers decide on one value. -/
theorem decided_iff {setting : Setting α} {environment : Settings.Environment} {file : Settings}
    {value : α} :
    setting.Decided environment file value ↔
      value = (setting.fromEnvironment? environment).getD
        ((setting.given? file).getD (setting.value {})) := by
  constructor
  · intro h
    cases h with
    | override hvalue => simp [fromEnvironment?_eq_some_iff.mpr hvalue]
    | file hnone hvalue => simp [fromEnvironment?_eq_none_iff.mpr hnone, hvalue]
    | default hnone hfile => simp [fromEnvironment?_eq_none_iff.mpr hnone, hfile]
  · rintro rfl
    cases henvironment : setting.fromEnvironment? environment with
    | some value => exact .override (fromEnvironment?_eq_some_iff.mp henvironment)
    | none =>
        have hnone := fromEnvironment?_eq_none_iff.mp henvironment
        cases hfile : setting.given? file with
        | some value => exact .file hnone hfile
        | none => exact .default hnone hfile

end Setting

namespace Config

/-- The fields of a configuration. -/
inductive Field where
  | bindAddress
  | idleTimeoutSecs
  | maxConnections
  | sweepIntervalMs
  | outboundQueue
deriving DecidableEq

namespace Field

/-- The values that a field may have. -/
def Value : Field → Type
  | bindAddress => SocketAddress
  | _ => UInt64

/-- The setting that decides on a field. -/
def setting : (field : Field) → Setting field.Value
  | bindAddress =>
      { name := "IRIS_BIND"
        read? := SocketAddress.parse?
        Spells := fun text address => SocketAddress.parse? text = some address
        read?_eq_some_iff := Iff.rfl
        given? := Settings.bindAddress
        value := Config.bindAddress }
  | idleTimeoutSecs =>
      .ofWord "IRIS_IDLE_TIMEOUT" Settings.idleTimeoutSecs Config.idleTimeoutSecs
  | maxConnections =>
      .ofWord "IRIS_MAX_CONNECTIONS" Settings.maxConnections Config.maxConnections
  | sweepIntervalMs =>
      .ofWord "IRIS_ROUTE_SWEEP_MS" Settings.sweepIntervalMs Config.sweepIntervalMs
  | outboundQueue =>
      .ofWord "IRIS_OUTBOUND_QUEUE" Settings.outboundQueue Config.outboundQueue

theorem given?_ofEnvironment (field : Field) (environment : Settings.Environment) :
    field.setting.given? (.ofEnvironment environment) =
      field.setting.fromEnvironment? environment := by
  cases field <;> rfl

theorem value_override (field : Field) (config : Config) (settings : Settings) :
    field.setting.value (config.override settings) =
      (field.setting.given? settings).getD (field.setting.value config) := by
  cases field <;> rfl

/-- Each field has a variable of its own. -/
theorem eq_of_name {a b : Field} (h : a.setting.name = b.setting.name) : a = b := by
  cases a <;> cases b <;> revert h <;> decide

/-- No field is given by the variable that names the file. -/
theorem name_ne_fileVariable (field : Field) : field.setting.name ≠ fileVariable := by
  cases field <;> decide

/-- Settings that agree for each field are the same. -/
theorem settings_ext {a b : Settings}
    (h : ∀ field : Field, field.setting.given? a = field.setting.given? b) : a = b := by
  cases a
  cases b
  simp only [Settings.mk.injEq]
  exact ⟨h bindAddress, h idleTimeoutSecs, h maxConnections, h sweepIntervalMs, h outboundQueue⟩

/-- Configurations that agree in each field are the same. -/
theorem config_ext {a b : Config}
    (h : ∀ field : Field, field.setting.value a = field.setting.value b) : a = b := by
  cases a
  cases b
  simp only [Config.mk.injEq]
  exact ⟨h bindAddress, h idleTimeoutSecs, h maxConnections, h sweepIntervalMs, h outboundQueue⟩

end Field

/-- Every field has the value that the layers decide on. -/
def Layered (environment : Settings.Environment) (file : Settings) (config : Config) : Prop :=
  ∀ field : Field, field.setting.Decided environment file (field.setting.value config)

theorem layered_iff {environment : Settings.Environment} {file : Settings} {config : Config} :
    config.Layered environment file ↔
      config = (({} : Config).override file).override (.ofEnvironment environment) := by
  have hvalue : ∀ field : Field,
      field.setting.value ((({} : Config).override file).override (.ofEnvironment environment)) =
        (field.setting.fromEnvironment? environment).getD
          ((field.setting.given? file).getD (field.setting.value {})) := by
    intro field
    rw [field.value_override, field.value_override, field.given?_ofEnvironment]
  constructor
  · intro h
    apply Field.config_ext
    intro field
    rw [hvalue]
    exact Setting.decided_iff.mp (h field)
  · rintro rfl field
    exact Setting.decided_iff.mpr (hvalue field)

/-! ## Positive settings -/

/-- The first setting that is zero but has to be positive. -/
def FirstZero (config : Config) : PositiveSetting → Prop
  | .maxConnections => config.maxConnections = 0
  | .sweepInterval => config.maxConnections ≠ 0 ∧ config.sweepIntervalMs = 0
  | .outboundQueue =>
      config.maxConnections ≠ 0 ∧ config.sweepIntervalMs ≠ 0 ∧ config.outboundQueue = 0

theorem firstZero_iff {config : Config} {setting : PositiveSetting} :
    config.FirstZero setting ↔ config.zeroSetting? = some setting := by
  unfold zeroSetting?
  cases setting <;> simp only [FirstZero] <;> split_ifs <;> simp_all

theorem zeroSetting?_eq_none_iff {config : Config} :
    config.zeroSetting? = none ↔ ∀ setting, ¬ config.FirstZero setting := by
  rw [Option.eq_none_iff_forall_not_mem]
  exact forall_congr' fun setting => not_congr firstZero_iff.symm

/-! ## The file -/

/-- The environment names a file. -/
def Names (environment : Settings.Environment) (path : String) : Prop :=
  environment.lookup fileVariable = some path.toUTF8

/-- What comes of the file that the environment names, if it names one. -/
inductive FileRead (source : ConfigSource) : Except ConfigError Settings → Prop
  /-- No file is named, which gives nothing. -/
  | unnamed (hnone : ∀ path, ¬ Names source.environment path) : FileRead source (.ok {})
  | missing {path : String} (hname : Names source.environment path)
      (hfile : source.content? path = none) :
      FileRead source (.error (.unreadable path .notFound))
  | binary {path : String} {bytes : ByteArray} (hname : Names source.environment path)
      (hfile : source.content? path = some bytes) (htext : ∀ text : String, bytes ≠ text.toUTF8) :
      FileRead source (.error (.unreadable path .notText))
  | malformed {path text : String} (hname : Names source.environment path)
      (hfile : source.content? path = some text.toUTF8) (htext : Settings.ofText? text = none) :
      FileRead source (.error (.malformed path))
  | read {path text : String} {file : Settings} (hname : Names source.environment path)
      (hfile : source.content? path = some text.toUTF8)
      (htext : Settings.ofText? text = some file) : FileRead source (.ok file)

/-- The settings of the file, as they are computed. -/
def fileSettings (source : ConfigSource) : Except ConfigError Settings :=
  match source.environment.text? fileVariable with
  | some path => readFile source path
  | none => .ok {}

theorem names_iff {environment : Settings.Environment} {path : String} :
    Names environment path ↔ environment.text? fileVariable = some path :=
  Settings.text?_eq_some_iff.symm

theorem fileSettings_of_names {source : ConfigSource} {path : String}
    (h : Names source.environment path) : fileSettings source = readFile source path := by
  simp only [fileSettings, names_iff.mp h]

theorem fileSettings_of_not_names {source : ConfigSource}
    (h : ∀ path, ¬ Names source.environment path) : fileSettings source = .ok {} := by
  have hnone : source.environment.text? fileVariable = none :=
    Option.eq_none_iff_forall_not_mem.mpr fun path hpath => h path (names_iff.mpr hpath)
  simp only [fileSettings, hnone]

theorem FileRead.fileSettings_eq {source : ConfigSource} {outcome : Except ConfigError Settings}
    (h : FileRead source outcome) : fileSettings source = outcome := by
  cases h with
  | unnamed hnone => exact fileSettings_of_not_names hnone
  | missing hname hfile => simp only [fileSettings_of_names hname, readFile, hfile]
  | @binary path bytes hname hfile htext =>
      have hnone : String.fromUTF8? bytes = none :=
        Option.eq_none_iff_forall_not_mem.mpr fun text h =>
          htext text (Json.fromUTF8?_eq_some_iff.mp h)
      simp only [fileSettings_of_names hname, readFile, hfile, hnone]
  | malformed hname hfile htext =>
      simp only [fileSettings_of_names hname, readFile, hfile, Json.fromUTF8?_toUTF8, htext]
  | read hname hfile htext =>
      simp only [fileSettings_of_names hname, readFile, hfile, Json.fromUTF8?_toUTF8, htext]

theorem exists_fileRead (source : ConfigSource) : ∃ outcome, FileRead source outcome := by
  by_cases hnamed : ∃ path, Names source.environment path
  · obtain ⟨path, hname⟩ := hnamed
    cases hfile : source.content? path with
    | none => exact ⟨_, .missing hname hfile⟩
    | some bytes =>
        by_cases htext : ∃ text : String, bytes = text.toUTF8
        · obtain ⟨text, rfl⟩ := htext
          cases hsettings : Settings.ofText? text with
          | none => exact ⟨_, .malformed hname hfile hsettings⟩
          | some file => exact ⟨_, .read hname hfile hsettings⟩
        · exact ⟨_, .binary hname hfile (not_exists.mp htext)⟩
  · exact ⟨_, .unnamed (not_exists.mp hnamed)⟩

/-- There is exactly one outcome for the file. -/
theorem fileRead_iff {source : ConfigSource} {outcome : Except ConfigError Settings} :
    FileRead source outcome ↔ fileSettings source = outcome := by
  constructor
  · exact FileRead.fileSettings_eq
  · rintro rfl
    obtain ⟨outcome, houtcome⟩ := exists_fileRead source
    rw [houtcome.fileSettings_eq]
    exact houtcome

/-- A file that cannot be read is no reason to complain about a setting. -/
theorem FileRead.ne_zero {source : ConfigSource} {error : ConfigError}
    (h : FileRead source (.error error)) (setting : PositiveSetting) : error ≠ .zero setting := by
  cases h <;> exact ConfigError.noConfusion

/-! ## Loading -/

theorem ofFile_eq (source : ConfigSource) (path : String) :
    ofFile source path = (readFile source path).map ({} : Config).override := rfl

/-- A configuration is loaded from the settings of the file alone, the environment and the
defaults. -/
theorem load_eq (source : ConfigSource) :
    load source =
      match fileSettings source with
      | .error error => .error error
      | .ok file =>
          let config := (({} : Config).override file).override (.ofEnvironment source.environment)
          match config.zeroSetting? with
          | some setting => .error (.zero setting)
          | none => .ok config := by
  have hvalidate : ∀ config : Config,
      (config.validate >>= fun _ => pure config : Except ConfigError Config) =
        match config.zeroSetting? with
        | some setting => .error (.zero setting)
        | none => .ok config := by
    intro config
    unfold validate
    cases config.zeroSetting? <;> rfl
  unfold load fileSettings
  cases source.environment.text? fileVariable with
  | none => exact hvalidate _
  | some path =>
      simp only [ofFile_eq]
      cases readFile source path with
      | error error => rfl
      | ok file => exact hvalidate _

/-- A file that cannot be read, and nothing else, fails with an error that is not about a
setting. -/
theorem fileRead_error_iff {source : ConfigSource} {error : ConfigError} :
    FileRead source (.error error) ↔
      load source = .error error ∧ ∀ setting, error ≠ .zero setting := by
  constructor
  · intro h
    refine ⟨?_, h.ne_zero⟩
    simp only [load_eq, h.fileSettings_eq]
  · rintro ⟨hload, hne⟩
    rw [load_eq] at hload
    cases hfile : fileSettings source with
    | error other =>
        simp only [hfile, Except.error.injEq] at hload
        exact fileRead_iff.mpr (hload ▸ hfile)
    | ok file =>
        simp only [hfile] at hload
        split at hload
        · cases hload
          exact absurd rfl (hne _)
        · cases hload

/-- With the file read, a configuration is loaded unless a setting is zero. -/
theorem load_of_read {source : ConfigSource} {file : Settings} {config : Config}
    (h : FileRead source (.ok file)) (hlayered : config.Layered source.environment file) :
    (∀ setting, load source = .error (.zero setting) ↔ config.FirstZero setting) ∧
      (load source = .ok config ↔ ∀ setting, ¬ config.FirstZero setting) := by
  have hload := load_eq source
  simp only [h.fileSettings_eq, ← layered_iff.mp hlayered] at hload
  simp only [hload, firstZero_iff]
  cases config.zeroSetting? with
  | none => simp
  | some zero => simp

/-! ## What loading depends on -/

/-- Files matter for what the named one comes to. -/
theorem load_congr {a b : ConfigSource} (hfile : fileSettings a = fileSettings b)
    (henvironment : Settings.ofEnvironment a.environment = .ofEnvironment b.environment) :
    load a = load b := by
  rw [load_eq, load_eq, hfile, henvironment]

theorem fileSettings_of_environment {source : ConfigSource} {environment : Settings.Environment}
    (h : environment.lookup fileVariable = source.environment.lookup fileVariable) :
    fileSettings { source with environment } = fileSettings source := by
  simp only [fileSettings, Settings.Environment.text?, h]
  rfl

/-- Of the files, only the one that is named matters. -/
theorem load_of_files {source : ConfigSource} {files : String → Option ByteArray}
    (h : ∀ path, Names source.environment path → files path = source.content? path) :
    load { source with content? := files } = load source := by
  refine load_congr ?_ rfl
  by_cases hnamed : ∃ path, Names source.environment path
  · obtain ⟨path, hname⟩ := hnamed
    have hother : fileSettings { source with content? := files } =
        readFile { source with content? := files } path := fileSettings_of_names hname
    rw [hother, fileSettings_of_names hname]
    simp only [readFile, h path hname]
  · have hnone := not_exists.mp hnamed
    have hother : fileSettings { source with content? := files } = .ok {} :=
      fileSettings_of_not_names hnone
    rw [hother, fileSettings_of_not_names hnone]

/-- The bytes of no text. -/
theorem not_text : ∀ text : String, (⟨#[0xFF]⟩ : ByteArray) ≠ text.toUTF8 := by
  intro text h
  have hnone : String.fromUTF8? ⟨#[0xFF]⟩ = none := by decide
  rw [h, Json.fromUTF8?_toUTF8] at hnone
  cases hnone

/-- The files make a difference exactly if one of them is named. -/
theorem exists_load_ne_iff (source : ConfigSource) :
    (∃ files, load { source with content? := files } ≠ load source) ↔
      ∃ path, Names source.environment path := by
  constructor
  · rintro ⟨files, hne⟩
    by_contra hnone
    exact hne (load_of_files fun path hname => absurd hname (not_exists.mp hnone path))
  · rintro ⟨path, hname⟩
    -- No file, and a file that is no text, fail in different ways.
    have hmissing : FileRead { source with content? := fun _ => none }
        (.error (.unreadable path .notFound)) := .missing hname rfl
    have hbinary : FileRead { source with content? := fun _ => some ⟨#[0xFF]⟩ }
        (.error (.unreadable path .notText)) := .binary hname rfl not_text
    by_cases hsame : load { source with content? := fun _ => none } = load source
    · refine ⟨fun _ => some ⟨#[0xFF]⟩, fun hload => ?_⟩
      rw [(fileRead_error_iff.mp hbinary).1, ← hsame, (fileRead_error_iff.mp hmissing).1] at hload
      cases hload
    · exact ⟨_, hsame⟩

/-- A variable that spells no value of its field may as well not be set. -/
theorem load_of_unset {source : ConfigSource} {unset : Settings.Environment} {field : Field}
    (hidle : ∀ value, ¬ field.setting.Overridden source.environment value)
    (hunset : unset.lookup field.setting.name = none)
    (hothers : ∀ name, name ≠ field.setting.name →
      unset.lookup name = source.environment.lookup name) :
    load { source with environment := unset } = load source := by
  apply load_congr
  · exact fileSettings_of_environment (hothers _ field.name_ne_fileVariable.symm)
  · apply Field.settings_ext
    intro other
    rw [other.given?_ofEnvironment, other.given?_ofEnvironment]
    by_cases hfield : other = field
    · rw [hfield, Setting.fromEnvironment?_eq_none_iff.mpr hidle, Setting.fromEnvironment?,
        Settings.Environment.text?, hunset]
      rfl
    · have hname : other.setting.name ≠ field.setting.name := fun h => hfield (Field.eq_of_name h)
      simp only [Setting.fromEnvironment?, Settings.Environment.text?, hothers _ hname]

end Config

/-! ## The options of a relay -/

/-- Options that say the same as a configuration. -/
structure RelayOptions.Carries (options : RelayOptions) (config : Config) : Prop where
  bindAddress : options.bindAddress = config.bindAddress
  idleTimeout : options.idleTimeout.nanos = config.idleTimeoutSecs.toNat * 1000000000
  maxConnections : options.maxConnections = config.maxConnections.toNat
  sweepInterval : options.sweepInterval.nanos = config.sweepIntervalMs.toNat * 1000000
  outboundQueue : options.outboundQueue = config.outboundQueue.toNat

theorem RelayOptions.carries_ofConfig (config : Config) : (ofConfig config).Carries config :=
  ⟨rfl, rfl, rfl, rfl, rfl⟩

/-! ## The whole -/

/-- **How a configuration comes about.** The files make a difference exactly if the environment
names one of them, and then by what is in that file alone. Reading the file has one outcome, and an
error that is not about a setting is exactly what it came to. With the file read, the layers decide
on each setting and so on one configuration, which is refused for its first setting that is zero but
has to be positive, and loaded if there is none. A variable that spells nothing changes nothing. The
options that a loaded configuration asks for say what it says. -/
theorem Config.load_layered (source : ConfigSource) :
    ((∃ files, load { source with content? := files } ≠ load source) ↔
        ∃ path, Names source.environment path) ∧
      (∀ files, (∀ path, Names source.environment path → files path = source.content? path) →
        load { source with content? := files } = load source) ∧
      (∃ outcome, FileRead source outcome ∧ ∀ other, FileRead source other → other = outcome) ∧
      (∀ error, FileRead source (.error error) ↔
        load source = .error error ∧ ∀ setting, error ≠ .zero setting) ∧
      (∀ file, FileRead source (.ok file) →
        ∃ config : Config, config.Layered source.environment file ∧
          (∀ setting, load source = .error (.zero setting) ↔ config.FirstZero setting) ∧
          (load source = .ok config ↔ ∀ setting, ¬ config.FirstZero setting)) ∧
      (∀ (field : Field) (unset : Settings.Environment),
        (∀ value, ¬ field.setting.Overridden source.environment value) →
        unset.lookup field.setting.name = none →
        (∀ name, name ≠ field.setting.name →
          unset.lookup name = source.environment.lookup name) →
        load { source with environment := unset } = load source) ∧
      ∀ config, load source = .ok config → (RelayOptions.ofConfig config).Carries config := by
  refine ⟨exists_load_ne_iff source, fun files hfiles => load_of_files hfiles,
    ?_, fun error => fileRead_error_iff, ?_, ?_, ?_⟩
  · exact ⟨_, fileRead_iff.mpr rfl, fun other h => h.fileSettings_eq.symm⟩
  · intro file hread
    have hlayered := layered_iff.mpr
      (rfl : (({} : Config).override file).override (.ofEnvironment source.environment) = _)
    exact ⟨_, hlayered, load_of_read hread hlayered⟩
  · intro field unset hidle hunset hothers
    exact load_of_unset hidle hunset hothers
  · intro config _
    exact RelayOptions.carries_ofConfig config

namespace Config

/-- A file that gives one field a zero, and an environment that gives the same field a five, spells
no address, and has bytes for the idle timeout that are no text. -/
def repairedSource : ConfigSource where
  environment :=
    [(fileVariable, "relay.yaml".toUTF8), ("IRIS_BIND", "nowhere".toUTF8),
      ("IRIS_IDLE_TIMEOUT", ⟨#[0xFF]⟩), ("IRIS_MAX_CONNECTIONS", "+05".toUTF8)]
  content? path :=
    if path = "relay.yaml" then
      some "network:\n  max_connections: 0\nrouting:\n  sweep_interval_ms: 50\n".toUTF8
    else none

/-- The five goes over the zero of the file, the rest of the environment over nothing. -/
theorem load_layered_of_repairedSource :
    let file : Settings := { maxConnections := some 0, sweepIntervalMs := some 50 }
    let config : Config := { maxConnections := 5, sweepIntervalMs := 50 }
    FileRead repairedSource (.ok file) ∧ (({} : Config).override file).FirstZero .maxConnections ∧
      config.Layered repairedSource.environment file ∧ load repairedSource = .ok config ∧
      (∀ value, ¬ Field.bindAddress.setting.Overridden repairedSource.environment value) ∧
      load { repairedSource with environment := repairedSource.environment.eraseIdx 1 } =
        .ok config ∧
      (RelayOptions.ofConfig config).Carries config := by
  intro file config
  obtain ⟨-, -, -, -, hread, hunset, hcarries⟩ := load_layered repairedSource
  have hfile : FileRead repairedSource (.ok file) := .read rfl rfl (by cbv)
  obtain ⟨loaded, hlayered, -, hload⟩ := hread file hfile
  have henvironment : Settings.ofEnvironment repairedSource.environment =
      { maxConnections := some 5 } := by cbv
  have hloaded : loaded = config := by
    rw [layered_iff.mp hlayered, henvironment]
    rfl
  rw [hloaded] at hlayered hload
  have hok : load repairedSource = .ok config := hload.mpr (zeroSetting?_eq_none_iff.mp rfl)
  have hidle : ∀ value, ¬ Field.bindAddress.setting.Overridden repairedSource.environment value :=
    Setting.fromEnvironment?_eq_none_iff.mp (by cbv)
  refine ⟨hfile, rfl, hlayered, hok, hidle, ?_, hcarries config hok⟩
  refine (hunset .bindAddress _ hidle rfl fun name hname => ?_).trans hok
  have hbind : (name == "IRIS_BIND") = false := beq_eq_false_iff_ne.mpr hname
  simp [repairedSource, List.lookup, hbind]

end Config

end Switchboard
