import JavaMetrics.Settings.Load

/-!
# The checks of the settings

Settings are checked one after the other, and the first that has something wrong
ends the checks. Here they are told by setting: `failureOf` says what is wrong
with the value of one setting, if anything is, and `check_eq` that the checks of
all settings end with the first of these failures.

The encodings that there are belong to the system, not to the program. They are a
parameter of the checks and of all that is said about them.

The sources of a run are put together before that. `Sources.Hand` says which
settings they hand to the checks, if they can be read and give no key that is no
setting; loading then ends with what the checks say (`load_of_hand`).
-/

namespace JavaMetrics.Settings

open Text (Codec Codecs)

namespace Config

/-- The value of a setting. -/
def value (config : Config) : Setting → Value
  | .outputFile => config.outputFile
  | .fullFormat => config.fullFormat
  | .workers => config.workers
  | .extensions => config.extensions
  | .encoding => config.encoding
  | .verbosity => config.verbosity
  | .logFile => config.logFile

/-- The settings that have given values. -/
def ofValues (values : Setting → Value) : Config where
  outputFile := values .outputFile
  fullFormat := values .fullFormat
  workers := values .workers
  extensions := values .extensions
  encoding := values .encoding
  verbosity := values .verbosity
  logFile := values .logFile

@[simp] theorem value_ofValues (values : Setting → Value) (setting : Setting) :
    (ofValues values).value setting = values setting := by
  cases setting <;> rfl

end Config

/-! ## What is wrong with a value -/

/-- How a value is refused: by a fault that shows it, if it can be shown. -/
def refusal (setting : Setting) (value : Value) (reason : String) : Failure :=
  if value.hasLongInteger then .longInteger
  else .fault (.invalidSetting setting.key value reason)

theorem invalid_eq {α : Type} (setting : Setting) (value : Value) (reason : String) :
    (Config.invalid setting value reason : Except Failure α) =
      .error (refusal setting value reason) := by
  rw [Config.invalid, refusal]
  split <;> rfl

/-- Is the value one of the words for how much is logged? -/
def isVerbosity : Value → Bool
  | .text word => verbosities.contains word
  | _ => false

/-- What is wrong with the value of a setting. -/
def failureOf (codecs : Codecs) (setting : Setting) (value : Value) : Option Failure :=
  match setting with
  | .outputFile =>
    if value.isTrue then none else some (refusal .outputFile value "must not be empty")
  | .workers =>
    match value with
    | .null => none
    | value =>
      match belowOne value with
      | .ok true => some (refusal .workers value "must be at least 1")
      | .ok false => none
      | .error failure => some failure
  | .extensions =>
    if value.isTrue then none else some (refusal .extensions value "must list at least one suffix")
  | .verbosity =>
    if isVerbosity value then none
    else some (refusal .verbosity value ("expected one of " ++ ", ".intercalate verbosities))
  | .encoding =>
    match encodingOf codecs value with
    | .ok (some codec) => codec.defect?.map .unusableEncoding
    | .ok none => some (refusal .encoding value "unknown codec")
    | .error failure => some failure
  | .fullFormat | .logFile => none

/-- The settings that are checked, in the order of the checks. -/
def checkOrder : List Setting :=
  [.outputFile, .workers, .extensions, .verbosity, .encoding]

/-- The first thing that is wrong with some settings. -/
def firstFailure (codecs : Codecs) (config : Config) : Option Failure :=
  checkOrder.findSome? fun setting => failureOf codecs setting (config.value setting)

/-- A check that lets pass or ends with a failure. -/
def outcomeOf (failure : Option Failure) : Except Failure Unit :=
  match failure with
  | none => .ok ()
  | some failure => .error failure

section

variable {codecs : Codecs}

theorem checkWorkers_of_ne_null {value : Value} (h : value ≠ .null) :
    Config.checkWorkers value = (do
      if ← belowOne value then Config.invalid .workers value "must be at least 1"
      else return ()) := by
  cases value with
  | null => exact absurd rfl h
  | _ => rfl

theorem failureOf_workers_of_ne_null {value : Value} (h : value ≠ .null) :
    failureOf codecs .workers value =
      match belowOne value with
      | .ok true => some (refusal .workers value "must be at least 1")
      | .ok false => none
      | .error failure => some failure := by
  cases value with
  | null => exact absurd rfl h
  | _ => rfl

theorem checkWorkers_eq (value : Value) :
    Config.checkWorkers value = outcomeOf (failureOf codecs .workers value) := by
  by_cases hnull : value = .null
  · rw [hnull]
    rfl
  · rw [checkWorkers_of_ne_null hnull, failureOf_workers_of_ne_null hnull]
    cases belowOne value with
    | error failure => rfl
    | ok below =>
        cases below with
        | false => rfl
        | true => exact invalid_eq _ _ _

theorem checkVerbosity_eq (value : Value) :
    Config.checkVerbosity value = outcomeOf (failureOf codecs .verbosity value) := by
  cases value with
  | text word =>
      by_cases hword : isVerbosity (.text word) = true
      · rw [failureOf, if_pos hword]
        exact if_pos hword
      · rw [failureOf, if_neg hword]
        exact (if_neg hword).trans (invalid_eq _ _ _)
  | _ => exact invalid_eq _ _ _

theorem checkEncoding_eq (value : Value) :
    Config.checkEncoding codecs value = outcomeOf (failureOf codecs .encoding value) := by
  rw [Config.checkEncoding, failureOf]
  cases encodingOf codecs value with
  | error failure => rfl
  | ok found =>
      cases found with
      | none => exact invalid_eq _ _ _
      | some codec =>
          obtain ⟨defect, decode⟩ := codec
          cases defect <;> rfl

/-- The checks end with the first failure, and else let the settings pass as they are. -/
theorem check_eq (config : Config) :
    config.check codecs =
      match firstFailure codecs config with
      | some failure => .error failure
      | none => .ok config := by
  simp only [Config.check, @checkWorkers_eq codecs, @checkVerbosity_eq codecs, checkEncoding_eq,
    invalid_eq, firstFailure, checkOrder, List.findSome?_cons, List.findSome?_nil, Config.value]
  cases houtput : config.outputFile.isTrue with
  | false =>
      simp only [failureOf, houtput]
      rfl
  | true =>
      have hpass : failureOf codecs .outputFile config.outputFile = none := by
        rw [failureOf, if_pos houtput]
      rw [hpass]
      simp only [Bool.not_true, Bool.false_eq_true, if_false]
      cases failureOf codecs .workers config.workers with
      | some failure => rfl
      | none =>
          cases hextensions : config.extensions.isTrue with
          | false =>
              simp only [failureOf, hextensions]
              rfl
          | true =>
              have hpass : failureOf codecs .extensions config.extensions = none := by
                rw [failureOf, if_pos hextensions]
              rw [hpass]
              simp only [Bool.not_true, Bool.false_eq_true, if_false]
              cases failureOf codecs .verbosity config.verbosity with
              | some failure => rfl
              | none =>
                  cases failureOf codecs .encoding config.encoding <;> rfl

end

/-! ## Which values pass -/

/-- Do the checks let the value of a setting pass? -/
def Admits (codecs : Codecs) : Setting → Value → Prop
  | .outputFile, value => value.isTrue = true
  | .workers, value =>
    value = .null ∨ value = .bool true ∨ (∃ i : Int, value = .int i ∧ 1 ≤ i) ∨
      ∃ x : Number.Binary64, value = .float x ∧
        (x.isNaN = true ∨ x.negative = false ∧ 0x3FF0000000000000 ≤ x.magnitude)
  | .extensions, value => value.isTrue = true
  | .verbosity, value => ∃ word ∈ verbosities, value = .text word
  | .encoding, value => ∃ name codec, value = .text name ∧ Char.ofNat 0 ∉ name.toList ∧
      codecs name = some codec ∧ codec.defect? = none
  | .fullFormat, _ => True
  | .logFile, _ => True

section

variable {codecs : Codecs}

theorem belowOne_eq_false_iff {value : Value} :
    belowOne value = .ok false ↔
      value = .bool true ∨ (∃ i : Int, value = .int i ∧ 1 ≤ i) ∨
        ∃ x : Number.Binary64, value = .float x ∧
          (x.isNaN = true ∨ x.negative = false ∧ 0x3FF0000000000000 ≤ x.magnitude) := by
  cases value with
  | bool b => cases b <;> simp [belowOne]
  | int i => simp [belowOne]
  | float x => cases hnan : x.isNaN <;> simp [belowOne, hnan]
  | _ => simp [belowOne]

theorem failureOf_workers_eq_none_iff {value : Value} :
    failureOf codecs .workers value = none ↔ Admits codecs .workers value := by
  rw [Admits, ← belowOne_eq_false_iff]
  by_cases hnull : value = .null
  · simp [hnull, failureOf]
  · rw [failureOf_workers_of_ne_null hnull]
    cases belowOne value with
    | error failure => simp [hnull]
    | ok below => cases below <;> simp [hnull]

theorem failureOf_encoding_eq_none_iff {value : Value} :
    failureOf codecs .encoding value = none ↔ Admits codecs .encoding value := by
  cases value with
  | text name =>
      by_cases hnull : Char.ofNat 0 ∈ name.toList
      · simp [failureOf, Admits, encodingOf, hnull]
      · cases hname : codecs name with
        | none => simp [failureOf, Admits, encodingOf, hnull, hname]
        | some codec => simp [failureOf, Admits, encodingOf, hnull, hname]
  | _ => simp [failureOf, Admits, encodingOf]

theorem isVerbosity_iff {value : Value} :
    isVerbosity value = true ↔ ∃ word ∈ verbosities, value = .text word := by
  cases value with
  | text word => simp [isVerbosity]
  | _ => simp [isVerbosity]

theorem failureOf_eq_none_iff {setting : Setting} {value : Value} :
    failureOf codecs setting value = none ↔ Admits codecs setting value := by
  cases setting with
  | workers => exact failureOf_workers_eq_none_iff
  | encoding => exact failureOf_encoding_eq_none_iff
  | verbosity =>
      rw [Admits, ← isVerbosity_iff, failureOf]
      simp
  | outputFile => simp [failureOf, Admits]
  | extensions => simp [failureOf, Admits]
  | fullFormat => simp [failureOf, Admits]
  | logFile => simp [failureOf, Admits]

theorem firstFailure_eq_none_iff {config : Config} :
    firstFailure codecs config = none ↔
      ∀ setting, Admits codecs setting (config.value setting) := by
  rw [firstFailure, List.findSome?_eq_none_iff]
  constructor
  · intro h setting
    cases setting with
    | fullFormat => trivial
    | logFile => trivial
    | _ => exact failureOf_eq_none_iff.mp (h _ (by simp [checkOrder]))
  · exact fun h setting _ => failureOf_eq_none_iff.mpr (h setting)

/-- The first failure is that of a setting whose value does not pass, while the settings that are
checked before have values that do. -/
theorem firstFailure_eq_some_iff {config : Config} {failure : Failure} :
    firstFailure codecs config = some failure ↔
      ∃ before setting after, checkOrder = before ++ setting :: after ∧
        failureOf codecs setting (config.value setting) = some failure ∧
          ∀ earlier ∈ before, Admits codecs earlier (config.value earlier) := by
  simp only [firstFailure, List.findSome?_eq_some_iff, failureOf_eq_none_iff]

theorem check_eq_ok_iff {config config' : Config} :
    config.check codecs = .ok config' ↔
      config' = config ∧ ∀ setting, Admits codecs setting (config.value setting) := by
  rw [check_eq, ← firstFailure_eq_none_iff]
  cases firstFailure codecs config with
  | none => simp [eq_comm]
  | some failure => simp

/-- Every default passes its own check, if the encoding in which sources are written by default can be
used. -/
theorem admits_default {codec : Codec} (hknown : codecs "utf-8" = some codec)
    (husable : codec.defect? = none) (setting : Setting) :
    Admits codecs setting setting.default := by
  cases setting with
  | outputFile => rfl
  | fullFormat => trivial
  | workers => exact .inl rfl
  | extensions => rfl
  | encoding => exact ⟨"utf-8", codec, rfl, by decide, hknown, husable⟩
  | verbosity => exact ⟨"normal", by decide, rfl⟩
  | logFile => trivial

end

/-! ## What is handed to the checks -/

/-- Where the settings of a run come from. -/
structure Sources where
  tree : Files.Tree := {}
  environment : List (String × String) := []
  /-- The file that was asked for. -/
  file : Option Files.Path := none
  options : List (String × Value) := []
  /-- The encodings that there are. -/
  codecs : Codecs := Text.Encoding.codecs

namespace Sources

/-- The settings that the sources give. -/
def load (sources : Sources) : Except Failure Config :=
  Settings.load sources.tree sources.environment sources.file sources.options sources.codecs

/-- Do the sources, put together, give this table? -/
def Give (sources : Sources) (table : List (String × Value)) : Prop :=
  ∃ project explicit given,
    projectLayer sources.tree = .ok project ∧
      explicitLayer sources.tree sources.file = .ok explicit ∧
        environmentLayer sources.environment = .ok given ∧
          table = merge (merge (merge project explicit) given) (optionLayer sources.options)

/-- Do the sources give settings to be checked? -/
def Hand (sources : Sources) (config : Config) : Prop :=
  ∃ table, sources.Give table ∧ Config.unknownKey? table = none ∧
    config = .ofValues (Config.valueIn table)

theorem load_of_give {sources : Sources} {table : List (String × Value)}
    (h : sources.Give table) :
    sources.load = (Config.ofTable table sources.codecs).mapError asFault := by
  obtain ⟨project, explicit, given, hproject, hexplicit, hgiven, rfl⟩ := h
  rw [load, Settings.load, hproject, hexplicit, hgiven]
  rfl

theorem load_of_unknownKey {sources : Sources} {table : List (String × Value)} {key : String}
    (h : sources.Give table) (hkey : Config.unknownKey? table = some key) :
    sources.load = .error (.fault (.configuration
      s!"Invalid configuration: {(Failure.unknownSetting key).message}" [])) := by
  rw [load_of_give h, Config.ofTable, hkey]
  rfl

theorem load_of_hand {sources : Sources} {config : Config} (h : sources.Hand config) :
    sources.load = (config.check sources.codecs).mapError asFault := by
  obtain ⟨table, hgive, hknown, rfl⟩ := h
  rw [load_of_give hgive, Config.ofTable, hknown]
  rfl

end Sources

end JavaMetrics.Settings
