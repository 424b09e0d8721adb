import JavaMetrics.CommandLine.Command
import JavaMetrics.Proofs.Files.Places
import JavaMetrics.Proofs.Settings.Layers
import Mathlib.Algebra.Ring.Int.Defs

/-!
# How loading can fail

Loading should end with settings or with a fault of the settings, which the
command prints as an error. Almost everything that can go wrong on the way is made
into such a fault: a file that is missing or no document, a variable that cannot
be read, a key that is no setting, a value of a wrong type.

Some things are not. The system may refuse to say whether a file is there, before
it is read: a name on its path or the whole path is too long, or a folder on the way
may not be searched. The name of an encoding with a null character in it is refused by
something other than the table of encodings, and there may be encodings in which
nothing can be written, not even the empty text. And a value that is refused has to be
shown in the message, which an integer of too many digits cannot be. `Sources.Escapes`
says when one of these is met first, and `load_settles_unless_escaped` that loading
ends as it should in all other cases and in no others.
-/

namespace JavaMetrics.Settings

open Files (Withheld)
open Text (Codec Codecs)

/-- The faults of the settings. -/
inductive OfSettings : Fault → Prop
  | configuration (message : String) (details : List (String × String)) :
      OfSettings (.configuration message details)
  | invalidSetting (key : String) (value : Value) (reason : String) :
      OfSettings (.invalidSetting key value reason)

/-- Is the failure a fault of the settings? -/
def IsReported (failure : Failure) : Prop :=
  ∃ fault, OfSettings fault ∧ failure = .fault fault

theorem isReported_configuration (message : String) (details : List (String × String)) :
    IsReported (.fault (.configuration message details)) :=
  ⟨_, .configuration _ _, rfl⟩

theorem isReported_invalidSetting (key : String) (value : Value) (reason : String) :
    IsReported (.fault (.invalidSetting key value reason)) :=
  ⟨_, .invalidSetting _ _ _, rfl⟩

/-! ## Sources that cannot be read -/

theorem loadFile_error {tree : Files.Tree} {path : Files.Path} {failure : Failure}
    (h : loadFile tree path = .error failure) : IsReported failure := by
  rw [loadFile] at h
  split at h
  · cases h
    exact isReported_configuration _ _
  · split at h
    · cases h
    · cases h
      exact isReported_configuration _ _

theorem loadIfThere_error {tree : Files.Tree} {path : Files.Path}
    {absent : Except Failure (List (String × Value))} {failure : Failure}
    (habsent : ∀ other, absent = .error other → IsReported other)
    (h : loadIfThere tree path absent = .error failure) :
    IsReported failure ∨ ∃ refusal, Withheld tree path refusal := by
  rw [loadIfThere] at h
  split at h
  · next hprobe =>
      obtain ⟨refusal, hwithheld, -⟩ := Files.probe_eq_error_iff.mp hprobe
      exact .inr ⟨refusal, hwithheld⟩
  · exact .inl (habsent _ h)
  · exact .inl (loadFile_error h)

theorem loadIfThere_of_withheld {tree : Files.Tree} {path : Files.Path} {refusal : Files.Refusal}
    (h : Withheld tree path refusal) (absent : Except Failure (List (String × Value))) :
    loadIfThere tree path absent = .error (.refused refusal path.text) := by
  rw [loadIfThere, h.probe_eq]

theorem projectLayer_error {tree : Files.Tree} {failure : Failure}
    (h : projectLayer tree = .error failure) :
    IsReported failure ∨ ∃ refusal, Withheld tree (projectFile tree) refusal := by
  refine loadIfThere_error ?_ h
  intro other hother
  cases hother

theorem explicitLayer_error {tree : Files.Tree} {file : Option Files.Path} {failure : Failure}
    (h : explicitLayer tree file = .error failure) :
    IsReported failure ∨ ∃ path refusal, file = some path ∧ Withheld tree path refusal := by
  cases file with
  | none => cases h
  | some path =>
      refine (loadIfThere_error ?_ h).imp_right fun ⟨refusal, h⟩ => ⟨path, refusal, rfl, h⟩
      intro other hother
      cases hother
      exact isReported_configuration _ _

theorem variableOf_error {environment : List (String × String)} {setting : Setting}
    {failure : Failure} (h : variableOf environment setting = .error failure) :
    IsReported failure := by
  rw [variableOf] at h
  split at h
  · cases h
  · split at h
    · cases h
    · cases h
    · cases h
      exact isReported_invalidSetting _ _ _

theorem mapM_error {α β : Type} {f : α → Except Failure β} {items : List α} {failure : Failure}
    (h : items.mapM f = .error failure) : ∃ item ∈ items, f item = .error failure := by
  induction items with
  | nil => cases h
  | cons item rest ih =>
      rw [List.mapM_cons] at h
      cases hitem : f item with
      | error other =>
          rw [hitem] at h
          cases h
          exact ⟨item, List.mem_cons_self, hitem⟩
      | ok result =>
          cases hrest : rest.mapM f with
          | error other =>
              rw [hitem, hrest] at h
              cases h
              obtain ⟨found, hmem, hfound⟩ := ih hrest
              exact ⟨found, List.mem_cons_of_mem _ hmem, hfound⟩
          | ok results =>
              rw [hitem, hrest] at h
              cases h

theorem environmentLayer_error {environment : List (String × String)} {failure : Failure}
    (h : environmentLayer environment = .error failure) : IsReported failure := by
  rw [environmentLayer] at h
  cases hfound : Setting.all.mapM (variableOf environment) with
  | ok found =>
      rw [hfound] at h
      cases h
  | error other =>
      rw [hfound] at h
      cases h
      obtain ⟨setting, -, hsetting⟩ := mapM_error hfound
      exact variableOf_error hsetting

namespace Sources

/-- Is the path that of a file of settings, to be looked for before anything has failed, and does the
system refuse to say what it leads to? -/
def Misses (sources : Sources) (path : Files.Path) (refusal : Files.Refusal) : Prop :=
  Withheld sources.tree path refusal ∧
    (path = projectFile sources.tree ∨
      sources.file = some path ∧ ∃ project, projectLayer sources.tree = .ok project)

theorem load_of_misses {sources : Sources} {path : Files.Path} {refusal : Files.Refusal}
    (h : sources.Misses path refusal) : sources.load = .error (.refused refusal path.text) := by
  obtain ⟨hwithheld, hpath⟩ := h
  rw [load, Settings.load]
  rcases hpath with rfl | ⟨hfile, project, hproject⟩
  · rw [projectLayer, loadIfThere_of_withheld hwithheld]
    rfl
  · rw [hproject, hfile, explicitLayer, loadIfThere_of_withheld hwithheld]
    rfl

/-- Where the sources hand nothing to the checks, loading ends with a fault of the settings or misses
a file. -/
theorem load_of_not_hand {sources : Sources} (h : ∀ config, ¬ sources.Hand config) :
    (∃ failure, IsReported failure ∧ sources.load = .error failure) ∨
      ∃ path refusal, sources.Misses path refusal := by
  cases hproject : projectLayer sources.tree with
  | error failure =>
      rcases projectLayer_error hproject with hreported | ⟨refusal, hwithheld⟩
      · refine .inl ⟨failure, hreported, ?_⟩
        rw [load, Settings.load, hproject]
        rfl
      · exact .inr ⟨_, refusal, hwithheld, .inl rfl⟩
  | ok project =>
      cases hexplicit : explicitLayer sources.tree sources.file with
      | error failure =>
          rcases explicitLayer_error hexplicit with
            hreported | ⟨path, refusal, hpath, hwithheld⟩
          · refine .inl ⟨failure, hreported, ?_⟩
            rw [load, Settings.load, hproject, hexplicit]
            rfl
          · exact .inr ⟨path, refusal, hwithheld, .inr ⟨hpath, project, hproject⟩⟩
      | ok explicit =>
          cases hgiven : environmentLayer sources.environment with
          | error failure =>
              refine .inl ⟨failure, environmentLayer_error hgiven, ?_⟩
              rw [load, Settings.load, hproject, hexplicit, hgiven]
              rfl
          | ok given =>
              have hgive : sources.Give _ :=
                ⟨project, explicit, given, hproject, hexplicit, hgiven, rfl⟩
              cases hkey : Config.unknownKey?
                  (merge (merge (merge project explicit) given) (optionLayer sources.options)) with
              | none => exact absurd ⟨_, hgive, hkey, rfl⟩ (h _)
              | some key =>
                  exact .inl ⟨_, isReported_configuration _ _, load_of_unknownKey hgive hkey⟩

end Sources

/-! ## Values that are refused in another way -/

/-- The values whose check ends with a failure that is no fault. -/
inductive Strays (codecs : Codecs) : Setting → Value → Failure → Prop
  /-- A number of workers that is so far below one that it cannot be shown. -/
  | workers {i : Int} (h : i ≤ -10 ^ Text.digitLimit) : Strays codecs .workers (.int i) .longInteger
  /-- Anything with a long integer in it instead of a word. -/
  | verbosity {value : Value} (h : value.hasLongInteger = true) :
      Strays codecs .verbosity value .longInteger
  /-- A name with a null character. -/
  | encoding {name : String} (h : Char.ofNat 0 ∈ name.toList) :
      Strays codecs .encoding (.text name) .nullInEncoding
  /-- The name of an encoding in which nothing can be written. -/
  | unusable {name message : String} {codec : Codec} (hnull : Char.ofNat 0 ∉ name.toList)
      (hcodec : codecs name = some codec) (h : codec.defect? = some message) :
      Strays codecs .encoding (.text name) (.unusableEncoding message)

section

variable {codecs : Codecs}

theorem pow_digitLimit_pos : 0 < Nat.pow 10 Text.digitLimit := by
  rw [Nat.pow_eq]
  exact Nat.pow_pos (by decide)

theorem hasLongInteger_int_iff {i : Int} (h : i < 1) :
    (Value.int i).hasLongInteger = true ↔ i ≤ -10 ^ Text.digitLimit := by
  have hpos := pow_digitLimit_pos
  have hcast : (10 : Int) ^ Text.digitLimit = (Nat.pow 10 Text.digitLimit : Nat) := by
    generalize Text.digitLimit = digits
    exact (Int.natCast_pow 10 digits).symm
  rw [Value.hasLongInteger, decide_eq_true_iff, hcast]
  omega

/-- What is empty or zero can be shown. -/
theorem hasLongInteger_of_not_isTrue {value : Value} (h : value.isTrue = false) :
    value.hasLongInteger = false := by
  cases value with
  | int i =>
      have hzero : i = 0 := by simpa [Value.isTrue] using h
      rw [hzero, Value.hasLongInteger, decide_eq_false_iff_not]
      exact Nat.not_le.mpr pow_digitLimit_pos
  | list items =>
      cases items with
      | nil => rfl
      | cons item rest => cases h
  | table entries =>
      cases entries with
      | nil => rfl
      | cons entry rest => cases h
  | _ => rfl

theorem failureOf_of_strays {setting : Setting} {value : Value} {failure : Failure}
    (h : Strays codecs setting value failure) :
    failureOf codecs setting value = some failure ∧ asFault failure = failure := by
  cases h with
  | @workers i h =>
      have hpos : 0 < (10 : Int) ^ Text.digitLimit := Int.pow_pos (by decide)
      have hlow : i < 1 := by omega
      rw [failureOf_workers_of_ne_null (by simp), belowOne, decide_eq_true hlow]
      exact ⟨congrArg some (if_pos ((hasLongInteger_int_iff hlow).mpr h)), rfl⟩
  | verbosity h =>
      have hword : isVerbosity value = false := by
        cases value with
        | text word => cases h
        | _ => rfl
      rw [failureOf, hword]
      exact ⟨congrArg some (if_pos h), rfl⟩
  | @encoding name h =>
      rw [failureOf, encodingOf, if_pos (List.contains_iff_mem.mpr h)]
      exact ⟨rfl, rfl⟩
  | @unusable name message codec hnull hcodec h =>
      rw [failureOf, encodingOf, if_neg (mt List.contains_iff_mem.mp hnull), hcodec]
      exact ⟨congrArg (Option.map Failure.unusableEncoding) h, rfl⟩

theorem Strays.ne_fault {setting : Setting} {value : Value} {failure : Failure}
    (h : Strays codecs setting value failure) (fault : Fault) : failure ≠ .fault fault := by
  cases h <;> simp

theorem isReported_refusal {setting : Setting} {value : Value} {reason : String}
    (h : value.hasLongInteger = false) : IsReported (asFault (refusal setting value reason)) := by
  rw [refusal, h]
  exact isReported_invalidSetting _ _ _

theorem isReported_of_isTrue {setting : Setting} {value : Value} {reason : String}
    {failure : Failure}
    (h : (if value.isTrue then none else some (refusal setting value reason)) = some failure) :
    IsReported (asFault failure) := by
  split at h
  · cases h
  · next hempty =>
      cases h
      exact isReported_refusal (hasLongInteger_of_not_isTrue (by simpa using hempty))

/-- Any other value that does not pass is refused with a fault of the settings. -/
theorem isReported_of_not_strays {setting : Setting} {value : Value} {failure : Failure}
    (h : failureOf codecs setting value = some failure)
    (hstrays : ∀ other, ¬ Strays codecs setting value other) : IsReported (asFault failure) := by
  cases setting with
  | outputFile => exact isReported_of_isTrue h
  | extensions => exact isReported_of_isTrue h
  | fullFormat => cases h
  | logFile => cases h
  | workers =>
      cases value with
      | null => cases h
      | bool b =>
          cases b with
          | false =>
              cases h
              exact isReported_refusal rfl
          | true => cases h
      | int i =>
          by_cases hlow : i < 1
          · rw [failureOf_workers_of_ne_null (by simp), belowOne, decide_eq_true hlow] at h
            rw [← Option.some.inj h]
            refine isReported_refusal (Bool.eq_false_iff.mpr fun hlong => ?_)
            exact hstrays _ (.workers ((hasLongInteger_int_iff hlow).mp hlong))
          · rw [failureOf_workers_of_ne_null (by simp), belowOne, decide_eq_false hlow] at h
            cases h
      | float x =>
          rw [failureOf_workers_of_ne_null (by simp)] at h
          split at h
          · cases h
            exact isReported_refusal rfl
          · cases h
          · next hbelow => cases hbelow
      | _ =>
          cases h
          exact isReported_configuration _ _
  | verbosity =>
      rw [failureOf] at h
      split at h
      · cases h
      · cases h
        exact isReported_refusal (Bool.eq_false_iff.mpr fun hlong => hstrays _ (.verbosity hlong))
  | encoding =>
      cases value with
      | text name =>
          have hnull : Char.ofNat 0 ∉ name.toList := fun hnull => hstrays _ (.encoding hnull)
          rw [failureOf, encodingOf, if_neg (mt List.contains_iff_mem.mp hnull)] at h
          cases hcodec : codecs name with
          | none =>
              rw [hcodec] at h
              cases h
              exact isReported_refusal rfl
          | some codec =>
              rw [hcodec] at h
              obtain ⟨message, hdefect, -⟩ := Option.map_eq_some_iff.mp h
              exact absurd (.unusable hnull hcodec hdefect) (hstrays _)
      | _ =>
          cases h
          exact isReported_configuration _ _

end

/-! ## How loading ends -/

namespace Sources

/-- Does loading end with settings, or with a fault of the settings? -/
def Settles (sources : Sources) : Prop :=
  (∃ config, sources.load = .ok config) ∨
    ∃ failure, IsReported failure ∧ sources.load = .error failure

/-- The failures that end loading and are no faults. -/
inductive Escapes (sources : Sources) : Failure → Prop
  | missed {path : Files.Path} {refusal : Files.Refusal} (h : sources.Misses path refusal) :
      sources.Escapes (.refused refusal path.text)
  /-- The settings before this one are checked before it, and their values pass. -/
  | strays {config : Config} {before after : List Setting} {setting : Setting} {failure : Failure}
      (hhand : sources.Hand config) (horder : checkOrder = before ++ setting :: after)
      (hbefore : ∀ earlier ∈ before, Admits sources.codecs earlier (config.value earlier))
      (h : Strays sources.codecs setting (config.value setting) failure) : sources.Escapes failure

theorem load_of_firstFailure {sources : Sources} {config : Config} {failure : Failure}
    (hhand : sources.Hand config) (h : firstFailure sources.codecs config = some failure) :
    sources.load = .error (asFault failure) := by
  rw [load_of_hand hhand, check_eq, h]
  rfl

theorem load_of_escapes {sources : Sources} {failure : Failure} (h : sources.Escapes failure) :
    sources.load = .error failure := by
  cases h with
  | missed h => exact load_of_misses h
  | @strays config before after setting failure hhand horder hbefore h =>
      obtain ⟨hfailure, hasFault⟩ := failureOf_of_strays h
      have hfirst : firstFailure sources.codecs config = some failure :=
        firstFailure_eq_some_iff.mpr ⟨before, setting, after, horder, hfailure, hbefore⟩
      rw [load_of_firstFailure hhand hfirst, hasFault]

theorem ne_fault_of_escapes {sources : Sources} {failure : Failure} (h : sources.Escapes failure)
    (fault : Fault) : failure ≠ .fault fault := by
  cases h with
  | missed _ => simp
  | strays _ _ _ h => exact h.ne_fault fault

theorem settles_or_escapes (sources : Sources) :
    sources.Settles ∨ ∃ failure, sources.Escapes failure := by
  by_cases hhand : ∃ config, sources.Hand config
  · obtain ⟨config, hhand⟩ := hhand
    cases hfirst : firstFailure sources.codecs config with
    | none =>
        refine .inl (.inl ⟨config, ?_⟩)
        rw [load_of_hand hhand, check_eq, hfirst]
        rfl
    | some failure =>
        obtain ⟨before, setting, after, horder, hfailure, hbefore⟩ :=
          firstFailure_eq_some_iff.mp hfirst
        by_cases hstrays : ∃ other, Strays sources.codecs setting (config.value setting) other
        · obtain ⟨other, hstrays⟩ := hstrays
          exact .inr ⟨other, .strays hhand horder hbefore hstrays⟩
        · refine .inl (.inr ⟨asFault failure, ?_, load_of_firstFailure hhand hfirst⟩)
          exact isReported_of_not_strays hfailure (not_exists.mp hstrays)
  · rcases load_of_not_hand (not_exists.mp hhand) with hreported | ⟨path, refusal, hmisses⟩
    · exact .inl (.inr hreported)
    · exact .inr ⟨_, .missed hmisses⟩

/-- The sources of the settings of a command. -/
def ofCommand (world : CommandLine.World) (arguments : CommandLine.Arguments) : Sources where
  tree := world.tree
  environment := world.environment
  file := arguments.config
  options := CommandLine.overrides arguments
  codecs := world.codecs

theorem execute_of_load_error {world : CommandLine.World} {arguments : CommandLine.Arguments}
    {failure : Failure} (directory : Files.Path)
    (h : (ofCommand world arguments).load = .error failure) :
    CommandLine.execute world arguments directory =
      ({ tree := world.tree } : CommandLine.Result).failWith failure := by
  have hload : Settings.load world.tree world.environment arguments.config
      (CommandLine.overrides arguments) world.codecs = .error failure := h
  rw [CommandLine.execute, hload]

end Sources

/-- How loading ends, and what the command makes of it. -/
structure FailureAccount (sources : Sources) : Prop where
  settles_iff : sources.Settles ↔ ∀ failure, ¬ sources.Escapes failure
  escaped : ∀ failure, sources.Escapes failure → sources.load = .error failure
  /-- A fault is printed as an error. -/
  printed : ∀ world arguments, sources = .ofCommand world arguments →
    ∀ fault, sources.load = .error (.fault fault) → ∀ directory,
      CommandLine.execute world arguments directory =
        ({ tree := world.tree } : CommandLine.Result).fail fault.text 1
  /-- Anything else escapes from the command, and no error is printed. -/
  silent : ∀ world arguments, sources = .ofCommand world arguments →
    ∀ failure, sources.Escapes failure → ∀ directory,
      CommandLine.execute world arguments directory =
        { tree := world.tree, exitCode := 1, escaped := some failure }

theorem Sources.hand_of_project {tree : Files.Tree} {entries : List (String × Value)}
    (h : FileGives tree (projectFile tree) entries)
    (hkeys : ∀ key ∈ keysOf entries, key ∈ Setting.all.map Setting.key) :
    Sources.Hand { tree } (.ofValues (Config.valueIn entries)) := by
  refine ⟨entries, ⟨entries, [], [], ?_, rfl, rfl, rfl⟩, unknownKey?_eq_none_iff.mpr hkeys, rfl⟩
  exact h.loadIfThere_eq _

/-- A project whose file has one line. -/
def projectOf (line : String) : Sources where
  tree := { top := [("promise-metrics.toml", .file (Text.Utf8.encode line.toList))] }

/-- The line is what the project hands to the checks. -/
theorem hand_projectOf {line : String} {entries : List (String × Value)}
    (hread : (Text.Utf8.decodeStrict? (Text.Utf8.encode line.toList)).bind Toml.parse? =
      some entries)
    (hsection : entries.lookup sectionKey = none)
    (hkeys : ∀ key ∈ keysOf entries, key ∈ Setting.all.map Setting.key) :
    (projectOf line).Hand (.ofValues (Config.valueIn entries)) := by
  refine Sources.hand_of_project ⟨_, entries, rfl, hread, .inr ⟨rfl, fun inner hinner => ?_⟩⟩ hkeys
  rw [hsection] at hinner
  cases hinner

end JavaMetrics.Settings
