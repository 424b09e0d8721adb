import JavaMetrics.Proofs.Settings.Checks
import JavaMetrics.Proofs.Settings.DistinctKeys

/-!
# Layers of settings

The options of a call come before the environment, this before the file that was
asked for, this before the project's file, and all of them before the defaults.
`Sources.layers` has the four as functions, each from a setting to the value that
it gives to it, if any; `highest` is the value of the first one that gives any.

The sources are put together by assigning one table into another, so that the
later one stays. `valueIn_merged` says that this comes to the same: each table has
its keys once, that of a file because a document cannot define a key twice, that
of the environment because each variable is for another setting. What is then
under the key of a setting is the value of the highest layer, and nothing of the
lower ones is left to be checked.
-/

namespace JavaMetrics.Settings

theorem key_inj {first second : Setting} : first.key = second.key ↔ first = second := by
  cases first <;> cases second <;> decide

theorem mem_all (setting : Setting) : setting ∈ Setting.all := by
  cases setting <;> decide

/-! ## The environment -/

/-- The value that the environment gives to a setting. -/
def variableValue (environment : List (String × String)) (setting : Setting) : Option Value :=
  (environment.lookup setting.variableName).bind fun text =>
    (readVariable setting.kind text).toOption.join

/-- Can every variable that is set be read? -/
def VariablesRead (environment : List (String × String)) : Prop :=
  ∀ (setting : Setting) (text : String), environment.lookup setting.variableName = some text →
    ∃ value, readVariable setting.kind text = .ok value

/-- A value under the key of a setting, or nothing. -/
def entryOf (setting : Setting) (value : Option Value) : List (String × Value) :=
  value.toList.map fun value => (setting.key, value)

theorem variableOf_eq {environment : List (String × String)} (h : VariablesRead environment)
    (setting : Setting) :
    variableOf environment setting =
      .ok (entryOf setting (variableValue environment setting)) := by
  rw [variableOf, variableValue]
  cases hvariable : environment.lookup setting.variableName with
  | none => rfl
  | some text =>
      obtain ⟨value, hvalue⟩ := h setting text hvariable
      simp only [hvalue, Option.bind_some]
      cases value with
      | none => rfl
      | some value => rfl

theorem mapM_ok {α β : Type} {f : α → Except Failure β} {g : α → β} {items : List α}
    (h : ∀ item, f item = .ok (g item)) : items.mapM f = .ok (items.map g) := by
  induction items with
  | nil => rfl
  | cons item rest ih =>
      rw [List.mapM_cons, h item, ih]
      rfl

theorem environmentLayer_eq {environment : List (String × String)}
    (h : VariablesRead environment) :
    environmentLayer environment = .ok (Setting.all.flatMap fun setting =>
      entryOf setting (variableValue environment setting)) := by
  rw [environmentLayer, mapM_ok (variableOf_eq h), List.flatMap_def]
  rfl

section

variable (values : Setting → Option Value)

theorem mem_keysOf_entries {settings : List Setting} {key : String}
    (h : key ∈ keysOf (settings.flatMap fun setting => entryOf setting (values setting))) :
    ∃ setting ∈ settings, key = setting.key := by
  rw [keysOf, List.map_flatMap, List.mem_flatMap] at h
  obtain ⟨setting, hmem, hkey⟩ := h
  refine ⟨setting, hmem, ?_⟩
  rw [entryOf, List.map_map, List.mem_map] at hkey
  obtain ⟨value, -, rfl⟩ := hkey
  rfl

theorem nodup_entries {settings : List Setting} (h : settings.Nodup) :
    (keysOf (settings.flatMap fun setting => entryOf setting (values setting))).Nodup := by
  induction settings with
  | nil => exact List.nodup_nil
  | cons first rest ih =>
      rw [List.nodup_cons] at h
      rw [List.flatMap_cons]
      cases values first with
      | none => exact ih h.2
      | some value =>
          refine List.nodup_cons.mpr ⟨?_, ih h.2⟩
          intro hmem
          obtain ⟨setting, hsetting, heq⟩ := mem_keysOf_entries values hmem
          rw [key_inj.mp heq] at h
          exact h.1 hsetting

theorem lookup_entries (settings : List Setting) (setting : Setting) :
    (settings.flatMap fun setting => entryOf setting (values setting)).lookup setting.key =
      if setting ∈ settings then values setting else none := by
  induction settings with
  | nil => simp
  | cons first rest ih =>
      rw [List.flatMap_cons]
      cases hvalue : values first with
      | none =>
          refine ih.trans ?_
          by_cases hfirst : setting = first
          · simp [hfirst, hvalue]
          · simp [hfirst]
      | some value =>
          change ((first.key, value) :: _).lookup setting.key = _
          rw [lookup_cons_eq]
          by_cases hfirst : setting = first
          · simp [hfirst, hvalue]
          · rw [if_neg (fun heq => hfirst (key_inj.mp heq))]
            refine ih.trans ?_
            simp [hfirst]

end

/-! ## The options -/

/-- Does the value count as given? -/
def isGiven : Value → Bool
  | .null => false
  | _ => true

/-- The value that the options give to a setting. For how much is logged the two flags come first. -/
def optionValue (options : List (String × Value)) (setting : Setting) : Option Value :=
  if setting = .verbosity ∧ isFlagged options "quiet" = true then some (.text "quiet")
  else if setting = .verbosity ∧ isFlagged options "verbose" = true then some (.text "verbose")
  else (options.lookup setting.key).filter isGiven

theorem lookup_filter_key (p : String → Bool) (table : List (String × Value)) (key : String) :
    (table.filter fun entry => p entry.1).lookup key =
      if p key then table.lookup key else none := by
  induction table with
  | nil => simp
  | cons entry rest ih =>
      rw [List.filter_cons]
      by_cases hp : p entry.1 = true
      · rw [if_pos hp, lookup_cons_eq, lookup_cons_eq, ih]
        by_cases hkey : key = entry.1
        · rw [if_pos hkey, if_pos hkey, hkey, if_pos hp]
        · rw [if_neg hkey, if_neg hkey]
      · rw [if_neg hp, ih, lookup_cons_eq]
        by_cases hkey : key = entry.1
        · rw [hkey, if_neg hp, if_neg hp]
        · rw [if_neg hkey]

theorem lookup_filter_value (p : Value → Bool) {table : List (String × Value)} (key : String)
    (h : (keysOf table).Nodup) :
    (table.filter fun entry => p entry.2).lookup key = (table.lookup key).filter p := by
  induction table with
  | nil => rfl
  | cons entry rest ih =>
      rw [keysOf_cons, List.nodup_cons] at h
      rw [List.filter_cons, lookup_cons_eq]
      by_cases hkey : key = entry.1
      · rw [if_pos hkey]
        by_cases hp : p entry.2 = true
        · rw [if_pos hp, lookup_cons_eq, if_pos hkey, Option.filter_some, if_pos hp]
        · have hnone : rest.lookup key = none := by
            rw [lookup_eq_none, hkey]
            exact h.1
          rw [if_neg hp, ih h.2, hnone, Option.filter_some, if_neg hp]
          rfl
      · rw [if_neg hkey, ← ih h.2]
        split
        · rw [lookup_cons_eq, if_neg hkey]
        · rfl

theorem nodup_filter {p : String × Value → Bool} {table : List (String × Value)}
    (h : (keysOf table).Nodup) : (keysOf (table.filter p)).Nodup :=
  h.sublist (List.filter_sublist.map _)

/-- A flag stands for a setting of how much is logged. -/
def flagged (flag : Bool) (word : String) (table : List (String × Value)) :
    List (String × Value) :=
  if flag then assign Setting.verbosity.key (.text word) table else table

/-- The options apart from the flags. -/
def plainOptions (options : List (String × Value)) : List (String × Value) :=
  options.filter fun entry => entry.1 != "verbose" && entry.1 != "quiet"

theorem optionLayer_eq (options : List (String × Value)) :
    optionLayer options =
      (flagged (isFlagged options "quiet") "quiet"
        (flagged (isFlagged options "verbose") "verbose" (plainOptions options))).filter
        fun entry => isGiven entry.2 := by
  rfl

theorem lookup_flagged (flag : Bool) (word key : String) (table : List (String × Value)) :
    (flagged flag word table).lookup key =
      if key = Setting.verbosity.key ∧ flag = true then some (.text word)
      else table.lookup key := by
  rw [flagged]
  cases flag with
  | false => simp
  | true => simp [lookup_assign]

theorem nodup_flagged {flag : Bool} {word : String} {table : List (String × Value)}
    (h : (keysOf table).Nodup) : (keysOf (flagged flag word table)).Nodup := by
  rw [flagged]
  split
  · exact nodup_assign _ _ h
  · exact h

theorem nodup_optionLayer {options : List (String × Value)} (h : (keysOf options).Nodup) :
    (keysOf (optionLayer options)).Nodup := by
  rw [optionLayer_eq]
  exact nodup_filter (nodup_flagged (nodup_flagged (nodup_filter h)))

theorem lookup_optionLayer {options : List (String × Value)} (h : (keysOf options).Nodup)
    (setting : Setting) :
    (optionLayer options).lookup setting.key = optionValue options setting := by
  have hplain : (plainOptions options).lookup setting.key = options.lookup setting.key := by
    rw [plainOptions, lookup_filter_key fun key => key != "verbose" && key != "quiet"]
    cases setting <;> rfl
  have hnodup : (keysOf (plainOptions options)).Nodup := nodup_filter h
  rw [optionLayer_eq, lookup_filter_value isGiven _ (nodup_flagged (nodup_flagged hnodup)),
    lookup_flagged, lookup_flagged, hplain, optionValue]
  simp only [key_inj]
  split
  · rfl
  · split
    · rfl
    · rfl

/-- A key of the options that is no setting is one of those that are given and are no flag. -/
theorem mem_keysOf_optionLayer {options : List (String × Value)} {key : String}
    (hkey : key ∉ Setting.all.map Setting.key) :
    key ∈ keysOf (optionLayer options) ↔
      key ≠ "verbose" ∧ key ≠ "quiet" ∧ ∃ value, (key, value) ∈ options ∧ isGiven value = true := by
  have hverbosity : key ≠ Setting.verbosity.key := by
    rintro rfl
    exact hkey (List.mem_map_of_mem (mem_all .verbosity))
  have hflagged : ∀ (flag : Bool) (word : String) (value : Value) (table : List (String × Value)),
      (key, value) ∈ flagged flag word table ↔ (key, value) ∈ table := by
    intro flag word value table
    rw [flagged]
    split
    · exact mem_assign_of_ne hverbosity
    · exact Iff.rfl
  rw [optionLayer_eq, keysOf, List.mem_map]
  simp only [List.mem_filter, Prod.exists, exists_and_right, exists_eq_right, hflagged,
    plainOptions, Bool.and_eq_true, bne_iff_ne]
  constructor
  · rintro ⟨value, ⟨hmem, hverbose, hquiet⟩, hgiven⟩
    exact ⟨hverbose, hquiet, value, hmem, hgiven⟩
  · rintro ⟨hverbose, hquiet, value, hmem, hgiven⟩
    exact ⟨value, ⟨hmem, hverbose, hquiet⟩, hgiven⟩

/-! ## The files -/

/-- The entries that a document contributes: those of its section alone if it has one. -/
def Contributes (table entries : List (String × Value)) : Prop :=
  table.lookup sectionKey = some (.table entries) ∨
    entries = table ∧ ∀ inner, table.lookup sectionKey ≠ some (.table inner)

theorem contributes_iff {table entries : List (String × Value)} :
    Contributes table entries ↔ entries = sectionOf table := by
  rw [Contributes, sectionOf]
  split
  · next inner hinner =>
      rw [hinner]
      constructor
      · rintro (h | ⟨-, hnone⟩)
        · cases h
          rfl
        · exact absurd rfl (hnone inner)
      · rintro rfl
        exact .inl rfl
  · next hnone =>
      constructor
      · rintro (h | ⟨rfl, -⟩)
        · exact absurd h (hnone entries)
        · rfl
      · rintro rfl
        exact .inr ⟨rfl, hnone⟩

/-- Can the file be read as a document, and does it contribute these entries? -/
def FileGives (tree : Files.Tree) (path : Files.Path) (entries : List (String × Value)) : Prop :=
  ∃ bytes table, tree.read path = .ok bytes ∧
    (Text.Utf8.decodeStrict? bytes).bind Toml.parse? = some table ∧ Contributes table entries

theorem probe_of_read {tree : Files.Tree} {path : Files.Path} {bytes : List UInt8}
    (h : tree.read path = .ok bytes) : tree.probe path = .ok (some (.file bytes)) := by
  rw [Files.Tree.read] at h
  rw [Files.Tree.probe]
  split at h
  · cases h
  · next place hplace =>
      split at h
      · next hentry =>
          cases h
          rw [hplace]
          exact congrArg _ hentry
      · cases h
      · cases h

theorem fileGives_of_loadFile {tree : Files.Tree} {path : Files.Path}
    {entries : List (String × Value)} (h : loadFile tree path = .ok entries) :
    FileGives tree path entries := by
  rw [loadFile] at h
  split at h
  · cases h
  · next bytes hread =>
      split at h
      · next table hparse =>
          cases h
          exact ⟨bytes, table, hread, hparse, contributes_iff.mpr rfl⟩
      · cases h

theorem FileGives.loadFile_eq {tree : Files.Tree} {path : Files.Path}
    {entries : List (String × Value)} (h : FileGives tree path entries) :
    loadFile tree path = .ok entries := by
  obtain ⟨bytes, table, hread, hparse, hentries⟩ := h
  rw [loadFile, hread, contributes_iff.mp hentries]
  simp only [hparse]

theorem FileGives.loadIfThere_eq {tree : Files.Tree} {path : Files.Path}
    {entries : List (String × Value)} (h : FileGives tree path entries)
    (absent : Except Failure (List (String × Value))) :
    loadIfThere tree path absent = .ok entries := by
  have hloaded := h.loadFile_eq
  obtain ⟨bytes, -, hread, -, -⟩ := h
  rw [loadIfThere, probe_of_read hread]
  exact hloaded

theorem loadIfThere_ok {tree : Files.Tree} {path : Files.Path}
    {absent : Except Failure (List (String × Value))} {entries : List (String × Value)}
    (h : loadIfThere tree path absent = .ok entries) :
    tree.probe path = .ok none ∧ absent = .ok entries ∨ FileGives tree path entries := by
  rw [loadIfThere] at h
  split at h
  · cases h
  · next hprobe => exact .inl ⟨hprobe, h⟩
  · exact .inr (fileGives_of_loadFile h)

theorem FileGives.nodup {tree : Files.Tree} {path : Files.Path}
    {entries : List (String × Value)} (h : FileGives tree path entries) :
    (keysOf entries).Nodup := by
  obtain ⟨bytes, table, -, hparse, hentries⟩ := h
  obtain ⟨text, -, hparse⟩ := Option.bind_eq_some_iff.mp hparse
  have hkeyed := Toml.keyed_parse? hparse
  rcases hentries with hsection | ⟨rfl, -⟩
  · exact (Toml.keyed_table_iff.mp (Toml.keyed_of_lookup hkeyed hsection)).1
  · exact (Toml.keyed_table_iff.mp hkeyed).1

/-! ## All layers -/

namespace Sources

/-- Can all sources be read, with these entries from the files? -/
structure Readable (sources : Sources) (project explicit : List (String × Value)) : Prop where
  project : sources.tree.probe (projectFile sources.tree) = .ok none ∧ project = [] ∨
    FileGives sources.tree (projectFile sources.tree) project
  explicit : sources.file = none ∧ explicit = [] ∨
    ∃ path, sources.file = some path ∧ FileGives sources.tree path explicit
  environment : VariablesRead sources.environment
  /-- No option is given twice. -/
  options : (keysOf sources.options).Nodup

/-- What each layer gives to a setting, the highest layer first. -/
def layers (sources : Sources) (project explicit : List (String × Value)) :
    List (Setting → Option Value) :=
  [optionValue sources.options, variableValue sources.environment,
    fun setting => explicit.lookup setting.key, fun setting => project.lookup setting.key]

end Sources

/-- The value of the highest layer that gives one, or the default. -/
def highest (layers : List (Setting → Option Value)) (setting : Setting) : Value :=
  (layers.findSome? fun layer => layer setting).getD setting.default

/-- Do two lists of layers agree on a setting from the top down to the first layer that gives a value
to it? Below that they may have anything. -/
def AgreeAbove (setting : Setting) :
    List (Setting → Option Value) → List (Setting → Option Value) → Prop
  | [], [] => True
  | layer :: rest, layer' :: rest' =>
    layer setting = layer' setting ∧
      ((layer setting).isSome = true ∨ AgreeAbove setting rest rest')
  | _, _ => False

theorem highest_eq_of_agreeAbove {setting : Setting}
    {layers layers' : List (Setting → Option Value)} (h : AgreeAbove setting layers layers') :
    highest layers setting = highest layers' setting := by
  suffices heq : (layers.findSome? fun layer => layer setting) =
      layers'.findSome? fun layer => layer setting by
    rw [highest, highest, heq]
  induction layers generalizing layers' with
  | nil =>
      cases layers' with
      | nil => rfl
      | cons layer' rest' => exact h.elim
  | cons layer rest ih =>
      cases layers' with
      | nil => exact h.elim
      | cons layer' rest' =>
          rw [List.findSome?_cons, List.findSome?_cons, ← h.1]
          cases hvalue : layer setting with
          | some value => rfl
          | none =>
              refine ih (h.2.resolve_left ?_)
              simp [hvalue]

/-- The tables of all sources, put into one another. -/
def Sources.merged (sources : Sources) (project explicit : List (String × Value)) :
    List (String × Value) :=
  merge (merge (merge project explicit) (Setting.all.flatMap fun setting =>
    entryOf setting (variableValue sources.environment setting))) (optionLayer sources.options)

section

variable {sources : Sources} {project explicit : List (String × Value)}
  (h : sources.Readable project explicit)

include h

theorem projectLayer_eq : projectLayer sources.tree = .ok project := by
  rw [projectLayer]
  rcases h.project with ⟨hnone, rfl⟩ | hgives
  · rw [loadIfThere, hnone]
  · exact hgives.loadIfThere_eq _

theorem explicitLayer_eq : explicitLayer sources.tree sources.file = .ok explicit := by
  rcases h.explicit with ⟨hnone, rfl⟩ | ⟨path, hpath, hgives⟩
  · rw [hnone]
    rfl
  · rw [hpath, explicitLayer]
    exact hgives.loadIfThere_eq _

theorem nodup_explicit : (keysOf explicit).Nodup := by
  rcases h.explicit with ⟨-, rfl⟩ | ⟨path, -, hgives⟩
  · exact List.nodup_nil
  · exact hgives.nodup

theorem give_merged : sources.Give (sources.merged project explicit) :=
  ⟨project, explicit, _, projectLayer_eq h, explicitLayer_eq h,
    environmentLayer_eq h.environment, rfl⟩

/-- Under the key of a setting is the value of the highest layer. -/
theorem valueIn_merged : Config.valueIn (sources.merged project explicit) =
    highest (sources.layers project explicit) := by
  funext setting
  rw [Config.valueIn, Sources.merged, lookup_merge _ _ (nodup_optionLayer h.options),
    lookup_merge _ _ (nodup_entries _ (by decide)), lookup_merge _ _ (nodup_explicit h),
    lookup_optionLayer h.options, lookup_entries, if_pos (mem_all setting), highest]
  congr 1
  simp only [Sources.layers, List.findSome?_cons, List.findSome?_nil]
  cases optionValue sources.options setting with
  | some value => rfl
  | none =>
      cases variableValue sources.environment setting with
      | some value => rfl
      | none =>
          cases explicit.lookup setting.key with
          | some value => rfl
          | none => cases project.lookup setting.key <;> rfl

end

/-! ## Keys that are no settings -/

/-- Is it no setting, but a key of a file or of an option that is given and no flag? -/
def Sources.Foreign (sources : Sources) (project explicit : List (String × Value))
    (key : String) : Prop :=
  key ∉ Setting.all.map Setting.key ∧
    (key ∈ keysOf project ∨ key ∈ keysOf explicit ∨
      key ≠ "verbose" ∧ key ≠ "quiet" ∧
        ∃ value, (key, value) ∈ sources.options ∧ isGiven value = true)

theorem mem_keysOf_merged {sources : Sources} {project explicit : List (String × Value)}
    {key : String} (hkey : key ∉ Setting.all.map Setting.key) :
    key ∈ keysOf (sources.merged project explicit) ↔ sources.Foreign project explicit key := by
  have henvironment : key ∉ keysOf (Setting.all.flatMap fun setting =>
      entryOf setting (variableValue sources.environment setting)) := by
    intro hmem
    obtain ⟨setting, hsetting, rfl⟩ := mem_keysOf_entries _ hmem
    exact hkey (List.mem_map_of_mem hsetting)
  rw [Sources.merged, mem_keysOf_merge, mem_keysOf_merge, mem_keysOf_merge,
    mem_keysOf_optionLayer hkey, Sources.Foreign]
  simp only [henvironment, or_false, hkey, not_false_eq_true, true_and, or_assoc]

theorem unknownKey?_eq_none_iff {table : List (String × Value)} :
    Config.unknownKey? table = none ↔
      ∀ key ∈ keysOf table, key ∈ Setting.all.map Setting.key := by
  rw [Config.unknownKey?, List.find?_eq_none]
  simp only [Bool.not_eq_true', Bool.not_eq_false, List.contains_iff_mem]
  exact Iff.rfl

theorem foreign_of_unknownKey? {sources : Sources} {project explicit : List (String × Value)}
    {key : String}
    (h : Config.unknownKey? (sources.merged project explicit) = some key) :
    sources.Foreign project explicit key := by
  have hmem := List.mem_of_find?_eq_some h
  have hkey := List.find?_some h
  rw [Bool.not_eq_true', ← Bool.not_eq_true, List.contains_iff_mem] at hkey
  exact (mem_keysOf_merged hkey).mp hmem

/-! ## The settings that are loaded -/

/-- What is loaded from sources that can be read. -/
structure LayerAccount (sources : Sources) (project explicit : List (String × Value)) :
    Prop where
  /-- A key that is no setting is a fault of the settings, and one such key is named. -/
  foreign : (∃ key, sources.Foreign project explicit key) →
    ∃ key, sources.Foreign project explicit key ∧
      sources.load = .error (.fault (.configuration
        s!"Invalid configuration: {(Failure.unknownSetting key).message}" []))
  /-- Else the settings are checked with the value of the highest layer for each. -/
  handed : (∀ key, ¬ sources.Foreign project explicit key) →
    sources.load =
      (Config.check (.ofValues (highest (sources.layers project explicit)))
        sources.codecs).mapError asFault
  /-- Values below the highest one that is given may be replaced by any others. -/
  shadowed : (∀ key, ¬ sources.Foreign project explicit key) →
    ∀ (other : Sources) (project' explicit' : List (String × Value)),
      other.codecs = sources.codecs → other.Readable project' explicit' →
        (∀ key, ¬ other.Foreign project' explicit' key) →
        (∀ setting, AgreeAbove setting (sources.layers project explicit)
          (other.layers project' explicit')) → other.load = sources.load

theorem Sources.Readable.hand {sources : Sources} {project explicit : List (String × Value)}
    (h : sources.Readable project explicit)
    (hknown : ∀ key, ¬ sources.Foreign project explicit key) :
    sources.Hand (.ofValues (highest (sources.layers project explicit))) := by
  refine ⟨_, give_merged h, ?_, by rw [valueIn_merged h]⟩
  rw [unknownKey?_eq_none_iff]
  intro key hmem
  by_contra hkey
  exact hknown key ((mem_keysOf_merged hkey).mp hmem)

/-- Each setting has the value of the highest layer that gives one to it. -/
theorem settings_of_highest_layer (sources : Sources) (project explicit : List (String × Value))
    (h : sources.Readable project explicit) : LayerAccount sources project explicit where
  foreign := by
    rintro ⟨key, hforeign⟩
    cases hunknown : Config.unknownKey? (sources.merged project explicit) with
    | none =>
        have hmem := (mem_keysOf_merged hforeign.1).mpr hforeign
        exact absurd (unknownKey?_eq_none_iff.mp hunknown key hmem) hforeign.1
    | some first =>
        exact ⟨first, foreign_of_unknownKey? hunknown,
          Sources.load_of_unknownKey (give_merged h) hunknown⟩
  handed hknown := Sources.load_of_hand (h.hand hknown)
  shadowed hknown other project' explicit' hcodecs hother hknown' hagree := by
    rw [Sources.load_of_hand (h.hand hknown), Sources.load_of_hand (hother.hand hknown')]
    have hvalues : highest (other.layers project' explicit') =
        highest (sources.layers project explicit) := by
      funext setting
      exact (highest_eq_of_agreeAbove (hagree setting)).symm
    rw [hvalues, hcodecs]

/-! Two files, a variable and two options. The project's file has a number of workers that the checks
would refuse, and the options a word for how much is logged, but neither is the highest. -/

def fourSources : Sources where
  tree := { top := [
    ("promise-metrics.toml", .file (Text.Utf8.encode "workers = 0\n".toList)),
    ("more.toml", .file (Text.Utf8.encode "[promise-metrics]\nencoding = \"ascii\"\n".toList))] }
  environment := [("PROMISE_METRICS_WORKERS", "2")]
  file := some (.ofText "more.toml")
  options := [("verbosity", .text "loud"), ("quiet", .bool true)]

theorem variablesRead_fourSources : VariablesRead fourSources.environment := by
  have hvariables : ∀ setting ∈ Setting.all,
      fourSources.environment.lookup setting.variableName =
        if setting = .workers then some "2" else none := by
    decide +kernel
  intro setting text htext
  rw [hvariables setting (mem_all setting)] at htext
  split at htext
  · next hworkers =>
      cases htext
      rw [hworkers]
      exact ⟨_, rfl⟩
  · cases htext

theorem readable_fourSources :
    fourSources.Readable [("workers", .int 0)] [("encoding", .text "ascii")] where
  project := by
    refine .inr ⟨_, [("workers", .int 0)], rfl, ?_, .inr ⟨rfl, fun inner h => by cases h⟩⟩
    exact eq_some_of_sameEntries (by decide +kernel)
  explicit := by
    refine .inr ⟨_, rfl, _, [("promise-metrics", .table [("encoding", .text "ascii")])], rfl, ?_,
      .inl rfl⟩
    exact eq_some_of_sameEntries (by decide +kernel)
  environment := variablesRead_fourSources
  options := by decide

theorem settings_of_four_sources :
    fourSources.Readable [("workers", .int 0)] [("encoding", .text "ascii")] ∧
      fourSources.load =
        .ok { workers := .int 2, encoding := .text "ascii", verbosity := .text "quiet" } := by
  have hknown : ∀ key,
      ¬ fourSources.Foreign [("workers", .int 0)] [("encoding", .text "ascii")] key := by
    rintro key ⟨hkey, hproject | hexplicit | ⟨hverbose, hquiet, value, hmem, -⟩⟩
    · rw [List.mem_singleton.mp hproject] at hkey
      exact hkey (by decide)
    · rw [List.mem_singleton.mp hexplicit] at hkey
      exact hkey (by decide)
    · rcases List.mem_cons.mp hmem with h | h
      · cases h
        exact hkey (by decide)
      · cases List.mem_singleton.mp h
        exact hquiet rfl
  have haccount := settings_of_highest_layer _ _ _ readable_fourSources
  exact ⟨readable_fourSources, haccount.handed hknown⟩

end JavaMetrics.Settings
