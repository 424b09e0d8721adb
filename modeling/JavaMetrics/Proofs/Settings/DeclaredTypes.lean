import JavaMetrics.Proofs.Settings.Refusals

/-!
# Types of settings

Every setting is declared with a type, and a variable of the environment is read
as a value of that type. A value from a file is not: the checks look at it, and
what they look at is only whether it is empty, whether it is below one, whether it
is one of some words and whether it names an encoding. `Admits` says which values
pass for that reason, `Declared` which have the type of their setting.

A value can be used as it was meant if it passes and has its type
(`usable_iff`). So settings that were loaded can be used if and only if their
values have their types, and the values that do not are those of a file
(`loaded_settings_usable_iff`).
-/

namespace JavaMetrics.Settings

open Text (Codecs)

/-! ## What was declared -/

/-- The values of a kind. -/
def OfKind : Kind → Value → Prop
  | .text, value => ∃ text, value = .text text
  | .choice, value => ∃ word, value = .text word
  | .boolean, value => ∃ b, value = .bool b
  | .integer, value => ∃ i, value = .int i
  | .list, value => ∃ texts : List String, value = .list (texts.map .text)
  | .other, _ => False

/-- May the setting have no value? -/
def Setting.isOptional : Setting → Bool
  | .workers => true
  | .logFile => true
  | _ => false

/-- Is the value of the type that the setting was declared with? -/
def Declared (setting : Setting) (value : Value) : Prop :=
  OfKind setting.kind value ∨ setting.isOptional = true ∧ value = .null

/-- Can the setting be used with this value as it was meant? -/
def Usable (codecs : Codecs) : Setting → Value → Prop
  | .outputFile, value => ∃ text, value = .text text ∧ text ≠ ""
  | .fullFormat, value => ∃ b, value = .bool b
  | .workers, value => value = .null ∨ ∃ i : Int, value = .int i ∧ 1 ≤ i
  | .extensions, value => ∃ texts : List String, value = .list (texts.map .text) ∧ texts ≠ []
  | .encoding, value => ∃ name codec, value = .text name ∧ Char.ofNat 0 ∉ name.toList ∧
      codecs name = some codec ∧ codec.defect? = none
  | .verbosity, value => ∃ word ∈ verbosities, value = .text word
  | .logFile, value => value = .null ∨ ∃ text, value = .text text

theorem declared_iff_ofKind {setting : Setting} {value : Value}
    (h : setting.isOptional = false) : Declared setting value ↔ OfKind setting.kind value := by
  simp [Declared, h]

theorem usable_iff {codecs : Codecs} {setting : Setting} {value : Value} :
    Usable codecs setting value ↔ Admits codecs setting value ∧ Declared setting value := by
  cases setting with
  | outputFile =>
      rw [declared_iff_ofKind rfl]
      constructor
      · rintro ⟨text, rfl, hne⟩
        exact ⟨by simpa [Admits, Value.isTrue] using hne, text, rfl⟩
      · rintro ⟨hpass, text, rfl⟩
        exact ⟨text, rfl, by simpa [Admits, Value.isTrue] using hpass⟩
  | fullFormat =>
      rw [declared_iff_ofKind rfl]
      exact (and_iff_right trivial).symm
  | workers =>
      constructor
      · rintro (rfl | ⟨i, rfl, hi⟩)
        · exact ⟨.inl rfl, .inr ⟨rfl, rfl⟩⟩
        · exact ⟨.inr (.inr (.inl ⟨i, rfl, hi⟩)), .inl ⟨i, rfl⟩⟩
      · rintro ⟨hpass, ⟨i, rfl⟩ | ⟨-, rfl⟩⟩
        · exact .inr ⟨i, rfl, by simpa [Admits] using hpass⟩
        · exact .inl rfl
  | extensions =>
      rw [declared_iff_ofKind rfl]
      constructor
      · rintro ⟨texts, rfl, hne⟩
        exact ⟨by simpa [Admits, Value.isTrue] using hne, texts, rfl⟩
      · rintro ⟨hpass, texts, rfl⟩
        exact ⟨texts, rfl, by simpa [Admits, Value.isTrue] using hpass⟩
  | encoding =>
      rw [declared_iff_ofKind rfl]
      refine (and_iff_left_of_imp ?_).symm
      rintro ⟨name, codec, rfl, -, -⟩
      exact ⟨name, rfl⟩
  | verbosity =>
      rw [declared_iff_ofKind rfl]
      refine (and_iff_left_of_imp ?_).symm
      rintro ⟨word, -, rfl⟩
      exact ⟨word, rfl⟩
  | logFile =>
      constructor
      · rintro (rfl | h)
        · exact ⟨trivial, .inr ⟨rfl, rfl⟩⟩
        · exact ⟨trivial, .inl h⟩
      · rintro ⟨-, h | ⟨-, h⟩⟩
        · exact .inr h
        · exact .inl h

/-! ## Values that have their types -/

theorem declared_default (setting : Setting) : Declared setting setting.default := by
  cases setting with
  | outputFile => exact .inl ⟨_, rfl⟩
  | fullFormat => exact .inl ⟨_, rfl⟩
  | workers => exact .inr ⟨rfl, rfl⟩
  | extensions => exact .inl ⟨[".java"], rfl⟩
  | encoding => exact .inl ⟨_, rfl⟩
  | verbosity => exact .inl ⟨_, rfl⟩
  | logFile => exact .inr ⟨rfl, rfl⟩

theorem ofKind_of_readVariable {kind : Kind} {text : String} {value : Value}
    (h : readVariable kind text = .ok (some value)) : OfKind kind value := by
  cases kind with
  | text =>
      cases h
      exact ⟨text, rfl⟩
  | choice =>
      cases h
      exact ⟨text, rfl⟩
  | list =>
      cases h
      exact ⟨listItems text, rfl⟩
  | other => cases h
  | boolean =>
      rw [readVariable] at h
      cases hread : readBoolean text with
      | error failure =>
          rw [hread] at h
          cases h
      | ok b =>
          rw [hread] at h
          cases h
          exact ⟨b, rfl⟩
  | integer =>
      rw [readVariable] at h
      split at h
      · next i _ =>
          cases h
          exact ⟨i, rfl⟩
      · cases h
      · cases h

theorem declared_of_variableValue {environment : List (String × String)} {setting : Setting}
    {value : Value} (h : variableValue environment setting = some value) :
    Declared setting value := by
  rw [variableValue] at h
  obtain ⟨text, -, h⟩ := Option.bind_eq_some_iff.mp h
  cases hread : readVariable setting.kind text with
  | error failure =>
      rw [hread] at h
      cases h
  | ok found =>
      rw [hread] at h
      cases h
      exact .inl (ofKind_of_readVariable hread)

theorem ofKind_of_overrides {arguments : CommandLine.Arguments} {setting : Setting}
    {value : Value} (h : (CommandLine.overrides arguments).lookup setting.key = some value) :
    value = .null ∨ OfKind setting.kind value := by
  cases setting with
  | outputFile =>
      cases h
      cases arguments.output with
      | none => exact .inl rfl
      | some path => exact .inr ⟨_, rfl⟩
  | fullFormat =>
      cases h
      cases arguments.fullFormat with
      | false => exact .inl rfl
      | true => exact .inr ⟨_, rfl⟩
  | workers =>
      cases h
      cases arguments.workers with
      | none => exact .inl rfl
      | some number => exact .inr ⟨_, rfl⟩
  | logFile =>
      cases h
      cases arguments.logFile with
      | none => exact .inl rfl
      | some path => exact .inr ⟨_, rfl⟩
  | _ => cases h

/-- What the arguments of a command give to a setting has the type of the setting. -/
theorem declared_of_overrides {arguments : CommandLine.Arguments} {setting : Setting}
    {value : Value} (h : optionValue (CommandLine.overrides arguments) setting = some value) :
    Declared setting value := by
  rw [optionValue] at h
  split at h
  · next hquiet =>
      cases h
      rw [hquiet.1]
      exact .inl ⟨_, rfl⟩
  · split at h
    · next hverbose =>
        cases h
        rw [hverbose.1]
        exact .inl ⟨_, rfl⟩
    · obtain ⟨hlookup, hgiven⟩ := Option.filter_eq_some_iff.mp h
      rcases ofKind_of_overrides hlookup with rfl | hkind
      · cases hgiven
      · exact .inl hkind

/-! ## Where the values come from -/

theorem readable_of_projectLayer {tree : Files.Tree} {entries : List (String × Value)}
    (h : projectLayer tree = .ok entries) :
    tree.probe (projectFile tree) = .ok none ∧ entries = [] ∨
      FileGives tree (projectFile tree) entries := by
  rcases loadIfThere_ok h with ⟨hprobe, hentries⟩ | hgives
  · cases hentries
    exact .inl ⟨hprobe, rfl⟩
  · exact .inr hgives

theorem readable_of_explicitLayer {tree : Files.Tree} {file : Option Files.Path}
    {entries : List (String × Value)} (h : explicitLayer tree file = .ok entries) :
    file = none ∧ entries = [] ∨ ∃ path, file = some path ∧ FileGives tree path entries := by
  cases file with
  | none =>
      cases h
      exact .inl ⟨rfl, rfl⟩
  | some path =>
      rcases loadIfThere_ok h with ⟨-, hentries⟩ | hgives
      · cases hentries
      · exact .inr ⟨path, rfl, hgives⟩

theorem ok_of_mapM {α β : Type} {f : α → Except Failure β} {items : List α} {results : List β}
    (h : items.mapM f = .ok results) {item : α} (hmem : item ∈ items) :
    ∃ result, f item = .ok result := by
  induction items generalizing results with
  | nil => cases hmem
  | cons first rest ih =>
      rw [List.mapM_cons] at h
      cases hfirst : f first with
      | error failure =>
          rw [hfirst] at h
          cases h
      | ok result =>
          cases hrest : rest.mapM f with
          | error failure =>
              rw [hfirst, hrest] at h
              cases h
          | ok others =>
              rcases List.mem_cons.mp hmem with rfl | hmem
              · exact ⟨result, hfirst⟩
              · exact ih hrest hmem

theorem variablesRead_of_environmentLayer {environment : List (String × String)}
    {entries : List (String × Value)} (h : environmentLayer environment = .ok entries) :
    VariablesRead environment := by
  rw [environmentLayer] at h
  cases hfound : Setting.all.mapM (variableOf environment) with
  | error failure =>
      rw [hfound] at h
      cases h
  | ok found =>
      intro setting text htext
      obtain ⟨given, hgiven⟩ := ok_of_mapM hfound (mem_all setting)
      rw [variableOf, htext] at hgiven
      cases hread : readVariable setting.kind text with
      | ok value => exact ⟨value, rfl⟩
      | error failure =>
          simp only [hread] at hgiven
          cases hgiven

/-- What is handed to the checks has the values of the highest layers. -/
theorem Sources.Hand.readable {sources : Sources} {config : Config} (h : sources.Hand config)
    (hoptions : (keysOf sources.options).Nodup) :
    ∃ project explicit, sources.Readable project explicit ∧
      config = .ofValues (highest (sources.layers project explicit)) := by
  obtain ⟨table, ⟨project, explicit, given, hproject, hexplicit, hgiven, rfl⟩, -, rfl⟩ := h
  have hreadable : sources.Readable project explicit :=
    ⟨readable_of_projectLayer hproject, readable_of_explicitLayer hexplicit,
      variablesRead_of_environmentLayer hgiven, hoptions⟩
  refine ⟨project, explicit, hreadable, ?_⟩
  rw [environmentLayer_eq hreadable.environment] at hgiven
  cases hgiven
  rw [← valueIn_merged hreadable]
  rfl

theorem nodup_overrides (arguments : CommandLine.Arguments) :
    (keysOf (CommandLine.overrides arguments)).Nodup := by
  have hkeys : keysOf (CommandLine.overrides arguments) =
      ["output_file", "full_format", "workers", "log_file", "verbose", "quiet"] := rfl
  rw [hkeys]
  decide

theorem layer_of_highest (layers : List (Setting → Option Value)) (setting : Setting) :
    (∃ layer ∈ layers, layer setting = some (highest layers setting)) ∨
      highest layers setting = setting.default := by
  rw [highest]
  cases hfound : layers.findSome? fun layer => layer setting with
  | none => exact .inr rfl
  | some value => exact .inl (List.exists_of_findSome?_eq_some hfound)

/-- A value of a wrong type comes from one of the files. -/
theorem file_of_not_declared {world : CommandLine.World} {arguments : CommandLine.Arguments}
    {config : Config} (h : (Sources.ofCommand world arguments).Hand config) {setting : Setting}
    (hnot : ¬ Declared setting (config.value setting)) :
    ∃ path entries, (path = projectFile world.tree ∨ arguments.config = some path) ∧
      FileGives world.tree path entries ∧
        entries.lookup setting.key = some (config.value setting) := by
  obtain ⟨project, explicit, hreadable, rfl⟩ := h.readable (nodup_overrides arguments)
  rw [Config.value_ofValues] at hnot ⊢
  rcases layer_of_highest ((Sources.ofCommand world arguments).layers project explicit) setting with
    ⟨layer, hmem, hlayer⟩ | hdefault
  · simp only [Sources.layers, List.mem_cons, List.not_mem_nil, or_false] at hmem
    rcases hmem with rfl | rfl | rfl | rfl
    · exact absurd (declared_of_overrides hlayer) hnot
    · exact absurd (declared_of_variableValue hlayer) hnot
    · rcases hreadable.explicit with ⟨-, rfl⟩ | ⟨path, hpath, hgives⟩
      · cases hlayer
      · exact ⟨path, explicit, .inr hpath, hgives, hlayer⟩
    · rcases hreadable.project with ⟨-, rfl⟩ | hgives
      · cases hlayer
      · exact ⟨_, project, .inl rfl, hgives, hlayer⟩
  · rw [hdefault] at hnot
    exact absurd (declared_default setting) hnot

/-! ## Settings that were loaded -/

theorem load_eq_ok_iff {sources : Sources} {config : Config} :
    sources.load = .ok config ↔
      sources.Hand config ∧ ∀ setting, Admits sources.codecs setting (config.value setting) := by
  constructor
  · intro h
    by_cases hhand : ∃ handed, sources.Hand handed
    · obtain ⟨handed, hhand⟩ := hhand
      rw [Sources.load_of_hand hhand] at h
      cases hcheck : handed.check sources.codecs with
      | error failure =>
          rw [hcheck] at h
          cases h
      | ok checked =>
          rw [hcheck] at h
          cases h
          obtain ⟨rfl, hpass⟩ := check_eq_ok_iff.mp hcheck
          exact ⟨hhand, hpass⟩
    · rcases Sources.load_of_not_hand (not_exists.mp hhand) with
        ⟨failure, -, herror⟩ | ⟨path, refusal, hmisses⟩
      · rw [herror] at h
        cases h
      · rw [Sources.load_of_misses hmisses] at h
        cases h
  · rintro ⟨hhand, hpass⟩
    rw [Sources.load_of_hand hhand, check_eq_ok_iff.mpr ⟨rfl, hpass⟩]
    rfl

/-- What is known of settings that were loaded. -/
structure TypeAccount (sources : Sources) (config : Config) : Prop where
  /-- They are loaded as they are handed to the checks, if their values pass. -/
  loaded_iff : sources.load = .ok config ↔
    sources.Hand config ∧ ∀ setting, Admits sources.codecs setting (config.value setting)
  /-- A setting can be used if and only if its value has the declared type. -/
  usable_iff : sources.load = .ok config → ∀ setting,
    (Usable sources.codecs setting (config.value setting) ↔
      Declared setting (config.value setting))
  /-- Of two settings the checks leave only values that can be used. -/
  checked : sources.load = .ok config →
    Usable sources.codecs .encoding config.encoding ∧
      Usable sources.codecs .verbosity config.verbosity
  /-- A value that cannot be used is that of a file, if the options are those of a command. -/
  origin : ∀ world arguments, sources = .ofCommand world arguments →
    sources.load = .ok config → ∀ setting,
      ¬ Usable sources.codecs setting (config.value setting) →
      ∃ path entries, (path = projectFile world.tree ∨ arguments.config = some path) ∧
        FileGives world.tree path entries ∧
          entries.lookup setting.key = some (config.value setting)

/-- Settings that were loaded can be used if and only if their values have their types. -/
theorem loaded_settings_usable_iff (sources : Sources) (config : Config) :
    TypeAccount sources config := by
  have husable : sources.load = .ok config → ∀ setting,
      (Usable sources.codecs setting (config.value setting) ↔
        Declared setting (config.value setting)) := by
    intro hload setting
    rw [usable_iff]
    exact and_iff_right ((load_eq_ok_iff.mp hload).2 setting)
  refine ⟨load_eq_ok_iff, husable, ?_, ?_⟩
  · intro hload
    have hpass := (load_eq_ok_iff.mp hload).2
    exact ⟨hpass .encoding, hpass .verbosity⟩
  · rintro world arguments rfl hload setting hnot
    rw [husable hload] at hnot
    exact file_of_not_declared (load_eq_ok_iff.mp hload).1 hnot

/-- A text passes as the choice of the layout. -/
theorem text_kept_as_fullFormat :
    (projectOf "full_format = \"false\"\n").load = .ok { fullFormat := .text "false" } ∧
      ∀ codecs, ¬ Usable codecs .fullFormat (.text "false") := by
  have hhand : (projectOf "full_format = \"false\"\n").Hand (.ofValues (Config.valueIn
      [("full_format", .text "false")])) :=
    hand_projectOf (eq_some_of_sameEntries (by decide +kernel)) rfl (by decide)
  refine ⟨Sources.load_of_hand hhand, ?_⟩
  rintro codecs ⟨b, hb⟩
  cases hb

end JavaMetrics.Settings
