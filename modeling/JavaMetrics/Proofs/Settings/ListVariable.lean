import JavaMetrics.Proofs.Settings.Refusals
import JavaMetrics.Proofs.Text.Pieces

/-!
# A list in a variable

A variable of the environment can give the list of the suffixes. Its items are written
with commas between them, blanks around them do not count, and neither do pieces with
nothing but blanks. `ItemsOf` says which items some pieces hold, as a relation, so that
it can be read both ways: from a text to its items, and from some items to all the
texts that hold them. `itemsOf_iff` says that the items which are read are the ones.

Joining items with commas and reading the text again gives the same items, with any
blanks around them and any blank pieces in between. What is read becomes the value of
the setting as soon as no option is given for it (`highest_extensions`), and the check
of the settings lets every list pass but the empty one.
-/

namespace JavaMetrics.Settings

/-! ## Items and pieces -/

/-- Is the text an item of a list: not empty, without commas, and with no blank at either end? -/
structure IsItem (item : String) : Prop where
  ne_empty : item ≠ ""
  noComma : ',' ∉ item.toList
  first : ∀ c ∈ item.toList.head?, Text.isBlank c = false
  last : ∀ c ∈ item.toList.getLast?, Text.isBlank c = false

/-- Is there nothing but blanks in the text? -/
def IsBlankText (text : String) : Prop :=
  ∀ c ∈ text.toList, Text.isBlank c = true

/-- Are these the pieces of a text between its commas? -/
structure CutAtCommas (text : String) (pieces : List String) : Prop where
  ne_nil : pieces ≠ []
  noComma : ∀ piece ∈ pieces, ',' ∉ piece.toList
  joined : ",".intercalate pieces = text

/-- Do some pieces hold these items, with blanks around them and blank pieces in between? -/
inductive ItemsOf : List String → List String → Prop
  | nil : ItemsOf [] []
  | blank {piece : String} {pieces items : List String} (hpiece : IsBlankText piece)
      (rest : ItemsOf pieces items) : ItemsOf (piece :: pieces) items
  | item {lead item trail : String} {pieces items : List String} (hlead : IsBlankText lead)
      (hitem : IsItem item) (htrail : IsBlankText trail) (rest : ItemsOf pieces items) :
      ItemsOf ((lead ++ item ++ trail) :: pieces) (item :: items)

/-- What is read from some pieces. -/
def itemsIn (pieces : List String) : List String :=
  ((pieces.map fun piece => Text.strip piece.toList).filter fun item => !item.isEmpty).map
    String.ofList

theorem itemsIn_cons_of_blank {piece : String} (h : IsBlankText piece) (pieces : List String) :
    itemsIn (piece :: pieces) = itemsIn pieces := by
  have hstrip : Text.strip piece.toList = [] := Text.trimBoth_eq_nil_iff.mpr h
  simp [itemsIn, hstrip]

theorem itemsIn_cons_of_strip {piece item : String}
    (hstrip : Text.strip piece.toList = item.toList) (hitem : item ≠ "") (pieces : List String) :
    itemsIn (piece :: pieces) = item :: itemsIn pieces := by
  simp [itemsIn, hstrip, hitem]

theorem IsItem.strip_eq {lead item trail : String} (hitem : IsItem item)
    (hlead : IsBlankText lead) (htrail : IsBlankText trail) :
    Text.strip (lead ++ item ++ trail).toList = item.toList := by
  rw [String.toList_append, String.toList_append, Text.strip, Text.trimBoth_append_right htrail,
    Text.trimBoth_append_left hlead, Text.trimBoth_eq_self hitem.first hitem.last]

/-- A piece is blank, or it is an item with blanks around it. -/
theorem blank_or_item {piece : String} (h : ',' ∉ piece.toList) :
    IsBlankText piece ∨ ∃ lead item trail, piece = lead ++ item ++ trail ∧
      IsBlankText lead ∧ IsItem item ∧ IsBlankText trail := by
  by_cases hblank : IsBlankText piece
  · exact .inl hblank
  · obtain ⟨lead, trail, hpiece, hlead, htrail⟩ := Text.exists_trimBoth Text.isBlank piece.toList
    have hne : Text.trimBoth Text.isBlank piece.toList ≠ [] := fun hnil =>
      hblank (Text.trimBoth_eq_nil_iff.mp hnil)
    refine .inr ⟨.ofList lead, .ofList (Text.trimBoth Text.isBlank piece.toList), .ofList trail,
      ?_, ?_, ⟨?_, ?_, ?_, ?_⟩, ?_⟩
    · rw [← String.toList_inj]
      simpa using hpiece
    · simpa [IsBlankText] using hlead
    · simpa using hne
    · rw [String.toList_ofList]
      exact fun hmem => h (Text.mem_of_mem_trimBoth hmem)
    · rw [String.toList_ofList]
      exact fun c hc => Text.head?_trimBoth hc
    · rw [String.toList_ofList]
      exact fun c hc => Text.getLast?_trimBoth hc
    · simpa [IsBlankText] using htrail

theorem itemsIn_of_itemsOf {pieces items : List String} (h : ItemsOf pieces items) :
    itemsIn pieces = items := by
  induction h with
  | nil => rfl
  | blank hpiece _ ih => rw [itemsIn_cons_of_blank hpiece, ih]
  | item hlead hitem htrail _ ih =>
      rw [itemsIn_cons_of_strip (hitem.strip_eq hlead htrail) hitem.ne_empty, ih]

theorem itemsOf_itemsIn {pieces : List String} (h : ∀ piece ∈ pieces, ',' ∉ piece.toList) :
    ItemsOf pieces (itemsIn pieces) := by
  induction pieces with
  | nil => exact .nil
  | cons piece pieces ih =>
      rw [List.forall_mem_cons] at h
      rcases blank_or_item h.1 with hblank | ⟨lead, item, trail, rfl, hlead, hitem, htrail⟩
      · rw [itemsIn_cons_of_blank hblank]
        exact .blank hblank (ih h.2)
      · rw [itemsIn_cons_of_strip (hitem.strip_eq hlead htrail) hitem.ne_empty]
        exact .item hlead hitem htrail (ih h.2)

theorem ItemsOf.isItem {pieces items : List String} (h : ItemsOf pieces items) :
    ∀ item ∈ items, IsItem item := by
  induction h with
  | nil => simp
  | blank _ _ ih => exact ih
  | item _ hitem _ _ ih => exact List.forall_mem_cons.mpr ⟨hitem, ih⟩

theorem itemsOf_self {items : List String} (h : ∀ item ∈ items, IsItem item) :
    ItemsOf items items := by
  induction items with
  | nil => exact .nil
  | cons item items ih =>
      rw [List.forall_mem_cons] at h
      have hnone : IsBlankText "" := by simp [IsBlankText]
      have hcons := ItemsOf.item hnone h.1 hnone (ih h.2)
      rwa [String.empty_append, String.append_empty] at hcons

theorem itemsOf_of_blank {pieces : List String} (h : ∀ piece ∈ pieces, IsBlankText piece) :
    ItemsOf pieces [] := by
  induction pieces with
  | nil => exact .nil
  | cons piece pieces ih =>
      rw [List.forall_mem_cons] at h
      exact .blank h.1 (ih h.2)

/-! ## The pieces of a text -/

/-- The pieces into which a text is cut. -/
def piecesOf (text : String) : List String :=
  (Text.splitAt ',' text.toList).map String.ofList

theorem cutAtCommas_piecesOf (text : String) : CutAtCommas text (piecesOf text) where
  ne_nil := by
    rw [piecesOf, ne_eq, List.map_eq_nil_iff]
    exact Text.splitFrom_ne_nil _ _
  noComma piece hpiece := by
    obtain ⟨part, hpart, rfl⟩ := List.mem_map.mp hpiece
    rw [String.toList_ofList]
    exact Text.not_mem_splitFrom (by simp) part hpart
  joined := by
    rw [← String.toList_inj, String.toList_intercalate, piecesOf, List.map_map]
    have hjoined : [','].intercalate (Text.splitAt ',' text.toList) = text.toList :=
      Text.intercalate_splitAt text.toList
    simpa [Function.comp_def] using hjoined

theorem CutAtCommas.eq_piecesOf {text : String} {pieces : List String}
    (h : CutAtCommas text pieces) : pieces = piecesOf text := by
  have hpieces : ∀ piece ∈ pieces.map String.toList, ',' ∉ piece := by
    simpa using h.noComma
  have hsplit := Text.splitAt_intercalate (by simpa using h.ne_nil) hpieces
  rw [piecesOf, ← h.joined, String.toList_intercalate]
  change pieces = (Text.splitAt ',' ([','].intercalate (pieces.map String.toList))).map String.ofList
  rw [hsplit]
  simp

theorem listItems_eq (text : String) : listItems text = itemsIn (piecesOf text) := by
  simp [listItems, itemsIn, piecesOf, Function.comp_def]

/-- The items that are read from a text are the ones that its pieces hold. -/
theorem itemsOf_iff {text : String} {pieces items : List String} (h : CutAtCommas text pieces) :
    ItemsOf pieces items ↔ items = listItems text := by
  rw [listItems_eq, ← h.eq_piecesOf]
  constructor
  · intro hitems
    exact (itemsIn_of_itemsOf hitems).symm
  · rintro rfl
    exact itemsOf_itemsIn h.noComma

theorem cutAtCommas_intercalate {items : List String} (hne : items ≠ [])
    (h : ∀ item ∈ items, IsItem item) : CutAtCommas (",".intercalate items) items :=
  ⟨hne, fun item hitem => (h item hitem).noComma, rfl⟩

theorem listItems_intercalate {items : List String} (h : ∀ item ∈ items, IsItem item) :
    listItems (",".intercalate items) = items := by
  by_cases hne : items = []
  · rw [hne]
    rfl
  · exact ((itemsOf_iff (cutAtCommas_intercalate hne h)).mp (itemsOf_self h)).symm

/-! ## The list as a setting -/

/-- Do the sources give a text for the suffixes in the environment, and no option for them? -/
structure Sources.GivesSuffixes (sources : Sources) (project explicit : List (String × Value))
    (text : String) : Prop where
  readable : sources.Readable project explicit
  known : ∀ key, ¬ sources.Foreign project explicit key
  given : sources.environment.lookup "PROMISE_METRICS_EXTENSIONS" = some text
  free : ∀ value, ("extensions", value) ∈ sources.options → value = .null

section

variable {sources : Sources} {project explicit : List (String × Value)} {text : String}
  (h : sources.GivesSuffixes project explicit text)

include h

theorem highest_extensions :
    highest (sources.layers project explicit) .extensions =
      .list ((listItems text).map .text) := by
  have hoption : optionValue sources.options .extensions = none := by
    rw [optionValue, if_neg (by simp), if_neg (by simp)]
    cases hvalue : sources.options.lookup Setting.extensions.key with
    | none => rfl
    | some value => rw [h.free value (mem_of_lookup hvalue)]; rfl
  have hvariable : variableValue sources.environment .extensions =
      some (.list ((listItems text).map .text)) := by
    have hname : Setting.extensions.variableName = "PROMISE_METRICS_EXTENSIONS" := by decide
    rw [variableValue, hname, h.given]
    rfl
  simp [highest, Sources.layers, hoption, hvariable]

theorem load_of_givesSuffixes :
    sources.load =
      (Config.check (.ofValues (highest (sources.layers project explicit)))
      sources.codecs).mapError asFault :=
  Sources.load_of_hand (h.readable.hand h.known)

theorem load_of_items (hne : listItems text ≠ [])
    (hothers : ∀ setting, setting ≠ .extensions →
      Admits sources.codecs setting (highest (sources.layers project explicit) setting)) :
    sources.load = .ok (.ofValues (highest (sources.layers project explicit))) := by
  have hadmits : ∀ setting, Admits sources.codecs setting
      ((Config.ofValues (highest (sources.layers project explicit))).value setting) := by
    intro setting
    rw [Config.value_ofValues]
    by_cases hsetting : setting = .extensions
    · rw [hsetting, highest_extensions h]
      simpa [Admits, Value.isTrue] using hne
    · exact hothers setting hsetting
  rw [load_of_givesSuffixes h, check_eq_ok_iff.mpr ⟨rfl, hadmits⟩]
  rfl

theorem load_of_no_items (hempty : listItems text = [])
    (houtput : Admits sources.codecs .outputFile
      (highest (sources.layers project explicit) .outputFile))
    (hworkers : Admits sources.codecs .workers
      (highest (sources.layers project explicit) .workers)) :
    sources.load = .error (.fault (.invalidSetting "extensions" (.list [])
      "must list at least one suffix")) := by
  have hvalue := highest_extensions h
  rw [hempty] at hvalue
  have hfirst : firstFailure sources.codecs
      (.ofValues (highest (sources.layers project explicit))) =
      some (.fault (.invalidSetting "extensions" (.list []) "must list at least one suffix")) := by
    refine firstFailure_eq_some_iff.mpr
      ⟨[.outputFile, .workers], .extensions, [.verbosity, .encoding], rfl, ?_, ?_⟩
    · rw [Config.value_ofValues, hvalue]
      rfl
    · simpa using ⟨houtput, hworkers⟩
  rw [Sources.load_of_firstFailure (h.readable.hand h.known) hfirst]
  rfl

end

/-! ## Reading and loading -/

/-- What is read from a text as a list. -/
structure ListAccount (text : String) : Prop where
  read : readVariable .list text = .ok (some (.list ((listItems text).map .text)))
  /-- There is one way to cut it at its commas, and the items are those that the pieces hold. -/
  pieces : ∃! pieces, CutAtCommas text pieces
  items : ∀ pieces items, CutAtCommas text pieces → (ItemsOf pieces items ↔ items = listItems text)
  tidy : ∀ item ∈ listItems text, IsItem item
  joined : listItems (",".intercalate (listItems text)) = listItems text
  /-- Any other text with the same items in its pieces is read as the same list. -/
  padded : ∀ padded pieces, CutAtCommas padded pieces → ItemsOf pieces (listItems text) →
    listItems padded = listItems text

/-- What becomes of a list of suffixes in the environment, the other settings being as they should. -/
structure SuffixAccount (sources : Sources) (project explicit : List (String × Value)) :
    Prop where
  loaded : ∀ items, items ≠ [] → (∀ item ∈ items, IsItem item) →
    sources.GivesSuffixes project explicit (",".intercalate items) →
    (∀ setting, setting ≠ .extensions →
      Admits sources.codecs setting (highest (sources.layers project explicit) setting)) →
    ∃ config, sources.load = .ok config ∧ config.extensions = .list (items.map .text)
  refused : ∀ text pieces, CutAtCommas text pieces → (∀ piece ∈ pieces, IsBlankText piece) →
    sources.GivesSuffixes project explicit text →
    Admits sources.codecs .outputFile (highest (sources.layers project explicit) .outputFile) →
    Admits sources.codecs .workers (highest (sources.layers project explicit) .workers) →
    sources.load = .error (.fault (.invalidSetting "extensions" (.list [])
      "must list at least one suffix"))

/-- A list in a variable is read as the items between its commas, and these are what is loaded. A text
that holds none is refused. -/
theorem items_of_list_variable :
    (∀ text, ListAccount text) ∧
      ∀ sources project explicit, SuffixAccount sources project explicit := by
  have hitems : ∀ text, ItemsOf (piecesOf text) (listItems text) := fun text =>
    (itemsOf_iff (cutAtCommas_piecesOf text)).mpr rfl
  refine ⟨fun text => ⟨rfl, ?_, fun _ _ hcut => itemsOf_iff hcut, (hitems text).isItem, ?_, ?_⟩,
    fun sources project explicit => ⟨?_, ?_⟩⟩
  · exact ⟨piecesOf text, cutAtCommas_piecesOf text, fun pieces hcut => hcut.eq_piecesOf⟩
  · exact listItems_intercalate (hitems text).isItem
  · intro padded pieces hcut hpieces
    exact ((itemsOf_iff hcut).mp hpieces).symm
  · intro items hne hall hgives hothers
    have hread := listItems_intercalate hall
    refine ⟨_, load_of_items hgives (by rwa [hread]) hothers, ?_⟩
    have hvalue := highest_extensions hgives
    rwa [hread] at hvalue
  · intro text pieces hcut hblank hgives houtput hworkers
    have hempty := (itemsOf_iff hcut).mp (itemsOf_of_blank hblank)
    exact load_of_no_items hgives hempty.symm houtput hworkers

/-! A project without files, whose suffixes are in the environment; an option for them is there, but
without a value. -/

def suffixSources (text : String) : Sources where
  environment := [("PROMISE_METRICS_EXTENSIONS", text)]
  options := [("extensions", .null)]

theorem variableName_ne {setting : Setting} (h : setting ≠ .extensions) :
    setting.variableName ≠ "PROMISE_METRICS_EXTENSIONS" := by
  cases setting with
  | extensions => exact absurd rfl h
  | _ => decide

theorem lookup_suffixSources {setting : Setting} (text : String) (h : setting ≠ .extensions) :
    (suffixSources text).environment.lookup setting.variableName = none := by
  simp [suffixSources, List.lookup_cons, beq_eq_false_iff_ne.mpr (variableName_ne h)]

theorem givesSuffixes_suffixSources (text : String) :
    (suffixSources text).GivesSuffixes [] [] text where
  readable := by
    refine ⟨.inl ⟨rfl, rfl⟩, .inl ⟨rfl, rfl⟩, ?_, by simp [suffixSources, keysOf]⟩
    intro setting value hvalue
    by_cases hsetting : setting = .extensions
    · rw [hsetting]
      exact ⟨_, rfl⟩
    · rw [lookup_suffixSources text hsetting] at hvalue
      cases hvalue
  known := by
    rintro key ⟨-, hproject | hexplicit | ⟨-, -, value, hmem, hgiven⟩⟩
    · cases hproject
    · cases hexplicit
    · obtain ⟨-, rfl⟩ := Prod.mk.inj (List.mem_singleton.mp hmem)
      cases hgiven
  given := by simp [suffixSources]
  free value hmem := (Prod.mk.inj (List.mem_singleton.mp hmem)).2

theorem admits_suffixSources {setting : Setting} (text : String) (h : setting ≠ .extensions) :
    Admits (suffixSources text).codecs setting
      (highest ((suffixSources text).layers [] []) setting) := by
  have hoption : optionValue (suffixSources text).options setting = none := by
    cases setting with
    | extensions => exact absurd rfl h
    | _ => rfl
  have hvalue : highest ((suffixSources text).layers [] []) setting = setting.default := by
    simp [highest, Sources.layers, hoption, variableValue, lookup_suffixSources text h]
  rw [hvalue]
  exact admits_default (by rfl) (by rfl) setting

theorem suffixes_of_environment :
    (∃ config, (suffixSources ".java,.jav").load = .ok config ∧
      config.extensions = .list [.text ".java", .text ".jav"]) ∧
      (suffixSources " ,\u3000").load = .error (.fault (.invalidSetting "extensions" (.list [])
        "must list at least one suffix")) := by
  have hitem : ∀ item ∈ [".java", ".jav"], IsItem item := by
    intro item hmem
    rcases List.mem_cons.mp hmem with rfl | hmem
    · exact ⟨by decide, by decide, by simp [Text.isBlank], by simp [Text.isBlank]⟩
    · rw [List.mem_singleton.mp hmem]
      exact ⟨by decide, by decide, by simp [Text.isBlank], by simp [Text.isBlank]⟩
  have hblank : ∀ piece ∈ [" ", "\u3000"], IsBlankText piece := by
    intro piece hmem
    rcases List.mem_cons.mp hmem with rfl | hmem
    · simp [IsBlankText, Text.isBlank]
    · rw [List.mem_singleton.mp hmem]
      simp [IsBlankText, Text.isBlank]
  obtain ⟨-, haccount⟩ := items_of_list_variable
  constructor
  · exact (haccount _ [] []).loaded [".java", ".jav"] (by simp) hitem
      (givesSuffixes_suffixSources _) fun _ => admits_suffixSources _
  · exact (haccount _ [] []).refused _ [" ", "\u3000"] ⟨by simp, by decide, by decide⟩ hblank
      (givesSuffixes_suffixSources _) (admits_suffixSources _ (by simp))
      (admits_suffixSources _ (by simp))

end JavaMetrics.Settings
