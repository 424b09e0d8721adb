import JavaMetrics.Proofs.Files.Listing

/-!
# The source files below a directory

`discover` gives the paths below a directory that end with one of some suffixes and
lead to a file. The result is pinned down by two facts, that it is strictly increasing
and which paths are in it; so it cannot depend on the order in which folders list
their entries.

A path that leads to no directory is a fault. There is one way to fail besides: where
the system refuses to say what a path leads to, be it that of the directory or one that
would be a source file, its refusal is passed on. That is `Withheld`: a name on the way
or the whole path is too long, or there is a folder on it that may not be searched.
Folders that cannot be entered are passed over, but no source file is missed for that,
`reached_of_isFile`: a path that leads to a file leads through folders that can be
entered.
-/

namespace JavaMetrics.Files

/-! ## The order of paths -/

/-- The strict order of paths: name by name, and names by code points. -/
def Path.Before (first second : Path) : Prop :=
  List.Lex (· < ·) first.names second.names

theorem Path.Before.asymm {first second : Path} (h : first.Before second) :
    ¬second.Before first := by
  intro h'
  exact List.lt_irrefl _ (List.lt_trans (List.lex_lt.mp h) (List.lex_lt.mp h'))

theorem namesLe_iff {first second : List String} :
    namesLe first second = true ↔ first = second ∨ List.Lex (· < ·) first second := by
  induction first generalizing second with
  | nil => cases second <;> simp [namesLe]
  | cons name names ih =>
      cases second with
      | nil => simp [namesLe]
      | cons other others =>
          rw [namesLe, List.cons_lex_cons_iff]
          by_cases heq : name = other
          · subst heq
            simp [ih]
          · simp [heq]

theorem precedes_trans (a b c : Path) (hab : precedes a b = true) (hbc : precedes b c = true) :
    precedes a c = true := by
  rw [precedes, namesLe_iff] at hab hbc ⊢
  rcases hab with hab | hab
  · rw [hab]
    exact hbc
  · rcases hbc with hbc | hbc
    · rw [← hbc]
      exact .inr hab
    · exact .inr (List.lex_lt.mpr (List.lt_trans (List.lex_lt.mp hab) (List.lex_lt.mp hbc)))

theorem precedes_total (a b : Path) : (precedes a b || precedes b a) = true := by
  rw [Bool.or_eq_true, precedes, precedes, namesLe_iff, namesLe_iff]
  by_cases hlt : List.Lex (· < ·) a.names b.names
  · exact .inl (.inr hlt)
  · rcases List.le_iff_lt_or_eq.mp (List.not_lt.mp (mt List.lex_lt.mpr hlt)) with hlt | heq
    · exact .inr (.inr (List.lex_lt.mpr hlt))
    · exact .inr (.inl heq)

/-- Different paths from one root are sorted strictly. -/
theorem pairwise_mergeSort_precedes {paths : List Path} {root : String} (hnodup : paths.Nodup)
    (hroot : ∀ path ∈ paths, path.root = root) :
    (paths.mergeSort precedes).Pairwise Path.Before := by
  have hperm := List.mergeSort_perm paths precedes
  have hsorted := List.pairwise_mergeSort precedes_trans precedes_total paths
  have hdistinct : (paths.mergeSort precedes).Pairwise (· ≠ ·) := hperm.nodup_iff.mpr hnodup
  refine (hsorted.and hdistinct).imp_of_mem fun {a b} ha hb ⟨hle, hne⟩ => ?_
  refine (namesLe_iff.mp hle).resolve_left fun hnames => hne ?_
  have hroots := (hroot a (hperm.mem_iff.mp ha)).trans (hroot b (hperm.mem_iff.mp hb)).symm
  obtain ⟨rootA, namesA⟩ := a
  obtain ⟨rootB, namesB⟩ := b
  exact Path.mk.injEq .. ▸ ⟨hroots, hnames⟩

/-! ## Below a directory -/

namespace Tree

section

variable {tree : Tree} {links : Nat} {here names rest place : List String}

/-- A longer path is followed by way of the shorter one. -/
theorem Arrives.follow_append {aim : Aim} (h : Arrives tree aim links here names place)
    (haim : aim = .target) (hfolder : tree.contentAt place = some .folder) :
    ∃ fewer, tree.follow aim links here (names ++ rest) = tree.follow aim fewer place rest := by
  subst haim
  induction h with
  | done links here => exact ⟨links, rfl⟩
  | slash _ ih =>
      rw [follow_eq_pass, List.cons_append, pass_slash, ← follow_eq_pass]
      exact ih hfolder
  | dot hsearched _ ih =>
      rw [follow_eq_pass, List.cons_append, pass_dot hsearched, ← follow_eq_pass]
      exact ih hfolder
  | up hsearched _ ih =>
      rw [follow_eq_pass, List.cons_append, pass_up hsearched, ← follow_eq_pass]
      exact ih hfolder
  | stop links hlooks _ =>
      rw [follow_eq_pass, List.cons_append, (hlooks.for_target _).pass_eq, hfolder]
      exact ⟨links, (follow_eq_pass links _ rest).symm⟩
  | enter hlooks hnext _ ih =>
      rw [follow_eq_pass, List.cons_append, (hlooks.for_target _).pass_eq, hnext]
      obtain ⟨fewer, heq⟩ := ih hfolder
      exact ⟨fewer, (follow_eq_pass _ _ _).symm.trans heq⟩
  | link hlooks _ hlink _ ih =>
      rw [follow_eq_pass, List.cons_append, (hlooks.for_target _).pass_eq, hlink]
      obtain ⟨fewer, heq⟩ := ih hfolder
      rw [List.append_assoc] at heq
      exact ⟨fewer, (if_neg (by simp)).trans heq⟩

/-- The names of folders lead to them. -/
theorem Arrives.eq_append {aim : Aim} (h : Arrives tree aim links here names place)
    (hnames : ∀ name ∈ names, Entry.IsName name)
    (hfolder : tree.contentAt (here ++ names) = some .folder) : place = here ++ names := by
  induction h with
  | done links here => exact (List.append_nil here).symm
  | slash _ _ => exact absurd rfl (hnames "" List.mem_cons_self).ne_slash
  | dot _ _ _ => exact absurd rfl (hnames "." List.mem_cons_self).ne_dot
  | up _ _ _ => exact absurd rfl (hnames ".." List.mem_cons_self).ne_up
  | stop links _ _ => rfl
  | enter _ _ _ ih =>
      rw [List.append_cons] at hfolder ⊢
      exact ih (fun name hmem => hnames name (List.mem_cons_of_mem _ hmem)) hfolder
  | @link _ _ rest _ _ _ _ _ hlink _ ih =>
      -- there is a folder where the link would be
      rw [List.append_cons] at hfolder
      by_cases hrest : rest = []
      · rw [hrest, List.append_nil, hlink] at hfolder
        cases hfolder
      · rw [contentAt, Entry.contentAt_above hrest hfolder] at hlink
        cases hlink

end

theorem find?_eq_some_iff {tree : Tree} {path : Path} {entry : Entry} :
    tree.find? path = some entry ↔
      ∃ place, tree.resolve path .target = .ok place ∧ place.entry = some entry := by
  rw [find?]
  cases tree.resolve path .target <;> simp

/-- Below a directory, names are followed from the place of the directory. -/
theorem resolve_below {tree : Tree} {path : Path} {place found : Place} {names : List String}
    (hpath : tree.resolve path .target = .ok place)
    (hfolder : tree.contentAt place.names = some .folder)
    (h : tree.resolve (path.below names) .target = .ok found) :
    ∃ links, Arrives tree .target links place.names names found.names := by
  obtain ⟨-, harrives⟩ := arrives_of_resolve hpath
  obtain ⟨links, heq⟩ := harrives.follow_append rfl hfolder
  rw [resolve_of_askable (askable_of_resolve h)] at h
  exact ⟨links, (arrives_of_follow (heq.symm.trans h)).2⟩

/-- The names of folders below a directory lead to no file. -/
theorem isFile_below_folder {tree : Tree} (hwell : Entry.WellNamed tree.top) {path : Path}
    {entries inner : Folder} {names : List String} (h : tree.find? path = some (.folder entries))
    (hat : Entry.at? names entries = some (.folder inner)) :
    tree.isFile (path.below names) = false := by
  obtain ⟨place, hpath, hentry⟩ := find?_eq_some_iff.mp h
  rw [resolve_eq_placeAt hpath] at hentry
  have hplace : Entry.at? place.names tree.top = some (.folder entries) := hentry
  have hisName := (hwell.of_at? hplace).isName_of_at? hat
  have hbelow : Entry.at? (place.names ++ names) tree.top = some (.folder inner) := by
    rw [Entry.at?_append, hplace]
    exact hat
  rw [isFile]
  split
  · next bytes hfile =>
      obtain ⟨found, hresolve, hfound⟩ := find?_eq_some_iff.mp hfile
      obtain ⟨links, harrives⟩ := resolve_below hpath
        (Entry.contentAt_eq_folder_iff.mpr ⟨entries, hplace⟩) hresolve
      have hsame := harrives.eq_append hisName (Entry.contentAt_eq_folder_iff.mpr ⟨inner, hbelow⟩)
      rw [resolve_eq_placeAt hresolve, hsame, placeAt, hbelow] at hfound
      cases hfound
  · rfl

end Tree

/-! ## Which paths are found -/

/-- Is there an entry at a path below a directory, with none but folders on the way? -/
def Below (tree : Tree) (path leaf : Path) (entry : Entry) : Prop :=
  ∃ entries names, tree.find? path = some (.folder entries) ∧ names ≠ [] ∧
    Entry.at? names entries = some entry ∧ leaf = path.below names

/-- Does the last name of a path end with one of some suffixes? -/
def EndsWith (suffixes : List String) (leaf : Path) : Prop :=
  ∃ suffix ∈ suffixes, suffix.toList <:+ (leaf.names.getLastD "").toList

/-- Is there an entry below a directory that the walk comes to, through folders that can be entered?
-/
def Met (tree : Tree) (path leaf : Path) (entry : Entry) : Prop :=
  Below tree path leaf entry ∧
    ∀ names, leaf = path.below names → Reached (canEnter tree path) path names

section

variable {α ε : Type} {p : α → Except ε Bool} {items found : List α}

theorem filterAuxM_of_ok {q : α → Bool} (h : ∀ item ∈ items, p item = .ok (q item))
    (kept : List α) : items.filterAuxM p kept = .ok ((items.filter q).reverse ++ kept) := by
  induction items generalizing kept with
  | nil => rfl
  | cons item rest ih =>
      rw [List.filterAuxM, h item List.mem_cons_self]
      show rest.filterAuxM p (cond (q item) (item :: kept) kept) = _
      rw [ih fun other hmem => h other (List.mem_cons_of_mem _ hmem)]
      cases hq : q item <;> simp [hq]

theorem filterAuxM_eq_error {failure : ε} {kept : List α}
    (h : items.filterAuxM p kept = .error failure) : ∃ item ∈ items, p item = .error failure := by
  induction items generalizing kept with
  | nil => cases h
  | cons item rest ih =>
      rw [List.filterAuxM] at h
      cases hitem : p item with
      | error other =>
          rw [hitem] at h
          cases h
          exact ⟨item, List.mem_cons_self, hitem⟩
      | ok accepted =>
          rw [hitem] at h
          obtain ⟨other, hmem, hother⟩ := ih h
          exact ⟨other, List.mem_cons_of_mem _ hmem, hother⟩

theorem filterAuxM_eq_ok {kept : List α} (h : items.filterAuxM p kept = .ok found) :
    ∀ item ∈ items, ∃ accepted, p item = .ok accepted := by
  induction items generalizing kept with
  | nil => exact fun item hmem => absurd hmem List.not_mem_nil
  | cons item rest ih =>
      rw [List.filterAuxM] at h
      cases hitem : p item with
      | error failure =>
          rw [hitem] at h
          cases h
      | ok accepted =>
          rw [hitem] at h
          intro other hmem
          rcases List.mem_cons.mp hmem with rfl | hmem
          · exact ⟨accepted, hitem⟩
          · exact ih h other hmem

/-- What a test that can fail lets through. -/
theorem filterM_of_ok {q : α → Bool} (h : ∀ item ∈ items, p item = .ok (q item)) :
    items.filterM p = .ok (items.filter q) := by
  rw [List.filterM, filterAuxM_of_ok h]
  show Except.ok _ = _
  rw [List.append_nil, List.reverse_reverse]

theorem filterM_eq_ok (h : items.filterM p = .ok found) :
    ∀ item ∈ items, ∃ accepted, p item = .ok accepted := by
  rw [List.filterM] at h
  cases haux : items.filterAuxM p [] with
  | error failure =>
      rw [haux] at h
      cases h
  | ok kept => exact filterAuxM_eq_ok haux

theorem filterM_eq_error {failure : ε} (h : items.filterM p = .error failure) :
    ∃ item ∈ items, p item = .error failure := by
  rw [List.filterM] at h
  cases haux : items.filterAuxM p [] with
  | error other =>
      rw [haux] at h
      cases h
      exact filterAuxM_eq_error haux
  | ok found =>
      rw [haux] at h
      cases h

end

instance (suffixes : List String) (leaf : Path) : Decidable (EndsWith suffixes leaf) :=
  inferInstanceAs
    (Decidable (∃ suffix ∈ suffixes, suffix.toList <:+ (leaf.names.getLastD "").toList))

section

variable {tree : Tree} {path leaf : Path} {suffixes : List String} {entries : Folder}

theorem accepts_eq (leaf : Path) : Suffixes.accepts ⟨suffixes, none⟩ (leaf.names.getLastD "") =
    .ok (decide (EndsWith suffixes leaf)) := by
  have hany :
      (suffixes.any fun suffix => suffix.toList.isSuffixOf (leaf.names.getLastD "").toList) =
        decide (EndsWith suffixes leaf) := by
    rw [Bool.eq_iff_iff]
    simp [EndsWith]
  rw [Suffixes.accepts]
  dsimp only
  rw [hany]
  cases decide (EndsWith suffixes leaf) <;> rfl

theorem isSource_of_not_withheld
    (h : EndsWith suffixes leaf → ∀ refusal, ¬Withheld tree leaf refusal) :
    isSource tree ⟨suffixes, none⟩ leaf =
      .ok (decide (EndsWith suffixes leaf) && tree.isFile leaf) := by
  rw [isSource, accepts_eq]
  by_cases hends : EndsWith suffixes leaf
  · rw [decide_eq_true hends, Bool.true_and, probe_of_not_withheld (h hends), Tree.isFile]
    cases tree.find? leaf with
    | none => rfl
    | some entry => cases entry <;> rfl
  · rw [decide_eq_false hends]
    rfl

theorem isSource_of_withheld {refusal : Refusal} (hends : EndsWith suffixes leaf)
    (h : Withheld tree leaf refusal) :
    isSource tree ⟨suffixes, none⟩ leaf = .error (.refused refusal leaf.text) := by
  rw [isSource, accepts_eq, decide_eq_true hends, h.probe_eq]
  rfl

theorem discover_of_withheld {refusal : Refusal} (h : Withheld tree path refusal)
    (suffixes : Suffixes) :
    discover tree path suffixes = .error (.refused refusal path.text) := by
  rw [discover, checkSourceDirectory, h.probe_eq]
  rfl

theorem discover_of_not_folder (h : ∀ refusal, ¬Withheld tree path refusal)
    (hfolder : tree.isFolder path = false) (suffixes : Suffixes) :
    discover tree path suffixes = .error (.fault (.invalidPath path.text
      (if (tree.find? path).isNone then "Source directory does not exist"
        else "Source path is not a directory"))) := by
  rw [discover, checkSourceDirectory, probe_of_not_withheld h]
  rw [Tree.isFolder] at hfolder
  cases hfind : tree.find? path with
  | none => rfl
  | some entry =>
      cases entry with
      | folder inner => simp [hfind] at hfolder
      | file bytes => rfl
      | link target => rfl

theorem isFolder_eq_true_iff :
    tree.isFolder path = true ↔ ∃ entries, tree.find? path = some (.folder entries) := by
  rw [Tree.isFolder]
  cases tree.find? path with
  | none => simp
  | some entry => cases entry <;> simp

theorem discover_of_folder (h : tree.find? path = some (.folder entries)) (suffixes : Suffixes) :
    discover tree path suffixes =
      (((leaves (canEnter tree path) path entries).filter fun leaf => !tree.isFolder leaf).filterM
        (isSource tree suffixes)).map fun found => found.mergeSort precedes := by
  rw [discover, checkSourceDirectory, probe_of_not_withheld (not_withheld_of_find? h), h]
  dsimp only [Bind.bind, Except.bind]
  rw [h]
  dsimp only
  cases ((leaves (canEnter tree path) path entries).filter fun leaf =>
    !tree.isFolder leaf).filterM (isSource tree suffixes) <;> rfl

/-- Is there something that the walk comes to and that would count as a source file, if the system did
not refuse to say what it leads to? -/
def Blocked (tree : Tree) (path : Path) (suffixes : List String) : Prop :=
  ∃ leaf entry refusal, Met tree path leaf entry ∧ entry.isFolder = false ∧
    EndsWith suffixes leaf ∧ Withheld tree leaf refusal

theorem met_iff (hwell : Entry.WellNamed tree.top) (h : tree.find? path = some (.folder entries)) :
    leaf ∈ leaves (canEnter tree path) path entries ↔
      ∃ entry, Met tree path leaf entry ∧ entry.isFolder = false := by
  obtain ⟨place, hresolve, hentry⟩ := Tree.find?_eq_some_iff.mp h
  rw [Tree.resolve_eq_placeAt hresolve] at hentry
  rw [mem_leaves (hwell.of_at? hentry)]
  constructor
  · rintro ⟨names, entry, hnames, hat, hfolder, hreached, rfl⟩
    refine ⟨entry, ⟨⟨entries, names, h, hnames, hat, rfl⟩, fun others heq => ?_⟩, hfolder⟩
    rw [← Path.below_inj.mp heq]
    exact hreached
  · rintro ⟨entry, ⟨⟨entries', names, h', hnames, hat, rfl⟩, hreached⟩, hfolder⟩
    obtain rfl : entries = entries' := by simpa [h] using h'
    exact ⟨names, entry, hnames, hat, hfolder, hreached names rfl, rfl⟩

theorem not_isFolder_of_isFile (h : tree.isFile leaf = true) : tree.isFolder leaf = false := by
  rw [Tree.isFile] at h
  rw [Tree.isFolder]
  split at h
  · next hfile => rw [hfile]
  · cases h

theorem not_isFolder_of_withheld {refusal : Refusal} (h : Withheld tree leaf refusal) :
    tree.isFolder leaf = false := by
  rw [Tree.isFolder, Tree.find?, h.1]

/-- A refusal comes from something that would have counted. -/
theorem blocked_of_error (hwell : Entry.WellNamed tree.top)
    (h : tree.find? path = some (.folder entries)) {failure : Failure}
    (herror : discover tree path ⟨suffixes, none⟩ = .error failure) :
    Blocked tree path suffixes ∧ ∃ leaf refusal, Withheld tree leaf refusal ∧
      failure = .refused refusal leaf.text := by
  rw [discover_of_folder h] at herror
  generalize hfilter : List.filterM (m := Except Failure) _ _ = result at herror
  cases result with
  | ok found => cases herror
  | error other =>
      cases herror
      obtain ⟨leaf, hmem, hleaf⟩ := filterM_eq_error hfilter
      obtain ⟨entry, hmet, hfolder⟩ := (met_iff hwell h).mp (List.mem_filter.mp hmem).1
      by_cases hends : EndsWith suffixes leaf
      · by_cases hwithheld : ∃ refusal, Withheld tree leaf refusal
        · obtain ⟨refusal, hwithheld⟩ := hwithheld
          rw [isSource_of_withheld hends hwithheld] at hleaf
          cases hleaf
          exact ⟨⟨leaf, entry, refusal, hmet, hfolder, hends, hwithheld⟩, leaf, refusal,
            hwithheld, rfl⟩
        · rw [isSource_of_not_withheld fun _ => not_exists.mp hwithheld] at hleaf
          cases hleaf
      · rw [isSource_of_not_withheld fun h => absurd h hends] at hleaf
        cases hleaf

theorem not_blocked_of_ok (hwell : Entry.WellNamed tree.top)
    (h : tree.find? path = some (.folder entries)) {found : List Path}
    (hok : discover tree path ⟨suffixes, none⟩ = .ok found) : ¬Blocked tree path suffixes := by
  rintro ⟨leaf, entry, refusal, hmet, hfolder, hends, hwithheld⟩
  rw [discover_of_folder h] at hok
  generalize hfilter : List.filterM (m := Except Failure) _ _ = result at hok
  cases result with
  | error failure => cases hok
  | ok kept =>
      obtain ⟨accepted, haccepted⟩ := filterM_eq_ok hfilter leaf (List.mem_filter.mpr
        ⟨(met_iff hwell h).mpr ⟨entry, hmet, hfolder⟩,
          by rw [not_isFolder_of_withheld hwithheld]; rfl⟩)
      rw [isSource_of_withheld hends hwithheld] at haccepted
      cases haccepted

/-- Is it a source file below a directory? -/
def IsSource (tree : Tree) (path : Path) (suffixes : List String) (leaf : Path) : Prop :=
  (∃ entry, Below tree path leaf entry) ∧ EndsWith suffixes leaf ∧ tree.isFile leaf = true

theorem size_first (first : String) (rest : List String) :
    first.utf8ByteSize ≤ ("/".intercalate (first :: rest)).utf8ByteSize := by
  cases rest with
  | nil => simp [String.intercalate_singleton]
  | cons second others =>
      rw [String.intercalate_cons_cons, String.utf8ByteSize_append, String.utf8ByteSize_append]
      omega

/-- The path by which a folder is entered is not longer than those of the files in it. -/
theorem askable_walked {above below : List String} (habove : above ≠ []) (hbelow : below ≠ [])
    (hisName : ∀ name ∈ below, Entry.IsName name)
    (h : Tree.Askable (path.below (above ++ below))) :
    Tree.Askable (walked path (path.below above)) := by
  have hbegin : Tree.Askable (path.below above) := by
    refine Tree.Askable.above h ⟨below, ?_⟩
    rw [List.append_assoc]
  rw [walked]
  split
  · next hdot =>
      rw [Bool.and_eq_true, String.isEmpty_iff, List.isEmpty_iff] at hdot
      obtain ⟨root, own⟩ := path
      obtain ⟨rfl, rfl⟩ : root = "" ∧ own = [] := hdot
      refine ⟨?_, ?_⟩
      · have hnull := hbegin.no_null
        rw [Path.hasNull, List.any_eq_false] at hnull ⊢
        intro name hmem
        rcases List.mem_cons.mp hmem with rfl | hmem
        · decide
        · exact hnull name hmem
      · -- the dot and its slash are not longer than a slash and the name after it
        obtain ⟨first, rest, rfl⟩ := List.exists_cons_of_ne_nil hbelow
        have hfirst : 0 < first.utf8ByteSize := Nat.pos_of_ne_zero fun hzero =>
          (hisName first List.mem_cons_self).ne_slash (String.utf8ByteSize_eq_zero_iff.mp hzero)
        have hrest := size_first first rest
        have hshort := h.short
        show (Path.text ⟨"", "." :: above⟩).utf8ByteSize < Tree.pathLimit
        change (Path.text ⟨"", above ++ first :: rest⟩).utf8ByteSize < Tree.pathLimit at hshort
        rw [Tree.text_eq "" (by simp), String.intercalate_append_of_ne_nil habove (by simp)] at hshort
        rw [Tree.text_eq "" (by simp), String.intercalate_cons_of_ne_nil habove]
        simp only [String.utf8ByteSize_append] at hshort ⊢
        have hdot : ".".utf8ByteSize = 1 := by decide
        omega
  · exact hbegin

theorem arrives_walked {above place : List String} (habove : above ≠ [])
    (hisName : ∀ name ∈ above, Entry.IsName name)
    (h : Tree.Arrives tree .target Tree.linkLimit (tree.start path) (path.names ++ above) place) :
    Tree.Arrives tree .target Tree.linkLimit (tree.start (walked path (path.below above)))
      (walked path (path.below above)).names place := by
  rw [walked]
  split
  · next hdot =>
      rw [Bool.and_eq_true, List.isEmpty_iff] at hdot
      obtain ⟨first, rest, rfl⟩ := List.exists_cons_of_ne_nil habove
      rw [hdot.2] at h
      have hsearched := h.searched (hisName first List.mem_cons_self).ne_slash
      show Tree.Arrives tree .target Tree.linkLimit (tree.start path)
        ("." :: (path.names ++ first :: rest)) place
      rw [hdot.2]
      exact .dot hsearched h
  · exact h

/-- No source file is missed because a folder cannot be entered. -/
theorem reached_of_isFile (hwell : Entry.WellNamed tree.top) {names : List String} {entry : Entry}
    (h : tree.find? path = some (.folder entries)) (hat : Entry.at? names entries = some entry)
    (hfile : tree.isFile (path.below names) = true) :
    Reached (canEnter tree path) path names := by
  obtain ⟨place, hpath, hentry⟩ := Tree.find?_eq_some_iff.mp h
  rw [Tree.resolve_eq_placeAt hpath] at hentry
  have hisName := (hwell.of_at? hentry).isName_of_at? hat
  obtain ⟨found, hresolve⟩ : ∃ found, tree.resolve (path.below names) .target = .ok found := by
    rw [Tree.isFile] at hfile
    split at hfile
    · next bytes hfind =>
        obtain ⟨found, hresolve, -⟩ := Tree.find?_eq_some_iff.mp hfind
        exact ⟨found, hresolve⟩
    · cases hfile
  obtain ⟨-, harrives⟩ := Tree.arrives_of_resolve hresolve
  rintro above below rfl habove hbelow
  obtain ⟨stop, hstop⟩ := harrives.of_append (List.append_assoc path.names above below).symm
  have hask := askable_walked habove hbelow
    (fun name hmem => hisName name (List.mem_append_right above hmem))
    (Tree.askable_of_resolve hresolve)
  have hwalked := @arrives_walked tree path _ _ habove
    (fun name hmem => hisName name (List.mem_append_left below hmem)) hstop
  rw [canEnter, Tree.resolve_of_askable hask, hwalked.follow_eq]
  rfl

theorem isSource_iff (hwell : Entry.WellNamed tree.top)
    (h : tree.find? path = some (.folder entries)) :
    IsSource tree path suffixes leaf ↔
      leaf ∈ leaves (canEnter tree path) path entries ∧ EndsWith suffixes leaf ∧
        tree.isFile leaf = true := by
  rw [met_iff hwell h]
  constructor
  · rintro ⟨⟨entry, entries', names, h', hnames, hat, rfl⟩, hends, hfile⟩
    have hreached := reached_of_isFile hwell h' hat hfile
    refine ⟨⟨entry, ⟨⟨entries', names, h', hnames, hat, rfl⟩, fun others heq => ?_⟩, ?_⟩, hends,
      hfile⟩
    · rw [← Path.below_inj.mp heq]
      exact hreached
    · cases entry with
      | file bytes => rfl
      | link target => rfl
      | folder inner =>
          -- the names of a folder do not lead to a file
          rw [Tree.isFile_below_folder hwell h' hat] at hfile
          cases hfile
  · rintro ⟨⟨entry, ⟨hbelow, -⟩, -⟩, hends, hfile⟩
    exact ⟨⟨entry, hbelow⟩, hends, hfile⟩

/-- The paths that are found are sorted, and they are those of source files. -/
structure Discovered (tree : Tree) (path : Path) (suffixes : List String) (found : List Path) :
    Prop where
  increasing : found.Pairwise Path.Before
  mem_iff : ∀ leaf, leaf ∈ found ↔ IsSource tree path suffixes leaf

theorem discovered_of_not_blocked (hwell : Entry.WellNamed tree.top)
    (h : tree.find? path = some (.folder entries)) (hopen : ¬Blocked tree path suffixes) :
    ∃ found, discover tree path ⟨suffixes, none⟩ = .ok found ∧
      Discovered tree path suffixes found := by
  have htest : ∀ leaf ∈ (leaves (canEnter tree path) path entries).filter
      (fun leaf => !tree.isFolder leaf), isSource tree ⟨suffixes, none⟩ leaf =
        .ok (decide (EndsWith suffixes leaf) && tree.isFile leaf) := by
    intro leaf hmem
    obtain ⟨entry, hmet, hfolder⟩ := (met_iff hwell h).mp (List.mem_filter.mp hmem).1
    exact isSource_of_not_withheld fun hends refusal hwithheld =>
      hopen ⟨leaf, entry, refusal, hmet, hfolder, hends, hwithheld⟩
  obtain ⟨place, hresolve, hentry⟩ := Tree.find?_eq_some_iff.mp h
  rw [Tree.resolve_eq_placeAt hresolve] at hentry
  have hentries := hwell.of_at? hentry
  refine ⟨_, by rw [discover_of_folder h, filterM_of_ok htest]; rfl, ?_, ?_⟩
  · refine @pairwise_mergeSort_precedes _ path.root (((nodup_leaves hentries).filter _).filter _) ?_
    intro leaf hmem
    obtain ⟨names, -, -, -, -, -, rfl⟩ :=
      (mem_leaves hentries).mp (List.mem_filter.mp (List.mem_filter.mp hmem).1).1
    rfl
  · intro leaf
    rw [(List.mergeSort_perm _ _).mem_iff, List.mem_filter, List.mem_filter, isSource_iff hwell h]
    simp only [Bool.and_eq_true, decide_eq_true_eq, Bool.not_eq_true']
    constructor
    · rintro ⟨⟨hmem, -⟩, hends, hfile⟩
      exact ⟨hmem, hends, hfile⟩
    · rintro ⟨hmem, hends, hfile⟩
      exact ⟨⟨hmem, not_isFolder_of_isFile hfile⟩, hends, hfile⟩

/-- The four ways in which the search can end. -/
theorem discover_cases (hwell : Entry.WellNamed tree.top) (path : Path) (suffixes : List String) :
    (∃ refusal, Withheld tree path refusal ∧
      discover tree path ⟨suffixes, none⟩ = .error (.refused refusal path.text)) ∨
    (tree.isFolder path = false ∧ (∀ refusal, ¬Withheld tree path refusal) ∧ ∃ reason,
      discover tree path ⟨suffixes, none⟩ = .error (.fault (.invalidPath path.text reason))) ∨
    (tree.isFolder path = true ∧ Blocked tree path suffixes ∧ ∃ leaf refusal,
      Withheld tree leaf refusal ∧
      discover tree path ⟨suffixes, none⟩ = .error (.refused refusal leaf.text)) ∨
    (tree.isFolder path = true ∧ ¬Blocked tree path suffixes ∧ ∃ found,
      discover tree path ⟨suffixes, none⟩ = .ok found ∧ Discovered tree path suffixes found) := by
  by_cases hwithheld : ∃ refusal, Withheld tree path refusal
  · obtain ⟨refusal, hwithheld⟩ := hwithheld
    exact .inl ⟨refusal, hwithheld, discover_of_withheld hwithheld _⟩
  · have htold := not_exists.mp hwithheld
    cases hfolder : tree.isFolder path with
    | false => exact .inr (.inl ⟨rfl, htold, _, discover_of_not_folder htold hfolder _⟩)
    | true =>
        obtain ⟨entries, hfind⟩ := isFolder_eq_true_iff.mp hfolder
        by_cases hopen : Blocked tree path suffixes
        · refine .inr (.inr (.inl ⟨rfl, hopen, ?_⟩))
          cases hresult : discover tree path ⟨suffixes, none⟩ with
          | ok found => exact absurd hopen (not_blocked_of_ok hwell hfind hresult)
          | error failure =>
              obtain ⟨-, leaf, refusal, hleaf, rfl⟩ := blocked_of_error hwell hfind hresult
              exact ⟨leaf, refusal, hleaf, rfl⟩
        · exact .inr (.inr (.inr ⟨rfl, hopen, discovered_of_not_blocked hwell hfind hopen⟩))

theorem invalidPath_iff (hwell : Entry.WellNamed tree.top) (path : Path)
    (suffixes : List String) :
    (∃ reason, discover tree path ⟨suffixes, none⟩ =
        .error (.fault (.invalidPath path.text reason))) ↔
      tree.isFolder path = false ∧ ∀ refusal, ¬Withheld tree path refusal := by
  rcases discover_cases hwell path suffixes with ⟨refusal, hwithheld, heq⟩ |
    ⟨hfolder, htold, reason, heq⟩ | ⟨hfolder, hblocked, leaf, refusal, -, heq⟩ |
    ⟨hfolder, hopen, found, heq, hfound⟩ <;> rw [heq]
  · simp only [reduceCtorEq, Except.error.injEq, exists_false, false_iff, not_and]
    exact fun _ htold => htold refusal hwithheld
  · simp [hfolder, htold]
  · simp [hfolder]
  · simp [hfolder]

theorem discover_ok_iff (hwell : Entry.WellNamed tree.top) (path : Path)
    (suffixes : List String) :
    (∃ found, discover tree path ⟨suffixes, none⟩ = .ok found) ↔
      tree.isFolder path = true ∧ ¬Blocked tree path suffixes := by
  rcases discover_cases hwell path suffixes with ⟨refusal, hwithheld, heq⟩ |
    ⟨hfolder, htold, reason, heq⟩ | ⟨hfolder, hblocked, leaf, refusal, -, heq⟩ |
    ⟨hfolder, hopen, found, heq, hfound⟩ <;> rw [heq]
  · simp [not_isFolder_of_withheld hwithheld]
  · simp [hfolder]
  · simp [hblocked]
  · simp [hfolder, hopen]

theorem discovered_of_ok (hwell : Entry.WellNamed tree.top) {found : List Path}
    (hok : discover tree path ⟨suffixes, none⟩ = .ok found) :
    Discovered tree path suffixes found := by
  rcases discover_cases hwell path suffixes with ⟨refusal, -, heq⟩ | ⟨-, -, reason, heq⟩ |
    ⟨-, -, leaf, refusal, -, heq⟩ | ⟨-, -, found', heq, hfound⟩ <;> rw [heq] at hok <;> cases hok
  exact hfound

theorem failure_cases (hwell : Entry.WellNamed tree.top) {failure : Failure}
    (herror : discover tree path ⟨suffixes, none⟩ = .error failure) :
    (∃ reason, failure = .fault (.invalidPath path.text reason)) ∨
    ∃ leaf refusal, Withheld tree leaf refusal ∧ failure = .refused refusal leaf.text := by
  rcases discover_cases hwell path suffixes with ⟨refusal, hwithheld, heq⟩ | ⟨-, -, reason, heq⟩ |
    ⟨-, -, leaf, refusal, hleaf, heq⟩ | ⟨-, -, found, heq, -⟩ <;> rw [heq] at herror <;>
    cases herror
  · exact .inr ⟨path, refusal, hwithheld, rfl⟩
  · exact .inl ⟨_, rfl⟩
  · exact .inr ⟨leaf, refusal, hleaf, rfl⟩

theorem Discovered.unique {found other : List Path} (h : Discovered tree path suffixes found)
    (h' : Discovered tree path suffixes other) : found = other := by
  have hne : ∀ {a b : Path}, a.Before b → a ≠ b := by
    rintro a b hbefore rfl
    exact hbefore.asymm hbefore
  have hperm : found.Perm other :=
    (List.perm_ext_iff_of_nodup (h.increasing.imp hne) (h'.increasing.imp hne)).mpr fun leaf =>
      (h.mem_iff leaf).trans (h'.mem_iff leaf).symm
  exact hperm.eq_of_pairwise (fun a b _ _ hab hba => absurd hba hab.asymm) h.increasing
    h'.increasing

end

/-! ## The order of the entries -/

section

variable {tree : Tree} {top : Folder} {path leaf : Path} {suffixes : List String}

theorem resolve_relisted (h : Relisted tree.top top) (hwell : Entry.WellNamed tree.top)
    (path : Path) (aim : Aim) :
    Tree.resolve { tree with top } path aim =
      (tree.resolve path aim).map fun place => Tree.placeAt top place.names := by
  rw [Tree.resolve, Tree.resolve]
  split
  · rfl
  · split
    · rfl
    · exact @Tree.follow_congr tree { tree with top } rfl (h.contentAt_eq hwell) ..

theorem withheld_relisted (h : Relisted tree.top top) (hwell : Entry.WellNamed tree.top)
    (path : Path) (refusal : Refusal) :
    Withheld { tree with top } path refusal ↔ Withheld tree path refusal := by
  rw [Withheld, Withheld, resolve_relisted h hwell]
  cases tree.resolve path .target <;> simp [Except.map]

theorem canEnter_relisted (h : Relisted tree.top top) (hwell : Entry.WellNamed tree.top)
    (path : Path) : canEnter { tree with top } path = canEnter tree path := by
  funext folder
  rw [canEnter, canEnter, resolve_relisted h hwell]
  cases tree.resolve (walked path folder) .target <;> rfl

theorem find?_relisted (h : Relisted tree.top top) (hwell : Entry.WellNamed tree.top)
    (path : Path) : Option.Rel Alike (tree.find? path) (Tree.find? { tree with top } path) := by
  rw [Tree.find?, Tree.find?, resolve_relisted h hwell]
  cases hresolve : tree.resolve path .target with
  | error refusal => exact .none
  | ok place =>
      rw [Tree.resolve_eq_placeAt hresolve]
      exact h.at?_rel hwell place.names

theorem isFolder_relisted (h : Relisted tree.top top) (hwell : Entry.WellNamed tree.top)
    (path : Path) : Tree.isFolder { tree with top } path = tree.isFolder path := by
  have hrel := find?_relisted h hwell path
  rw [Tree.isFolder, Tree.isFolder]
  generalize tree.find? path = before, Tree.find? { tree with top } path = after at hrel
  cases hrel with
  | none => rfl
  | some halike => cases halike <;> rfl

theorem isFile_relisted (h : Relisted tree.top top) (hwell : Entry.WellNamed tree.top)
    (path : Path) : Tree.isFile { tree with top } path = tree.isFile path := by
  have hrel := find?_relisted h hwell path
  rw [Tree.isFile, Tree.isFile]
  generalize tree.find? path = before, Tree.find? { tree with top } path = after at hrel
  cases hrel with
  | none => rfl
  | some halike => cases halike <;> rfl

theorem below_relisted (h : Relisted tree.top top) (hwell : Entry.WellNamed tree.top)
    {entry : Entry} (hbelow : Below tree path leaf entry) :
    ∃ other, Below { tree with top } path leaf other ∧ other.isFolder = entry.isFolder := by
  obtain ⟨entries, names, hfind, hnames, hat, rfl⟩ := hbelow
  obtain ⟨place, hresolve, hentry⟩ := Tree.find?_eq_some_iff.mp hfind
  rw [Tree.resolve_eq_placeAt hresolve] at hentry
  have hrel := find?_relisted h hwell path
  rw [hfind] at hrel
  generalize hafter : Tree.find? { tree with top } path = after at hrel
  cases hrel with
  | some halike =>
      cases halike with
      | folder hinner =>
          have hrel := hinner.at?_rel (hwell.of_at? hentry) names
          rw [hat] at hrel
          generalize hother : Entry.at? names _ = other at hrel
          cases hrel with
          | some halike =>
              exact ⟨_, ⟨_, names, hafter, hnames, hother, rfl⟩, by cases halike <;> rfl⟩

theorem blocked_relisted (h : Relisted tree.top top) (hwell : Entry.WellNamed tree.top)
    (hblocked : Blocked tree path suffixes) : Blocked { tree with top } path suffixes := by
  obtain ⟨leaf, entry, refusal, ⟨hbelow, hreached⟩, hfolder, hends, hwithheld⟩ := hblocked
  obtain ⟨other, hother, hsame⟩ := below_relisted h hwell hbelow
  rw [← canEnter_relisted h hwell] at hreached
  exact ⟨leaf, other, refusal, ⟨hother, hreached⟩, hsame.trans hfolder, hends,
    (withheld_relisted h hwell leaf refusal).mpr hwithheld⟩

theorem isSource_relisted (h : Relisted tree.top top) (hwell : Entry.WellNamed tree.top)
    (hsource : IsSource tree path suffixes leaf) :
    IsSource { tree with top } path suffixes leaf := by
  obtain ⟨⟨entry, hbelow⟩, hends, hfile⟩ := hsource
  obtain ⟨other, hother, -⟩ := below_relisted h hwell hbelow
  exact ⟨⟨other, hother⟩, hends, (isFile_relisted h hwell leaf).trans hfile⟩

/-- What is answered, other than a refusal, does not depend on the order of entries. -/
theorem discover_relisted (h : Relisted tree.top top) (hwell : Entry.WellNamed tree.top)
    {result : Except Failure (List Path)}
    (hresult : ∀ refusal text, result ≠ .error (.refused refusal text))
    (hbefore : discover tree path ⟨suffixes, none⟩ = result) :
    discover { tree with top } path ⟨suffixes, none⟩ = result := by
  have hwell' : Entry.WellNamed top := h.wellNamed hwell
  rcases discover_cases hwell path suffixes with ⟨refusal, -, hrefused⟩ | ⟨hfolder, htold, -⟩ |
      ⟨-, -, leaf, refusal, -, hrefused⟩ | ⟨hfolder, hopen, found, hok, hfound⟩
  · exact absurd (hbefore.symm.trans hrefused) (hresult _ _)
  · have hrel := find?_relisted h hwell path
    have htold' : ∀ refusal, ¬Withheld { tree with top } path refusal := fun refusal =>
      mt (withheld_relisted h hwell path refusal).mp (htold refusal)
    rw [discover_of_not_folder htold hfolder] at hbefore
    rw [discover_of_not_folder htold' ((isFolder_relisted h hwell path).trans hfolder), ← hbefore]
    generalize tree.find? path = before, Tree.find? { tree with top } path = after at hrel
    cases hrel <;> rfl
  · exact absurd (hbefore.symm.trans hrefused) (hresult _ _)
  · -- both results are sorted, and they have the same members
    obtain ⟨entries, hfind⟩ := isFolder_eq_true_iff.mp
      ((isFolder_relisted h hwell path).trans hfolder)
    have hopen' : ¬Blocked { tree with top } path suffixes :=
      mt (@blocked_relisted { tree with top } tree.top path suffixes h.symm hwell') hopen
    obtain ⟨other, hother, hsame⟩ := @discovered_of_not_blocked { tree with top } path
      suffixes entries hwell' hfind hopen'
    have hmembers : Discovered tree path suffixes other := ⟨hsame.increasing, fun leaf =>
      (hsame.mem_iff leaf).trans
        ⟨@isSource_relisted { tree with top } tree.top path leaf suffixes h.symm hwell',
          isSource_relisted h hwell⟩⟩
    rw [hother, ← hbefore, hok, hfound.unique hmembers]

end

/-- What is known of the search for the source files of a directory. -/
structure SearchAccount (tree : Tree) (path : Path) (suffixes : List String) : Prop where
  /-- It is a fault if the path leads to no directory, unless the system refuses to say so. -/
  invalid_iff : (∃ reason, discover tree path ⟨suffixes, none⟩ =
      .error (.fault (.invalidPath path.text reason))) ↔
    tree.isFolder path = false ∧ ∀ refusal, ¬Withheld tree path refusal
  /-- Paths are found if it leads to one, unless the system refuses to say what one of them is. -/
  found_iff : (∃ found, discover tree path ⟨suffixes, none⟩ = .ok found) ↔
    tree.isFolder path = true ∧ ¬Blocked tree path suffixes
  /-- They are all the source files, in their order. -/
  found : ∀ found, discover tree path ⟨suffixes, none⟩ = .ok found →
    Discovered tree path suffixes found
  /-- There is no other failure than these. -/
  failed : ∀ failure, discover tree path ⟨suffixes, none⟩ = .error failure →
    (∃ reason, failure = .fault (.invalidPath path.text reason)) ∨
    ∃ leaf refusal, Withheld tree leaf refusal ∧ failure = .refused refusal leaf.text
  /-- The order in which folders list their entries makes no difference, but for a refusal. -/
  relisted : ∀ top result, Relisted tree.top top →
    (∀ refusal text, result ≠ .error (.refused refusal text)) →
    (discover { tree with top } path ⟨suffixes, none⟩ = result ↔
      discover tree path ⟨suffixes, none⟩ = result)

/-- The source files of a directory are found unless the system refuses to say what a path leads to.
-/
theorem discover_unless_withheld (tree : Tree) (path : Path) (suffixes : List String)
    (hwell : Entry.WellNamed tree.top) : SearchAccount tree path suffixes where
  invalid_iff := invalidPath_iff hwell path suffixes
  found_iff := discover_ok_iff hwell path suffixes
  found _ hok := discovered_of_ok hwell hok
  failed _ herror := failure_cases hwell herror
  relisted top result hlisted hresult :=
    ⟨@discover_relisted { tree with top } tree.top path suffixes hlisted.symm
      (hlisted.wellNamed hwell) result hresult, discover_relisted hlisted hwell hresult⟩

/-- A link to a file counts, one with a slash after the file does not, and the order of entries makes
no difference. -/
theorem discover_linked_source :
    discover { top := [("src", .folder [("c.java", .link "b.java/"), ("b.java", .file []),
        ("a.java", .link "b.java")])] } ⟨"", ["src"]⟩ ⟨[".java"], none⟩ =
      .ok [⟨"", ["src", "a.java"]⟩, ⟨"", ["src", "b.java"]⟩] := by
  let entries : Folder :=
    [("a.java", .link "b.java"), ("b.java", .file []), ("c.java", .link "b.java/")]
  let tree : Tree := { top := [("src", .folder entries)] }
  have hentries : Entry.WellNamed entries := by
    refine Entry.wellNamed_of_entries (by decide) (by decide) fun name inner hlookup => ?_
    have hmem := Settings.mem_of_lookup hlookup
    simp [entries] at hmem
  have hwell : Entry.WellNamed tree.top := by
    refine Entry.wellNamed_of_entries (by decide) (by decide) fun name inner hlookup => ?_
    have hmem := Settings.mem_of_lookup hlookup
    obtain ⟨-, rfl⟩ : name = "src" ∧ inner = entries := by simpa [tree] using hmem
    exact hentries
  have hsorted : discover tree ⟨"", ["src"]⟩ ⟨[".java"], none⟩ =
      .ok [⟨"", ["src", "a.java"]⟩, ⟨"", ["src", "b.java"]⟩] := by
    have hleaves : leaves (canEnter tree ⟨"", ["src"]⟩) ⟨"", ["src"]⟩ entries =
        [⟨"", ["src", "a.java"]⟩, ⟨"", ["src", "b.java"]⟩, ⟨"", ["src", "c.java"]⟩] := by
      simp only [leaves, lowerLeaves, entries]
      rfl
    rw [@discover_of_folder tree ⟨"", ["src"]⟩ entries rfl, hleaves]
    exact congrArg Except.ok (List.mergeSort_of_pairwise (by decide))
  have hlisted : Relisted tree.top [("src", .folder [("c.java", .link "b.java/"),
      ("b.java", .file []), ("a.java", .link "b.java")])] :=
    .inside [] [] "src" (.perm (List.reverse_perm _).symm)
  have haccount := discover_unless_withheld tree ⟨"", ["src"]⟩ [".java"] hwell
  exact (haccount.relisted _ _ hlisted (by simp)).mpr hsorted

/-- The path of a directory may be refused although it does not lead to one. -/
theorem overlong_directory_is_no_fault :
    ¬∀ (tree : Tree) (path : Path) (suffixes : List String), Entry.WellNamed tree.top →
      ((∃ reason, discover tree path ⟨suffixes, none⟩ =
          .error (.fault (.invalidPath path.text reason))) ↔ tree.isFolder path = false) := by
  intro h
  obtain ⟨name, -, hlong⟩ := Tree.exists_long_name
  have hwell : Entry.WellNamed ({} : Tree).top :=
    Entry.wellNamed_of_entries (by decide) (by decide) fun _ _ hlookup => nomatch hlookup
  have hwithheld : Withheld {} ⟨"", [name]⟩ .nameTooLong :=
    ⟨hlong {} .target (by decide), .inl rfl⟩
  have hfault := (h {} ⟨"", [name]⟩ [] hwell).mpr (not_isFolder_of_withheld hwithheld)
  exact ((invalidPath_iff hwell _ _).mp hfault).2 _ hwithheld

end JavaMetrics.Files
