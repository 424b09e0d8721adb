import JavaMetrics.Proofs.Files.Writing

/-!
# Trees without links

Where there are no links, the names of a path alone say which place it means: a double
dot goes back by one name and every other name goes on. `Tree.spot` is that place.
Following the path either arrives there, which takes a folder at every spot on the way
and no name that is too long, or it stops at the first spot where one of these is
missing; `Verdict` lists the ways, and `pass_verdict` is the one induction. It is said
for trees in which every folder may be searched, and for paths as they are read, in
which no name is empty or a dot.

From it follows what it takes to make all the folders of a path. A spot that is
missing is no obstacle, since it will have been made before it is passed, so the
request succeeds exactly if the system can be asked for the path, no name in it is too
long and no spot on the way holds a file.
-/

namespace JavaMetrics.Files

/-- The place after one more name. -/
def stepTo (here : List String) (name : String) : List String :=
  if name = ".." then here.dropLast else here ++ [name]

/-- Is none of the names empty or a dot? So it is in every path that is read. -/
def Path.Normal (path : Path) : Prop :=
  ∀ name ∈ path.names, name ≠ "" ∧ name ≠ "."

theorem Path.normal_ofText (text : String) : (Path.ofText text).Normal := by
  intro name hmem
  rw [ofText, namesOf, List.mem_filter] at hmem
  simpa using hmem.2

theorem Path.Normal.above {root : String} {above names : List String}
    (h : Path.Normal ⟨root, names⟩) (habove : above <+: names) : Path.Normal ⟨root, above⟩ :=
  fun name hmem => h name (habove.subset hmem)

theorem Path.Normal.parent {path : Path} (h : path.Normal) : path.parent.Normal :=
  h.above (List.dropLast_prefix _)

namespace Tree

/-- The place that a path means where there are no links. -/
def spot (tree : Tree) (path : Path) : List String :=
  path.names.foldl stepTo (tree.start path)

/-- Is there no link in the tree, and may every folder be searched? -/
structure LinkFree (tree : Tree) : Prop where
  no_link : ∀ place target, tree.contentAt place ≠ some (.link target)
  searched : tree.closed = []

theorem Extends.linkFree {before after : Tree} (h : before.Extends after)
    (hfree : before.LinkFree) : after.LinkFree where
  no_link place target hlink := hfree.no_link place target (h.link.1 hlink)
  searched := h.closed_eq.trans hfree.searched

theorem Extends.spot_eq {before after : Tree} (h : before.Extends after) (path : Path) :
    after.spot path = before.spot path := by
  rw [spot, spot, h.start_eq]

/-! ## Following a path -/

/-- What following names from a place can come to. -/
inductive Verdict (tree : Tree) (here names : List String) : Except Refusal Place → Prop
  | arrived (hshort : ∀ name ∈ names, name.utf8ByteSize ≤ nameLimit)
      (hway : ∀ above below, names = above ++ below → below ≠ [] →
        tree.contentAt (above.foldl stepTo here) = some .folder) :
      Verdict tree here names (.ok (placeAt tree.top (names.foldl stepTo here)))
  | missing (above below : List String) (hnames : names = above ++ below) (hbelow : below ≠ [])
      (hnone : tree.contentAt (above.foldl stepTo here) = none) :
      Verdict tree here names (.error .notFound)
  | blocked (above below : List String) {bytes : List UInt8} (hnames : names = above ++ below)
      (hbelow : below ≠ []) (hfile : tree.contentAt (above.foldl stepTo here) = some (.file bytes)) :
      Verdict tree here names (.error .notDirectory)
  | tooLong {name : String} (hmem : name ∈ names) (hlong : nameLimit < name.utf8ByteSize) :
      Verdict tree here names (.error .nameTooLong)

variable {tree : Tree} {here : List String}

/-- One more name in front, which leads to a folder. -/
theorem Verdict.cons {name : String} {rest : List String} {result : Except Refusal Place}
    (hhere : tree.contentAt here = some .folder) (hshort : name.utf8ByteSize ≤ nameLimit)
    (h : Verdict tree (stepTo here name) rest result) :
    Verdict tree here (name :: rest) result := by
  cases h with
  | arrived hrest hway =>
      refine .arrived ?_ ?_
      · intro other hmem
        rcases List.mem_cons.mp hmem with rfl | hmem
        · exact hshort
        · exact hrest other hmem
      · intro above below hnames hbelow
        cases above with
        | nil => exact hhere
        | cons first more =>
            obtain ⟨rfl, hrest⟩ := List.cons.inj hnames
            exact hway more below hrest hbelow
  | missing above below hnames hbelow hnone =>
      exact .missing (name :: above) below (by rw [hnames]; rfl) hbelow hnone
  | blocked above below hnames hbelow hfile =>
      exact .blocked (name :: above) below (by rw [hnames]; rfl) hbelow hfile
  | tooLong hmem hlong => exact .tooLong (List.mem_cons_of_mem _ hmem) hlong

theorem pass_verdict (hfree : tree.LinkFree) {aim : Aim}
    {jump : List String → List String → Except Refusal Place} {names : List String}
    (hnames : ∀ name ∈ names, name ≠ "" ∧ name ≠ ".")
    (hhere : tree.contentAt here = some .folder) :
    Verdict tree here names (tree.pass aim jump here names) := by
  induction names generalizing here with
  | nil => exact .arrived (by simp) (fun above below hnames hbelow => by simp_all)
  | cons name rest ih =>
      have hname := hnames name List.mem_cons_self
      have hrest : ∀ name ∈ rest, name ≠ "" ∧ name ≠ "." := fun other hmem =>
        hnames other (List.mem_cons_of_mem _ hmem)
      have hturn := turn_pass tree aim jump here (name :: rest)
      generalize tree.pass aim jump here (name :: rest) = result at hturn ⊢
      cases hturn with
      | slash => exact absurd rfl hname.1
      | dot => exact absurd rfl hname.2
      | denied _ _ hclosed => simp [hfree.searched] at hclosed
      | slashed => exact absurd rfl (hrest "" List.mem_cons_self).1
      | link _ _ hlink => exact absurd hlink (hfree.no_link _ _)
      | tooLong _ hlong => exact .tooLong List.mem_cons_self hlong
      | up => exact .cons hhere (by decide) (ih hrest (contentAt_dropLast_of_folder hhere))
      | missing hlooks hbelow hnone =>
          refine .missing [name] rest rfl hbelow ?_
          rw [List.foldl_cons, stepTo, if_neg hlooks.is_name.ne_up]
          exact hnone
      | blocked hlooks hbelow hfile =>
          have hstep : [name].foldl stepTo here = here ++ [name] := by
            rw [List.foldl_cons, List.foldl_nil, stepTo, if_neg hlooks.is_name.ne_up]
          exact .blocked [name] rest rfl hbelow (hstep ▸ hfile)
      | stop hlooks =>
          refine .cons hhere hlooks.short ?_
          rw [stepTo, if_neg hlooks.is_name.ne_up]
          exact .arrived (by simp) fun above below hnames hbelow => by simp_all
      | enter hlooks hfolder =>
          refine .cons hhere hlooks.short ?_
          rw [stepTo, if_neg hlooks.is_name.ne_up]
          exact ih hrest hfolder

theorem resolve_verdict {path : Path} (hfree : tree.LinkFree) (hgrounded : tree.Grounded)
    (hnormal : path.Normal) (haskable : Askable path) (aim : Aim) :
    Verdict tree (tree.start path) path.names (tree.resolve path aim) := by
  rw [resolve_of_askable haskable, follow_eq_pass]
  exact pass_verdict hfree hnormal (contentAt_start hgrounded path)

/-- Wherever a path leads, it is to its spot, past folders only. -/
theorem resolve_eq_ok {path : Path} {aim : Aim} {place : Place} (hfree : tree.LinkFree)
    (hgrounded : tree.Grounded) (hnormal : path.Normal) (h : tree.resolve path aim = .ok place) :
    place = placeAt tree.top (tree.spot path) ∧
    (∀ name ∈ path.names, name.utf8ByteSize ≤ nameLimit) ∧
    (∀ above below, path.names = above ++ below → below ≠ [] →
      tree.contentAt (tree.spot ⟨path.root, above⟩) = some .folder) := by
  have hverdict := resolve_verdict hfree hgrounded hnormal (askable_of_resolve h) aim
  rw [h] at hverdict
  cases hverdict with
  | arrived hshort hway => exact ⟨rfl, hshort, hway⟩

/-- Past folders and by names that are not too long, a path leads to its spot. -/
theorem resolve_of_way {path : Path} (hfree : tree.LinkFree) (hgrounded : tree.Grounded)
    (hnormal : path.Normal) (haskable : Askable path) (aim : Aim)
    (hshort : ∀ name ∈ path.names, name.utf8ByteSize ≤ nameLimit)
    (hway : ∀ above below, path.names = above ++ below → below ≠ [] →
      tree.contentAt (tree.spot ⟨path.root, above⟩) = some .folder) :
    tree.resolve path aim = .ok (placeAt tree.top (tree.spot path)) := by
  generalize hresult : tree.resolve path aim = result
  have hverdict := resolve_verdict hfree hgrounded hnormal haskable aim
  rw [hresult] at hverdict
  cases hverdict with
  | arrived => rfl
  | missing above below hnames hbelow hnone =>
      have hfolder := hway above below hnames hbelow
      rw [show tree.spot ⟨path.root, above⟩ = above.foldl stepTo (tree.start path) from rfl,
        hnone] at hfolder
      cases hfolder
  | blocked above below hnames hbelow hfile =>
      have hfolder := hway above below hnames hbelow
      rw [show tree.spot ⟨path.root, above⟩ = above.foldl stepTo (tree.start path) from rfl,
        hfile] at hfolder
      cases hfolder
  | tooLong hmem hlong =>
      have := hshort _ hmem
      omega

/-! ## Making folders -/

/-- Can the folders of a path be made? -/
structure Clear (tree : Tree) (path : Path) : Prop where
  askable : Askable path
  short : ∀ name ∈ path.names, name.utf8ByteSize ≤ nameLimit
  not_file : ∀ above, above <+: path.names → ∀ bytes,
    tree.contentAt (tree.spot ⟨path.root, above⟩) ≠ some (.file bytes)

theorem Clear.above {path : Path} {above : List String} (h : tree.Clear path)
    (habove : above <+: path.names) : tree.Clear ⟨path.root, above⟩ where
  askable := h.askable.above habove
  short name hmem := h.short name (habove.subset hmem)
  not_file other hother := h.not_file other (hother.trans habove)

theorem Clear.of_kept {before after : Tree} {path : Path} (hext : before.Extends after)
    (hkept : ∀ {place stored}, before.contentAt place = some stored →
      after.contentAt place = some stored) (h : after.Clear path) : before.Clear path where
  askable := h.askable
  short := h.short
  not_file above habove bytes hfile := by
    refine h.not_file above habove bytes ?_
    rw [hext.spot_eq]
    exact hkept hfile

/-- A file in a tree that has only grown by folders was there before. -/
theorem Grows.file_before {before after : Tree} {root : String} {names place : List String}
    {bytes : List UInt8} (h : Grows root names before after)
    (hfile : after.contentAt place = some (.file bytes)) :
    before.contentAt place = some (.file bytes) := by
  cases hbefore : before.contentAt place with
  | none =>
      rcases h.added hbefore with hnone | ⟨hfolder, -⟩
      · rw [hnone] at hfile; cases hfile
      · rw [hfolder] at hfile; cases hfile
  | some stored => rw [← h.kept hbefore, hfile]

theorem Clear.of_grows {before after : Tree} {path : Path} {root : String} {names : List String}
    (hgrows : Grows root names before after) (h : before.Clear path) : after.Clear path where
  askable := h.askable
  short := h.short
  not_file above habove bytes hfile := by
    rw [hgrows.extends_tree.spot_eq] at hfile
    exact h.not_file above habove bytes (hgrows.file_before hfile)

theorem contentAt_of_not_file (hfree : tree.LinkFree) {place : List String}
    (h : ∀ bytes, tree.contentAt place ≠ some (.file bytes)) :
    tree.contentAt place = none ∨ tree.contentAt place = some .folder := by
  cases hcontent : tree.contentAt place with
  | none => exact .inl rfl
  | some stored =>
      cases stored with
      | file bytes => exact absurd hcontent (h bytes)
      | link target => exact absurd hcontent (hfree.no_link place target)
      | folder => exact .inr rfl

/-- Where the way is there, a folder is made unless it is there already. -/
theorem ensureFolder_of_way {path : Path} (hfree : tree.LinkFree) (hgrounded : tree.Grounded)
    (hnormal : path.Normal) (hclear : tree.Clear path)
    (hway : ∀ above below, path.names = above ++ below → below ≠ [] →
      tree.contentAt (tree.spot ⟨path.root, above⟩) = some .folder) :
    (tree.ensureFolder path).2 = none ∧
      (tree.ensureFolder path).1.contentAt (tree.spot path) = some .folder := by
  have hresolve := fun aim =>
    resolve_of_way hfree hgrounded hnormal hclear.askable aim hclear.short hway
  rcases contentAt_of_not_file hfree (hclear.not_file path.names List.prefix_rfl) with
    hnone | hfolder
  · have hmade : tree.makeFolder path = .ok (tree.put (tree.spot path) (.folder [])) := by
      rw [makeFolder, hresolve .itself]
      simp only [placeAt, Entry.contentAt_eq_none_iff.mp hnone]
    have hwritable : Entry.Writable (tree.spot path) tree.top :=
      writable_of_resolve hgrounded (hresolve .itself) (.inl hnone)
    rw [ensureFolder, hmade]
    refine ⟨rfl, ?_⟩
    show (tree.put (tree.spot path) (.folder [])).contentAt (tree.spot path) = _
    rw [contentAt_put (.folder []) rfl hwritable, if_pos rfl]
    rfl
  · obtain ⟨inner, hat⟩ := Entry.contentAt_eq_folder_iff.mp hfolder
    have hat' : Entry.at? (tree.spot path) tree.top = some (.folder inner) := hat
    have hmade : tree.makeFolder path = .error .alreadyThere := by
      rw [makeFolder, hresolve .itself]
      simp only [placeAt, hat']
    have hfailure : tree.folderFailure path .alreadyThere = none := by
      rw [folderFailure, probe, hresolve .target]
      simp only [placeAt, hat']
    rw [ensureFolder, hmade]
    exact ⟨hfailure, hfolder⟩

theorem clear_of_resolve {path : Path} {aim : Aim} {place : Place} (hfree : tree.LinkFree)
    (hgrounded : tree.Grounded) (hnormal : path.Normal) (h : tree.resolve path aim = .ok place)
    (hplace : ∀ bytes, place.entry ≠ some (.file bytes)) : tree.Clear path := by
  obtain ⟨rfl, hshort, hway⟩ := resolve_eq_ok hfree hgrounded hnormal h
  refine ⟨askable_of_resolve h, hshort, ?_⟩
  rintro above ⟨below, hnames⟩ bytes hfile
  by_cases hbelow : below = []
  · subst hbelow
    rw [List.append_nil] at hnames
    subst hnames
    exact hplace bytes (Entry.contentAt_eq_file_iff.mp hfile)
  · rw [hway above below hnames.symm hbelow] at hfile
    cases hfile

/-- A folder is there in the end only if nothing was in its way. -/
theorem clear_of_ensureFolder {path : Path} (hfree : tree.LinkFree) (hgrounded : tree.Grounded)
    (hnormal : path.Normal) (h : (tree.ensureFolder path).2 = none) : tree.Clear path := by
  rw [ensureFolder] at h
  split at h
  · next made hmade =>
      rw [makeFolder] at hmade
      split at hmade
      · cases hmade
      · next place hresolve =>
          split at hmade
          · cases hmade
          · next hentry => exact clear_of_resolve hfree hgrounded hnormal hresolve (by simp [hentry])
  · cases h
  · next refusal _ hmade =>
      simp only [folderFailure, probe] at h
      split at h
      · cases h
      · next entries hprobe =>
          split at hprobe
          · next place hresolve =>
              injection hprobe with hentry
              exact clear_of_resolve hfree hgrounded hnormal hresolve (by simp [hentry])
          · split at hprobe <;> cases hprobe
      · cases h

/-- Where the way is there, all of it is there in the end. -/
theorem ensureFolder_all {path : Path} (hfree : tree.LinkFree) (hgrounded : tree.Grounded)
    (hnormal : path.Normal) (hclear : tree.Clear path)
    (hway : ∀ above below, path.names = above ++ below → below ≠ [] →
      tree.contentAt (tree.spot ⟨path.root, above⟩) = some .folder) :
    (tree.ensureFolder path).2 = none ∧ ∀ above, above <+: path.names →
      (tree.ensureFolder path).1.contentAt (tree.spot ⟨path.root, above⟩) = some .folder := by
  obtain ⟨hnone, hfolder⟩ := ensureFolder_of_way hfree hgrounded hnormal hclear hway
  refine ⟨hnone, ?_⟩
  rintro above ⟨below, hnames⟩
  by_cases hbelow : below = []
  · subst hbelow
    rw [List.append_nil] at hnames
    subst hnames
    exact hfolder
  · exact (ensureFolder_grows path hgrounded).kept (hway above below hnames.symm hbelow)

theorem ensureFoldersFrom_of_clear {root : String} {reversed : List String}
    (hfree : tree.LinkFree) (hgrounded : tree.Grounded)
    (hnormal : Path.Normal ⟨root, reversed.reverse⟩)
    (hclear : tree.Clear ⟨root, reversed.reverse⟩) :
    (ensureFoldersFrom root reversed tree).2 = none ∧
      ∀ above, above <+: reversed.reverse →
        (ensureFoldersFrom root reversed tree).1.contentAt (tree.spot ⟨root, above⟩) =
          some .folder := by
  induction reversed with
  | nil =>
      rw [ensureFoldersFrom]
      refine ensureFolder_all hfree hgrounded hnormal hclear fun above below hnames hbelow => ?_
      exact absurd (List.append_eq_nil_iff.mp hnames.symm).2 hbelow
  | cons name rest ih =>
      have hbegin : rest.reverse <+: (name :: rest).reverse := by
        rw [List.reverse_cons]
        exact List.prefix_append _ _
      rw [ensureFoldersFrom]
      split
      · -- a folder above is missing: all of them are made first
        obtain ⟨hrest, hfolders⟩ := ih (hnormal.above hbegin) (hclear.above hbegin)
        have hgrows := @ensureFoldersFrom_grows tree root rest hgrounded
        generalize ensureFoldersFrom root rest tree = made at hrest hfolders hgrows
        obtain ⟨middle, failure⟩ := made
        obtain rfl : failure = none := hrest
        have hext := hgrows.extends_tree
        have hall := ensureFolder_all (hext.linkFree hfree) (hext.grounded hgrounded)
          hnormal (hclear.of_grows hgrows) fun above below hnames hbelow => by
            have habove : above <+: rest.reverse ++ [name] := by
              rw [← List.reverse_cons]
              exact ⟨below, hnames.symm⟩
            rw [hext.spot_eq]
            rcases List.prefix_concat_iff.mp habove with hwhole | habove
            · have hself : above = above ++ below := by
                rw [← hnames, hwhole, ← List.reverse_cons]
              exact absurd (List.self_eq_append_right.mp hself) hbelow
            · exact hfolders above habove
        simp only [hext.spot_eq] at hall
        exact hall
      · next hmissing =>
          have hway : ∀ above below, (name :: rest).reverse = above ++ below → below ≠ [] →
              tree.contentAt (tree.spot ⟨root, above⟩) = some .folder := by
            have hverdict := resolve_verdict hfree hgrounded hnormal hclear.askable .itself
            generalize hresult : tree.resolve ⟨root, (name :: rest).reverse⟩ .itself = result
              at hverdict
            cases hverdict with
            | arrived hshort hway => exact hway
            | missing above below hnames hbelow hnone =>
                exact absurd (by rw [makeFolder, hresult]) hmissing
            | blocked above below hnames hbelow hfile =>
                exact absurd hfile (hclear.not_file above ⟨below, hnames.symm⟩ _)
            | tooLong hmem hlong =>
                have := hclear.short _ hmem
                omega
          exact ensureFolder_all hfree hgrounded hnormal hclear hway

theorem clear_of_ensureFoldersFrom {root : String} {reversed : List String}
    (hfree : tree.LinkFree) (hgrounded : tree.Grounded)
    (hnormal : Path.Normal ⟨root, reversed.reverse⟩)
    (h : (ensureFoldersFrom root reversed tree).2 = none) :
    tree.Clear ⟨root, reversed.reverse⟩ := by
  cases reversed with
  | nil =>
      rw [ensureFoldersFrom] at h
      exact clear_of_ensureFolder hfree hgrounded hnormal h
  | cons name rest =>
      rw [ensureFoldersFrom] at h
      split at h
      · have hgrows := @ensureFoldersFrom_grows tree root rest hgrounded
        split at h
        · cases h
        · next middle heq =>
            rw [heq] at hgrows
            have hext := hgrows.extends_tree
            exact (clear_of_ensureFolder (hext.linkFree hfree) (hext.grounded hgrounded) hnormal
              h).of_kept hext hgrows.kept
      · exact clear_of_ensureFolder hfree hgrounded hnormal h

/-- The folders of a path can be made exactly if the way is clear, and then they are all there. -/
theorem ensureFolders_eq_none_iff {path : Path} (hfree : tree.LinkFree)
    (hgrounded : tree.Grounded) (hnormal : path.Normal) :
    (tree.ensureFolders path).2 = none ↔ tree.Clear path := by
  have hreverse : (⟨path.root, path.names.reverse.reverse⟩ : Path) = path := by
    rw [List.reverse_reverse]
  constructor
  · intro h
    have hclear := clear_of_ensureFoldersFrom hfree hgrounded (by rwa [hreverse]) h
    rwa [hreverse] at hclear
  · intro h
    rw [← hreverse] at h hnormal
    exact (ensureFoldersFrom_of_clear hfree hgrounded hnormal h).1

theorem contentAt_ensureFolders {path : Path} {above : List String} (hfree : tree.LinkFree)
    (hgrounded : tree.Grounded) (hnormal : path.Normal) (hclear : tree.Clear path)
    (habove : above <+: path.names) :
    (tree.ensureFolders path).1.contentAt (tree.spot ⟨path.root, above⟩) = some .folder := by
  have hreverse : (⟨path.root, path.names.reverse.reverse⟩ : Path) = path := by
    rw [List.reverse_reverse]
  rw [← hreverse] at hclear hnormal
  refine (ensureFoldersFrom_of_clear hfree hgrounded hnormal hclear).2 above ?_
  rwa [List.reverse_reverse]

/-- What is new when folders have been made is at the spots of the path. -/
theorem Grows.added_spot {before after : Tree} {root : String} {names place : List String}
    {stored : Content} (h : Grows root names before after) (hfree : before.LinkFree)
    (hgrounded : before.Grounded) (hnormal : Path.Normal ⟨root, names⟩)
    (hnone : before.contentAt place = none)
    (hsome : after.contentAt place = some stored) :
    stored = .folder ∧ ∃ above, above <+: names ∧ place = before.spot ⟨root, above⟩ := by
  rcases h.added hnone with hnone | ⟨hfolder, above, habove, hresolve⟩
  · rw [hnone] at hsome
    cases hsome
  · rw [hfolder] at hsome
    have hext := h.extends_tree
    obtain ⟨hplace, -⟩ := resolve_eq_ok (hext.linkFree hfree) (hext.grounded hgrounded)
      (hnormal.above habove) hresolve
    refine ⟨(Option.some.inj hsome).symm, above, habove, ?_⟩
    rw [← hext.spot_eq]
    exact congrArg Place.names hplace

end Tree

end JavaMetrics.Files
