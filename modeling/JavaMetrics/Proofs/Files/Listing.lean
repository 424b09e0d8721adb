import JavaMetrics.Files.Discovery
import JavaMetrics.Proofs.Files.Places

/-!
# What is below a folder

`leaves` walks through a folder and lists what is in it and in the folders below. The
entries of a folder have different names, so an entry is known by the names that lead
to it: `mem_leaves` says that the walk comes to every entry that is not a folder, if
the folders on the way can be entered, and `nodup_leaves` that it comes to each of
them once.

A folder has its entries in some order, which nobody chooses. `Relisted` changes the
order, in the folder itself or in one below it. The same is stored at every place
then, and `Tree.follow_congr` says that no path leads elsewhere because of that.
-/

namespace JavaMetrics.Files

open Settings (keysOf)

/-- The path with some more names. -/
def Path.below (path : Path) (names : List String) : Path :=
  { path with names := path.names ++ names }

theorem Path.below_child (path : Path) (name : String) (names : List String) :
    (path.child name).below names = path.below (name :: names) := by
  simp [below, child]

theorem Path.below_inj {path : Path} {names others : List String} :
    path.below names = path.below others ↔ names = others := by
  simp [below]

theorem lookup_eq_some_iff {entries : Folder} (hnodup : (keysOf entries).Nodup) {name : String}
    {entry : Entry} : entries.lookup name = some entry ↔ (name, entry) ∈ entries := by
  refine ⟨Settings.mem_of_lookup, fun hmem => ?_⟩
  induction entries with
  | nil => cases hmem
  | cons first rest ih =>
      rw [Settings.keysOf_cons, List.nodup_cons] at hnodup
      rw [Settings.lookup_cons_eq]
      rcases List.mem_cons.mp hmem with rfl | hmem
      · exact if_pos rfl
      · rw [if_neg ?_]
        · exact ih hnodup.2 hmem
        · rintro rfl
          exact hnodup.1 (List.mem_map.mpr ⟨_, hmem, rfl⟩)

namespace Entry

/-- Are the names in a folder distinct, as in all folders below it, and is none of them empty or one or
two dots? -/
def WellNamed (top : Folder) : Prop :=
  ∀ place inner, at? place top = some (.folder inner) →
    (keysOf inner).Nodup ∧ ∀ name ∈ keysOf inner, IsName name

variable {top inner : Folder} {name : String}

theorem WellNamed.nodup (h : WellNamed top) : (keysOf top).Nodup :=
  (h [] top (at?_nil top)).1

theorem WellNamed.of_at? {place : List String} (h : WellNamed top)
    (hat : at? place top = some (.folder inner)) : WellNamed inner := by
  intro below deep hbelow
  refine h (place ++ below) deep ?_
  rw [at?_append, hat]
  exact hbelow

theorem WellNamed.of_lookup (h : WellNamed top) (hlookup : top.lookup name = some (.folder inner)) :
    WellNamed inner := by
  refine @h.of_at? _ _ [name] ?_
  rw [at?_cons, hlookup]
  exact at?_nil inner

theorem at?_cons_of_ne {first : String × Entry} {rest : Folder} {below : List String}
    (h : name ≠ first.1) : at? (name :: below) (first :: rest) = at? (name :: below) rest := by
  rw [at?_cons, at?_cons, Settings.lookup_cons_eq, if_neg h]

theorem at?_cons_self (entry : Entry) (rest : Folder) (below : List String) :
    at? (name :: below) ((name, entry) :: rest) = descend below entry := by
  rw [at?_cons, Settings.lookup_cons_eq, if_pos rfl]
  rfl

/-- Whatever is found below a name, the name is one of the folder's. -/
theorem mem_keysOf_of_at? {below : List String} {entry : Entry}
    (h : at? (name :: below) top = some entry) : name ∈ keysOf top := by
  by_contra hmem
  rw [at?_cons, Settings.lookup_eq_none.mpr hmem] at h
  cases h

/-- Nothing is below an entry that is no folder. -/
theorem at?_beside (entry : Entry) (hentry : entry.isFolder = false) {rest : Folder}
    (hname : name ∉ keysOf rest) (first next : String) (more : List String) :
    at? (first :: next :: more) ((name, entry) :: rest) = at? (first :: next :: more) rest := by
  by_cases hfirst : first = name
  · subst hfirst
    rw [at?_cons_self, at?_cons, Settings.lookup_eq_none.mpr hname]
    cases entry with
    | folder inner => cases hentry
    | file bytes => rfl
    | link target => rfl
  · exact at?_cons_of_ne hfirst

theorem WellNamed.tail {first : String × Entry} (h : WellNamed (first :: top)) :
    WellNamed top := by
  have hnodup := h.nodup
  have hnames := (h [] _ (at?_nil _)).2
  rw [Settings.keysOf_cons] at hnames hnodup
  rw [List.nodup_cons] at hnodup
  intro place deep hat
  cases place with
  | nil =>
      rw [at?_nil] at hat
      cases hat
      exact ⟨hnodup.2, fun name hmem => hnames name (List.mem_cons_of_mem _ hmem)⟩
  | cons name below =>
      refine h (name :: below) deep ?_
      rw [at?_cons_of_ne]
      · exact hat
      · rintro rfl
        exact hnodup.1 (mem_keysOf_of_at? hat)

theorem wellNamed_of_entries (hnodup : (keysOf top).Nodup)
    (hnames : ∀ name ∈ keysOf top, IsName name)
    (h : ∀ name inner, top.lookup name = some (.folder inner) → WellNamed inner) :
    WellNamed top := by
  intro place inner hat
  cases place with
  | nil =>
      rw [at?_nil] at hat
      cases hat
      exact ⟨hnodup, hnames⟩
  | cons name rest =>
      rw [at?_cons] at hat
      cases hlookup : top.lookup name with
      | none => simp [hlookup] at hat
      | some found =>
          rw [hlookup] at hat
          cases found with
          | folder deep => exact h name deep hlookup rest inner hat
          | file bytes => simp [descend] at hat
          | link target => simp [descend] at hat

/-- All names on the way to an entry are names of entries. -/
theorem WellNamed.isName_of_at? {names : List String} {entry : Entry} (h : WellNamed top)
    (hat : at? names top = some entry) : ∀ name ∈ names, IsName name := by
  induction names generalizing top with
  | nil => exact fun name hmem => absurd hmem List.not_mem_nil
  | cons first rest ih =>
      intro name hmem
      have hfirst := mem_keysOf_of_at? hat
      rcases List.mem_cons.mp hmem with rfl | hmem
      · exact (h [] top (at?_nil top)).2 name hfirst
      · rw [at?_cons] at hat
        cases hlookup : top.lookup first with
        | none => simp [hlookup] at hat
        | some found =>
            cases found with
            | folder inner =>
                rw [hlookup] at hat
                exact ih (h.of_lookup hlookup) hat name hmem
            | file bytes => simp [hlookup, descend, List.ne_nil_of_mem hmem] at hat
            | link target => simp [hlookup, descend, List.ne_nil_of_mem hmem] at hat

end Entry

/-! ## The walk -/

section

open Entry (WellNamed at?)

variable {path leaf : Path} {entries : Folder}

theorem mem_ownLeaves : leaf ∈ ownLeaves path entries ↔
    ∃ name entry, (name, entry) ∈ entries ∧ entry.isFolder = false ∧ leaf = path.child name := by
  constructor
  · intro hmem
    obtain ⟨⟨name, entry⟩, hentry, rfl⟩ := List.mem_map.mp hmem
    obtain ⟨hmem, hfolder⟩ := List.mem_filter.mp hentry
    exact ⟨name, entry, hmem, by simpa using hfolder, rfl⟩
  · rintro ⟨name, entry, hmem, hfolder, rfl⟩
    exact List.mem_map.mpr ⟨(name, entry), List.mem_filter.mpr ⟨hmem, by simp [hfolder]⟩, rfl⟩

/-- The entry of a folder at one name. -/
theorem at?_single (hnodup : (keysOf entries).Nodup) {name : String} {entry : Entry} :
    at? [name] entries = some entry ↔ (name, entry) ∈ entries := by
  rw [← lookup_eq_some_iff hnodup, Entry.at?_cons]
  cases entries.lookup name with
  | none => simp
  | some found => cases found <;> simp [Entry.descend, Entry.at?_nil]

/-- Does the walk come to what has these names below a folder? All folders on the way have to be
entered. -/
def Reached (opens : Path → Bool) (path : Path) (names : List String) : Prop :=
  ∀ above below, names = above ++ below → above ≠ [] → below ≠ [] →
    opens (path.below above) = true

theorem reached_single (opens : Path → Bool) (path : Path) (name : String) :
    Reached opens path [name] := by
  intro above below hnames habove hbelow
  cases above with
  | nil => exact absurd rfl habove
  | cons first more =>
      obtain ⟨-, hrest⟩ := List.cons.inj hnames
      exact absurd (List.append_eq_nil_iff.mp hrest.symm).2 hbelow

theorem reached_cons {opens : Path → Bool} {name next : String} {more : List String} :
    Reached opens path (name :: next :: more) ↔
      opens (path.child name) = true ∧ Reached opens (path.child name) (next :: more) := by
  constructor
  · intro h
    refine ⟨h [name] (next :: more) rfl (by simp) (by simp), ?_⟩
    intro above below hnames _ hbelow
    rw [Path.below_child]
    exact h (name :: above) below (by rw [hnames]; rfl) (by simp) hbelow
  · rintro ⟨hopen, h⟩ above below hnames habove hbelow
    cases above with
    | nil => exact absurd rfl habove
    | cons first rest =>
        obtain ⟨rfl, hrest⟩ := List.cons.inj hnames
        rw [← Path.below_child]
        cases rest with
        | nil => simpa [Path.below] using hopen
        | cons second others => exact h _ below hrest (by simp) hbelow

variable {opens : Path → Bool}

theorem mem_lowerLeaves (hwell : WellNamed entries) : leaf ∈ lowerLeaves opens path entries ↔
    ∃ name next more entry, at? (name :: next :: more) entries = some entry ∧
      entry.isFolder = false ∧ Reached opens path (name :: next :: more) ∧
      leaf = path.below (name :: next :: more) := by
  induction path, entries using lowerLeaves.induct opens with
  | case1 path => simp [lowerLeaves, Entry.at?_cons]
  | case2 path name inner rest ihInner ihRest =>
      have hinner : WellNamed inner := hwell.of_lookup (by rw [Settings.lookup_cons_eq, if_pos rfl])
      have hname := (List.nodup_cons.mp hwell.nodup).1
      rw [lowerLeaves, List.mem_append, List.mem_ite_nil_right, List.mem_append, mem_ownLeaves,
        ihInner hinner, ihRest hwell.tail]
      constructor
      · rintro (⟨hopen, ⟨next, entry, hmem, hentry, rfl⟩ |
          ⟨next, after, more, entry, hat, hentry, hreached, rfl⟩⟩ |
          ⟨first, next, more, entry, hat, hentry, hreached, rfl⟩)
        · refine ⟨name, next, [], entry, ?_, hentry, ?_, by simp [Path.below, Path.child]⟩
          · rw [Entry.at?_cons_self]
            exact (at?_single hinner.nodup).mpr hmem
          · exact reached_cons.mpr ⟨hopen, reached_single _ _ _⟩
        · refine ⟨name, next, after :: more, entry, ?_, hentry, ?_, Path.below_child _ _ _⟩
          · rw [Entry.at?_cons_self]
            exact hat
          · exact reached_cons.mpr ⟨hopen, hreached⟩
        · refine ⟨first, next, more, entry, ?_, hentry, hreached, rfl⟩
          rw [Entry.at?_cons_of_ne]
          · exact hat
          · rintro rfl
            exact hname (Entry.mem_keysOf_of_at? hat)
      · rintro ⟨first, next, more, entry, hat, hentry, hreached, rfl⟩
        by_cases hfirst : first = name
        · subst hfirst
          rw [Entry.at?_cons_self] at hat
          obtain ⟨hopen, hreached⟩ := reached_cons.mp hreached
          cases more with
          | nil =>
              exact .inl ⟨hopen, .inl ⟨next, entry, (at?_single hinner.nodup).mp hat, hentry,
                by simp [Path.below, Path.child]⟩⟩
          | cons after more =>
              exact .inl ⟨hopen, .inr ⟨next, after, more, entry, hat, hentry, hreached,
                (Path.below_child _ _ _).symm⟩⟩
        · rw [Entry.at?_cons_of_ne hfirst] at hat
          exact .inr ⟨first, next, more, entry, hat, hentry, hreached, rfl⟩
  | case3 path name bytes rest ih =>
      have hname := (List.nodup_cons.mp hwell.nodup).1
      rw [lowerLeaves, ih hwell.tail]
      simp only [Entry.at?_beside (.file bytes) rfl hname]
  | case4 path name target rest ih =>
      have hname := (List.nodup_cons.mp hwell.nodup).1
      rw [lowerLeaves, ih hwell.tail]
      simp only [Entry.at?_beside (.link target) rfl hname]

/-- The walk comes to every entry that is not a folder, through the folders that can be entered. -/
theorem mem_leaves (hwell : WellNamed entries) : leaf ∈ leaves opens path entries ↔
    ∃ names entry, names ≠ [] ∧ at? names entries = some entry ∧ entry.isFolder = false ∧
      Reached opens path names ∧ leaf = path.below names := by
  rw [leaves, List.mem_append, mem_ownLeaves, mem_lowerLeaves hwell]
  constructor
  · rintro (⟨name, entry, hmem, hentry, rfl⟩ |
      ⟨name, next, more, entry, hat, hentry, hreached, rfl⟩)
    · exact ⟨[name], entry, List.cons_ne_nil _ _, (at?_single hwell.nodup).mpr hmem, hentry,
        reached_single _ _ _, rfl⟩
    · exact ⟨name :: next :: more, entry, List.cons_ne_nil _ _, hat, hentry, hreached, rfl⟩
  · rintro ⟨names, entry, hnames, hat, hentry, hreached, rfl⟩
    match names with
    | [] => exact absurd rfl hnames
    | [name] => exact .inl ⟨name, entry, (at?_single hwell.nodup).mp hat, hentry, rfl⟩
    | name :: next :: more => exact .inr ⟨name, next, more, entry, hat, hentry, hreached, rfl⟩

theorem nodup_ownLeaves (hnodup : (keysOf entries).Nodup) : (ownLeaves path entries).Nodup := by
  rw [ownLeaves]
  generalize hkept : List.filter _ entries = kept
  have hkeys : (keysOf kept).Nodup := by
    rw [← hkept]
    exact hnodup.sublist (List.filter_sublist.map _)
  have hmap : (kept.map fun entry => path.child entry.1) = (keysOf kept).map path.child := by
    rw [keysOf, List.map_map]
    rfl
  show (kept.map fun entry => path.child entry.1).Nodup
  rw [hmap]
  refine hkeys.map fun first second heq => ?_
  simpa [Path.child] using heq

/-- What is in a folder itself is not in a folder below it. -/
theorem disjoint_ownLeaves (hwell : WellNamed entries) :
    (ownLeaves path entries).Disjoint (lowerLeaves opens path entries) := by
  intro leaf hown hlower
  obtain ⟨name, -, -, -, rfl⟩ := mem_ownLeaves.mp hown
  obtain ⟨first, next, more, -, -, -, -, heq⟩ := (mem_lowerLeaves hwell).mp hlower
  simp [Path.child, Path.below] at heq

theorem nodup_lowerLeaves (hwell : WellNamed entries) :
    (lowerLeaves opens path entries).Nodup := by
  induction path, entries using lowerLeaves.induct opens with
  | case1 path => simp [lowerLeaves]
  | case2 path name inner rest ihInner ihRest =>
      have hinner : WellNamed inner := hwell.of_lookup (by rw [Settings.lookup_cons_eq, if_pos rfl])
      have hname := (List.nodup_cons.mp hwell.nodup).1
      rw [lowerLeaves]
      refine List.Nodup.append ?_ (ihRest hwell.tail) ?_
      · split
        · exact (nodup_ownLeaves hinner.nodup).append (ihInner hinner) (disjoint_ownLeaves hinner)
        · exact List.nodup_nil
      -- the first name tells the folder from those after it
      intro leaf hhere hrest
      obtain ⟨names, -, -, -, -, -, rfl⟩ :=
        (mem_leaves hinner).mp (List.mem_ite_nil_right.mp hhere).2
      obtain ⟨first, next, more, entry, hat, -, -, heq⟩ := (mem_lowerLeaves hwell.tail).mp hrest
      rw [Path.below_child, Path.below_inj] at heq
      obtain ⟨rfl, -⟩ := List.cons.inj heq
      exact hname (Entry.mem_keysOf_of_at? hat)
  | case3 path name bytes rest ih =>
      rw [lowerLeaves]
      exact ih hwell.tail
  | case4 path name target rest ih =>
      rw [lowerLeaves]
      exact ih hwell.tail

theorem nodup_leaves (hwell : WellNamed entries) : (leaves opens path entries).Nodup :=
  (nodup_ownLeaves hwell.nodup).append (nodup_lowerLeaves hwell) (disjoint_ownLeaves hwell)

end

/-! ## The order of the entries -/

/-- Do two folders hold the same, if the order of entries does not count, neither theirs nor that of
folders below them? -/
inductive Relisted : Folder → Folder → Prop
  | perm {entries others : Folder} (h : entries.Perm others) : Relisted entries others
  | inside (before after : Folder) (name : String) {inner other : Folder}
      (h : Relisted inner other) :
      Relisted (before ++ (name, .folder inner) :: after) (before ++ (name, .folder other) :: after)
  | trans {first second third : Folder} (h : Relisted first second) (h' : Relisted second third) :
      Relisted first third

/-- Are two entries the same but for the order of entries in them? -/
inductive Alike : Entry → Entry → Prop
  | file (bytes : List UInt8) : Alike (.file bytes) (.file bytes)
  | link (target : String) : Alike (.link target) (.link target)
  | folder {inner other : Folder} (h : Relisted inner other) : Alike (.folder inner) (.folder other)

theorem Alike.refl (entry : Entry) : Alike entry entry := by
  cases entry with
  | file bytes => exact .file bytes
  | link target => exact .link target
  | folder inner => exact .folder (.perm (.refl inner))

theorem Alike.trans {first second third : Entry} (h : Alike first second)
    (h' : Alike second third) : Alike first third := by
  cases h with
  | file bytes => exact h'
  | link target => exact h'
  | folder h =>
      cases h' with
      | folder h' => exact .folder (h.trans h')

theorem Alike.content_eq {entry other : Entry} (h : Alike entry other) :
    entry.content = other.content := by
  cases h <;> rfl

namespace Relisted

variable {entries others : Folder}

theorem keysOf_perm (h : Relisted entries others) : (keysOf entries).Perm (keysOf others) := by
  induction h with
  | perm h => exact h.map _
  | inside before after name h ih => simp [keysOf]
  | trans h h' ih ih' => exact ih.trans ih'

theorem symm (h : Relisted entries others) : Relisted others entries := by
  induction h with
  | perm h => exact .perm h.symm
  | inside before after name h ih => exact .inside before after name ih
  | trans h h' ih ih' => exact ih'.trans ih

theorem lookup_eq_of_mem_iff {name : String} (hentries : (keysOf entries).Nodup)
    (hothers : (keysOf others).Nodup)
    (h : ∀ entry, (name, entry) ∈ entries ↔ (name, entry) ∈ others) :
    entries.lookup name = others.lookup name := by
  ext entry
  rw [lookup_eq_some_iff hentries, lookup_eq_some_iff hothers, h]

theorem optionRel_refl (found : Option Entry) : Option.Rel Alike found found := by
  cases found with
  | none => exact .none
  | some entry => exact .some (.refl entry)

theorem optionRel_trans {first second third : Option Entry} (h : Option.Rel Alike first second)
    (h' : Option.Rel Alike second third) : Option.Rel Alike first third := by
  cases h with
  | none => exact h'
  | some h =>
      cases h' with
      | some h' => exact .some (h.trans h')

theorem wellNamed_of_rel (hwell : Entry.WellNamed entries)
    (h : ∀ place, Option.Rel Alike (Entry.at? place entries) (Entry.at? place others)) :
    Entry.WellNamed others := by
  intro place inner hat
  have hrel := h place
  rw [hat] at hrel
  generalize hbefore : Entry.at? place entries = before at hrel
  cases hrel with
  | some halike =>
      cases halike with
      | folder hinner =>
          obtain ⟨hnodup, hnames⟩ := hwell place _ hbefore
          have hperm := hinner.keysOf_perm
          exact ⟨hperm.nodup_iff.mp hnodup, fun name hmem => hnames name (hperm.mem_iff.mpr hmem)⟩

/-- The same is found at every place. -/
theorem at?_rel (h : Relisted entries others) (hwell : Entry.WellNamed entries)
    (place : List String) :
    Option.Rel Alike (Entry.at? place entries) (Entry.at? place others) := by
  induction h generalizing place with
  | @perm entries others h =>
      cases place with
      | nil =>
          rw [Entry.at?_nil, Entry.at?_nil]
          exact .some (.folder (.perm h))
      | cons name below =>
          have hlookup : entries.lookup name = others.lookup name :=
            lookup_eq_of_mem_iff hwell.nodup ((h.map _).nodup_iff.mp hwell.nodup)
              fun entry => h.mem_iff
          rw [Entry.at?_cons, Entry.at?_cons, hlookup]
          exact optionRel_refl _
  | @inside before after name inner other h ih =>
      have hperm := (Relisted.inside before after name h).keysOf_perm
      have hnodup := hperm.nodup_iff.mp hwell.nodup
      cases place with
      | nil =>
          rw [Entry.at?_nil, Entry.at?_nil]
          exact .some (.folder (.inside before after name h))
      | cons first below =>
          rw [Entry.at?_cons, Entry.at?_cons]
          by_cases hfirst : first = name
          · subst hfirst
            have hinner := (@lookup_eq_some_iff _ hwell.nodup first (.folder inner)).mpr (by simp)
            rw [hinner, (@lookup_eq_some_iff _ hnodup first (.folder other)).mpr (by simp)]
            exact ih (hwell.of_lookup hinner) below
          · rw [lookup_eq_of_mem_iff hwell.nodup hnodup fun entry => by simp [hfirst]]
            exact optionRel_refl _
  | trans h h' ih ih' =>
      have hmiddle := wellNamed_of_rel hwell (ih hwell)
      exact optionRel_trans (ih hwell place) (ih' hmiddle place)

theorem wellNamed (h : Relisted entries others) (hwell : Entry.WellNamed entries) :
    Entry.WellNamed others :=
  wellNamed_of_rel hwell (h.at?_rel hwell)

theorem contentAt_eq (h : Relisted entries others) (hwell : Entry.WellNamed entries)
    (place : List String) : Entry.contentAt place others = Entry.contentAt place entries := by
  have hrel := h.at?_rel hwell place
  rw [Entry.contentAt, Entry.contentAt]
  generalize Entry.at? place entries = before, Entry.at? place others = after at hrel
  cases hrel with
  | none => rfl
  | some halike => exact congrArg some halike.content_eq.symm

end Relisted

namespace Tree

variable {tree other : Tree} {aim : Aim}
  {jump jump' : List String → List String → Except Refusal Place}

theorem pass_congr (hclosed : other.closed = tree.closed)
    (hcontent : ∀ place, other.contentAt place = tree.contentAt place)
    (hjump : ∀ here names, jump' here names =
      (jump here names).map fun place => placeAt other.top place.names) (here names : List String) :
    other.pass aim jump' here names =
      (tree.pass aim jump here names).map fun place => placeAt other.top place.names := by
  induction names generalizing here with
  | nil => rfl
  | cons name rest ih =>
      rw [pass_cons, pass_cons, hclosed, hcontent]
      by_cases hslash : name = ""
      · rw [if_pos hslash, if_pos hslash]
        exact ih here
      rw [if_neg hslash, if_neg hslash]
      by_cases hdenied : here ∈ tree.closed
      · rw [if_pos hdenied, if_pos hdenied]
        rfl
      rw [if_neg hdenied, if_neg hdenied]
      by_cases hdot : name = "."
      · rw [if_pos hdot, if_pos hdot]
        exact ih here
      rw [if_neg hdot, if_neg hdot]
      by_cases hup : name = ".."
      · rw [if_pos hup, if_pos hup]
        exact ih here.dropLast
      rw [if_neg hup, if_neg hup]
      by_cases hslashed : aim = .file ∧ rest = [""]
      · rw [if_pos hslashed, if_pos hslashed]
        rfl
      rw [if_neg hslashed, if_neg hslashed]
      by_cases hlong : nameLimit < name.utf8ByteSize
      · rw [if_pos hlong, if_pos hlong]
        rfl
      rw [if_neg hlong, if_neg hlong]
      split
      · split <;> rfl
      · exact ih _
      · split <;> rfl
      · split
        · rfl
        · exact hjump _ _

/-- Where a path leads depends on what is stored at the places and which of them may be searched. -/
theorem follow_congr (hclosed : other.closed = tree.closed)
    (hcontent : ∀ place, other.contentAt place = tree.contentAt place) (aim : Aim) (links : Nat)
    (here names : List String) :
    other.follow aim links here names =
      (tree.follow aim links here names).map fun place => placeAt other.top place.names := by
  induction links generalizing here names with
  | zero =>
      rw [follow, follow]
      refine pass_congr hclosed hcontent ?_ here names
      intro _ _
      rfl
  | succ links ih =>
      rw [follow, follow]
      exact pass_congr hclosed hcontent ih here names

end Tree

end JavaMetrics.Files
