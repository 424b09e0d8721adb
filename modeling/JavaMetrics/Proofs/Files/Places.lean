import JavaMetrics.Files.Access
import JavaMetrics.Proofs.Settings.Tables

/-!
# Places

What a change of a tree does is said place by place. `Tree.contentAt` tells what is
stored at a place, and of a folder no more than that it is one, so that a change
inside a folder is not a change of the folder. `contentAt_put` is the one fact about
writing: an entry that is put at a place whose folder is there changes that place
and no other.

Paths are followed through the tree, and where a path leads depends on the tree only
through the contents of places and the folders that may not be searched. `Tree.Turn`
says once what the first of some names can come to, and `Tree.Arrives` how all of
them lead to a place, with one constructor for each way to take a step. A tree that
grows keeps its folders and links, so every path that led somewhere leads to the same
place as before, `resolve_of_extends`. This is what makes it possible to speak of the
place of a path while files are written.
-/

namespace JavaMetrics.Files

/-- What is stored at a place. -/
inductive Content where
  | file (bytes : List UInt8)
  | link (target : String)
  | folder
deriving DecidableEq, Repr

namespace Entry

def content : Entry → Content
  | file bytes => .file bytes
  | link target => .link target
  | folder _ => .folder

/-- Can an entry go by the name? -/
structure IsName (name : String) : Prop where
  ne_slash : name ≠ ""
  ne_dot : name ≠ "."
  ne_up : name ≠ ".."

instance (name : String) : Decidable (IsName name) :=
  decidable_of_iff (name ≠ "" ∧ name ≠ "." ∧ name ≠ "..")
    ⟨fun h => ⟨h.1, h.2.1, h.2.2⟩, fun h => ⟨h.ne_slash, h.ne_dot, h.ne_up⟩⟩

/-- What a place below a folder has stored. -/
def contentAt (place : List String) (top : Folder) : Option Content :=
  (at? place top).map content

/-! ## Reading a place -/

/-- What is found at a place below an entry. -/
def descend (place : List String) : Entry → Option Entry
  | folder inner => at? place inner
  | entry => if place = [] then some entry else none

theorem at?_nil (top : Folder) : at? [] top = some (.folder top) := by
  rw [at?]

theorem at?_cons (name : String) (rest : List String) (top : Folder) :
    at? (name :: rest) top = (top.lookup name).bind (descend rest) := by
  rw [at?]
  cases top.lookup name with
  | none => rfl
  | some entry => cases entry <;> cases rest <;> simp [descend, at?_nil]

theorem at?_append (above below : List String) (top : Folder) :
    at? (above ++ below) top = (at? above top).bind (descend below) := by
  induction above generalizing top with
  | nil => rw [List.nil_append, at?_nil]; rfl
  | cons name rest ih =>
      rw [List.cons_append, at?_cons, at?_cons, Option.bind_assoc]
      congr 1
      funext entry
      cases entry with
      | folder inner => exact ih inner
      | file bytes => cases rest <;> simp [descend]
      | link target => cases rest <;> simp [descend]

theorem contentAt_nil (top : Folder) : contentAt [] top = some .folder := by
  rw [contentAt, at?_nil]; rfl

theorem contentAt_eq_none_iff {place : List String} {top : Folder} :
    contentAt place top = none ↔ at? place top = none := by
  simp [contentAt]

theorem contentAt_eq_folder_iff {place : List String} {top : Folder} :
    contentAt place top = some .folder ↔ ∃ inner, at? place top = some (.folder inner) := by
  rw [contentAt]
  cases at? place top with
  | none => simp
  | some entry => cases entry <;> simp [content]

theorem contentAt_eq_file_iff {place : List String} {top : Folder} {bytes : List UInt8} :
    contentAt place top = some (.file bytes) ↔ at? place top = some (.file bytes) := by
  rw [contentAt]
  cases at? place top with
  | none => simp
  | some entry => cases entry <;> simp [content]

theorem contentAt_eq_link_iff {place : List String} {top : Folder} {target : String} :
    contentAt place top = some (.link target) ↔ at? place top = some (.link target) := by
  rw [contentAt]
  cases at? place top with
  | none => simp
  | some entry => cases entry <;> simp [content]

/-- Whatever is stored at a place, the places on the way to it are folders. -/
theorem contentAt_above {above below : List String} {top : Folder} {stored : Content}
    (hbelow : below ≠ []) (h : contentAt (above ++ below) top = some stored) :
    contentAt above top = some .folder := by
  rw [contentAt, at?_append] at h
  rw [contentAt_eq_folder_iff]
  cases hat : at? above top with
  | none => simp [hat] at h
  | some entry =>
      cases entry with
      | folder inner => exact ⟨inner, rfl⟩
      | file bytes => simp [hat, descend, hbelow] at h
      | link target => simp [hat, descend, hbelow] at h

theorem contentAt_dropLast {place : List String} {top : Folder} {stored : Content}
    (h : contentAt place top = some stored) : place = [] ∨
      contentAt place.dropLast top = some .folder := by
  rcases List.eq_nil_or_concat place with rfl | ⟨above, name, rfl⟩
  · exact .inl rfl
  · rw [List.concat_eq_append] at h ⊢
    rw [List.dropLast_concat]
    exact .inr (contentAt_above (List.cons_ne_nil _ _) h)

/-! ## Writing at a place -/

theorem put_single (entry : Entry) (name : String) (top : Folder) :
    put entry [name] top = Settings.assign name entry top := by
  induction top with
  | nil => rw [put, Settings.assign]
  | cons first rest ih => rw [put, Settings.assign, ih]

theorem put_cons_of_ne (entry : Entry) {name n : String} (h : name ≠ n) (next : String)
    (more : List String) (old : Entry) (rest : Folder) :
    put entry (name :: next :: more) ((n, old) :: rest) =
      (n, old) :: put entry (name :: next :: more) rest := by
  cases old <;> rw [put] <;> simp [Ne.symm h]

theorem lookup_put_below (entry : Entry) (name next other : String) (more : List String)
    {top inner : Folder} (h : top.lookup name = some (.folder inner)) :
    (put entry (name :: next :: more) top).lookup other =
      if other = name then some (.folder (put entry (next :: more) inner))
      else top.lookup other := by
  induction top with
  | nil => cases h
  | cons first rest ih =>
      obtain ⟨n, old⟩ := first
      rw [Settings.lookup_cons_eq] at h
      by_cases hn : name = n
      · subst hn
        rw [if_pos rfl] at h
        obtain rfl : old = .folder inner := Option.some.inj h
        rw [put, if_pos (beq_self_eq_true _), Settings.lookup_cons_eq, Settings.lookup_cons_eq]
        split <;> rfl
      · rw [if_neg hn] at h
        rw [put_cons_of_ne entry hn, Settings.lookup_cons_eq, Settings.lookup_cons_eq, ih h]
        by_cases ho : other = n
        · rw [if_pos ho, if_pos ho, if_neg (by rw [ho]; exact Ne.symm hn)]
        · rw [if_neg ho, if_neg ho]

/-- A place below a folder is a place in what the folder holds. -/
theorem contentAt_cons_of_lookup {name : String} {top inner : Folder}
    (h : top.lookup name = some (.folder inner)) (place : List String) :
    contentAt (name :: place) top = contentAt place inner := by
  rw [contentAt, at?_cons, h]
  rfl

theorem contentAt_single (name : String) (top : Folder) :
    contentAt [name] top = (top.lookup name).map content := by
  rw [contentAt, at?_cons]
  cases top.lookup name with
  | none => rfl
  | some entry => cases entry <;> simp [descend, at?_nil, content]

theorem exists_inner {name next : String} {more : List String} {top : Folder}
    (h : contentAt (name :: next :: more).dropLast top = some .folder) :
    ∃ inner, top.lookup name = some (.folder inner) ∧
      contentAt (next :: more).dropLast inner = some .folder := by
  rw [List.dropLast_cons_of_ne_nil (List.cons_ne_nil _ _)] at h
  have hfolder : contentAt [name] top = some .folder := by
    by_cases hmore : (next :: more).dropLast = []
    · rwa [hmore] at h
    · exact @contentAt_above [name] _ _ _ hmore h
  rw [contentAt_single] at hfolder
  cases hlookup : top.lookup name with
  | none => simp [hlookup] at hfolder
  | some old =>
      cases old with
      | folder inner =>
          rw [contentAt_cons_of_lookup hlookup] at h
          exact ⟨inner, rfl, h⟩
      | file bytes => simp [hlookup, content] at hfolder
      | link target => simp [hlookup, content] at hfolder

/-- Is there nothing below the entry, and is it no link? Such entries are written. -/
def IsPlain : Entry → Prop
  | file _ => True
  | link _ => False
  | folder inner => inner = []

theorem descend_of_isPlain {entry : Entry} (h : entry.IsPlain) {place : List String}
    (hplace : place ≠ []) : descend place entry = none := by
  cases entry with
  | folder inner =>
      obtain rfl : inner = [] := h
      cases place with
      | nil => exact absurd rfl hplace
      | cons name rest => rw [descend, at?_cons]; rfl
  | file bytes => simp [descend, hplace]
  | link target => exact absurd h id

/-- Can an entry be written at the place? The folder that it is in must be there, and nothing but a
file may be overwritten. -/
structure Writable (names : List String) (top : Folder) : Prop where
  ne_nil : names ≠ []
  above : contentAt names.dropLast top = some .folder
  free : contentAt names top = none ∨ ∃ bytes, contentAt names top = some (.file bytes)

theorem Writable.ne_folder {names : List String} {top : Folder} (h : Writable names top) :
    contentAt names top ≠ some .folder := by
  rcases h.free with hnone | ⟨bytes, hfile⟩
  · simp [hnone]
  · simp [hfile]

theorem Writable.ne_link {names : List String} {top : Folder} (h : Writable names top)
    (target : String) : contentAt names top ≠ some (.link target) := by
  rcases h.free with hnone | ⟨bytes, hfile⟩
  · simp [hnone]
  · simp [hfile]

theorem Writable.inner {name next : String} {more : List String} {top : Folder}
    (h : Writable (name :: next :: more) top) :
    ∃ inner, top.lookup name = some (.folder inner) ∧ Writable (next :: more) inner := by
  obtain ⟨inner, hlookup, hinner⟩ := exists_inner h.above
  have hfree := h.free
  rw [contentAt_cons_of_lookup hlookup] at hfree
  exact ⟨inner, hlookup, List.cons_ne_nil _ _, hinner, hfree⟩

theorem contentAt_put_single (entry : Entry) (hplain : entry.IsPlain) {name : String}
    {top : Folder} (h : Writable [name] top) (place : List String) :
    contentAt place (put entry [name] top) =
      if place = [name] then some entry.content else contentAt place top := by
  cases place with
  | nil => simp [contentAt_nil]
  | cons first below =>
      rw [contentAt, at?_cons, put_single, Settings.lookup_assign, contentAt, at?_cons]
      by_cases hfirst : first = name
      · subst hfirst
        rw [if_pos rfl, Option.bind_some]
        by_cases hbelow : below = []
        · subst hbelow
          cases entry <;> simp [descend, at?_nil, content]
        · -- nothing is below what was there, since that is no folder
          rw [descend_of_isPlain hplain hbelow, if_neg (by simp [hbelow])]
          have hold := h.ne_folder
          rw [contentAt_single] at hold
          cases hlookup : top.lookup first with
          | none => rfl
          | some old =>
              cases old with
              | folder inner => simp [hlookup, content] at hold
              | file bytes => simp [descend, hbelow]
              | link target => simp [descend, hbelow]
      · rw [if_neg hfirst, if_neg (by simp [hfirst])]

/-- An entry changes the place that it is put at, and no other. -/
theorem contentAt_put (entry : Entry) (hplain : entry.IsPlain) {names : List String}
    {top : Folder} (h : Writable names top) (place : List String) :
    contentAt place (put entry names top) =
      if place = names then some entry.content else contentAt place top := by
  induction names generalizing top place with
  | nil => exact absurd rfl h.ne_nil
  | cons name rest ih =>
      cases rest with
      | nil => exact contentAt_put_single entry hplain h place
      | cons next more =>
          obtain ⟨inner, hlookup, hinner⟩ := h.inner
          cases place with
          | nil => simp [contentAt_nil]
          | cons first below =>
              have hput := lookup_put_below entry name next first more hlookup
              by_cases hfirst : first = name
              · subst hfirst
                rw [if_pos rfl] at hput
                rw [contentAt_cons_of_lookup hput, ih hinner, contentAt_cons_of_lookup hlookup]
                simp
              · rw [if_neg hfirst] at hput
                rw [contentAt, at?_cons, hput, if_neg (by simp [hfirst]), contentAt, at?_cons]

end Entry

namespace Tree

open Entry (Writable IsPlain)

/-- What a place of the tree has stored. -/
def contentAt (tree : Tree) (place : List String) : Option Content :=
  Entry.contentAt place tree.top

/-! ## Following a path -/

/-- The place with some names, and what is there. -/
def placeAt (top : Folder) (names : List String) : Place :=
  ⟨names, Entry.at? names top⟩

/-- Is a name that stands before others looked up in a folder? -/
structure LooksUp (tree : Tree) (aim : Aim) (here : List String) (name : String)
    (rest : List String) : Prop where
  is_name : Entry.IsName name
  searched : here ∉ tree.closed
  no_slash : ¬(aim = .file ∧ rest = [""])
  short : name.utf8ByteSize ≤ nameLimit

section

variable {tree : Tree} {aim : Aim} {jump : List String → List String → Except Refusal Place}
  {here rest names place : List String} {name : String} {links : Nat}

/-- A step looks at the tree only for what the next place has stored. -/
theorem pass_cons : tree.pass aim jump here (name :: rest) =
    if name = "" then tree.pass aim jump here rest
    else if here ∈ tree.closed then .error .denied
    else if name = "." then tree.pass aim jump here rest
    else if name = ".." then tree.pass aim jump here.dropLast rest
    else if aim = .file ∧ rest = [""] then .error .isDirectory
    else if nameLimit < name.utf8ByteSize then .error .nameTooLong
    else
      match tree.contentAt (here ++ [name]) with
      | none =>
        if rest = [] then .ok (placeAt tree.top (here ++ [name])) else .error .notFound
      | some .folder => tree.pass aim jump (here ++ [name]) rest
      | some (.file _) =>
        if rest = [] then .ok (placeAt tree.top (here ++ [name])) else .error .notDirectory
      | some (.link target) =>
        if rest = [] ∧ aim = .itself then .ok (placeAt tree.top (here ++ [name]))
        else
          jump (if (Path.rootOf target).isEmpty then here else [])
            (Path.targetNames target ++ rest) := by
  rw [pass]
  simp only [placeAt, contentAt, Entry.contentAt, List.isEmpty_iff]
  cases Entry.at? (here ++ [name]) tree.top with
  | none => rfl
  | some entry => cases entry <;> rfl

theorem pass_slash : tree.pass aim jump here ("" :: rest) = tree.pass aim jump here rest := by
  rw [pass_cons, if_pos rfl]

theorem pass_dot (h : here ∉ tree.closed) :
    tree.pass aim jump here ("." :: rest) = tree.pass aim jump here rest := by
  rw [pass_cons, if_neg (by decide), if_neg h, if_pos rfl]

theorem pass_up (h : here ∉ tree.closed) :
    tree.pass aim jump here (".." :: rest) = tree.pass aim jump here.dropLast rest := by
  rw [pass_cons, if_neg (by decide), if_neg h, if_neg (by decide), if_pos rfl]

/-- A name that is looked up leads on by what its place has stored. -/
theorem LooksUp.pass_eq (h : LooksUp tree aim here name rest) :
    tree.pass aim jump here (name :: rest) =
      match tree.contentAt (here ++ [name]) with
      | none =>
        if rest = [] then .ok (placeAt tree.top (here ++ [name])) else .error .notFound
      | some .folder => tree.pass aim jump (here ++ [name]) rest
      | some (.file _) =>
        if rest = [] then .ok (placeAt tree.top (here ++ [name])) else .error .notDirectory
      | some (.link target) =>
        if rest = [] ∧ aim = .itself then .ok (placeAt tree.top (here ++ [name]))
        else
          jump (if (Path.rootOf target).isEmpty then here else [])
            (Path.targetNames target ++ rest) := by
  rw [pass_cons, if_neg h.is_name.ne_slash, if_neg h.searched, if_neg h.is_name.ne_dot,
    if_neg h.is_name.ne_up, if_neg h.no_slash, if_neg (Nat.not_lt_of_le h.short)]

/-- What becomes of names that are followed from a folder, up to the first of them. -/
inductive Turn (tree : Tree) (aim : Aim) (jump : List String → List String → Except Refusal Place)
    (here : List String) : List String → Except Refusal Place → Prop
  | done : Turn tree aim jump here [] (.ok (placeAt tree.top here))
  | slash (rest : List String) :
      Turn tree aim jump here ("" :: rest) (tree.pass aim jump here rest)
  | denied {name : String} (rest : List String) (hname : name ≠ "") (hclosed : here ∈ tree.closed) :
      Turn tree aim jump here (name :: rest) (.error .denied)
  | dot (rest : List String) (hsearched : here ∉ tree.closed) :
      Turn tree aim jump here ("." :: rest) (tree.pass aim jump here rest)
  | up (rest : List String) (hsearched : here ∉ tree.closed) :
      Turn tree aim jump here (".." :: rest) (tree.pass aim jump here.dropLast rest)
  | slashed (name : String) (haim : aim = .file) :
      Turn tree aim jump here [name, ""] (.error .isDirectory)
  | tooLong {name : String} (rest : List String) (hlong : nameLimit < name.utf8ByteSize) :
      Turn tree aim jump here (name :: rest) (.error .nameTooLong)
  | missing {name : String} {rest : List String} (hlooks : LooksUp tree aim here name rest)
      (hrest : rest ≠ []) (hnone : tree.contentAt (here ++ [name]) = none) :
      Turn tree aim jump here (name :: rest) (.error .notFound)
  | blocked {name : String} {rest : List String} {bytes : List UInt8}
      (hlooks : LooksUp tree aim here name rest) (hrest : rest ≠ [])
      (hfile : tree.contentAt (here ++ [name]) = some (.file bytes)) :
      Turn tree aim jump here (name :: rest) (.error .notDirectory)
  /-- The last name is not followed any further. -/
  | stop {name : String} (hlooks : LooksUp tree aim here name [])
      (hlink : aim ≠ .itself → ∀ target, tree.contentAt (here ++ [name]) ≠ some (.link target)) :
      Turn tree aim jump here [name] (.ok (placeAt tree.top (here ++ [name])))
  | enter {name : String} {rest : List String} (hlooks : LooksUp tree aim here name rest)
      (hfolder : tree.contentAt (here ++ [name]) = some .folder) :
      Turn tree aim jump here (name :: rest) (tree.pass aim jump (here ++ [name]) rest)
  | link {name target : String} {rest : List String} (hlooks : LooksUp tree aim here name rest)
      (haim : ¬(rest = [] ∧ aim = .itself))
      (hlink : tree.contentAt (here ++ [name]) = some (.link target)) :
      Turn tree aim jump here (name :: rest)
        (jump (if (Path.rootOf target).isEmpty then here else []) (Path.targetNames target ++ rest))

theorem LooksUp.turn (h : LooksUp tree aim here name rest) :
    Turn tree aim jump here (name :: rest) (tree.pass aim jump here (name :: rest)) := by
  rw [h.pass_eq]
  split
  · next hnone =>
      split
      · next hrest =>
          subst hrest
          exact .stop h (by simp [hnone])
      · next hrest => exact .missing h hrest hnone
  · next hfolder => exact .enter h hfolder
  · next bytes hfile =>
      split
      · next hrest =>
          subst hrest
          exact .stop h (by simp [hfile])
      · next hrest => exact .blocked h hrest hfile
  · next target hlink =>
      split
      · next hlast =>
          obtain ⟨rfl, haim⟩ := hlast
          exact .stop h fun hne => absurd haim hne
      · next hlast => exact .link h hlast hlink

theorem turn_pass (tree : Tree) (aim : Aim)
    (jump : List String → List String → Except Refusal Place) (here names : List String) :
    Turn tree aim jump here names (tree.pass aim jump here names) := by
  cases names with
  | nil => exact .done
  | cons name rest =>
      by_cases hslash : name = ""
      · subst hslash
        rw [pass_slash]
        exact .slash rest
      by_cases hclosed : here ∈ tree.closed
      · rw [pass_cons, if_neg hslash, if_pos hclosed]
        exact .denied rest hslash hclosed
      by_cases hdot : name = "."
      · subst hdot
        rw [pass_dot hclosed]
        exact .dot rest hclosed
      by_cases hup : name = ".."
      · subst hup
        rw [pass_up hclosed]
        exact .up rest hclosed
      by_cases hfinal : aim = .file ∧ rest = [""]
      · rw [pass_cons, if_neg hslash, if_neg hclosed, if_neg hdot, if_neg hup, if_pos hfinal]
        obtain ⟨haim, rfl⟩ := hfinal
        exact .slashed name haim
      by_cases hlong : nameLimit < name.utf8ByteSize
      · rw [pass_cons, if_neg hslash, if_neg hclosed, if_neg hdot, if_neg hup, if_neg hfinal,
          if_pos hlong]
        exact .tooLong rest hlong
      · exact LooksUp.turn ⟨⟨hslash, hdot, hup⟩, hclosed, hfinal, Nat.le_of_not_lt hlong⟩

/-- What is done behind a link when some more of them may be followed. -/
def jumpFrom (tree : Tree) (aim : Aim) :
    Nat → List String → List String → Except Refusal Place
  | 0 => fun _ _ => .error .tooManyLinks
  | links + 1 => tree.follow aim links

theorem follow_eq_pass (links : Nat) (here names : List String) :
    tree.follow aim links here names = tree.pass aim (tree.jumpFrom aim links) here names := by
  cases links <;> rw [follow, jumpFrom]

/-- Do some names lead from a folder to a place, over no more links than a number? -/
inductive Arrives (tree : Tree) (aim : Aim) :
    Nat → List String → List String → List String → Prop
  | done (links : Nat) (here : List String) : Arrives tree aim links here [] here
  | slash {links : Nat} {here rest place : List String}
      (h : Arrives tree aim links here rest place) : Arrives tree aim links here ("" :: rest) place
  | dot {links : Nat} {here rest place : List String} (hsearched : here ∉ tree.closed)
      (h : Arrives tree aim links here rest place) : Arrives tree aim links here ("." :: rest) place
  | up {links : Nat} {here rest place : List String} (hsearched : here ∉ tree.closed)
      (h : Arrives tree aim links here.dropLast rest place) :
      Arrives tree aim links here (".." :: rest) place
  /-- The last name is not followed any further. -/
  | stop (links : Nat) {here : List String} {name : String} (hlooks : LooksUp tree aim here name [])
      (hlink : aim ≠ .itself → ∀ target, tree.contentAt (here ++ [name]) ≠ some (.link target)) :
      Arrives tree aim links here [name] (here ++ [name])
  | enter {links : Nat} {here rest place : List String} {name : String}
      (hlooks : LooksUp tree aim here name rest)
      (hfolder : tree.contentAt (here ++ [name]) = some .folder)
      (h : Arrives tree aim links (here ++ [name]) rest place) :
      Arrives tree aim links here (name :: rest) place
  | link {links : Nat} {here rest place : List String} {name target : String}
      (hlooks : LooksUp tree aim here name rest) (haim : ¬(rest = [] ∧ aim = .itself))
      (hlink : tree.contentAt (here ++ [name]) = some (.link target))
      (h : Arrives tree aim links (if (Path.rootOf target).isEmpty then here else [])
        (Path.targetNames target ++ rest) place) :
      Arrives tree aim (links + 1) here (name :: rest) place

theorem Arrives.follow_eq (h : Arrives tree aim links here names place) :
    tree.follow aim links here names = .ok (placeAt tree.top place) := by
  induction h with
  | done links here => rw [follow_eq_pass]; rfl
  | slash _ ih => rwa [follow_eq_pass, pass_slash, ← follow_eq_pass]
  | dot hsearched _ ih => rwa [follow_eq_pass, pass_dot hsearched, ← follow_eq_pass]
  | up hsearched _ ih => rwa [follow_eq_pass, pass_up hsearched, ← follow_eq_pass]
  | stop links hlooks hlink =>
      rw [follow_eq_pass, hlooks.pass_eq]
      split
      · rfl
      · rw [pass]; rfl
      · rfl
      · next target hcontent =>
          refine if_pos ⟨rfl, ?_⟩
          by_contra haim
          exact hlink haim target hcontent
  | enter hlooks hfolder _ ih =>
      rw [follow_eq_pass, hlooks.pass_eq, hfolder]
      rwa [follow_eq_pass] at ih
  | link hlooks haim hlink _ ih =>
      rw [follow_eq_pass, hlooks.pass_eq, hlink]
      exact (if_neg haim).trans ih

/-- Names that are followed up to the next link lead somewhere if what is behind the link does. -/
theorem arrives_of_pass {found : Place}
    (hjump : ∀ {here names found}, jump here names = .ok found → ∃ fewer, links = fewer + 1 ∧
      found = placeAt tree.top found.names ∧ Arrives tree aim fewer here names found.names)
    (h : tree.pass aim jump here names = .ok found) :
    found = placeAt tree.top found.names ∧ Arrives tree aim links here names found.names := by
  induction names generalizing here with
  | nil =>
      cases h
      exact ⟨rfl, .done _ _⟩
  | cons name rest ih =>
      have hturn := turn_pass tree aim jump here (name :: rest)
      generalize tree.pass aim jump here (name :: rest) = result at h hturn
      cases hturn with
      | slash => exact ⟨(ih h).1, .slash (ih h).2⟩
      | dot _ hsearched => exact ⟨(ih h).1, .dot hsearched (ih h).2⟩
      | up _ hsearched => exact ⟨(ih h).1, .up hsearched (ih h).2⟩
      | stop hlooks hlink =>
          cases h
          exact ⟨rfl, .stop _ hlooks hlink⟩
      | enter hlooks hfolder => exact ⟨(ih h).1, .enter hlooks hfolder (ih h).2⟩
      | link hlooks haim hlink =>
          obtain ⟨fewer, rfl, hplace, harrives⟩ := hjump h
          exact ⟨hplace, .link hlooks haim hlink harrives⟩
      | denied => cases h
      | slashed => cases h
      | tooLong => cases h
      | missing => cases h
      | blocked => cases h

theorem arrives_of_follow {found : Place} (h : tree.follow aim links here names = .ok found) :
    found = placeAt tree.top found.names ∧ Arrives tree aim links here names found.names := by
  induction links generalizing here names found with
  | zero =>
      rw [follow_eq_pass] at h
      refine arrives_of_pass (fun hjump => ?_) h
      cases hjump
  | succ links ih =>
      rw [follow_eq_pass] at h
      exact arrives_of_pass (fun hjump => ⟨links, rfl, ih hjump⟩) h

theorem contentAt_dropLast_of_folder (h : tree.contentAt here = some .folder) :
    tree.contentAt here.dropLast = some .folder := by
  rcases Entry.contentAt_dropLast h with rfl | habove
  · exact h
  · exact habove

/-- Names that start from a folder lead to a place in a folder. -/
theorem Arrives.above (h : Arrives tree aim links here names place)
    (hhere : tree.contentAt here = some .folder) :
    place = [] ∨ tree.contentAt place.dropLast = some .folder := by
  induction h with
  | done links here => exact Entry.contentAt_dropLast hhere
  | slash _ ih => exact ih hhere
  | dot _ _ ih => exact ih hhere
  | up _ _ ih => exact ih (contentAt_dropLast_of_folder hhere)
  | stop links hlooks hlink => rw [List.dropLast_concat]; exact .inr hhere
  | enter _ hfolder _ ih => exact ih hfolder
  | link _ _ _ _ ih =>
      refine ih ?_
      split
      · exact hhere
      · exact Entry.contentAt_nil _

theorem LooksUp.for_target (h : LooksUp tree aim here name rest) (names : List String) :
    LooksUp tree .target here name names where
  is_name := h.is_name
  searched := h.searched
  no_slash := fun hfile => nomatch hfile.1
  short := h.short

/-- A path leads to the same place whatever it is followed for, unless it ends with a link. -/
theorem Arrives.for_target (h : Arrives tree aim links here names place)
    (hlink : aim = .itself → ∀ target, tree.contentAt place ≠ some (.link target)) :
    Arrives tree .target links here names place := by
  induction h with
  | done links here => exact .done _ _
  | slash _ ih => exact .slash (ih hlink)
  | dot hsearched _ ih => exact .dot hsearched (ih hlink)
  | up hsearched _ ih => exact .up hsearched (ih hlink)
  | stop links hlooks hstop =>
      refine .stop _ (hlooks.for_target []) fun _ => ?_
      by_cases haim : aim = .itself
      · exact hlink haim
      · exact hstop haim
  | enter hlooks hfolder _ ih => exact .enter (hlooks.for_target _) hfolder (ih hlink)
  | link hlooks _ htarget _ ih => exact .link (hlooks.for_target _) (by simp) htarget (ih hlink)

/-- A folder in which anything is looked up can be searched. -/
theorem Arrives.searched (h : Arrives tree aim links here (name :: rest) place)
    (hname : name ≠ "") : here ∉ tree.closed := by
  cases h with
  | slash => exact absurd rfl hname
  | dot hsearched => exact hsearched
  | up hsearched => exact hsearched
  | stop _ hlooks => exact hlooks.searched
  | enter hlooks => exact hlooks.searched
  | link hlooks => exact hlooks.searched

/-- What leads somewhere leads somewhere from its beginnings on. -/
theorem Arrives.of_append {below : List String} (h : Arrives tree .target links here names place)
    {above : List String} (hnames : names = above ++ below) :
    ∃ stop, Arrives tree .target links here above stop := by
  induction h generalizing above with
  | done links here =>
      obtain ⟨rfl, -⟩ := List.append_eq_nil_iff.mp hnames.symm
      exact ⟨_, .done _ _⟩
  | @slash links here rest place _ ih =>
      cases above with
      | nil => exact ⟨_, .done _ _⟩
      | cons first more =>
          obtain ⟨rfl, hrest⟩ := List.cons.inj hnames
          obtain ⟨stop, hstop⟩ := ih hrest
          exact ⟨stop, .slash hstop⟩
  | @dot links here rest place hsearched _ ih =>
      cases above with
      | nil => exact ⟨_, .done _ _⟩
      | cons first more =>
          obtain ⟨rfl, hrest⟩ := List.cons.inj hnames
          obtain ⟨stop, hstop⟩ := ih hrest
          exact ⟨stop, .dot hsearched hstop⟩
  | @up links here rest place hsearched _ ih =>
      cases above with
      | nil => exact ⟨_, .done _ _⟩
      | cons first more =>
          obtain ⟨rfl, hrest⟩ := List.cons.inj hnames
          obtain ⟨stop, hstop⟩ := ih hrest
          exact ⟨stop, .up hsearched hstop⟩
  | @stop links here name hlooks hlink =>
      cases above with
      | nil => exact ⟨_, .done _ _⟩
      | cons first more =>
          obtain ⟨rfl, hrest⟩ := List.cons.inj hnames
          obtain ⟨rfl, -⟩ := List.append_eq_nil_iff.mp hrest.symm
          exact ⟨_, .stop _ hlooks hlink⟩
  | @enter links here rest place name hlooks hfolder _ ih =>
      cases above with
      | nil => exact ⟨_, .done _ _⟩
      | cons first more =>
          obtain ⟨rfl, hrest⟩ := List.cons.inj hnames
          obtain ⟨stop, hstop⟩ := ih hrest
          exact ⟨stop, .enter (hlooks.for_target more) hfolder hstop⟩
  | @link links here rest place name target hlooks haim hlink _ ih =>
      cases above with
      | nil => exact ⟨_, .done _ _⟩
      | cons first more =>
          obtain ⟨rfl, rfl⟩ := List.cons.inj hnames
          obtain ⟨stop, hstop⟩ := ih (List.append_assoc _ _ _).symm
          exact ⟨stop, .link (hlooks.for_target more) (by simp) hlink hstop⟩

end

/-- Is the working directory there? -/
def Grounded (tree : Tree) : Prop :=
  tree.contentAt tree.base = some .folder

theorem contentAt_start {tree : Tree} (hgrounded : tree.Grounded) (path : Path) :
    tree.contentAt (tree.start path) = some .folder := by
  rw [start]
  split
  · exact hgrounded
  · exact Entry.contentAt_nil _

/-- Can the system be asked for the path at all? -/
structure Askable (path : Path) : Prop where
  no_null : path.hasNull = false
  short : path.text.utf8ByteSize < pathLimit

theorem hasNull_above {root : String} {above names : List String} (h : above <+: names)
    (hnull : Path.hasNull ⟨root, names⟩ = false) : Path.hasNull ⟨root, above⟩ = false := by
  rw [Path.hasNull, List.any_eq_false] at hnull ⊢
  exact fun name hmem => hnull name (h.subset hmem)

theorem text_eq (root : String) {names : List String} (h : names ≠ []) :
    Path.text ⟨root, names⟩ = root ++ "/".intercalate names := by
  rw [Path.text, if_neg (by simp [h])]

/-- A path is longer than its beginnings, but for the dot of the working directory. -/
theorem size_above {root : String} {above names : List String} (h : above <+: names) :
    (Path.text ⟨root, above⟩).utf8ByteSize ≤ max 1 (Path.text ⟨root, names⟩).utf8ByteSize := by
  obtain ⟨below, rfl⟩ := h
  by_cases hbelow : below = []
  · rw [hbelow, List.append_nil]
    exact Nat.le_max_right _ _
  rw [text_eq root (List.append_ne_nil_of_right_ne_nil above hbelow), String.utf8ByteSize_append]
  by_cases habove : above = []
  · subst habove
    by_cases hroot : root = ""
    · subst hroot
      exact Nat.le_max_left _ _
    · rw [Path.text, if_neg (by simp [hroot]), String.intercalate_nil, String.append_empty]
      show root.utf8ByteSize ≤ _
      omega
  · rw [text_eq root habove, String.intercalate_append_of_ne_nil habove hbelow]
    simp only [String.utf8ByteSize_append]
    omega

theorem Askable.above {root : String} {above names : List String} (h : Askable ⟨root, names⟩)
    (habove : above <+: names) : Askable ⟨root, above⟩ where
  no_null := hasNull_above habove h.no_null
  short := by
    have hsize := @size_above root _ _ habove
    have hshort := h.short
    have hlimit : 1 < pathLimit := by decide
    omega

section

variable {tree : Tree} {aim : Aim} {path : Path} {found : Place}

theorem resolve_of_askable (h : Askable path) :
    tree.resolve path aim = tree.follow aim linkLimit (tree.start path) path.names := by
  rw [resolve, if_neg (by simp [h.no_null]), if_neg (Nat.not_le_of_lt h.short)]

theorem askable_of_resolve (h : tree.resolve path aim = .ok found) : Askable path := by
  rw [resolve] at h
  split at h
  · cases h
  · next hnull =>
      split at h
      · cases h
      · next hsize => exact ⟨by simpa using hnull, Nat.lt_of_not_le hsize⟩

/-- The names that a path leads to from where it starts. -/
theorem arrives_of_resolve (h : tree.resolve path aim = .ok found) :
    found = placeAt tree.top found.names ∧
      Arrives tree aim linkLimit (tree.start path) path.names found.names := by
  rw [resolve_of_askable (askable_of_resolve h)] at h
  exact arrives_of_follow h

theorem resolve_eq_placeAt (h : tree.resolve path aim = .ok found) :
    found = placeAt tree.top found.names :=
  (arrives_of_resolve h).1

theorem resolve_above (hgrounded : tree.Grounded) (h : tree.resolve path aim = .ok found) :
    found.names = [] ∨ tree.contentAt found.names.dropLast = some .folder :=
  (arrives_of_resolve h).2.above (contentAt_start hgrounded path)

/-- Can it be that names are not followed to their end for this reason? -/
structure Stops (aim : Aim) (refusal : Refusal) : Prop where
  ne_null : refusal ≠ .nullInPath
  ne_there : refusal ≠ .alreadyThere
  for_file : refusal = .isDirectory → aim = .file

theorem stops_of_pass {jump : List String → List String → Except Refusal Place}
    {here names : List String} {refusal : Refusal}
    (hjump : ∀ {here names refusal}, jump here names = .error refusal → Stops aim refusal)
    (h : tree.pass aim jump here names = .error refusal) : Stops aim refusal := by
  induction names generalizing here with
  | nil => cases h
  | cons name rest ih =>
      have hturn := turn_pass tree aim jump here (name :: rest)
      generalize tree.pass aim jump here (name :: rest) = result at h hturn
      cases hturn with
      | slash => exact ih h
      | dot => exact ih h
      | up => exact ih h
      | enter => exact ih h
      | link => exact hjump h
      | slashed _ haim => cases h; exact ⟨by simp, by simp, fun _ => haim⟩
      | denied => cases h; exact ⟨by simp, by simp, by simp⟩
      | tooLong => cases h; exact ⟨by simp, by simp, by simp⟩
      | missing => cases h; exact ⟨by simp, by simp, by simp⟩
      | blocked => cases h; exact ⟨by simp, by simp, by simp⟩
      | stop => cases h

theorem stops_of_follow {links : Nat} {here names : List String} {refusal : Refusal}
    (h : tree.follow aim links here names = .error refusal) : Stops aim refusal := by
  induction links generalizing here names refusal with
  | zero =>
      rw [follow_eq_pass] at h
      refine stops_of_pass (fun hjump => ?_) h
      cases hjump
      exact ⟨by simp, by simp, by simp⟩
  | succ links ih =>
      rw [follow_eq_pass] at h
      exact stops_of_pass ih h

theorem ne_nullInPath_of_resolve {refusal : Refusal} (hnull : path.hasNull = false)
    (h : tree.resolve path aim = .error refusal) : refusal ≠ .nullInPath := by
  rw [resolve, if_neg (by simp [hnull])] at h
  split at h
  · cases h
    simp
  · exact (stops_of_follow h).ne_null

/-- Where no file is to be made, a path is refused because nothing is there, because something is too
long or because a folder may not be searched. -/
theorem refusal_of_resolve {refusal : Refusal} (haim : aim ≠ .file)
    (h : tree.resolve path aim = .error refusal) :
    refusal.isAbsence = true ∨ refusal = .nameTooLong ∨ refusal = .denied := by
  rw [resolve] at h
  split at h
  · cases h
    exact .inl rfl
  · split at h
    · cases h
      exact .inr (.inl rfl)
    · have hstops := stops_of_follow h
      cases refusal with
      | alreadyThere => exact absurd rfl hstops.ne_there
      | isDirectory => exact absurd (hstops.for_file rfl) haim
      | nameTooLong => exact .inr (.inl rfl)
      | denied => exact .inr (.inr rfl)
      | notFound => exact .inl rfl
      | notDirectory => exact .inl rfl
      | tooManyLinks => exact .inl rfl
      | nullInPath => exact .inl rfl

/-- A path in the working directory that can be asked for, with a name that is too long. -/
theorem exists_long_name : ∃ name : String, Askable ⟨"", [name]⟩ ∧
    ∀ (tree : Tree) (aim : Aim), tree.base ∉ tree.closed →
      tree.resolve ⟨"", [name]⟩ aim = .error .nameTooLong := by
  let name := String.ofList (List.replicate 256 'a')
  have haskable : Askable ⟨"", [name]⟩ := by
    refine ⟨?_, by decide +kernel⟩
    rw [Path.hasNull, List.any_cons, String.toList_ofList]
    decide +kernel
  refine ⟨name, haskable, fun tree aim hsearched => ?_⟩
  change tree.start ⟨"", [name]⟩ ∉ tree.closed at hsearched
  rw [resolve_of_askable haskable, follow_eq_pass, pass_cons, if_neg (by decide +kernel),
    if_neg hsearched, if_neg (by decide +kernel), if_neg (by decide +kernel), if_neg (by simp),
    if_pos (by decide +kernel)]

/-- It makes no difference what a path is followed for unless there is a link at its end. -/
theorem resolve_target (h : tree.resolve path aim = .ok found)
    (hlink : aim = .itself → ∀ target, tree.contentAt found.names ≠ some (.link target)) :
    tree.resolve path .target = .ok found := by
  obtain ⟨hfound, harrives⟩ := arrives_of_resolve h
  rw [resolve_of_askable (askable_of_resolve h), (harrives.for_target hlink).follow_eq, ← hfound]

end

/-! ## Trees that grow -/

/-- Has the second tree all folders of the first one, and the same links? -/
structure Extends (before after : Tree) : Prop where
  base_eq : after.base = before.base
  closed_eq : after.closed = before.closed
  folder : ∀ {place}, before.contentAt place = some .folder →
    after.contentAt place = some .folder
  link : ∀ {place target}, after.contentAt place = some (.link target) ↔
    before.contentAt place = some (.link target)

theorem Extends.refl (tree : Tree) : tree.Extends tree :=
  ⟨rfl, rfl, id, Iff.rfl⟩

theorem Extends.trans {first second third : Tree} (h : first.Extends second)
    (h' : second.Extends third) : first.Extends third where
  base_eq := h'.base_eq.trans h.base_eq
  closed_eq := h'.closed_eq.trans h.closed_eq
  folder hfolder := h'.folder (h.folder hfolder)
  link := h'.link.trans h.link

theorem Extends.grounded {before after : Tree} (h : before.Extends after)
    (hgrounded : before.Grounded) : after.Grounded := by
  rw [Grounded, h.base_eq]
  exact h.folder hgrounded

section

variable {before after : Tree} {aim : Aim} {here rest names place : List String} {name : String}
  {links : Nat}

theorem Extends.start_eq (h : before.Extends after) (path : Path) :
    after.start path = before.start path := by
  rw [start, start, h.base_eq]

theorem LooksUp.of_extends (hext : before.Extends after) (h : LooksUp before aim here name rest) :
    LooksUp after aim here name rest where
  is_name := h.is_name
  searched := by rw [hext.closed_eq]; exact h.searched
  no_slash := h.no_slash
  short := h.short

theorem Arrives.of_extends (hext : before.Extends after)
    (h : Arrives before aim links here names place) :
    Arrives after aim links here names place := by
  have hsearch : ∀ {here}, here ∉ before.closed → here ∉ after.closed := by
    intro here hsearched
    rw [hext.closed_eq]
    exact hsearched
  induction h with
  | done links here => exact .done _ _
  | slash _ ih => exact .slash ih
  | dot hsearched _ ih => exact .dot (hsearch hsearched) ih
  | up hsearched _ ih => exact .up (hsearch hsearched) ih
  | stop links hlooks hlink =>
      refine .stop _ (hlooks.of_extends hext) fun haim target hafter => ?_
      exact hlink haim target (hext.link.1 hafter)
  | enter hlooks hfolder _ ih => exact .enter (hlooks.of_extends hext) (hext.folder hfolder) ih
  | link hlooks haim hlink _ ih =>
      exact .link (hlooks.of_extends hext) haim (hext.link.2 hlink) ih

/-- A path that leads somewhere leads to the same place when the tree has grown. -/
theorem resolve_of_extends (hext : before.Extends after) {path : Path} {found : Place}
    (h : before.resolve path aim = .ok found) :
    after.resolve path aim = .ok (placeAt after.top found.names) := by
  obtain ⟨-, harrives⟩ := arrives_of_resolve h
  rw [resolve_of_askable (askable_of_resolve h), hext.start_eq]
  exact (harrives.of_extends hext).follow_eq

end

end Tree

/-! ## Refusals that are no answer -/

/-- Does the system refuse to say what a path leads to? Either a name on the way or the whole path is
too long, or there is a folder on the way that may not be searched. -/
def Withheld (tree : Tree) (path : Path) (refusal : Refusal) : Prop :=
  tree.resolve path .target = .error refusal ∧ (refusal = .nameTooLong ∨ refusal = .denied)

section

variable {tree : Tree} {path : Path}

theorem Withheld.probe_eq {refusal : Refusal} (h : Withheld tree path refusal) :
    tree.probe path = .error (.refused refusal path.text) := by
  rw [Tree.probe, h.1]
  rcases h.2 with rfl | rfl <;> rfl

theorem probe_of_not_withheld (h : ∀ refusal, ¬Withheld tree path refusal) :
    tree.probe path = .ok (tree.find? path) := by
  rw [Tree.probe, Tree.find?]
  cases hresolve : tree.resolve path .target with
  | ok place => rfl
  | error refusal =>
      rcases Tree.refusal_of_resolve (by decide) hresolve with habsent | hwithheld
      · exact if_pos habsent
      · exact absurd ⟨hresolve, hwithheld⟩ (h refusal)

theorem not_withheld_of_find? {entry : Entry} (h : tree.find? path = some entry)
    (refusal : Refusal) : ¬Withheld tree path refusal := by
  intro hwithheld
  rw [Tree.find?, hwithheld.1] at h
  cases h

theorem probe_eq_error_iff {failure : Failure} : tree.probe path = .error failure ↔
    ∃ refusal, Withheld tree path refusal ∧ failure = .refused refusal path.text := by
  constructor
  · intro h
    by_contra hnone
    have hasked : tree.probe path = .ok (tree.find? path) := by
      refine probe_of_not_withheld fun refusal hwithheld => hnone ⟨refusal, hwithheld, ?_⟩
      exact Except.error.inj (h.symm.trans hwithheld.probe_eq)
    rw [hasked] at h
    cases h
  · rintro ⟨refusal, hwithheld, rfl⟩
    exact hwithheld.probe_eq

end

end JavaMetrics.Files
