import JavaMetrics.Proofs.Files.Places

/-!
# Writing files and making folders

A file is written at the one place that its path leads to, `update_eq_ok`, and can be
read there afterwards. Making the folders of a path adds folders and nothing else:
`Grows` says that all that was there is there still, and that what is new is a folder
to which the path, or a beginning of it, leads. The folders are made from the one end
of a recursion to the other, and some may be made although a later one cannot be, so
the statement is the same whether the whole request fails or not.
-/

namespace JavaMetrics.Files.Tree

open Entry (Writable IsPlain)

variable {tree before after : Tree} {names place : List String}

theorem contentAt_put (entry : Entry) (hplain : entry.IsPlain) (h : Writable names tree.top)
    (place : List String) :
    (tree.put names entry).contentAt place =
      if place = names then some entry.content else tree.contentAt place :=
  Entry.contentAt_put entry hplain h place

theorem extends_put_file (h : Writable names tree.top) (bytes : List UInt8) :
    tree.Extends (tree.put names (.file bytes)) where
  base_eq := rfl
  closed_eq := rfl
  folder := by
    intro place hfolder
    rw [contentAt_put (.file bytes) trivial h, if_neg ?_]
    · exact hfolder
    · rintro rfl
      exact h.ne_folder hfolder
  link := by
    intro place target
    rw [contentAt_put (.file bytes) trivial h]
    split
    · next heq =>
        subst heq
        simp only [Entry.content, Option.some.injEq, reduceCtorEq, false_iff]
        exact h.ne_link target
    · exact Iff.rfl

theorem extends_put_folder (h : Writable names tree.top) (hfree : tree.contentAt names = none) :
    tree.Extends (tree.put names (.folder [])) where
  base_eq := rfl
  closed_eq := rfl
  folder := by
    intro place hfolder
    rw [contentAt_put (.folder []) rfl h]
    split
    · rfl
    · exact hfolder
  link := by
    intro place target
    rw [contentAt_put (.folder []) rfl h]
    split
    · next heq =>
        subst heq
        simp [Entry.content, hfree]
    · exact Iff.rfl

/-! ## One file -/

theorem writable_of_resolve {path : Path} {aim : Aim} {found : Place}
    (hgrounded : tree.Grounded) (h : tree.resolve path aim = .ok found)
    (hfree : tree.contentAt found.names = none ∨
      ∃ bytes, tree.contentAt found.names = some (.file bytes)) :
    Writable found.names tree.top := by
  have hne : found.names ≠ [] := by
    intro hnil
    rw [hnil, contentAt, Entry.contentAt_nil] at hfree
    simp at hfree
  exact ⟨hne, (resolve_above hgrounded h).resolve_left hne, hfree⟩

/-- A file that is given new bytes is the one that its path leads to. -/
theorem update_eq_ok {path : Path} {change : List UInt8 → List UInt8} (hgrounded : tree.Grounded)
    (h : tree.update path change = .ok after) :
    ∃ names old, tree.resolve path .target = .ok (placeAt tree.top names) ∧
      Writable names tree.top ∧
      (tree.contentAt names = some (.file old) ∨ tree.contentAt names = none ∧ old = []) ∧
      after = tree.put names (.file (change old)) := by
  rw [update] at h
  split at h
  · cases h
  · next found hresolve =>
      have hwritable := writable_of_resolve hgrounded hresolve
      have htarget := resolve_target hresolve fun haim => nomatch haim
      obtain ⟨names, entry⟩ := found
      obtain rfl : entry = Entry.at? names tree.top :=
        congrArg Place.entry (resolve_eq_placeAt hresolve)
      dsimp only at h
      split at h
      · next old hat =>
          cases h
          have hold := Entry.contentAt_eq_file_iff.mpr hat
          exact ⟨names, old, htarget, hwritable (.inr ⟨old, hold⟩), .inl hold, rfl⟩
      · cases h
      · next hat =>
          cases h
          have hold := Entry.contentAt_eq_none_iff.mpr hat
          exact ⟨names, [], htarget, hwritable (.inl hold), .inr ⟨hold, rfl⟩, rfl⟩

/-- What was written at the place of a path is what the path reads. -/
theorem read_put {path : Path} (h : Writable names tree.top)
    (hresolve : tree.resolve path .target = .ok (placeAt tree.top names)) (bytes : List UInt8) :
    (tree.put names (.file bytes)).read path = .ok bytes := by
  have hafter := resolve_of_extends (extends_put_file h bytes) hresolve
  have hcontent := contentAt_put (.file bytes) trivial h names
  rw [if_pos rfl, contentAt] at hcontent
  have hat := Entry.contentAt_eq_file_iff.mp hcontent
  rw [read, hafter]
  simp only [placeAt, hat]

/-- Does a path lead to a place? -/
def Leads (tree : Tree) (path : Path) (place : List String) : Prop :=
  ∃ found, tree.resolve path .target = .ok found ∧ found.names = place

/-- Is the second tree the first one, but for what is stored at certain places? -/
structure ChangesAt (hit : List String → Prop) (before after : Tree) : Prop where
  extends_tree : before.Extends after
  kept : ∀ {place}, ¬hit place → after.contentAt place = before.contentAt place

theorem ChangesAt.refl (hit : List String → Prop) (tree : Tree) : ChangesAt hit tree tree :=
  ⟨.refl tree, fun _ => rfl⟩

theorem ChangesAt.trans {hit : List String → Prop} {middle : Tree}
    (h : ChangesAt hit before middle) (h' : ChangesAt hit middle after) :
    ChangesAt hit before after :=
  ⟨h.extends_tree.trans h'.extends_tree, fun hplace => (h'.kept hplace).trans (h.kept hplace)⟩

theorem changesAt_update {path : Path} {change : List UInt8 → List UInt8}
    (hgrounded : tree.Grounded) (h : tree.update path change = .ok after) :
    ChangesAt (tree.Leads path) tree after ∧ ∃ place, tree.Leads path place := by
  obtain ⟨names, old, hresolve, hwritable, -, rfl⟩ := update_eq_ok hgrounded h
  have hleads : tree.Leads path names := ⟨_, hresolve, rfl⟩
  refine ⟨⟨extends_put_file hwritable _, fun {place} hplace => ?_⟩, names, hleads⟩
  rw [contentAt_put (.file (change old)) trivial hwritable, if_neg ?_]
  rintro rfl
  exact hplace hleads

/-- A path that leads somewhere leads to no other place in a tree that has grown. -/
theorem Leads.of_extends {path : Path} (hext : before.Extends after)
    (h : ∃ place, before.Leads path place) (hleads : after.Leads path place) :
    before.Leads path place := by
  obtain ⟨other, found, hresolve, rfl⟩ := h
  obtain ⟨found', hresolve', rfl⟩ := hleads
  rw [resolve_of_extends hext hresolve] at hresolve'
  cases hresolve'
  exact ⟨found, hresolve, rfl⟩

/-! ## Folders -/

/-- Is the second tree the first one with more folders, all of which are those of some beginning of
a path? -/
structure Grows (root : String) (names : List String) (before after : Tree) : Prop where
  extends_tree : before.Extends after
  kept : ∀ {place stored}, before.contentAt place = some stored →
    after.contentAt place = some stored
  added : ∀ {place}, before.contentAt place = none →
    after.contentAt place = none ∨ after.contentAt place = some .folder ∧
      ∃ above, above <+: names ∧
        after.resolve ⟨root, above⟩ .target = .ok (placeAt after.top place)

theorem Grows.refl (root : String) (names : List String) (tree : Tree) :
    Grows root names tree tree :=
  ⟨.refl tree, id, .inl⟩

theorem Grows.mono {root : String} {longer : List String} (h : Grows root names before after)
    (hbegin : names <+: longer) : Grows root longer before after where
  extends_tree := h.extends_tree
  kept := h.kept
  added hnone := by
    refine (h.added hnone).imp_right fun ⟨hfolder, above, habove, hresolve⟩ => ?_
    exact ⟨hfolder, above, habove.trans hbegin, hresolve⟩

theorem Grows.trans {root : String} {middle : Tree} (h : Grows root names before middle)
    (h' : Grows root names middle after) : Grows root names before after where
  extends_tree := h.extends_tree.trans h'.extends_tree
  kept hstored := h'.kept (h.kept hstored)
  added hnone := by
    rcases h.added hnone with hmiddle | ⟨hfolder, above, habove, hresolve⟩
    · exact h'.added hmiddle
    · -- a folder of the first stage is still where its path leads
      exact .inr ⟨h'.kept hfolder, above, habove,
        resolve_of_extends h'.extends_tree hresolve⟩

theorem makeFolder_grows {path : Path} (hgrounded : tree.Grounded)
    (h : tree.makeFolder path = .ok after) : Grows path.root path.names tree after := by
  rw [makeFolder] at h
  split at h
  · cases h
  · next found hresolve =>
      split at h
      · cases h
      · next hentry =>
          cases h
          have hfree : tree.contentAt found.names = none := by
            rw [resolve_eq_placeAt hresolve] at hentry
            exact Entry.contentAt_eq_none_iff.mpr hentry
          have hwritable := writable_of_resolve hgrounded hresolve (.inl hfree)
          have hext := extends_put_folder hwritable hfree
          have hput := contentAt_put (.folder []) rfl hwritable
          refine ⟨hext, ?_, ?_⟩
          · intro place stored hstored
            rw [hput, if_neg ?_]
            · exact hstored
            · rintro rfl
              simp [hfree] at hstored
          · intro place hnone
            rw [hput]
            split
            · next heq =>
                subst heq
                have htarget := resolve_target hresolve fun _ target => by simp [hfree]
                exact .inr ⟨rfl, path.names, List.prefix_rfl, resolve_of_extends hext htarget⟩
            · exact .inl hnone

theorem ensureFolder_grows (path : Path) (hgrounded : tree.Grounded) :
    Grows path.root path.names tree (tree.ensureFolder path).1 := by
  rw [ensureFolder]
  split
  · next made hmade => exact makeFolder_grows hgrounded hmade
  · exact .refl _ _ _
  · exact .refl _ _ _

theorem ensureFoldersFrom_grows {root : String} {reversed : List String}
    (hgrounded : tree.Grounded) :
    Grows root reversed.reverse tree (ensureFoldersFrom root reversed tree).1 := by
  induction reversed with
  | nil =>
      rw [ensureFoldersFrom]
      exact ensureFolder_grows ⟨root, []⟩ hgrounded
  | cons name rest ih =>
      rw [ensureFoldersFrom]
      split
      · -- the folders above are made first
        have habove : Grows root (name :: rest).reverse tree (ensureFoldersFrom root rest tree).1 :=
          ih.mono (by rw [List.reverse_cons]; exact List.prefix_append _ _)
        split
        · next tree' failure heq =>
            rw [heq] at habove
            exact habove
        · next tree' heq =>
            rw [heq] at habove
            exact habove.trans (ensureFolder_grows ⟨root, (name :: rest).reverse⟩
              (habove.extends_tree.grounded hgrounded))
      · exact ensureFolder_grows ⟨root, (name :: rest).reverse⟩ hgrounded

theorem ensureFolders_grows (path : Path) (hgrounded : tree.Grounded) :
    Grows path.root path.names tree (tree.ensureFolders path).1 := by
  have h := @ensureFoldersFrom_grows tree path.root path.names.reverse hgrounded
  rwa [List.reverse_reverse] at h

end JavaMetrics.Files.Tree
