import JavaMetrics.Proofs.Files.LinkFree
import JavaMetrics.Report.Csv

/-!
# Writing tables

A table is written in two stages: the folders above its file are made, then the file
is given its bytes. `write_eq_ok` and `write_eq_error` say what that changes in any
tree. In a tree without links it can also be said when it fails, `Obstructed`: the path
or a name in it is too long, the path runs through a file, or it means a folder, be it
one that was there or one that has just been made for it. For a path with a null
character in it the request fails too, but that is not told as a fault.

Tables may be written one after the other, and the file of one may stand in the way of
the next. Each request is described by `Export.Effect`, from the tree that the requests
before it have left; what a file holds in the end follows by induction on the requests.
-/

namespace JavaMetrics.Report

open Files (Tree Path Content)
open Files.Tree (placeAt Grows)
open Metrics (Record)

/-! ## What is changed -/

/-- The bytes of a table. -/
def tableBytes (layout : Layout) (records : List Record) : List UInt8 :=
  Text.Utf8.encode (format layout records).toList

section

variable {layout : Layout} {records : List Record} {path : Path} {tree after : Tree}

/-- A table that is written changes one file, after folders have been made. -/
theorem write_eq_ok {count : Nat} (hgrounded : tree.Grounded)
    (h : write layout records path tree = (after, .ok count)) :
    count = records.length ∧ ∃ prepared names,
      Grows path.root path.parent.names tree prepared ∧
      prepared.resolve path .target = .ok (placeAt prepared.top names) ∧
      Files.Entry.Writable names prepared.top ∧
      after = prepared.put names (.file (tableBytes layout records)) := by
  have hgrows := Files.Tree.ensureFolders_grows path.parent hgrounded
  rw [write] at h
  split at h
  · cases h
  · next prepared hprepared =>
      rw [hprepared] at hgrows
      split at h
      · cases h
      · next written hwritten =>
          obtain ⟨rfl, hcount⟩ := Prod.mk.inj h
          obtain ⟨names, old, hresolve, hwritable, -, rfl⟩ :=
            Files.Tree.update_eq_ok (hgrows.extends_tree.grounded hgrounded) hwritten
          exact ⟨(Except.ok.inj hcount).symm, prepared, names, hgrows, hresolve, hwritable, rfl⟩

/-- A table that cannot be written leaves nothing but folders behind. -/
theorem write_eq_error {failure : Failure} (hgrounded : tree.Grounded)
    (h : write layout records path tree = (after, .error failure)) :
    Grows path.root path.parent.names tree after := by
  have hgrows := Files.Tree.ensureFolders_grows path.parent hgrounded
  rw [write] at h
  split at h
  · next prepared _ hprepared =>
      rw [hprepared] at hgrows
      obtain ⟨rfl, -⟩ := Prod.mk.inj h
      exact hgrows
  · next prepared hprepared =>
      rw [hprepared] at hgrows
      split at h
      · obtain ⟨rfl, -⟩ := Prod.mk.inj h
        exact hgrows
      · cases h

/-- The table can be read where it was written. -/
theorem read_of_write {count : Nat} (hgrounded : tree.Grounded)
    (h : write layout records path tree = (after, .ok count)) :
    after.read path = .ok (tableBytes layout records) := by
  obtain ⟨-, prepared, names, -, hresolve, hwritable, rfl⟩ := write_eq_ok hgrounded h
  exact Files.Tree.read_put hwritable hresolve _

end

/-! ## When a table cannot be written -/

/-- What keeps a table from being written in a tree without links. -/
inductive Obstructed (tree : Tree) (path : Path) : Prop
  /-- The path is too long. -/
  | longPath (hlong : Tree.pathLimit ≤ path.text.utf8ByteSize)
  /-- A name is too long. -/
  | longName {name : String} (hmem : name ∈ path.names)
      (hlong : Tree.nameLimit < name.utf8ByteSize)
  /-- The folder of the file, or one above it, is a file. -/
  | fileAbove {above : List String} {bytes : List UInt8} (habove : above <+: path.parent.names)
      (hfile : tree.contentAt (tree.spot ⟨path.root, above⟩) = some (.file bytes))
  /-- There is a folder in the place of the file. -/
  | folderThere (hfolder : tree.contentAt (tree.spot path) = some .folder)
  /-- A folder is made in the place of the file. -/
  | folderMade {above : List String} (habove : above <+: path.parent.names)
      (hspot : tree.spot ⟨path.root, above⟩ = tree.spot path)

/-- Is the failure a refusal by the system? These are told as faults. -/
inductive Refused : Failure → Prop
  | mk {refusal : Files.Refusal} (path : String) (h : refusal ≠ .nullInPath) :
      Refused (.refused refusal path)

theorem Refused.asFault {failure : Failure} (h : Refused failure) (fault : String → Fault) :
    failure.asFault fault = .fault (fault failure.message) := by
  obtain ⟨path, hrefusal⟩ := h
  unfold Failure.asFault
  split
  · next heq =>
      injection heq with heq
      exact absurd heq hrefusal
  · rfl

section

variable {tree : Tree} {path : Path}

theorem makeFolder_ne_nullInPath (hnull : path.hasNull = false) {refusal : Files.Refusal}
    (h : tree.makeFolder path = .error refusal) : refusal ≠ .nullInPath := by
  rw [Tree.makeFolder] at h
  split at h
  · next hresolve =>
      cases h
      exact Tree.ne_nullInPath_of_resolve hnull hresolve
  · split at h
    · cases h
      simp
    · cases h

theorem refused_of_probe {failure : Failure} (h : tree.probe path = .error failure) :
    Refused failure := by
  rw [Tree.probe] at h
  split at h
  · cases h
  · split at h
    · cases h
    · next refusal _ habsence =>
        cases h
        refine .mk _ ?_
        rintro rfl
        exact habsence rfl

theorem refused_of_ensureFolder (hnull : path.hasNull = false) {failure : Failure}
    (h : (tree.ensureFolder path).2 = some failure) : Refused failure := by
  rw [Tree.ensureFolder] at h
  split at h
  · cases h
  · cases h
    exact .mk _ (by simp)
  · next refusal _ hmade =>
      dsimp only at h
      rw [Tree.folderFailure] at h
      split at h
      · next hprobe =>
          cases h
          exact refused_of_probe hprobe
      · cases h
      · cases h
        exact .mk _ (makeFolder_ne_nullInPath hnull hmade)

theorem refused_of_ensureFoldersFrom {root : String} {reversed : List String}
    (hnull : Path.hasNull ⟨root, reversed.reverse⟩ = false) {failure : Failure}
    (h : (Tree.ensureFoldersFrom root reversed tree).2 = some failure) : Refused failure := by
  induction reversed with
  | nil =>
      rw [Tree.ensureFoldersFrom] at h
      exact refused_of_ensureFolder hnull h
  | cons name rest ih =>
      rw [Tree.ensureFoldersFrom] at h
      split at h
      · split at h
        · next middle _ heq =>
            refine ih (Tree.hasNull_above ?_ hnull) (by rw [heq]; exact h)
            rw [List.reverse_cons]
            exact List.prefix_append _ _
        · exact refused_of_ensureFolder hnull h
      · exact refused_of_ensureFolder hnull h

theorem refused_of_ensureFolders (hnull : path.hasNull = false) {failure : Failure}
    (h : (tree.ensureFolders path).2 = some failure) : Refused failure := by
  refine refused_of_ensureFoldersFrom ?_ h
  rwa [List.reverse_reverse]

theorem refused_of_write (hnull : path.hasNull = false) {bytes : List UInt8} {failure : Failure}
    (h : tree.write path bytes = .error failure) : Refused failure := by
  rw [Tree.write, Tree.update] at h
  split at h
  · next hresolve =>
      cases h
      exact .mk _ (Tree.ne_nullInPath_of_resolve hnull hresolve)
  · split at h
    · cases h
    · cases h
      exact .mk _ (by simp)
    · cases h

theorem obstructed_of_not_askable (hnull : path.hasNull = false) (h : ¬Tree.Askable path) :
    Obstructed tree path := by
  by_contra hopen
  refine h ⟨hnull, Nat.lt_of_not_le fun hlong => ?_⟩
  exact hopen (.longPath hlong)

theorem obstructed_of_not_clear (haskable : Tree.Askable path) (h : ¬tree.Clear path.parent) :
    Obstructed tree path := by
  by_contra hopen
  refine h ⟨haskable.above (List.dropLast_prefix _), fun name hmem => ?_,
    fun above habove bytes hfile => ?_⟩
  · by_contra hlong
    exact hopen (.longName ((List.dropLast_prefix _).subset hmem) (Nat.lt_of_not_le hlong))
  · exact hopen (.fileAbove habove hfile)

/-- When the folders above it are made, there is a folder in the place of the file if there was one
before, or if one of those that are made is there. -/
theorem folder_after_iff (hfree : tree.LinkFree) (hgrounded : tree.Grounded)
    (hnormal : path.Normal) (hclear : tree.Clear path.parent) :
    (tree.ensureFolders path.parent).1.contentAt (tree.spot path) = some .folder ↔
      tree.contentAt (tree.spot path) = some .folder ∨
      ∃ above, above <+: path.parent.names ∧ tree.spot ⟨path.root, above⟩ = tree.spot path := by
  have hgrows := Tree.ensureFolders_grows path.parent hgrounded
  constructor
  · intro hfolder
    cases hbefore : tree.contentAt (tree.spot path) with
    | none =>
        obtain ⟨-, above, habove, hspot⟩ :=
          hgrows.added_spot hfree hgrounded hnormal.parent hbefore hfolder
        exact .inr ⟨above, habove, hspot.symm⟩
    | some stored =>
        rw [hgrows.kept hbefore] at hfolder
        exact .inl hfolder
  · rintro (hfolder | ⟨above, habove, hspot⟩)
    · exact hgrows.kept hfolder
    · rw [← hspot]
      exact Tree.contentAt_ensureFolders hfree hgrounded hnormal.parent hclear habove

theorem above_of_append {names above below : List String} (h : names = above ++ below)
    (hbelow : below ≠ []) : above <+: names.dropLast := by
  rw [h, List.dropLast_append_of_ne_nil hbelow]
  exact List.prefix_append _ _

/-- In the tree with the folders above it, the path of a file leads to its spot. -/
theorem resolve_prepared (hfree : tree.LinkFree) (hgrounded : tree.Grounded)
    (hnormal : path.Normal) (hclear : tree.Clear path.parent) (haskable : Tree.Askable path)
    (hshort : ∀ name ∈ path.names, name.utf8ByteSize ≤ Tree.nameLimit) (aim : Files.Aim) :
    (tree.ensureFolders path.parent).1.resolve path aim =
      .ok (placeAt (tree.ensureFolders path.parent).1.top (tree.spot path)) := by
  have hext := (Tree.ensureFolders_grows path.parent hgrounded).extends_tree
  rw [← hext.spot_eq]
  refine Tree.resolve_of_way (hext.linkFree hfree) (hext.grounded hgrounded) hnormal haskable aim
    hshort ?_
  intro above below hnames hbelow
  rw [hext.spot_eq]
  exact Tree.contentAt_ensureFolders hfree hgrounded hnormal.parent hclear
    (above_of_append hnames hbelow)

/-- A file is written at its spot unless its path is too long or a folder is there. -/
theorem write_prepared (hfree : tree.LinkFree) (hgrounded : tree.Grounded)
    (hnormal : path.Normal) (hclear : tree.Clear path.parent) (bytes : List UInt8) :
    (∃ after, (tree.ensureFolders path.parent).1.write path bytes = .ok after) ↔
      Tree.Askable path ∧ (∀ name ∈ path.names, name.utf8ByteSize ≤ Tree.nameLimit) ∧
      (tree.ensureFolders path.parent).1.contentAt (tree.spot path) ≠ some .folder := by
  have hext := (Tree.ensureFolders_grows path.parent hgrounded).extends_tree
  constructor
  · rintro ⟨after, hwrite⟩
    obtain ⟨names, old, hresolve, hwritable, -⟩ :=
      Tree.update_eq_ok (hext.grounded hgrounded) hwrite
    obtain ⟨hplace, hshort, -⟩ :=
      Tree.resolve_eq_ok (hext.linkFree hfree) (hext.grounded hgrounded) hnormal hresolve
    obtain rfl : names = tree.spot path := by
      rw [← hext.spot_eq]
      exact congrArg Files.Place.names hplace
    exact ⟨Tree.askable_of_resolve hresolve, hshort, hwritable.ne_folder⟩
  · rintro ⟨haskable, hshort, hfolder⟩
    rw [Tree.write, Tree.update,
      resolve_prepared hfree hgrounded hnormal hclear haskable hshort .file]
    simp only [placeAt]
    split
    · exact ⟨_, rfl⟩
    · next entry hentry hat =>
        cases entry with
        | file bytes => exact absurd rfl (hentry bytes)
        | link target =>
            exact absurd (Files.Entry.contentAt_eq_link_iff.mpr hat)
              ((hext.linkFree hfree).no_link _ target)
        | folder inner => exact absurd (Files.Entry.contentAt_eq_folder_iff.mpr ⟨inner, hat⟩) hfolder
    · exact ⟨_, rfl⟩

/-- A table is written exactly if nothing keeps it from that, and otherwise the fault names its
path. -/
theorem write_cases (layout : Layout) (records : List Record) (hfree : tree.LinkFree)
    (hgrounded : tree.Grounded) (hnormal : path.Normal) (hnull : path.hasNull = false) :
    (¬Obstructed tree path ∧
      (write layout records path tree).2 = .ok records.length) ∨
    (Obstructed tree path ∧ ∃ reason,
      (write layout records path tree).2 = .error (.fault (.unwritable path.text reason))) := by
  have hext := (Tree.ensureFolders_grows path.parent hgrounded).extends_tree
  have hmade := Tree.ensureFolders_eq_none_iff hfree hgrounded hnormal.parent
  have hrefused := @refused_of_ensureFolders tree path.parent
    (Tree.hasNull_above (List.dropLast_prefix _) hnull)
  have hwrite := @write_prepared tree path hfree hgrounded hnormal
  have hfolder := @folder_after_iff tree path hfree hgrounded hnormal
  rw [write]
  generalize tree.ensureFolders path.parent = made at hext hmade hrefused hwrite hfolder
  obtain ⟨prepared, failure⟩ := made
  cases failure with
  | some failure =>
      refine .inr ⟨?_, _, congrArg Except.error ((hrefused rfl).asFault _)⟩
      by_cases haskable : Tree.Askable path
      · refine obstructed_of_not_clear haskable fun hclear => ?_
        cases hmade.mpr hclear
      · exact obstructed_of_not_askable hnull haskable
  | none =>
      have hclear := hmade.mp rfl
      have hwrite := hwrite hclear (Text.Utf8.encode (format layout records).toList)
      have hfolder := hfolder hclear
      dsimp only at hwrite hfolder ⊢
      split
      · next other hother =>
          refine .inr ⟨?_, _, congrArg Except.error ((refused_of_write hnull hother).asFault _)⟩
          by_contra hopen
          rw [hother] at hwrite
          refine absurd (hwrite.mpr ⟨?_, fun name hmem => ?_, fun hthere => ?_⟩) (by simp)
          · by_contra haskable
            exact hopen (obstructed_of_not_askable hnull haskable)
          · by_contra hlong
            exact hopen (.longName hmem (Nat.lt_of_not_le hlong))
          · rcases hfolder.mp hthere with hthere | ⟨above, habove, hspot⟩
            · exact hopen (.folderThere hthere)
            · exact hopen (.folderMade habove hspot)
      · next written hwritten =>
          obtain ⟨haskable, hshort, hthere⟩ := hwrite.mp ⟨written, hwritten⟩
          refine .inl ⟨fun hobstructed => ?_, rfl⟩
          cases hobstructed with
          | longPath hlong => exact absurd haskable.short (Nat.not_lt_of_le hlong)
          | longName hmem hlong => exact absurd (hshort _ hmem) (Nat.not_le_of_lt hlong)
          | fileAbove habove hfile => exact hclear.not_file _ habove _ hfile
          | folderThere hfolderThere => exact hthere (hfolder.mpr (.inl hfolderThere))
          | folderMade habove hspot => exact hthere (hfolder.mpr (.inr ⟨_, habove, hspot⟩))

/-- No table is written to a path with a null character in it. -/
theorem write_null (layout : Layout) (records : List Record) (hgrounded : tree.Grounded)
    (hnull : path.hasNull = true) :
    ∃ failure, (write layout records path tree).2 = .error failure := by
  generalize hresult : write layout records path tree = written
  obtain ⟨after, failure | count⟩ := written
  · exact ⟨failure, rfl⟩
  · obtain ⟨-, prepared, names, -, hresolve, -⟩ := write_eq_ok hgrounded hresult
    rw [(Tree.askable_of_resolve hresolve).no_null] at hnull
    cases hnull

end

/-! ## One table after the other -/

/-- The bytes of the file at a place, if there is one. -/
def fileAt (tree : Tree) (place : List String) : Option (List UInt8) :=
  match tree.contentAt place with
  | some (.file bytes) => some bytes
  | _ => none

/-- A request to write a table. -/
structure Export where
  layout : Layout
  records : List Record
  path : Path

namespace Export

/-- The bytes of the table that is to be written. -/
def bytes (request : Export) : List UInt8 :=
  tableBytes request.layout request.records

/-- The tree after the request, and what came of it. -/
def run (request : Export) (tree : Tree) : Tree × Except Failure Nat :=
  write request.layout request.records request.path tree

/-- What a request does in a tree of folders and files. -/
structure Effect (request : Export) (before after : Tree) (result : Except Failure Nat) :
    Prop where
  /-- It fails exactly if something is in the way, and the fault carries the path. -/
  answer : request.path.hasNull = false →
    (¬Obstructed before request.path ∧ result = .ok request.records.length) ∨
    (Obstructed before request.path ∧ ∃ reason,
      result = .error (.fault (.unwritable request.path.text reason)))
  /-- It fails if there is a null character in the path. -/
  refused : request.path.hasNull = true → ∃ failure, result = .error failure
  /-- If it succeeds, the table is all that the file holds. -/
  written : result.isOk = true → after.read request.path = .ok request.bytes ∧
    after.contentAt (before.spot request.path) = some (.file request.bytes)
  /-- Everything else that was there is there as it was. -/
  kept : ∀ {place stored}, before.contentAt place = some stored →
    ¬(result.isOk = true ∧ before.spot request.path = place) →
    after.contentAt place = some stored
  /-- Everything else that is new is a folder on the way to the file. -/
  added : ∀ {place stored}, before.contentAt place = none → after.contentAt place = some stored →
    ¬(result.isOk = true ∧ before.spot request.path = place) →
    stored = .folder ∧ ∃ above, above <+: request.path.parent.names ∧
      place = before.spot ⟨request.path.root, above⟩

variable {tree : Tree}

theorem extends_run (request : Export) (hgrounded : tree.Grounded) :
    tree.Extends (request.run tree).1 := by
  generalize hrun : request.run tree = ran
  obtain ⟨after, failure | count⟩ := ran
  · exact (write_eq_error hgrounded hrun).extends_tree
  · obtain ⟨-, prepared, names, hgrows, -, hwritable, rfl⟩ := write_eq_ok hgrounded hrun
    exact hgrows.extends_tree.trans (Tree.extends_put_file hwritable _)

theorem effect_run (request : Export) (hfree : tree.LinkFree) (hgrounded : tree.Grounded)
    (hnormal : request.path.Normal) :
    Effect request tree (request.run tree).1 (request.run tree).2 := by
  have hanswer := @write_cases tree request.path request.layout request.records hfree hgrounded
    hnormal
  have hrefused := @write_null tree request.path request.layout request.records hgrounded
  change _ → (_ ∧ (request.run tree).2 = _) ∨ (_ ∧ ∃ reason, (request.run tree).2 = _) at hanswer
  change _ → ∃ failure, (request.run tree).2 = .error failure at hrefused
  generalize hrun : request.run tree = ran at hanswer hrefused ⊢
  obtain ⟨after, failure | count⟩ := ran
  · have hgrows := write_eq_error hgrounded hrun
    exact {
      answer := hanswer
      refused := hrefused
      written := fun h => nomatch h
      kept := fun hstored _ => hgrows.kept hstored
      added := fun hnone hsome _ =>
        hgrows.added_spot hfree hgrounded hnormal.parent hnone hsome }
  · have hread := read_of_write hgrounded hrun
    obtain ⟨-, prepared, names, hgrows, hresolve, hwritable, rfl⟩ := write_eq_ok hgrounded hrun
    have hext := hgrows.extends_tree
    obtain ⟨hplace, -⟩ :=
      Tree.resolve_eq_ok (hext.linkFree hfree) (hext.grounded hgrounded) hnormal hresolve
    obtain rfl : names = tree.spot request.path := by
      rw [← hext.spot_eq]
      exact congrArg Files.Place.names hplace
    have hput := Tree.contentAt_put (.file request.bytes) trivial hwritable
    have hother : ∀ {place}, ¬(true = true ∧ tree.spot request.path = place) →
        (prepared.put (tree.spot request.path) (.file request.bytes)).contentAt place =
          prepared.contentAt place := by
      intro place hother
      rw [hput, if_neg fun heq => hother ⟨rfl, heq.symm⟩]
    exact {
      answer := hanswer
      refused := hrefused
      written := fun _ => ⟨hread, (hput _).trans (if_pos rfl)⟩
      kept := fun hstored hne => (hother hne).trans (hgrows.kept hstored)
      added := fun hnone hsome hne =>
        hgrows.added_spot hfree hgrounded hnormal.parent hnone ((hother hne).symm.trans hsome) }

/-- A request changes no file but its own. -/
theorem Effect.fileAt_eq {request : Export} {before after : Tree} {result : Except Failure Nat}
    (h : request.Effect before after result) (place : List String) :
    fileAt after place =
      (if result.isOk = true ∧ before.spot request.path = place then some request.bytes
        else none).or (fileAt before place) := by
  split
  · next hown =>
      obtain ⟨hok, rfl⟩ := hown
      rw [fileAt, (h.written hok).2]
      rfl
  · next hother =>
      rw [Option.none_or, fileAt, fileAt]
      cases hbefore : before.contentAt place with
      | some stored => rw [h.kept hbefore hother]
      | none =>
          cases hafter : after.contentAt place with
          | none => rfl
          | some stored =>
              obtain ⟨rfl, -⟩ := h.added hbefore hafter hother
              rfl

end Export

/-- The tree after some requests, one after the other, and what came of each. -/
def runExports : List Export → Tree → Tree × List (Except Failure Nat)
  | [], tree => (tree, [])
  | request :: rest, tree =>
    let (after, result) := request.run tree
    let (final, results) := runExports rest after
    (final, result :: results)

/-- The bytes that were last written at a place, if a request has written any. -/
def lastWritten (tree : Tree) (place : List String) :
    List (Export × Except Failure Nat) → Option (List UInt8)
  | [] => none
  | (request, result) :: rest =>
    (lastWritten tree place rest).or
      (if result.isOk = true ∧ tree.spot request.path = place then some request.bytes else none)

section

variable {tree : Tree}

theorem runExports_cons (request : Export) (rest : List Export) (tree : Tree) :
    runExports (request :: rest) tree =
      ((runExports rest (request.run tree).1).1,
        (request.run tree).2 :: (runExports rest (request.run tree).1).2) := rfl

theorem runExports_append (first second : List Export) (tree : Tree) :
    runExports (first ++ second) tree =
      ((runExports second (runExports first tree).1).1,
        (runExports first tree).2 ++ (runExports second (runExports first tree).1).2) := by
  induction first generalizing tree with
  | nil => rfl
  | cons request rest ih =>
      rw [List.cons_append, runExports_cons, runExports_cons, ih]
      rfl

theorem length_runExports (requests : List Export) (tree : Tree) :
    (runExports requests tree).2.length = requests.length := by
  induction requests generalizing tree with
  | nil => rfl
  | cons request rest ih => rw [runExports_cons, List.length_cons, List.length_cons, ih]

theorem extends_runExports (requests : List Export) (hgrounded : tree.Grounded) :
    tree.Extends (runExports requests tree).1 := by
  induction requests generalizing tree with
  | nil => exact .refl tree
  | cons request rest ih =>
      have hext := request.extends_run hgrounded
      exact hext.trans (ih (hext.grounded hgrounded))

theorem lastWritten_of_extends {before after : Tree} (h : before.Extends after)
    (place : List String) (history : List (Export × Except Failure Nat)) :
    lastWritten after place history = lastWritten before place history := by
  induction history with
  | nil => rfl
  | cons step rest ih =>
      obtain ⟨request, result⟩ := step
      rw [lastWritten, lastWritten, ih, h.spot_eq]

/-- After some requests a file holds what was last written to it, and what it held before if nothing
was. -/
theorem fileAt_runExports (requests : List Export) (hfree : tree.LinkFree)
    (hgrounded : tree.Grounded) (hnormal : ∀ request ∈ requests, request.path.Normal)
    (place : List String) :
    fileAt (runExports requests tree).1 place =
      (lastWritten tree place (requests.zip (runExports requests tree).2)).or
        (fileAt tree place) := by
  induction requests generalizing tree with
  | nil => rfl
  | cons request rest ih =>
      have hext := request.extends_run hgrounded
      have heffect := request.effect_run hfree hgrounded (hnormal request List.mem_cons_self)
      rw [runExports_cons, List.zip_cons_cons, lastWritten,
        ih (hext.linkFree hfree) (hext.grounded hgrounded)
          fun other hmem => hnormal other (List.mem_cons_of_mem _ hmem),
        heffect.fileAt_eq, lastWritten_of_extends hext, Option.or_assoc]

/-- Each of some requests has its effect on the tree that those before it have left, and in the end
every file holds what was last written to it. -/
theorem runExports_effects (requests : List Export) (hfree : tree.LinkFree)
    (hgrounded : tree.Grounded) (hnormal : ∀ request ∈ requests, request.path.Normal) :
    (∀ earlier request later, requests = earlier ++ request :: later →
      ∃ result, (runExports requests tree).2[earlier.length]? = some result ∧
        request.Effect (runExports earlier tree).1 (runExports (earlier ++ [request]) tree).1
          result) ∧
    ∀ place, fileAt (runExports requests tree).1 place =
      (lastWritten tree place (requests.zip (runExports requests tree).2)).or
        (fileAt tree place) := by
  refine ⟨?_, fileAt_runExports requests hfree hgrounded hnormal⟩
  rintro earlier request later rfl
  have hext := extends_runExports earlier hgrounded
  have heffect := request.effect_run (hext.linkFree hfree) (hext.grounded hgrounded)
    (hnormal request (by simp))
  refine ⟨_, ?_, by rw [runExports_append]; exact heffect⟩
  rw [runExports_append, runExports_cons, ← length_runExports earlier tree]
  exact (List.getElem?_append_right (Nat.le_refl _)).trans (by rw [Nat.sub_self]; rfl)

end

theorem linkFree_empty : ({} : Tree).LinkFree where
  no_link place target := by
    cases place <;>
      simp [Tree.contentAt, Files.Entry.contentAt, Files.Entry.at?, Files.Entry.content]
  searched := rfl

/-- The file of the first table is in the way of the second one, and outlasts it. -/
theorem table_below_table :
    let first : Export := ⟨.short, [], ⟨"", ["a.csv"]⟩⟩
    let second : Export := ⟨.full, [], ⟨"", ["a.csv", "b.csv"]⟩⟩
    (runExports [first, second] {}).2[0]? = some (.ok 0) ∧
    (∃ reason, (runExports [first, second] {}).2[1]? =
      some (.error (.fault (.unwritable "a.csv/b.csv" reason)))) ∧
    fileAt (runExports [first, second] {}).1 ["a.csv"] = some (tableBytes .short []) := by
  intro first second
  have hnormal : ∀ request ∈ [first, second], request.path.Normal := by
    simp [first, second, Path.Normal]
  have hrun := runExports_effects [first, second] linkFree_empty rfl hnormal
  obtain ⟨result, hresult, heffect⟩ := hrun.1 [] first [second] rfl
  obtain ⟨other, hother, hblocked⟩ := hrun.1 [first] second [] rfl
  -- nothing is in the way of the first table
  obtain rfl : result = .ok 0 := by
    rcases heffect.answer rfl with ⟨-, hok⟩ | ⟨hobstructed, -⟩
    · exact hok
    · exfalso
      cases hobstructed with
      | longPath hlong => exact absurd hlong (by decide)
      | longName hmem hlong =>
          obtain rfl := List.mem_singleton.mp hmem
          exact absurd hlong (by decide)
      | fileAbove habove hfile =>
          obtain rfl := List.prefix_nil.mp habove
          cases hfile
      | folderThere hfolder => cases hfolder
      | folderMade habove hspot =>
          obtain rfl := List.prefix_nil.mp habove
          cases hspot
  have hfile := (heffect.written rfl).2
  -- its file is what the path of the second one runs through
  obtain ⟨reason, rfl⟩ : ∃ reason,
      other = .error (.fault (.unwritable "a.csv/b.csv" reason)) := by
    rcases hblocked.answer rfl with ⟨hopen, -⟩ | ⟨-, herror⟩
    · refine absurd (@Obstructed.fileAbove _ _ ["a.csv"] first.bytes List.prefix_rfl ?_) hopen
      rw [(@extends_runExports {} [first] rfl).spot_eq]
      exact hfile
    · exact herror
  have hkept := hblocked.kept hfile (by rintro ⟨hok, -⟩; cases hok)
  refine ⟨hresult, ⟨reason, hother⟩, ?_⟩
  rw [fileAt, show (runExports [first, second] {}).1.contentAt ["a.csv"] = _ from hkept]
  rfl

/-- Is there a file above the file, or a folder in its place once the folders above it are made? -/
def InTheWay (tree : Tree) (path : Path) : Prop :=
  (∃ above bytes, above <+: path.parent.names ∧
    tree.contentAt (tree.spot ⟨path.root, above⟩) = some (.file bytes)) ∨
  (tree.ensureFolders path.parent).1.contentAt (tree.spot path) = some .folder

theorem contentAt_empty {place : List String} {stored : Content}
    (h : ({} : Tree).contentAt place = some stored) : place = [] ∧ stored = .folder := by
  cases place with
  | nil =>
      cases h
      exact ⟨rfl, rfl⟩
  | cons name rest => cases h

theorem foldl_stepTo {names : List String} (h : ".." ∉ names) (here : List String) :
    names.foldl Files.stepTo here = here ++ names := by
  induction names generalizing here with
  | nil => simp
  | cons name rest ih =>
      rw [List.mem_cons, not_or] at h
      rw [List.foldl_cons, Files.stepTo, if_neg (Ne.symm h.1), ih h.2]
      simp

theorem not_inTheWay_empty {names : List String} (hnormal : Path.Normal ⟨"", names⟩)
    (hne : names ≠ []) (hup : ".." ∉ names) : ¬InTheWay {} ⟨"", names⟩ := by
  have hspot : Tree.spot {} ⟨"", names⟩ = names := foldl_stepTo hup []
  intro h
  rcases h with ⟨above, bytes, -, hfile⟩ | hfolder
  · cases (contentAt_empty hfile).2
  · rw [hspot] at hfolder
    have hnone : ({} : Tree).contentAt names = none := by
      cases hstored : ({} : Tree).contentAt names with
      | none => rfl
      | some stored => exact absurd (contentAt_empty hstored).1 hne
    -- a new folder has fewer names than the path
    have hgrows := @Tree.ensureFolders_grows {} (Path.parent ⟨"", names⟩) rfl
    obtain ⟨-, above, habove, heq⟩ :=
      hgrows.added_spot linkFree_empty rfl hnormal.parent hnone hfolder
    have hup' : ".." ∉ above := fun hmem =>
      hup ((List.dropLast_prefix names).subset (habove.subset hmem))
    have habove_eq : names = above := heq.trans (foldl_stepTo hup' [])
    have hlength : names.length ≤ names.dropLast.length := by
      conv_lhs => rw [habove_eq]
      exact habove.length_le
    rw [List.length_dropLast] at hlength
    have hpos := List.length_pos_of_ne_nil hne
    omega

theorem size_replicate (name : String) (count : Nat) :
    count * name.utf8ByteSize ≤ ("/".intercalate (List.replicate count name)).utf8ByteSize := by
  induction count with
  | zero => simp
  | succ count ih =>
      by_cases hcount : count = 0
      · subst hcount
        simp
      · rw [List.replicate_succ, String.intercalate_cons_of_ne_nil (by simp [hcount]),
          String.utf8ByteSize_append, String.utf8ByteSize_append, Nat.succ_mul]
        omega

/-- A name or a path may be too long although nothing is in the way, and a null character is refused
without a fault. -/
theorem unwritable_with_nothing_in_way :
    (∃ path : Path, path.Normal ∧ ¬InTheWay {} path ∧
      (∃ name ∈ path.names, Tree.nameLimit < name.utf8ByteSize) ∧
      ∃ reason, (write .short [] path {}).2 =
        .error (.fault (.unwritable path.text reason))) ∧
    (∃ path : Path, path.Normal ∧ ¬InTheWay {} path ∧
      (∀ name ∈ path.names, name.utf8ByteSize ≤ Tree.nameLimit) ∧
      ∃ reason, (write .short [] path {}).2 =
        .error (.fault (.unwritable path.text reason))) ∧
    (write .short [] ⟨"", ["a\x00b"]⟩ {}).2 = .error (.refused .nullInPath "a\x00b") := by
  have hunwritable {path : Path} (hnormal : path.Normal) (hnull : path.hasNull = false)
      (hobstructed : Obstructed {} path) : ∃ reason, (write .short [] path {}).2 =
        .error (.fault (.unwritable path.text reason)) := by
    rcases write_cases .short [] linkFree_empty rfl hnormal hnull with ⟨hopen, -⟩ | ⟨-, herror⟩
    · exact absurd hobstructed hopen
    · exact herror
  refine ⟨?_, ?_, rfl⟩
  · let name := String.ofList (List.replicate 256 'a')
    have hnormal : Path.Normal ⟨"", [name]⟩ := by
      intro other hmem
      obtain rfl := List.mem_singleton.mp hmem
      decide +kernel
    refine ⟨⟨"", [name]⟩, hnormal, not_inTheWay_empty hnormal (by simp) (by decide +kernel),
      ⟨name, List.mem_cons_self, by decide +kernel⟩, hunwritable hnormal ?_ ?_⟩
    · rw [Path.hasNull, List.any_cons, String.toList_ofList]
      decide +kernel
    · exact .longName List.mem_cons_self (by decide +kernel)
  · let name := String.ofList (List.replicate 200 'a')
    have hnormal : Path.Normal ⟨"", List.replicate 25 name⟩ := by
      intro other hmem
      obtain rfl := List.eq_of_mem_replicate hmem
      decide +kernel
    have hsize : name.utf8ByteSize = 200 := by decide +kernel
    have hnull : Path.hasNull ⟨"", List.replicate 25 name⟩ = false := by
      rw [Path.hasNull, List.any_eq_false]
      intro other hmem
      obtain rfl := List.eq_of_mem_replicate hmem
      rw [String.toList_ofList]
      decide +kernel
    have hlong : Tree.pathLimit ≤ (Path.text ⟨"", List.replicate 25 name⟩).utf8ByteSize := by
      have hle := size_replicate name 25
      rw [Tree.text_eq "" (by simp), String.empty_append]
      rw [hsize] at hle
      exact Nat.le_trans (by decide) hle
    refine ⟨⟨"", List.replicate 25 name⟩, hnormal,
      not_inTheWay_empty hnormal (by simp) (by decide +kernel), fun other hmem => ?_,
      hunwritable hnormal hnull (.longPath hlong)⟩
    obtain rfl := List.eq_of_mem_replicate hmem
    rw [hsize]
    decide

end JavaMetrics.Report
