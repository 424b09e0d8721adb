import JavaMetrics.Proofs.Analysis.Stages
import JavaMetrics.Proofs.Report.DistinctNames
import JavaMetrics.Proofs.Report.RowOrder
import Mathlib.Data.List.Perm.Basic

/-!
# Rows of one name

The table of a run has the types of all its files, and rows of different files may have
one name. What such rows have in common is read off the name: it is a package, a dot, the
simple name of a type, a dollar and the simple name of a member, put together as they are,
and of these the package with its dot and the outer name with its dollar may be missing.

Simple names have no dot in them, so that the last dot ends the package, and there is none
exactly if the package has no name. They have no dollar either, so that a dollar behind the
last dot is the one between them. Cutting a name twice therefore gives back what it was made
of (`qualifiedName_eq_iff`). The package itself may be any text.

Sorting and leaving types out does not lose the way from a row back to the type for which
it stands (`exists_sites_of_sorted`). So two rows have one name exactly if their types agree
in the three parts of the name.
-/

namespace JavaMetrics

namespace Java

/-! ## Names taken apart -/

/-- Can the text be the simple name of a type, when dots and dollars do nothing but join? -/
def IsPlainName (name : String) : Prop :=
  name ≠ "" ∧ '.' ∉ name.toList ∧ '$' ∉ name.toList

instance (name : String) : Decidable (IsPlainName name) :=
  inferInstanceAs (Decidable (_ ∧ _))

theorem IsPlainName.isSimpleName {name : String} (h : IsPlainName name) : IsSimpleName name :=
  ⟨h.1, h.2.2⟩

/-- What stands between the dots of a package; the package without a name has no parts. -/
def packageParts (package : String) : List (List Char) :=
  if package.isEmpty then [] else Text.splitAt '.' package.toList

theorem packageParts_inj {package package' : String} :
    packageParts package = packageParts package' ↔ package = package' := by
  constructor
  · intro h
    rw [packageParts, packageParts] at h
    split at h
    · next hempty =>
        split at h
        · next hempty' => rw [String.isEmpty_iff.mp hempty, String.isEmpty_iff.mp hempty']
        · exact absurd h.symm (Text.splitFrom_ne_nil _ _)
    · split at h
      · exact absurd h (Text.splitFrom_ne_nil _ _)
      · exact String.toList_inj.mp (Text.splitAt_inj.mp h)
  · intro h
    rw [h]

section

variable {package simple : String} {outer : Option String}
  (h : ∀ name ∈ namesWithin simple outer, IsPlainName name)

include h

theorem isSimpleName_of_isPlainName : ∀ name ∈ namesWithin simple outer, IsSimpleName name :=
  fun name hname => (h name hname).isSimpleName

theorem dot_notMem_joined :
    '.' ∉ ['$'].intercalate ((namesWithin simple outer).map String.toList) := by
  cases outer with
  | none =>
      have hsimple := h simple (by simp [namesWithin])
      simpa [namesWithin] using hsimple.2.1
  | some name =>
      have hsimple := h simple (by simp [namesWithin])
      have hname := h name (by simp [namesWithin])
      simp [namesWithin, List.intercalate_cons_cons, hsimple.2.1, hname.2.1]

/-- Cutting a qualified name at its dots gives the parts of the package, and one more behind
them. -/
theorem splitAt_qualifiedName :
    Text.splitAt '.' (qualifiedName package simple outer).toList =
      packageParts package ++
        [['$'].intercalate ((namesWithin simple outer).map String.toList)] := by
  have hjoined := Text.splitAt_of_notMem (dot_notMem_joined h)
  rw [toList_qualifiedName (ne_empty_of_namesWithin (isSimpleName_of_isPlainName h)), packageParts]
  split
  · rw [List.nil_append, List.nil_append, hjoined]
  · rw [List.append_assoc, List.singleton_append, Text.splitAt_append_sep, hjoined]

end

/-- A qualified name tells what it is made of, whatever the package is. -/
theorem qualifiedName_eq_iff {package package' simple simple' : String}
    {outer outer' : Option String}
    (hnames : ∀ name ∈ namesWithin simple outer, IsPlainName name)
    (hnames' : ∀ name ∈ namesWithin simple' outer', IsPlainName name) :
    qualifiedName package simple outer = qualifiedName package' simple' outer' ↔
      package = package' ∧ simple = simple' ∧ outer = outer' := by
  constructor
  · intro heq
    have hparts : Text.splitAt '.' (qualifiedName package simple outer).toList =
        Text.splitAt '.' (qualifiedName package' simple' outer').toList := by rw [heq]
    rw [splitAt_qualifiedName hnames, splitAt_qualifiedName hnames'] at hparts
    obtain ⟨hpackage, hjoined⟩ := List.append_inj' hparts rfl
    refine ⟨packageParts_inj.mp hpackage, ?_⟩
    exact (joined_namesWithin_inj (isSimpleName_of_isPlainName hnames)
      (isSimpleName_of_isPlainName hnames')).mp (List.singleton_inj.mp hjoined)
  · rintro ⟨rfl, rfl, rfl⟩
    rfl

end Java

namespace Analysis

open Files (Tree Path)
open Java (CompilationUnit)

/-! ## The units of a run -/

/-- The unit of a file, if it can be read and parsed. -/
def unitOn? (setup : Setup) (tree : Tree) (path : Path) : Option CompilationUnit :=
  match readSource setup tree path with
  | .ok text => (parseUnit setup.parser text path.text).toOption
  | .error _ => none

/-- The units of some files, without those that are left out. -/
def unitsOn (setup : Setup) (tree : Tree) (paths : List Path) : List CompilationUnit :=
  paths.filterMap (unitOn? setup tree)

theorem unitOn?_eq_some_iff {setup : Setup} {tree : Tree} {path : Path} {unit : CompilationUnit} :
    unitOn? setup tree path = some unit ↔
      ∃ text, readSource setup tree path = .ok text ∧
        parseUnit setup.parser text path.text = .ok unit := by
  rw [unitOn?]
  cases readSource setup tree path with
  | error failure => simp
  | ok text =>
      cases hparse : parseUnit setup.parser text path.text <;> simp [hparse, Except.toOption]

theorem records_reportOn (setup : Setup) (tree : Tree) (path : Path) :
    (reportOn setup tree path).records =
      (unitOn? setup tree path).toList.flatMap fun unit =>
        (Metrics.aggregate metricsLoggerName unit).1 := by
  cases hfile : (analyzeFile setup tree path).2 with
  | error failure =>
      have hnone : unitOn? setup tree path = none := by
        rw [Option.eq_none_iff_forall_ne_some]
        intro unit hunit
        obtain ⟨text, hread, hparse⟩ := unitOn?_eq_some_iff.mp hunit
        have hok := analyzeFile_ok_iff.mpr ⟨text, unit, hread, hparse, rfl⟩
        rw [hfile] at hok
        cases hok
      rw [(reportOn_of_error hfile).1, hnone]
      rfl
  | ok findings =>
      obtain ⟨text, unit, hread, hparse, rfl⟩ := analyzeFile_ok_iff.mp hfile
      rw [(reportOn_of_ok hfile).1, unitOn?_eq_some_iff.mpr ⟨text, hread, hparse⟩,
        Option.toList_some, List.flatMap_singleton]
      rfl

theorem result_runPaths (setup : Setup) (tree : Tree) (counters : Report.Counters)
    (paths : List Path) :
    (runPaths setup tree counters paths).result =
      .ok (Report.sortRecords ((unitsOn setup tree paths).flatMap fun unit =>
        (Metrics.aggregate metricsLoggerName unit).1)) := by
  have hrecords : (paths.map (reportOn setup tree)).flatMap (·.records) =
      (unitsOn setup tree paths).flatMap fun unit =>
        (Metrics.aggregate metricsLoggerName unit).1 := by
    induction paths with
    | nil => rfl
    | cons path rest ih =>
        rw [List.map_cons, List.flatMap_cons, ih, records_reportOn, unitsOn, unitsOn,
          List.filterMap_cons]
        cases unitOn? setup tree path with
        | none => rfl
        | some unit => simp
  rw [← hrecords]
  rfl

/-- A run over a directory that does not fail gives the records of the files found in it. -/
theorem result_runDirectory {setup : Setup} {tree : Tree} {directory : Path} {paths : List Path}
    {records : List Metrics.Record} (hfind : findSources setup tree directory = .ok paths)
    (h : (runDirectory setup tree directory).result = .ok records) (counters : Report.Counters) :
    (runPaths setup tree counters paths).result = .ok records := by
  rw [runDirectory, hfind] at h
  simp only [requireRecords] at h
  split at h
  · exact h
  · split at h <;> cases h

end Analysis

namespace Report

open Analysis (Setup runPaths runDirectory findSources unitsOn)
open Java Metrics

/-! ## From rows to types -/

/-- A spot in the tree of a unit. -/
structure Site where
  unit : CompilationUnit
  spot : Spot

/-- Where the types of some units are declared. -/
def typeSites (units : List CompilationUnit) : List Site :=
  units.flatMap fun unit => unit.typeSpots.map (Site.mk unit)

namespace Site

/-- The simple name of the type at a site. -/
def name (site : Site) : String :=
  site.unit.nameAt site.spot

/-- Do the types at two sites have the same package, the same simple name, and the same simple name
of the type in which they are directly declared? -/
def Agrees (first second : Site) : Prop :=
  first.unit.packageName = second.unit.packageName ∧ first.name = second.name ∧
    ∀ around around', DeclaredIn first.unit.root around first.spot →
      DeclaredIn second.unit.root around' second.spot →
        around.map first.unit.nameAt = around'.map second.unit.nameAt

/-- Is the record that of the type at the site? -/
def HasRecord (site : Site) (record : Record) : Prop :=
  ∃ listed, ListedAs site.unit site.spot listed ∧
    compute site.unit listed.1 listed.2 = .ok record

/-- Is the row that of the type at the site? -/
def HasRow (layout : Layout) (site : Site) (fields : List String) : Prop :=
  ∃ record, site.HasRecord record ∧ fields = fieldsOf layout record

theorem HasRecord.name_eq {site : Site} {record : Record} {around : Option Spot}
    (h : site.HasRecord record) (hdeclared : DeclaredIn site.unit.root around site.spot) :
    record.name =
      qualifiedName site.unit.packageName site.name (around.map site.unit.nameAt) := by
  obtain ⟨listed, hlisted, hcompute⟩ := h
  rw [(compute_ok hcompute).1]
  exact hlisted.name around hdeclared

end Site

theorem exists_sites_of_unit (logger : String) (unit : CompilationUnit) :
    ∃ sites, sites.Sublist (unit.typeSpots.map (Site.mk unit)) ∧
      List.Forall₂ Site.HasRecord sites (aggregate logger unit).1 := by
  obtain ⟨kept, hsub, hrecords⟩ := exists_sublist_of_forall₂ (forall₂_listedAs unit)
  refine ⟨kept.map (Site.mk unit), hsub.map _, ?_⟩
  rw [records_aggregate, List.forall₂_map_left_iff]
  exact hrecords

theorem exists_sites (logger : String) (units : List CompilationUnit) :
    ∃ sites, sites.Sublist (typeSites units) ∧
      List.Forall₂ Site.HasRecord sites (units.flatMap fun unit => (aggregate logger unit).1) := by
  induction units with
  | nil => exact ⟨[], .slnil, .nil⟩
  | cons unit rest ih =>
      obtain ⟨sites, hsub, hrecords⟩ := exists_sites_of_unit logger unit
      obtain ⟨later, hsubLater, hrecordsLater⟩ := ih
      exact ⟨sites ++ later, hsub.append hsubLater, List.rel_append hrecords hrecordsLater⟩

/-- The sites can be sorted along with the records. -/
theorem exists_sites_of_sorted (logger : String) (units : List CompilationUnit) :
    ∃ sites, sites.Subperm (typeSites units) ∧ List.Forall₂ Site.HasRecord sites
      (sortRecords (units.flatMap fun unit => (aggregate logger unit).1)) := by
  obtain ⟨sites, hsub, hrecords⟩ := exists_sites logger units
  obtain ⟨sorted, hsorted, hperm⟩ :=
    List.perm_comp_forall₂ (sortRecords_perm _) hrecords.flip
  exact ⟨sorted, ⟨sites, hperm.symm, hsub⟩, hsorted.flip⟩

/-! ## Types of one name -/

section

variable {units : List CompilationUnit} {site : Site} {around : Option Spot}

theorem exists_declaredIn (h : site ∈ typeSites units) :
    ∃ around, DeclaredIn site.unit.root around site.spot := by
  obtain ⟨unit, -, hsite⟩ := List.mem_flatMap.mp h
  obtain ⟨spot, hspot, rfl⟩ := List.mem_map.mp hsite
  exact mem_typeSpots.mp hspot

theorem mem_typeSites_of_outer {outer : Spot} (h : site ∈ typeSites units)
    (hdeclared : DeclaredIn site.unit.root (some outer) site.spot) :
    (⟨site.unit, outer⟩ : Site) ∈ typeSites units := by
  obtain ⟨unit, hunit, hsite⟩ := List.mem_flatMap.mp h
  obtain ⟨spot, -, rfl⟩ := List.mem_map.mp hsite
  refine List.mem_flatMap.mpr ⟨unit, hunit, List.mem_map_of_mem ?_⟩
  exact mem_typeSpots.mpr hdeclared.declared_outer

theorem isPlainName_namesWithin (hplain : ∀ site ∈ typeSites units, IsPlainName site.name)
    (h : site ∈ typeSites units) (hdeclared : DeclaredIn site.unit.root around site.spot) :
    ∀ name ∈ namesWithin site.name (around.map site.unit.nameAt), IsPlainName name := by
  intro name hname
  rcases List.mem_append.mp hname with houter | hsimple
  · obtain ⟨outer, rfl, rfl⟩ := Option.map_eq_some_iff.mp (Option.mem_toList.mp houter)
    exact hplain _ (mem_typeSites_of_outer h hdeclared)
  · rw [List.mem_singleton.mp hsimple]
    exact hplain site h

end

theorem name_eq_iff_agrees {units : List CompilationUnit}
    (hplain : ∀ site ∈ typeSites units, IsPlainName site.name) {first second : Site}
    {record record' : Record} (hfirst : first ∈ typeSites units)
    (hsecond : second ∈ typeSites units) (hrecord : first.HasRecord record)
    (hrecord' : second.HasRecord record') :
    record.name = record'.name ↔ first.Agrees second := by
  obtain ⟨around, hdeclared⟩ := exists_declaredIn hfirst
  obtain ⟨around', hdeclared'⟩ := exists_declaredIn hsecond
  rw [hrecord.name_eq hdeclared, hrecord'.name_eq hdeclared',
    qualifiedName_eq_iff (isPlainName_namesWithin hplain hfirst hdeclared)
      (isPlainName_namesWithin hplain hsecond hdeclared')]
  constructor
  · rintro ⟨hpackage, hsimple, houter⟩
    refine ⟨hpackage, hsimple, ?_⟩
    -- a type is declared in one type at most
    intro other other' hother hother'
    rw [hother.unique hdeclared, hother'.unique hdeclared', houter]
  · rintro ⟨hpackage, hsimple, houter⟩
    exact ⟨hpackage, hsimple, houter around around' hdeclared hdeclared'⟩

theorem head?_fieldsOf (layout : Layout) (record : Record) :
    (fieldsOf layout record).head? = some record.name := by
  cases layout <;> rfl

/-- Every row of the table of some records is that of a type of the units, no type has two rows, and
the names of two rows are equal exactly if their types agree. -/
def RowsTellTypes (units : List CompilationUnit) (records : List Record) : Prop :=
  ∀ layout, ∃ rows sites,
    readTable (format layout records) = some (layout.columns :: rows) ∧
    sites.Subperm (typeSites units) ∧ List.Forall₂ (Site.HasRow layout) sites rows ∧
    ∀ first second fields fields', (first, fields) ∈ sites.zip rows →
      (second, fields') ∈ sites.zip rows → (fields.head? = fields'.head? ↔ first.Agrees second)

theorem rowsTellTypes_of_units {units : List CompilationUnit}
    (hplain : ∀ site ∈ typeSites units, IsPlainName site.name) (logger : String) :
    RowsTellTypes units
      (sortRecords (units.flatMap fun unit => (aggregate logger unit).1)) := by
  intro layout
  obtain ⟨sites, hsub, hrecords⟩ := exists_sites_of_sorted logger units
  have hrows := hrecords.imp fun site record h =>
    (⟨record, h, rfl⟩ : site.HasRow layout (fieldsOf layout record))
  rw [← List.forall₂_map_right_iff] at hrows
  refine ⟨_, sites, readTable_format_of_ordered (sortRecords_ordered _) layout, hsub, hrows, ?_⟩
  intro first second fields fields' hfirst hsecond
  obtain ⟨-, hentries⟩ := List.forall₂_iff_zip.mp hrows
  obtain ⟨record, hrecord, rfl⟩ := hentries hfirst
  obtain ⟨record', hrecord', rfl⟩ := hentries hsecond
  rw [head?_fieldsOf, head?_fieldsOf, Option.some.injEq]
  exact name_eq_iff_agrees hplain (hsub.subset (List.of_mem_zip hfirst).1)
    (hsub.subset (List.of_mem_zip hsecond).1) hrecord hrecord'

/-- Where dots and dollars do nothing but join names, a qualified name tells package, simple name
and outer name, for any packages. So the rows of a run, over some files or over a directory in
which these are found, have one name exactly if their types agree in the three. -/
theorem name_tells_package_and_types :
    (∀ (package package' simple simple' : String) (outer outer' : Option String),
      (∀ name ∈ namesWithin simple outer, IsPlainName name) →
      (∀ name ∈ namesWithin simple' outer', IsPlainName name) →
        (qualifiedName package simple outer = qualifiedName package' simple' outer' ↔
          package = package' ∧ simple = simple' ∧ outer = outer')) ∧
      ∀ (setup : Setup) (tree : Files.Tree) (counters : Counters) (paths : List Files.Path),
        (∀ site ∈ typeSites (unitsOn setup tree paths), IsPlainName site.name) →
          ∃ records, (runPaths setup tree counters paths).result = .ok records ∧
            (∀ directory found, findSources setup tree directory = .ok paths →
              (runDirectory setup tree directory).result = .ok found → found = records) ∧
            RowsTellTypes (unitsOn setup tree paths) records := by
  refine ⟨?_, ?_⟩
  · intro package package' simple simple' outer outer' hnames hnames'
    exact qualifiedName_eq_iff hnames hnames'
  · intro setup tree counters paths hplain
    have hresult := Analysis.result_runPaths setup tree counters paths
    refine ⟨_, hresult, ?_, rowsTellTypes_of_units hplain _⟩
    intro directory found hfind hfound
    have hsame := Analysis.result_runDirectory hfind hfound counters
    exact Except.ok.inj (hsame.symm.trans hresult)

/-- The class `A` of the package `p` with some members. -/
def classInPackage (stop : Nat) (members : List Node) : Node :=
  { kind := "program", start := 0, stop, children := [
    { kind := "package_declaration", start := 0, stop := 10, children := [
      { kind := "identifier", start := 8, stop := 9 }] },
    { kind := "class_declaration", start := 10, stop, children := [
      { kind := "identifier", field := some .name, start := 16, stop := 17 },
      { kind := "class_body", field := some .body, start := 17, stop, children := members }] }] }

/-- A file with the class alone and one in which it has a member class. -/
def twoVersions : Files.Tree where
  top := [
    ("New.java", .file (Text.Utf8.encode "package p;class A\x7bclass B\x7b\x7d\x7d".toList)),
    ("Old.java", .file (Text.Utf8.encode "package p;class A\x7b\x7d".toList))]

/-- A parser for the two files. -/
def versionSetup : Setup where
  parser text :=
    if text = "package p;class A\x7b\x7d" then .ok (classInPackage 19 [])
    else .ok (classInPackage 28 [
      { kind := "class_declaration", start := 18, stop := 27, children := [
        { kind := "identifier", field := some .name, start := 24, stop := 25 },
        { kind := "class_body", field := some .body, start := 25, stop := 27 }] }])

def versionPaths : List Files.Path :=
  [⟨"", ["Old.java"]⟩, ⟨"", ["New.java"]⟩]

theorem isPlainName_versions :
    ∀ site ∈ typeSites (unitsOn versionSetup twoVersions versionPaths),
      IsPlainName site.name := by
  decide +kernel

theorem rows_of_two_versions_share_name :
    qualifiedName "p" "B" (some "A") ≠ qualifiedName "p.A" "B" none ∧
      ∃ records, (runPaths versionSetup twoVersions {} versionPaths).result = .ok records ∧
        records.map (·.name) = ["p.A", "p.A", "p.A$B"] ∧
        RowsTellTypes (unitsOn versionSetup twoVersions versionPaths) records := by
  obtain ⟨hnames, hrows⟩ := name_tells_package_and_types
  obtain ⟨records, hresult, -, htell⟩ :=
    hrows versionSetup twoVersions {} versionPaths isPlainName_versions
  refine ⟨?_, records, hresult, ?_, htell⟩
  · rw [Ne, hnames _ _ _ _ _ _ (by decide) (by decide)]
    decide
  · have hlisted : ((unitsOn versionSetup twoVersions versionPaths).flatMap fun unit =>
        (aggregate Analysis.metricsLoggerName unit).1).map (·.name) =
          ["p.A", "p.A", "p.A$B"] := by decide +kernel
    have hordered : ((unitsOn versionSetup twoVersions versionPaths).flatMap fun unit =>
        (aggregate Analysis.metricsLoggerName unit).1).Pairwise fun a b => a.name ≤ b.name := by
      rw [← List.pairwise_map, hlisted]
      decide
    rw [Analysis.result_runPaths, sortRecords_of_ordered hordered] at hresult
    rw [← Except.ok.inj hresult, hlisted]

end Report

end JavaMetrics
