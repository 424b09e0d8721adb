import JavaMetrics.Proofs.Java.Outline
import JavaMetrics.Proofs.Report.NameOrder
import JavaMetrics.Proofs.Text.Pieces

/-!
# Types of one name

The name of a member type holds its own simple name and that of the type of which it
is a member, and nothing of what is further out. So the rules on simple names that a
program obeys (`Scoped`) do not make the names of its types distinct: they let two types
that are apart have one simple name, and each of them a member of one simple name.

That is the only way. A dollar stands in a qualified name at most once, between two
simple names, so that the name tells them (`qualifiedName_inj`). Types of one name are
therefore members of types of one simple name, which are different ones, since members
of one type differ in their simple names, and of which neither is inside the other,
since a type differs from those around it.
-/

namespace JavaMetrics

namespace Java

/-! ## Qualified names taken apart -/

/-- Can the text be the simple name of a type, when dollars are not used in names? -/
def IsSimpleName (name : String) : Prop :=
  name ≠ "" ∧ '$' ∉ name.toList

instance (name : String) : Decidable (IsSimpleName name) :=
  inferInstanceAs (Decidable (_ ∧ _))

/-- The simple names of which a qualified name consists. -/
def namesWithin (simple : String) (outer : Option String) : List String :=
  outer.toList ++ [simple]

theorem namesWithin_inj {simple simple' : String} {outer outer' : Option String} :
    namesWithin simple outer = namesWithin simple' outer' ↔ simple = simple' ∧ outer = outer' := by
  cases outer <;> cases outer' <;> simp [namesWithin, and_comm]

theorem toList_qualifiedName {package simple : String} {outer : Option String}
    (houter : ∀ name ∈ outer, name ≠ "") :
    (qualifiedName package simple outer).toList =
      (if package.isEmpty then [] else package.toList ++ ['.']) ++
        ['$'].intercalate ((namesWithin simple outer).map String.toList) := by
  cases outer with
  | none => cases hpackage : package.isEmpty <;> simp [qualifiedName, namesWithin, hpackage]
  | some name =>
      have hname : name.isEmpty = false := by simpa using houter name rfl
      cases hpackage : package.isEmpty <;>
        simp [qualifiedName, namesWithin, hpackage, hname, List.intercalate_cons_cons]

section

variable {simple : String} {outer : Option String}
  (h : ∀ name ∈ namesWithin simple outer, IsSimpleName name)

include h

theorem ne_empty_of_namesWithin : ∀ name ∈ outer, name ≠ "" := by
  intro name hname
  exact (h name (List.mem_append_left _ (Option.mem_toList.mpr hname))).1

/-- Cutting at the dollar gives the simple names back. -/
theorem splitAt_namesWithin :
    Text.splitAt '$' (['$'].intercalate ((namesWithin simple outer).map String.toList)) =
      (namesWithin simple outer).map String.toList := by
  refine Text.splitAt_intercalate (by simp [namesWithin]) ?_
  rw [List.forall_mem_map]
  exact fun name hname => (h name hname).2

end

/-- The simple names joined by a dollar tell which they are. -/
theorem joined_namesWithin_inj {simple simple' : String} {outer outer' : Option String}
    (hnames : ∀ name ∈ namesWithin simple outer, IsSimpleName name)
    (hnames' : ∀ name ∈ namesWithin simple' outer', IsSimpleName name) :
    ['$'].intercalate ((namesWithin simple outer).map String.toList) =
        ['$'].intercalate ((namesWithin simple' outer').map String.toList) ↔
      simple = simple' ∧ outer = outer' := by
  rw [← namesWithin_inj]
  constructor
  · intro heq
    have hpieces := congrArg (Text.splitAt '$') heq
    rw [splitAt_namesWithin hnames, splitAt_namesWithin hnames'] at hpieces
    exact List.map_injective_iff.mpr (fun _ _ => String.toList_inj.mp) hpieces
  · intro heq
    rw [heq]

/-- In one package a qualified name tells the simple names of which it consists. -/
theorem qualifiedName_inj {package simple simple' : String} {outer outer' : Option String}
    (hnames : ∀ name ∈ namesWithin simple outer, IsSimpleName name)
    (hnames' : ∀ name ∈ namesWithin simple' outer', IsSimpleName name) :
    qualifiedName package simple outer = qualifiedName package simple' outer' ↔
      simple = simple' ∧ outer = outer' := by
  rw [← String.toList_inj, toList_qualifiedName (ne_empty_of_namesWithin hnames),
    toList_qualifiedName (ne_empty_of_namesWithin hnames'), List.append_cancel_left_eq,
    joined_namesWithin_inj hnames hnames']

/-! ## Rules on simple names -/

/-- The simple name of the type that is declared at a spot. -/
def CompilationUnit.nameAt (unit : CompilationUnit) (spot : Spot) : String :=
  declaredName unit.code spot.node

/-- Is the second type declared inside the first, at whatever depth? -/
def Encloses (root : Node) : Spot → Spot → Prop :=
  Relation.TransGen fun outer spot => DeclaredIn root (some outer) spot

/-- Do the simple names of the types of a unit obey the rules of the language, with no dollar in
them? -/
structure Scoped (unit : CompilationUnit) : Prop where
  simple : ∀ spot ∈ unit.typeSpots, IsSimpleName (unit.nameAt spot)
  /-- Types that are no members differ from one another, and so do the members of one type. -/
  siblings : ∀ around first second, DeclaredIn unit.root around first →
    DeclaredIn unit.root around second → unit.nameAt first = unit.nameAt second → first = second
  /-- A type differs from every type around it. -/
  around : ∀ outer spot, Encloses unit.root outer spot → unit.nameAt outer ≠ unit.nameAt spot

theorem Encloses.above {root : Node} {outer spot : Spot} (h : Encloses root outer spot) :
    outer.Above spot := by
  induction h with
  | single hstep => exact hstep.above
  | tail _ hstep ih => exact ih.trans_le hstep.above.1

theorem DeclaredIn.declared_outer {root : Node} {outer spot : Spot}
    (h : DeclaredIn root (some outer) spot) : ∃ around, DeclaredIn root around outer := by
  cases h with
  | member houter _ _ => exact ⟨_, houter⟩

theorem mem_next_iff_declaredIn {root : Node} {around : Option Spot} {outer spot : Spot}
    (houter : DeclaredIn root around outer) :
    spot ∈ typeDescent.next outer ↔ DeclaredIn root (some outer) spot := by
  rw [mem_next_type]
  constructor
  · rintro ⟨hmember, htype⟩
    exact .member houter hmember htype
  · intro h
    cases h with
    | member _ hmember htype => exact ⟨hmember, htype⟩

theorem Encloses.declared {root : Node} {outer spot : Spot} (h : Encloses root outer spot) :
    (∃ around, DeclaredIn root around outer) ∧ ∃ around, DeclaredIn root around spot := by
  induction h with
  | single hstep => exact ⟨hstep.declared_outer, _, hstep⟩
  | tail _ hstep ih => exact ⟨ih.1, _, hstep⟩

theorem encloses_of_reaches {root : Node} {around : Option Spot} {outer below spot : Spot}
    (houter : DeclaredIn root around outer) (hbelow : below ∈ typeDescent.next outer)
    (hreach : typeDescent.Reaches below spot) : Encloses root outer spot := by
  induction hreach with
  | refl => exact .single ((mem_next_iff_declaredIn houter).mp hbelow)
  | tail _ hnext ih =>
      obtain ⟨-, around', hdeclared⟩ := ih.declared
      exact .tail ih ((mem_next_iff_declaredIn hdeclared).mp hnext)

/-- Of two types of one simple name neither is inside the other. -/
theorem Scoped.apart {unit : CompilationUnit} (h : Scoped unit) {around around' : Option Spot}
    {first second : Spot} (hfirst : DeclaredIn unit.root around first)
    (hsecond : DeclaredIn unit.root around' second) (hne : first ≠ second)
    (hname : unit.nameAt first = unit.nameAt second) : first.Apart second := by
  have hmixed := (pairwise_unmixed unit).forall (mem_typeSpots.mpr ⟨_, hfirst⟩)
    (mem_typeSpots.mpr ⟨_, hsecond⟩) hne
  rcases hmixed with ⟨below, hbelow, hreach⟩ | ⟨below, hbelow, hreach⟩ | hapart
  · exact absurd hname (h.around _ _ (encloses_of_reaches hfirst hbelow hreach))
  · exact absurd hname.symm (h.around _ _ (encloses_of_reaches hsecond hbelow hreach))
  · exact hapart

/-! ## Checking the rules -/

/-- The spots of the types that are no members. -/
def CompilationUnit.topSpots (unit : CompilationUnit) : List Spot :=
  (Spot.top unit.root).namedChildren.filter (declaresType ·.node)

theorem mem_topSpots {unit : CompilationUnit} {spot : Spot} :
    spot ∈ unit.topSpots ↔ DeclaredIn unit.root none spot := by
  rw [CompilationUnit.topSpots, List.mem_filter]
  constructor
  · rintro ⟨hchild, htype⟩
    exact .top hchild htype
  · intro h
    cases h with
    | top hchild htype => exact ⟨hchild, htype⟩

/-- The rules, checked on the listing. -/
theorem scoped_iff {unit : CompilationUnit} : Scoped unit ↔
    (∀ spot ∈ unit.typeSpots, IsSimpleName (unit.nameAt spot)) ∧
      (unit.topSpots.map unit.nameAt).Nodup ∧
      (∀ outer ∈ unit.typeSpots, ((typeDescent.next outer).map unit.nameAt).Nodup) ∧
      ∀ outer ∈ unit.typeSpots, ∀ spot ∈ unit.typeSpots, outer.Above spot →
        unit.nameAt outer ≠ unit.nameAt spot := by
  constructor
  · intro h
    refine ⟨h.simple, ?_, ?_, ?_⟩
    · refine List.Nodup.map_on ?_ (.of_map _ (Spot.nodup_of_pairwise
        ((Spot.pairwise_namedChildren _).sublist List.filter_sublist)))
      intro first hfirst second hsecond
      exact h.siblings _ _ _ (mem_topSpots.mp hfirst) (mem_topSpots.mp hsecond)
    · intro outer houter
      obtain ⟨around, hdeclared⟩ := mem_typeSpots.mp houter
      refine List.Nodup.map_on ?_ (.of_map _ (Spot.nodup_of_pairwise (typeDescent.apart outer)))
      intro first hfirst second hsecond
      exact h.siblings _ _ _ ((mem_next_iff_declaredIn hdeclared).mp hfirst)
        ((mem_next_iff_declaredIn hdeclared).mp hsecond)
    · intro outer houter spot hspot habove hname
      obtain ⟨around, hdeclared⟩ := mem_typeSpots.mp houter
      obtain ⟨around', hdeclared'⟩ := mem_typeSpots.mp hspot
      have hne : outer ≠ spot := fun heq => habove.2 (congrArg Spot.way heq)
      exact (h.apart hdeclared hdeclared' hne hname).1 habove.1
  · rintro ⟨hsimple, htop, hmembers, haround⟩
    refine ⟨hsimple, ?_, ?_⟩
    · intro around first second hfirst hsecond hname
      cases around with
      | none =>
          exact List.inj_on_of_nodup_map htop (mem_topSpots.mpr hfirst) (mem_topSpots.mpr hsecond)
            hname
      | some outer =>
          obtain ⟨around, houter⟩ := hfirst.declared_outer
          exact List.inj_on_of_nodup_map (hmembers outer (mem_typeSpots.mpr ⟨_, houter⟩))
            ((mem_next_iff_declaredIn houter).mpr hfirst)
            ((mem_next_iff_declaredIn houter).mpr hsecond) hname
    · intro outer spot hinside
      obtain ⟨houter, hspot⟩ := hinside.declared
      exact haround outer (mem_typeSpots.mpr houter) spot (mem_typeSpots.mpr hspot) hinside.above

instance (unit : CompilationUnit) : Decidable (Scoped unit) :=
  decidable_of_iff' _ scoped_iff

/-! ## Types of one name -/

/-- Are two types members, of one simple name, of two types of one simple name, of which neither is
inside the other? -/
def Twins (unit : CompilationUnit) (first second : Spot) : Prop :=
  ∃ outer outer', DeclaredIn unit.root (some outer) first ∧
    DeclaredIn unit.root (some outer') second ∧ outer.Apart outer' ∧
    unit.nameAt outer = unit.nameAt outer' ∧ unit.nameAt first = unit.nameAt second

theorem Scoped.isSimpleName_namesWithin {unit : CompilationUnit} (h : Scoped unit)
    {around : Option Spot} {spot : Spot} (hspot : DeclaredIn unit.root around spot) :
    ∀ name ∈ namesWithin (unit.nameAt spot) (around.map unit.nameAt), IsSimpleName name := by
  intro name hname
  rcases List.mem_append.mp hname with houter | hsimple
  · obtain ⟨outer, rfl, rfl⟩ := Option.map_eq_some_iff.mp (Option.mem_toList.mp houter)
    exact h.simple _ (mem_typeSpots.mpr hspot.declared_outer)
  · rw [List.mem_singleton.mp hsimple]
    exact h.simple _ (mem_typeSpots.mpr ⟨_, hspot⟩)

theorem name_eq_iff_twins {unit : CompilationUnit} (h : Scoped unit) {first second : Spot}
    {listed listed' : String × TypeDeclaration} (hfirst : first ∈ unit.typeSpots)
    (hsecond : second ∈ unit.typeSpots) (hlisted : ListedAs unit first listed)
    (hlisted' : ListedAs unit second listed') (hne : first ≠ second) :
    listed.1 = listed'.1 ↔ Twins unit first second := by
  obtain ⟨around, hdeclared⟩ := mem_typeSpots.mp hfirst
  obtain ⟨around', hdeclared'⟩ := mem_typeSpots.mp hsecond
  rw [hlisted.name _ hdeclared, hlisted'.name _ hdeclared']
  refine (qualifiedName_inj (h.isSimpleName_namesWithin hdeclared)
    (h.isSimpleName_namesWithin hdeclared')).trans ?_
  constructor
  · rintro ⟨hsimple, houters⟩
    cases around with
    | none =>
        obtain rfl : around' = none := Option.map_eq_none_iff.mp houters.symm
        exact absurd (h.siblings _ _ _ hdeclared hdeclared' hsimple) hne
    | some outer =>
        obtain ⟨outer', rfl, houter⟩ := Option.map_eq_some_iff.mp houters.symm
        refine ⟨outer, outer', hdeclared, hdeclared', ?_, houter.symm, hsimple⟩
        -- members of one type with one simple name would be one member
        have hother : outer ≠ outer' := by
          rintro rfl
          exact hne (h.siblings _ _ _ hdeclared hdeclared' hsimple)
        obtain ⟨_, houter₁⟩ := hdeclared.declared_outer
        obtain ⟨_, houter₂⟩ := hdeclared'.declared_outer
        exact h.apart houter₁ houter₂ hother houter.symm
  · rintro ⟨outer, outer', hmember, hmember', -, houter, hsimple⟩
    obtain rfl := hdeclared.unique hmember
    obtain rfl := hdeclared'.unique hmember'
    exact ⟨hsimple, congrArg some houter⟩

theorem Twins.ne {unit : CompilationUnit} {first second : Spot} (h : Twins unit first second) :
    first ≠ second := by
  rintro rfl
  obtain ⟨outer, outer', hmember, hmember', hapart, -, -⟩ := h
  obtain rfl := Option.some.inj (hmember.unique hmember')
  exact hapart.1 List.prefix_rfl

/-- The names in the listing are distinct exactly if there are no twins. -/
theorem nodup_names_iff {unit : CompilationUnit} (h : Scoped unit) :
    (unit.enumerate.map (·.1)).Nodup ↔ ∀ first second, ¬ Twins unit first second := by
  have hlisted := forall₂_listedAs unit
  have hlength := hlisted.length_eq
  have hspots : unit.typeSpots.Nodup := .of_map _ unit.nodup_typeSpots
  constructor
  · intro hnodup first second htwins
    obtain ⟨outer, outer', hmember, hmember', -⟩ := id htwins
    have hfirst := mem_typeSpots.mpr ⟨_, hmember⟩
    have hsecond := mem_typeSpots.mpr ⟨_, hmember'⟩
    obtain ⟨i, hi, rfl⟩ := List.getElem_of_mem hfirst
    obtain ⟨j, hj, rfl⟩ := List.getElem_of_mem hsecond
    have hname := (name_eq_iff_twins h hfirst hsecond (hlisted.get hi (hlength ▸ hi))
      (hlisted.get hj (hlength ▸ hj)) htwins.ne).mpr htwins
    have hindex : i = j := by
      have hi' : i < (unit.enumerate.map (·.1)).length := by simpa using hlength ▸ hi
      have hj' : j < (unit.enumerate.map (·.1)).length := by simpa using hlength ▸ hj
      have heq : (unit.enumerate.map (·.1))[i] = (unit.enumerate.map (·.1))[j] := by
        simpa using hname
      exact hnodup.getElem_inj_iff.mp heq
    subst hindex
    exact htwins.ne rfl
  · intro hnone
    rw [List.Nodup, List.pairwise_map, List.pairwise_iff_getElem]
    intro i j hi hj hij hname
    have hi' : i < unit.typeSpots.length := hlength ▸ hi
    have hj' : j < unit.typeSpots.length := hlength ▸ hj
    have hne : unit.typeSpots[i] ≠ unit.typeSpots[j] := by
      intro heq
      exact Nat.ne_of_lt hij (hspots.getElem_inj_iff.mp heq)
    exact hnone _ _ ((name_eq_iff_twins h (List.getElem_mem hi') (List.getElem_mem hj')
      (hlisted.get hi' hi) (hlisted.get hj' hj) hne).mp hname)

end Java

namespace Metrics

open Java

theorem names_sublist (logger : String) (unit : CompilationUnit) :
    ((aggregate logger unit).1.map (·.name)).Sublist (unit.enumerate.map (·.1)) := by
  obtain ⟨kept, hsub, hrecords⟩ := exists_sublist_recordsOfTypes unit unit.enumerate
  have hnames : kept.map (·.1) = (recordsOfTypes unit unit.enumerate).map (·.name) := by
    rw [← List.forall₂_eq_eq_eq, List.forall₂_map_left_iff, List.forall₂_map_right_iff]
    exact hrecords.imp fun _ _ hcompute => (compute_ok hcompute).1.symm
  rw [records_aggregate, ← hnames]
  exact hsub.map _

end Metrics

namespace Report

open Java Metrics

/-- When the types of a unit have distinct names, and what of the table. -/
structure DistinctnessAccount (logger : String) (unit : CompilationUnit) : Prop where
  /-- Two types are listed under one name exactly if they are twins. -/
  collisions : ∀ first second listed listed',
    (first, listed) ∈ unit.typeSpots.zip unit.enumerate →
    (second, listed') ∈ unit.typeSpots.zip unit.enumerate → first ≠ second →
    (listed.1 = listed'.1 ↔ Twins unit first second)
  distinct : (unit.enumerate.map (·.1)).Nodup ↔ ∀ first second, ¬ Twins unit first second
  /-- The records have distinct names then, and so have the rows of a table of them. -/
  rows : (∀ first second, ¬ Twins unit first second) →
    ((aggregate logger unit).1.map (·.name)).Nodup ∧
      ∀ layout, ∃ table, readTable (format layout (aggregate logger unit).1) = some table ∧
        (namesIn table).Nodup

theorem names_distinct_iff_no_twins (logger : String) {unit : CompilationUnit} (h : Scoped unit) :
    DistinctnessAccount logger unit where
  collisions first second listed listed' hfirst hsecond hne := by
    obtain ⟨-, hlisted⟩ := List.forall₂_iff_zip.mp (forall₂_listedAs unit)
    exact name_eq_iff_twins h (List.of_mem_zip hfirst).1 (List.of_mem_zip hsecond).1
      (hlisted hfirst) (hlisted hsecond) hne
  distinct := nodup_names_iff h
  rows hnone := by
    have hnames := ((nodup_names_iff h).mpr hnone).sublist (names_sublist logger unit)
    refine ⟨hnames, fun layout => ⟨_, readTable_format layout _, ?_⟩⟩
    rw [namesIn_rows]
    exact (((sortRecords_perm _).map _).nodup_iff).mpr hnames

/-- A class in a class in a class, each named by one letter, from an offset on. -/
def nestedClasses (start : Nat) : Node :=
  { kind := "class_declaration", start, stop := start + 27, children := [
    { kind := "identifier", field := some .name, start := start + 6, stop := start + 7 },
    { kind := "class_body", field := some .body, start := start + 7, stop := start + 27,
      children := [
        { kind := "class_declaration", start := start + 8, stop := start + 26, children := [
          { kind := "identifier", field := some .name, start := start + 14, stop := start + 15 },
          { kind := "class_body", field := some .body, start := start + 15, stop := start + 26,
            children := [
              { kind := "class_declaration", start := start + 16, stop := start + 25,
                children := [
                  { kind := "identifier", field := some .name, start := start + 22,
                    stop := start + 23 },
                  { kind := "class_body", field := some .body, start := start + 23,
                    stop := start + 25 }] }] }] }] }] }

/-- Two classes that each have a member `B`, the first of which has a member `C` and the second a
member of another name. -/
def membersOfTwo (last : String) : CompilationUnit :=
  .ofTree "A.java"
    ("class A\x7bclass B\x7bclass C\x7b\x7d\x7d\x7dclass D\x7bclass B\x7bclass " ++ last ++
      "\x7b\x7d\x7d\x7d")
    { kind := "program", start := 0, stop := 54, children := [nestedClasses 0, nestedClasses 27] }

theorem names_of_members_of_two :
    Scoped (membersOfTwo "E") ∧
      (membersOfTwo "E").enumerate.map (·.1) = ["A", "A$B", "B$C", "D", "D$B", "B$E"] ∧
      DistinctnessAccount "metrics" (membersOfTwo "E") := by
  have hscoped : Scoped (membersOfTwo "E") := by decide +kernel
  exact ⟨hscoped, by decide +kernel, names_distinct_iff_no_twins _ hscoped⟩

/-- The rules are obeyed, and two types have one name. -/
theorem one_name_for_two_members :
    Scoped (membersOfTwo "C") ∧
      (membersOfTwo "C").enumerate.map (·.1) = ["A", "A$B", "B$C", "D", "D$B", "B$C"] ∧
      ¬ ((membersOfTwo "C").enumerate.map (·.1)).Nodup := by
  have hnames : (membersOfTwo "C").enumerate.map (·.1) =
      ["A", "A$B", "B$C", "D", "D$B", "B$C"] := by decide +kernel
  refine ⟨by decide +kernel, hnames, ?_⟩
  rw [hnames]
  decide

end Report

end JavaMetrics
