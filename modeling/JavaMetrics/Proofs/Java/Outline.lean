import JavaMetrics.Proofs.Java.Spans
import JavaMetrics.Proofs.Metrics.NamedTypes

/-!
# The types of a unit in pre-order

The listing of the types keeps a stack and knows neither the depth of a type nor
what is around it. What it gives is the outline of the unit all the same: a type,
then the outlines of its member types one after the other. `enumerateStack_eq` is
the step from the stack to the recursion, and it says that the loop is a concatenation
over its stack.

Which nodes are listed is said by `DeclaredIn`, with no listing in it: a type stands
at the top of the tree or is a member of a type that is declared. No type has two
others around it of which it is a member (`DeclaredIn.unique`); that is not a matter of
course, since in a broken tree the body of a type may itself look like a type. It is
what makes the name of a type well determined.

In a well placed tree a spot that stands to the left of another one ends before it
starts. So the types are listed in the order of their first bytes, as soon as none is
empty and members start after their type does.
-/

namespace JavaMetrics

namespace Node.WellPlaced

theorem inside_of_at? {root node : Node} (h : root.WellPlaced) {way : List Nat}
    (hat : root.at? way = some node) : root.start ≤ node.start ∧ node.stop ≤ root.stop := by
  induction way generalizing root with
  | nil =>
      rw [at?, Option.some.injEq] at hat
      subst hat
      exact ⟨Nat.le_refl _, Nat.le_refl _⟩
  | cons i way ih =>
      rw [at?] at hat
      split at hat
      · next child hchild =>
          have hmem := List.mem_of_getElem? hchild
          have houter := h.holds.inside child hmem
          have hinner := ih (h.child hmem) hat
          omega
      · cases hat

theorem start_le_of_prefix {root : Node} (h : root.WellPlaced) {upper lower : Spot}
    (hupper : upper ∈ root.spots) (hlower : lower ∈ root.spots)
    (hway : upper.way <+: lower.way) : upper.node.start ≤ lower.node.start := by
  obtain ⟨rest, hrest⟩ := hway
  rw [mem_spots] at hupper hlower
  rw [← hrest, at?_append, hupper] at hlower
  exact ((h.of_at? hupper).inside_of_at? hlower).1

theorem stop_le_start_of_leftOf {root : Node} (h : root.WellPlaced) {first second : Spot}
    (hfirst : first ∈ root.spots) (hsecond : second ∈ root.spots)
    (hleft : first.LeftOf second) : first.node.stop ≤ second.node.start := by
  obtain ⟨way, i, j, rest, rest', hway, hway', hij⟩ := hleft
  rw [mem_spots, hway, at?_append, Option.bind_eq_some_iff] at hfirst
  rw [mem_spots, hway', at?_append, Option.bind_eq_some_iff] at hsecond
  obtain ⟨parent, hparent, hfirst⟩ := hfirst
  obtain ⟨parent', hparent', hsecond⟩ := hsecond
  obtain rfl : parent = parent' := Option.some.inj (hparent.symm.trans hparent')
  have hplaced := h.of_at? hparent
  rw [at?] at hfirst hsecond
  split at hfirst
  · next child hchild =>
      split at hsecond
      · next child' hchild' =>
          -- both lie inside children of the spot at which their ways part
          have hends := ((hplaced.child (List.mem_of_getElem? hchild)).inside_of_at? hfirst).2
          have hstarts := ((hplaced.child (List.mem_of_getElem? hchild')).inside_of_at? hsecond).1
          obtain ⟨hi, rfl⟩ := List.getElem?_eq_some_iff.mp hchild
          obtain ⟨hj, rfl⟩ := List.getElem?_eq_some_iff.mp hchild'
          have horder := List.pairwise_iff_getElem.mp hplaced.holds.inOrder i j hi hj hij
          omega
      · cases hsecond
  · cases hfirst

end Node.WellPlaced

namespace Java

open Metrics (outer_of_mem_typeDeclarations of_mem_enumerateStack)

/-! ## The listing as a recursion -/

/-- A type under its qualified name, and then its member types in the same manner. -/
def outline (code : List UInt8) (package : String) (type : TypeDeclaration) :
    List (String × TypeDeclaration) :=
  (qualifiedName package (type.name code) type.outer, type) ::
    (type.nested code).attach.flatMap fun ⟨inner, _⟩ => outline code package inner
termination_by type.node.size
decreasing_by
  next hinner =>
    have hle := sizeAll_mem_le (List.mem_map_of_mem (f := (·.node)) hinner)
    exact Nat.lt_of_le_of_lt hle (declarationWeight_nested_lt code type)

theorem outline_eq (code : List UInt8) (package : String) (type : TypeDeclaration) :
    outline code package type =
      (qualifiedName package (type.name code) type.outer, type) ::
        (type.nested code).flatMap (outline code package) := by
  rw [outline, List.flatMap_subtype fun _ _ => rfl, List.unattach_attach]

theorem enumerateStack_eq (code : List UInt8) (package : String) (stack : List TypeDeclaration) :
    enumerateStack code package stack = stack.flatMap (outline code package) := by
  fun_induction enumerateStack code package stack with
  | case1 => rfl
  | case2 type rest ih =>
      rw [ih, List.flatMap_append, List.flatMap_cons, outline_eq, List.cons_append]

/-! ## Which types are declared -/

/-- Is the second spot a named child of the body of the first, or of a group of declarations in
it? -/
def IsMember (outer spot : Spot) : Prop :=
  ∃ body ∈ outer.child? .body, spot ∈ body.namedChildren ∨
    ∃ group ∈ body.namedChildren, group.node.kind = "enum_body_declarations" ∧
      spot ∈ group.namedChildren

/-- Is a type declared at a spot of the tree, at the top or as a member of another one? -/
inductive DeclaredIn (root : Node) : Option Spot → Spot → Prop where
  | top {spot : Spot} (child : spot ∈ (Spot.top root).namedChildren)
      (type : declaresType spot.node = true) : DeclaredIn root none spot
  | member {around : Option Spot} {outer spot : Spot} (declared : DeclaredIn root around outer)
      (member : IsMember outer spot) (type : declaresType spot.node = true) :
      DeclaredIn root (some outer) spot

theorem mem_memberSpots {outer spot : Spot} (htype : declaresType spot.node = true) :
    spot ∈ memberSpots outer ↔ IsMember outer spot := by
  have hkind : spot.node.kind ≠ "enum_body_declarations" := by
    intro hkind
    simp [declaresType, TypeKind.ofNodeKind?, hkind] at htype
  rw [memberSpots, IsMember]
  cases outer.child? .body with
  | none => simp
  | some body =>
      simp only [List.mem_flatMap, Option.mem_def, Option.some.injEq, exists_eq_left']
      constructor
      · rintro ⟨group, hgroup, hspot⟩
        rw [groupSpots] at hspot
        split at hspot
        · next hgroupKind => exact .inr ⟨group, hgroup, beq_iff_eq.mp hgroupKind, hspot⟩
        · rw [List.mem_singleton.mp hspot]
          exact .inl hgroup
      · intro h
        rcases h with hspot | ⟨group, hgroup, hgroupKind, hspot⟩
        · refine ⟨spot, hspot, ?_⟩
          rw [groupSpots, if_neg (by simpa using hkind)]
          exact List.mem_singleton_self _
        · refine ⟨group, hgroup, ?_⟩
          rw [groupSpots, if_pos (by simpa using hgroupKind)]
          exact hspot

theorem mem_next_type {outer spot : Spot} :
    spot ∈ typeDescent.next outer ↔ IsMember outer spot ∧ declaresType spot.node = true := by
  show spot ∈ (memberSpots outer).filter (declaresType ·.node) ↔ _
  rw [List.mem_filter]
  constructor
  · rintro ⟨hspot, htype⟩
    exact ⟨(mem_memberSpots htype).mp hspot, htype⟩
  · rintro ⟨hspot, htype⟩
    exact ⟨(mem_memberSpots htype).mpr hspot, htype⟩

namespace DeclaredIn

theorem above {root : Node} {outer spot : Spot} (h : DeclaredIn root (some outer) spot) :
    outer.Above spot := by
  cases h with
  | member _ hmember htype => exact typeDescent.above _ _ (mem_next_type.mpr ⟨hmember, htype⟩)

theorem way_ne_nil {root : Node} {around : Option Spot} {spot : Spot}
    (h : DeclaredIn root around spot) : spot.way ≠ [] := by
  intro hnil
  cases h with
  | top hchild _ =>
      have habove := Spot.above_of_mem_children (Spot.mem_children_of_namedChildren hchild)
      exact habove.2 hnil.symm
  | member hdeclared hmember htype =>
      have habove := (DeclaredIn.member hdeclared hmember htype).above
      rw [Spot.Above, hnil] at habove
      exact habove.2 (List.prefix_nil.mp habove.1)

end DeclaredIn

theorem mem_typeSpots {unit : CompilationUnit} {spot : Spot} :
    spot ∈ unit.typeSpots ↔ ∃ around, DeclaredIn unit.root around spot := by
  constructor
  · intro h
    obtain ⟨start, hstart, hreach⟩ := Descent.mem_run.mp h
    clear h
    induction hreach with
    | refl =>
        obtain ⟨hchild, htype⟩ := List.mem_filter.mp hstart
        exact ⟨none, .top hchild htype⟩
    | tail _ hstep ih =>
        obtain ⟨around, hdeclared⟩ := ih
        obtain ⟨hmember, htype⟩ := mem_next_type.mp hstep
        exact ⟨some _, .member hdeclared hmember htype⟩
  · rintro ⟨around, hdeclared⟩
    induction hdeclared with
    | top hchild htype =>
        exact Descent.mem_run.mpr ⟨_, List.mem_filter.mpr ⟨hchild, htype⟩, .refl⟩
    | member _ hmember htype ih =>
        exact Descent.mem_run_of_reaches ih (.single (mem_next_type.mpr ⟨hmember, htype⟩))

/-! ## Pre-order -/

namespace CompilationUnit

theorem pairwise_typeSpots (unit : CompilationUnit) :
    unit.typeSpots.Pairwise fun first second =>
      (∃ below ∈ typeDescent.next first, typeDescent.Reaches below second) ∨
        first.LeftOf second := by
  apply typeDescent.pairwise_run
  · intro spot
    exact (pairwise_leftOf_memberSpots spot).sublist List.filter_sublist
  · exact (Spot.pairwise_leftOf_namedChildren _).sublist List.filter_sublist

theorem sublist_of_precedes (unit : CompilationUnit) {first second : Spot}
    (hfirst : first ∈ unit.typeSpots) (hsecond : second ∈ unit.typeSpots)
    (h : first.Precedes second) : [first, second].Sublist unit.typeSpots := by
  have hpair : unit.typeSpots.Pairwise Spot.Precedes := by
    refine unit.pairwise_typeSpots.imp ?_
    rintro a b (⟨below, hbelow, hreach⟩ | hleft)
    · exact .inl ((typeDescent.above _ _ hbelow).trans_le hreach.way)
    · exact .inr hleft
  exact (Spot.pair_sublist_iff_precedes hpair hfirst hsecond).mpr h

end CompilationUnit

/-! ## The type around a type -/

/-- Is one of two types reached through a member of the other, or are they apart? -/
def Unmixed (first second : Spot) : Prop :=
  (∃ below ∈ typeDescent.next first, typeDescent.Reaches below second) ∨
    (∃ below ∈ typeDescent.next second, typeDescent.Reaches below first) ∨ first.Apart second

instance : Std.Symm Unmixed where
  symm first second h := by
    rcases h with h | h | h
    · exact .inr (.inl h)
    · exact .inl h
    · exact .inr (.inr ⟨h.2, h.1⟩)

theorem pairwise_unmixed (unit : CompilationUnit) : unit.typeSpots.Pairwise Unmixed := by
  refine unit.pairwise_typeSpots.imp ?_
  intro first second h
  exact h.imp id fun hleft => .inr hleft.apart

/-- What is reached through the members of a type stands above none of them. -/
theorem not_reaches_of_next {outer outer' spot below : Spot}
    (hspot : spot ∈ typeDescent.next outer) (hbelow : below ∈ typeDescent.next outer)
    (habove : outer'.Above spot) : ¬ typeDescent.Reaches below outer' := by
  intro hreach
  by_cases hsame : below = spot
  · rw [hsame] at hreach
    exact habove.not_le hreach.way
  · have hapart := (typeDescent.apart outer).forall hbelow hspot hsame
    exact hapart.1 (hreach.way.trans habove.1)

/-- The way to a child of the root has one step, the way to a member has more. -/
theorem not_declaredIn_of_top {root : Node} {outer spot : Spot}
    (hchild : spot ∈ (Spot.top root).namedChildren) : ¬ DeclaredIn root (some outer) spot := by
  intro hmember
  obtain ⟨i, -, hway⟩ := Spot.mem_children.mp (Spot.mem_children_of_namedChildren hchild)
  have habove := hmember.above
  cases hmember with
  | member houter _ _ =>
      obtain ⟨j, rest, hcons⟩ := List.exists_cons_of_ne_nil houter.way_ne_nil
      rw [Spot.Above, hway, hcons] at habove
      obtain ⟨hlead, hne⟩ := habove
      refine hne (hlead.eq_of_length ?_)
      have hlength := hlead.length_le
      simp only [Spot.top, List.nil_append, List.length_cons, List.length_nil] at hlength ⊢
      omega

/-- A type is a member of one type at most, and of none if it stands at the top. -/
theorem DeclaredIn.unique {unit : CompilationUnit} {around around' : Option Spot} {spot : Spot}
    (h : DeclaredIn unit.root around spot) (h' : DeclaredIn unit.root around' spot) :
    around = around' := by
  cases h with
  | top hchild _ =>
      cases h' with
      | top => rfl
      | member houter hmember htype =>
          exact absurd (.member houter hmember htype) (not_declaredIn_of_top hchild)
  | @member _ outer _ houter hmember htype =>
      cases h' with
      | top hchild _ => exact absurd (.member houter hmember htype) (not_declaredIn_of_top hchild)
      | @member _ outer' _ houter' hmember' _ =>
          have hnext := mem_next_type.mpr ⟨hmember, htype⟩
          have hnext' := mem_next_type.mpr ⟨hmember', htype⟩
          have habove := typeDescent.above _ _ hnext
          have habove' := typeDescent.above _ _ hnext'
          by_contra hne
          have hmixed := (pairwise_unmixed unit).forall (mem_typeSpots.mpr ⟨_, houter⟩)
            (mem_typeSpots.mpr ⟨_, houter'⟩) (by simpa using hne)
          rcases hmixed with ⟨below, hbelow, hreach⟩ | ⟨below, hbelow, hreach⟩ | hapart
          · exact not_reaches_of_next hnext hbelow habove' hreach
          · exact not_reaches_of_next hnext' hbelow habove hreach
          · exact (hapart.below habove.1 habove'.1).1 List.prefix_rfl

/-! ## Names -/

/-- Does a listed type stand at a declared spot, and does it know the type around it? -/
def DeclaredAs (root : Node) (code : List UInt8) (spot : Spot) (type : TypeDeclaration) : Prop :=
  StandsAt root spot type.placed ∧ TypeKind.ofNodeKind? spot.node.kind = some type.kind ∧
    ∃ around, DeclaredIn root around spot ∧
      type.outer = around.map fun outer => declaredName code outer.node

theorem kind_of_mem_typeDeclarations {outer : Option String} {nodes : List Placed}
    {type : TypeDeclaration} (h : type ∈ typeDeclarations outer nodes) :
    TypeKind.ofNodeKind? type.node.kind = some type.kind := by
  rw [typeDeclarations, List.mem_filterMap] at h
  obtain ⟨placed, -, htype⟩ := h
  obtain ⟨kind, hkind, rfl⟩ := Option.map_eq_some_iff.mp htype
  exact hkind

theorem forall₂_declaredAs {root : Node} {code : List UInt8} {around : Option Spot}
    {spots : List Spot} {nodes : List Placed} {outer : Option String}
    (houter : outer = around.map fun outer => declaredName code outer.node)
    (hstands : List.Forall₂ (fun spot type => StandsAt root spot type.placed) spots
      (typeDeclarations outer nodes))
    (hdeclared : ∀ spot ∈ spots, DeclaredIn root around spot) :
    List.Forall₂ (DeclaredAs root code) spots (typeDeclarations outer nodes) := by
  rw [List.forall₂_iff_zip] at hstands ⊢
  refine ⟨hstands.1, ?_⟩
  intro spot type hmem
  obtain ⟨hspot, htype⟩ := List.of_mem_zip hmem
  have hstand := hstands.2 hmem
  have hkind := kind_of_mem_typeDeclarations htype
  have hnode : spot.node = type.node := hstand.node_eq
  refine ⟨hstand, by rw [hnode, hkind], around, hdeclared spot hspot, ?_⟩
  rw [outer_of_mem_typeDeclarations htype, houter]

theorem forall₂_declaredAs_nested (root : Node) (code : List UInt8) (spot : Spot)
    (type : TypeDeclaration) (h : DeclaredAs root code spot type) :
    List.Forall₂ (DeclaredAs root code) (typeDescent.next spot) (type.nested code) := by
  obtain ⟨hstands, -, around, hdeclared, -⟩ := h
  have hnode : spot.node = type.node := hstands.node_eq
  have hname : some (type.name code) =
      (some spot).map fun outer => declaredName code outer.node := by
    rw [Option.map_some, hnode]
    rfl
  refine forall₂_declaredAs hname (forall₂_nested code hstands) ?_
  intro inner hinner
  obtain ⟨hmember, htype⟩ := mem_next_type.mp hinner
  exact .member hdeclared hmember htype

/-- Is a spot listed as a type of its kind, under a name that is made from its own and that of the
type of which it is a member? -/
structure ListedAs (unit : CompilationUnit) (spot : Spot) (listed : String × TypeDeclaration) :
    Prop where
  stands : StandsAt unit.root spot listed.2.placed
  kind : TypeKind.ofNodeKind? spot.node.kind = some listed.2.kind
  outer : ∀ around, DeclaredIn unit.root around spot →
    listed.2.outer = around.map fun outer => declaredName unit.code outer.node
  name : ∀ around, DeclaredIn unit.root around spot →
    listed.1 = qualifiedName unit.packageName (declaredName unit.code spot.node)
      (around.map fun outer => declaredName unit.code outer.node)

theorem forall₂_listedAs (unit : CompilationUnit) :
    List.Forall₂ (ListedAs unit) unit.typeSpots unit.enumerate := by
  have htypes : List.Forall₂ (DeclaredAs unit.root unit.code)
      ((Spot.top unit.root).namedChildren.filter (declaresType ·.node)) unit.types := by
    have houter : (none : Option String) =
        (none : Option Spot).map fun outer => declaredName unit.code outer.node := rfl
    refine forall₂_declaredAs houter unit.forall₂_types ?_
    intro spot hspot
    obtain ⟨hchild, htype⟩ := List.mem_filter.mp hspot
    exact .top hchild htype
  have hlisted := forall₂_run unit.code unit.packageName
    (forall₂_declaredAs_nested unit.root unit.code) htypes
  rw [List.forall₂_map_right_iff, List.forall₂_iff_zip] at hlisted
  rw [List.forall₂_iff_zip]
  refine ⟨hlisted.1, ?_⟩
  intro spot listed hmem
  obtain ⟨hstands, hkind, around, hdeclared, houter⟩ := hlisted.2 hmem
  have hnode : spot.node = listed.2.node := hstands.node_eq
  have houters : ∀ around', DeclaredIn unit.root around' spot →
      listed.2.outer = around'.map fun outer => declaredName unit.code outer.node := by
    intro around' hdeclared'
    rw [hdeclared'.unique hdeclared, houter]
  refine ⟨hstands, hkind, houters, ?_⟩
  intro around' hdeclared'
  rw [(of_mem_enumerateStack (List.of_mem_zip hmem).2).1, houters around' hdeclared', hnode]
  rfl

/-! ## First bytes -/

theorem exists_listed_of_typeSpots {unit : CompilationUnit} {spot : Spot}
    (h : spot ∈ unit.typeSpots) : ∃ listed ∈ unit.enumerate, listed.2.node = spot.node := by
  have hnode := List.mem_map_of_mem (f := (·.node)) h
  rw [unit.map_node_typeSpots] at hnode
  exact List.mem_map.mp hnode

theorem pairwise_starts {unit : CompilationUnit} (hplaced : unit.root.WellPlaced)
    (hfull : ∀ listed ∈ unit.enumerate, listed.2.node.start < listed.2.node.stop)
    (hafter : ∀ listed ∈ unit.enumerate, ∀ inner ∈ listed.2.nested unit.code,
      listed.2.node.start < inner.node.start) :
    unit.enumerate.Pairwise fun first second => first.2.node.start < second.2.node.start := by
  have hin : ∀ spot ∈ unit.typeSpots, spot ∈ unit.root.spots := by
    intro spot hspot
    obtain ⟨i, hi, rfl⟩ := List.getElem_of_mem hspot
    exact (unit.forall₂_typeSpots.get hi (unit.forall₂_typeSpots.length_eq ▸ hi)).mem_spots
  have hspots : unit.typeSpots.Pairwise fun a b => a.node.start < b.node.start := by
    refine unit.pairwise_typeSpots.imp_of_mem ?_
    intro first second hfirst hsecond h
    obtain ⟨listed, hlisted, hnode⟩ := exists_listed_of_typeSpots hfirst
    rcases h with ⟨below, hbelow, hreach⟩ | hleft
    · have hnested : below.node ∈ (listed.2.nested unit.code).map (·.node) := by
        rw [map_node_nested, hnode, ← map_node_memberSpots, ← Spot.map_node_filter]
        exact List.mem_map_of_mem hbelow
      obtain ⟨inner, hinner, hbelowNode⟩ := List.mem_map.mp hnested
      have hmember := hafter listed hlisted inner hinner
      have hlisted : below ∈ unit.typeSpots := Descent.mem_run_of_reaches hfirst (.single hbelow)
      have hlower := hplaced.start_le_of_prefix (hin _ hlisted) (hin _ hsecond) hreach.way
      rw [hnode, hbelowNode] at hmember
      omega
    · have hends := hplaced.stop_le_start_of_leftOf (hin _ hfirst) (hin _ hsecond) hleft
      have hsome := hfull listed hlisted
      rw [hnode] at hsome
      omega
  have hnodes : (unit.typeSpots.map (·.node)).Pairwise fun a b => a.start < b.start :=
    List.pairwise_map.mpr hspots
  rw [unit.map_node_typeSpots, List.pairwise_map] at hnodes
  exact hnodes

end Java

namespace Metrics

open Java

/-- Whatever goes with the types of a unit, a part of it goes with their records. -/
theorem exists_sublist_of_forall₂ {unit : CompilationUnit} {α : Type}
    {R : α → String × TypeDeclaration → Prop} {values : List α}
    {types : List (String × TypeDeclaration)} (h : List.Forall₂ R values types) :
    ∃ kept, kept.Sublist values ∧
      List.Forall₂ (fun value record => ∃ listed, R value listed ∧
        compute unit listed.1 listed.2 = .ok record) kept (recordsOfTypes unit types) := by
  induction h with
  | nil => exact ⟨[], .slnil, .nil⟩
  | @cons value listed _ _ hvalue _ ih =>
      obtain ⟨name, type⟩ := listed
      obtain ⟨kept, hsub, hrecords⟩ := ih
      rw [recordsOfTypes_cons]
      cases hcompute : compute unit name type with
      | error fault => exact ⟨kept, hsub.cons _, hrecords⟩
      | ok record =>
          exact ⟨value :: kept, hsub.cons_cons _, .cons ⟨_, hvalue, hcompute⟩ hrecords⟩

/-- The records of some types are records of a part of them, in the same order. -/
theorem exists_sublist_recordsOfTypes (unit : CompilationUnit)
    (types : List (String × TypeDeclaration)) :
    ∃ kept, kept.Sublist types ∧
      List.Forall₂ (fun listed record => compute unit listed.1 listed.2 = .ok record) kept
        (recordsOfTypes unit types) := by
  have hsame : List.Forall₂ Eq types types := List.forall₂_refl types
  obtain ⟨kept, hsub, hrecords⟩ := exists_sublist_of_forall₂ hsame
  refine ⟨kept, hsub, hrecords.imp ?_⟩
  rintro listed record ⟨_, rfl, hcompute⟩
  exact hcompute

/-- How the types of a unit are listed. -/
structure OutlineAccount (logger : String) (unit : CompilationUnit) : Prop where
  /-- The listing is the outline of the types that are no members, one after the other. -/
  flattened : unit.enumerate = unit.types.flatMap (outline unit.code unit.packageName)
  /-- The spots of the listed types are those at which a type is declared, each of them once. -/
  declared : ∀ spot, spot ∈ unit.typeSpots ↔ ∃ around, DeclaredIn unit.root around spot
  once : (unit.typeSpots.map (·.way)).Nodup
  listed : List.Forall₂ (ListedAs unit) unit.typeSpots unit.enumerate
  /-- A type comes after the type of which it is a member, and with all that is declared in it
  before the later members of that type. -/
  afterOuter : ∀ outer spot, DeclaredIn unit.root (some outer) spot →
    [outer, spot].Sublist unit.typeSpots
  beforeLater : ∀ outer spot later, DeclaredIn unit.root (some outer) spot →
    DeclaredIn unit.root (some outer) later → spot.LeftOf later →
      ∀ below ∈ unit.typeSpots, spot.way <+: below.way → [below, later].Sublist unit.typeSpots
  /-- In a well placed tree the types, and with them the records, come in the order of their first
  bytes. -/
  inOrder : unit.root.WellPlaced →
    (∀ listed ∈ unit.enumerate, listed.2.node.start < listed.2.node.stop) →
    (∀ listed ∈ unit.enumerate, ∀ inner ∈ listed.2.nested unit.code,
      listed.2.node.start < inner.node.start) →
    (unit.enumerate.map (·.2.node.start)).Pairwise (· < ·) ∧
      ∃ kept : List (String × TypeDeclaration),
        List.Forall₂ (fun listed record => compute unit listed.1 listed.2 = .ok record) kept
          (aggregate logger unit).1 ∧
        (kept.map (·.2.node.start)).Pairwise (· < ·)

/-- The types of any unit are listed in pre-order, every declared type once and under the name of the
type around it; in a well placed tree that is the order of the source. -/
theorem types_listed_in_preorder (logger : String) (unit : CompilationUnit) :
    OutlineAccount logger unit where
  flattened := enumerateStack_eq _ _ _
  declared _ := mem_typeSpots
  once := unit.nodup_typeSpots
  listed := forall₂_listedAs unit
  afterOuter outer spot h := by
    have hspot := mem_typeSpots.mpr ⟨_, h⟩
    have habove := h.above
    cases h with
    | member houter _ _ =>
        exact unit.sublist_of_precedes (mem_typeSpots.mpr ⟨_, houter⟩) hspot (.inl habove)
  beforeLater outer spot later _ hlater hleft below hbelow hway :=
    unit.sublist_of_precedes hbelow (mem_typeSpots.mpr ⟨_, hlater⟩)
      (.inr (hleft.below hway List.prefix_rfl))
  inOrder hplaced hfull hafter := by
    have hstarts := pairwise_starts hplaced hfull hafter
    obtain ⟨kept, hsub, hrecords⟩ := exists_sublist_recordsOfTypes unit unit.enumerate
    rw [records_aggregate]
    exact ⟨List.pairwise_map.mpr hstarts, kept, hrecords,
      List.pairwise_map.mpr (hstarts.sublist hsub)⟩

/-- A class with an enum that declares a class of its own behind its constants, another class after
the enum, and an interface after them all. -/
def typesInTypes : CompilationUnit :=
  .ofTree "A.java" "class A\x7benum B\x7b;class C\x7b\x7d\x7dclass D\x7b\x7d\x7dinterface E\x7b\x7d"
    { kind := "program", start := 0, stop := 49, children := [
      { kind := "class_declaration", start := 0, stop := 36, children := [
        { kind := "identifier", field := some .name, start := 6, stop := 7 },
        { kind := "class_body", field := some .body, start := 7, stop := 36, children := [
          { kind := "enum_declaration", start := 8, stop := 26, children := [
            { kind := "identifier", field := some .name, start := 13, stop := 14 },
            { kind := "enum_body", field := some .body, start := 14, stop := 26, children := [
              { kind := "enum_body_declarations", start := 15, stop := 25, children := [
                { kind := ";", named := false, start := 15, stop := 16 },
                { kind := "class_declaration", start := 16, stop := 25, children := [
                  { kind := "identifier", field := some .name, start := 22, stop := 23 },
                  { kind := "class_body", field := some .body, start := 23, stop := 25 }] }] }] }] },
          { kind := "class_declaration", start := 26, stop := 35, children := [
            { kind := "identifier", field := some .name, start := 32, stop := 33 },
            { kind := "class_body", field := some .body, start := 33, stop := 35 }] }] }] },
      { kind := "interface_declaration", start := 36, stop := 49, children := [
        { kind := "identifier", field := some .name, start := 46, stop := 47 },
        { kind := "interface_body", field := some .body, start := 47, stop := 49 }] }] }

theorem preorder_of_types_in_types :
    typesInTypes.enumerate.map (fun listed => (listed.1, listed.2.node.start)) =
        [("A", 0), ("A$B", 8), ("B$C", 16), ("A$D", 26), ("E", 36)] ∧
      typesInTypes.root.WellPlaced ∧
      (∀ listed ∈ typesInTypes.enumerate, listed.2.node.start < listed.2.node.stop) ∧
      (∀ listed ∈ typesInTypes.enumerate, ∀ inner ∈ listed.2.nested typesInTypes.code,
        listed.2.node.start < inner.node.start) ∧
      OutlineAccount "metrics" typesInTypes :=
  ⟨by decide +kernel, by decide +kernel, by decide +kernel, by decide +kernel,
    types_listed_in_preorder _ _⟩

end Metrics

end JavaMetrics
