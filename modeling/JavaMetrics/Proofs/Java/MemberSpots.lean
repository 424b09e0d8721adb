import JavaMetrics.Java.CompilationUnit
import JavaMetrics.Proofs.Syntax.Descent
import Mathlib.Data.List.Pairwise
import Mathlib.Data.List.Perm.Subperm

/-!
# Methods by their spots

Methods are found in two ways. The methods of the file come from a walk over the
whole tree that is cut at methods; the methods of a type come from its body, and
the types themselves from a listing that goes from a type to its member types.
Here both are told again with spots in the place of nodes, so that two methods
that look alike remain two, and are shown to be what the model computes once the
ways are forgotten (`fileMethods_eq`, `methods_eq`, `map_node_typeSpots`).

The two agree: the methods of all types stand at different spots
(`nodup_ownMethodSpots`), and each of them is a method of the file
(`mem_fileMethodSpots_of_own`). The first rests on the members of a type being
apart, so that its methods never lie inside its member types; the second on there
being no method on the way from a type to its members.
-/

namespace JavaMetrics.Java

/-- Does the node declare a type? -/
def declaresType (node : Node) : Bool :=
  (TypeKind.ofNodeKind? node.kind).isSome

theorem declaresType_of_isMethod {node : Node} (h : isMethod node = true) :
    declaresType node = false := by
  simp only [isMethod, Bool.or_eq_true, beq_iff_eq] at h
  rcases h with (h | h) | h <;> simp [declaresType, TypeKind.ofNodeKind?, h]

theorem isMethod_of_declaresType {node : Node} (h : declaresType node = true) :
    isMethod node = false := by
  cases hm : isMethod node with
  | false => rfl
  | true => rw [declaresType_of_isMethod hm] at h; cases h

/-! ## Members -/

/-- What a named child of a body adds to the members. -/
def memberGroup (node : Node) : List Node :=
  if node.kind == "enum_body_declarations" then node.namedChildren else [node]

/-- The members of a type without their siblings. -/
def memberNodes (node : Node) : List Node :=
  match node.child? .body with
  | none => []
  | some body => body.namedChildren.flatMap memberGroup

theorem map_node_members (node : Node) : (members node).map (·.node) = memberNodes node := by
  rw [members, memberNodes]
  cases node.child? .body with
  | none => rfl
  | some body =>
      simp only []
      rw [List.map_flatMap, ← map_node_placedChildren, List.flatMap_map]
      congr 1
      funext member
      rw [memberGroup]
      split
      · exact map_node_placedChildren _
      · rfl

theorem methods_eq (type : TypeDeclaration) :
    type.methods = ((memberNodes type.node).filter isMethod).map Method.mk := by
  rw [TypeDeclaration.methods, ← map_node_members, List.filter_map, List.map_map]
  rfl

theorem map_node_typeDeclarations (outer : Option String) (nodes : List Placed) :
    (typeDeclarations outer nodes).map (·.node) =
      (nodes.map (·.node)).filter declaresType := by
  induction nodes with
  | nil => rfl
  | cons placed rest ih =>
      rw [typeDeclarations, List.filterMap_cons, List.map_cons, List.filter_cons, declaresType,
        ← ih, typeDeclarations]
      cases TypeKind.ofNodeKind? placed.node.kind with
      | none => rfl
      | some kind => rfl

theorem map_node_nested (code : List UInt8) (type : TypeDeclaration) :
    (type.nested code).map (·.node) = (memberNodes type.node).filter declaresType := by
  rw [TypeDeclaration.nested, map_node_typeDeclarations, map_node_members]

/-! ## Members by their spots -/

def groupSpots (spot : Spot) : List Spot :=
  if spot.node.kind == "enum_body_declarations" then spot.namedChildren else [spot]

/-- The spots of the members of a type. -/
def memberSpots (spot : Spot) : List Spot :=
  match spot.child? .body with
  | none => []
  | some body => body.namedChildren.flatMap groupSpots

theorem map_node_memberSpots (spot : Spot) :
    (memberSpots spot).map (·.node) = memberNodes spot.node := by
  rw [memberSpots, memberNodes, ← Spot.map_node_child?]
  cases spot.child? .body with
  | none => rfl
  | some body =>
      simp only [Option.map_some]
      rw [List.map_flatMap, ← Spot.map_node_namedChildren, List.flatMap_map]
      congr 1
      funext member
      rw [groupSpots, memberGroup]
      split
      · exact Spot.map_node_namedChildren _
      · rfl

theorem way_of_mem_groupSpots {spot member : Spot} (h : member ∈ groupSpots spot) :
    spot.way <+: member.way := by
  rw [groupSpots] at h
  split at h
  · exact (Spot.above_of_mem_children (Spot.mem_children_of_namedChildren h)).1
  · obtain rfl := List.mem_singleton.mp h
    exact List.prefix_rfl

theorem pairwise_leftOf_groupSpots (spot : Spot) : (groupSpots spot).Pairwise Spot.LeftOf := by
  rw [groupSpots]
  split
  · exact spot.pairwise_leftOf_namedChildren
  · exact List.pairwise_singleton _ _

theorem above_of_mem_memberSpots {spot member : Spot} (h : member ∈ memberSpots spot) :
    spot.Above member := by
  rw [memberSpots] at h
  split at h
  · cases h
  · next body hbody =>
      obtain ⟨named, hnamed, hmember⟩ := List.mem_flatMap.mp h
      have hfirst := Spot.above_of_mem_children (Spot.mem_children_of_child? hbody)
      have hsecond := Spot.above_of_mem_children (Spot.mem_children_of_namedChildren hnamed)
      exact hfirst.trans_le (hsecond.1.trans (way_of_mem_groupSpots hmember))

theorem pairwise_leftOf_memberSpots (spot : Spot) : (memberSpots spot).Pairwise Spot.LeftOf := by
  rw [memberSpots]
  split
  · exact .nil
  · next body _ =>
      exact Spot.pairwise_leftOf_flatMap body.pairwise_leftOf_namedChildren
        (fun named _ => pairwise_leftOf_groupSpots named) (fun _ _ _ h => way_of_mem_groupSpots h)

theorem pairwise_memberSpots (spot : Spot) : (memberSpots spot).Pairwise Spot.Apart :=
  (pairwise_leftOf_memberSpots spot).imp Spot.LeftOf.apart

/-- Between a type and its members there is no method, if its body is none. -/
theorem reaches_of_mem_memberSpots {spot member : Spot} (hspot : isMethod spot.node = false)
    (hbody : ∀ body, spot.node.child? .body = some body → isMethod body = false)
    (h : member ∈ memberSpots spot) : (walkDescent isMethod).Reaches spot member := by
  rw [memberSpots] at h
  split at h
  · cases h
  · next body hchild =>
      have hbodyNode : isMethod body.node = false := by
        apply hbody
        rw [← Spot.map_node_child?, hchild]
        rfl
      obtain ⟨named, hnamed, hmember⟩ := List.mem_flatMap.mp h
      have hnamed : (walkDescent isMethod).Reaches spot named :=
        .tail (.single (mem_next_walk.mpr ⟨hspot, Spot.mem_children_of_child? hchild⟩))
          (mem_next_walk.mpr ⟨hbodyNode, Spot.mem_children_of_namedChildren hnamed⟩)
      rw [groupSpots] at hmember
      split at hmember
      · next hkind =>
          have hgroup : isMethod named.node = false := by
            simp [isMethod, beq_iff_eq.mp hkind]
          exact .tail hnamed
            (mem_next_walk.mpr ⟨hgroup, Spot.mem_children_of_namedChildren hmember⟩)
      · obtain rfl := List.mem_singleton.mp hmember
        exact hnamed

/-! ## Types by their spots -/

/-- The spots of the methods of a type itself. -/
def methodSpots (spot : Spot) : List Spot :=
  (memberSpots spot).filter (isMethod ·.node)

/-- From a type to its member types. -/
def typeDescent : Descent where
  next spot := (memberSpots spot).filter (declaresType ·.node)
  smaller spot := by
    have hweight := weight_members_lt spot.node
    rw [weight, map_node_members] at hweight
    rw [Spot.map_node_filter, map_node_memberSpots]
    exact Nat.lt_of_le_of_lt (sizeAll_filter_le _ _) hweight
  above spot below h := above_of_mem_memberSpots (List.mem_of_mem_filter h)
  apart spot := (pairwise_memberSpots spot).sublist List.filter_sublist

theorem map_node_run_types (code : List UInt8) (package : String) {spots : List Spot}
    {stack : List TypeDeclaration} (h : spots.map (·.node) = stack.map (·.node)) :
    (typeDescent.run spots).map (·.node) =
      (enumerateStack code package stack).map (·.2.node) := by
  fun_induction enumerateStack code package stack generalizing spots with
  | case1 =>
      obtain rfl := List.map_eq_nil_iff.mp h
      rw [Descent.run]
      rfl
  | case2 type rest ih =>
      obtain ⟨spot, others, rfl, hnode, hothers⟩ := List.map_eq_cons_iff.mp h
      have hnode : spot.node = type.node := hnode
      rw [Descent.run, List.map_cons, List.map_cons, hnode, ih]
      rw [List.map_append, List.map_append, hothers, map_node_nested, ← hnode,
        ← map_node_memberSpots, ← Spot.map_node_filter]
      rfl

namespace CompilationUnit

/-- The spots of the types of a unit, in the order in which they are listed. -/
def typeSpots (unit : CompilationUnit) : List Spot :=
  typeDescent.run ((Spot.top unit.root).namedChildren.filter (declaresType ·.node))

/-- The spots of the methods of all types of a unit. -/
def ownMethodSpots (unit : CompilationUnit) : List Spot :=
  unit.typeSpots.flatMap methodSpots

/-- The spots of the methods of the file. -/
def fileMethodSpots (unit : CompilationUnit) : List Spot :=
  (unit.root.walkSpots isMethod).filter (isMethod ·.node)

theorem map_node_typeSpots (unit : CompilationUnit) :
    unit.typeSpots.map (·.node) = unit.enumerate.map (·.2.node) := by
  apply map_node_run_types
  rw [Spot.map_node_filter, Spot.map_node_namedChildren, types, map_node_typeDeclarations,
    map_node_placedChildren]
  rfl

theorem fileMethods_eq (unit : CompilationUnit) :
    unit.fileMethods = unit.fileMethodSpots.map fun spot => ⟨spot.node⟩ := by
  rw [fileMethods, ← Node.map_node_walkSpots, ← Spot.map_node_filter, List.map_map]
  rfl

theorem map_methods_enumerate (unit : CompilationUnit) :
    unit.enumerate.map (fun listed => (listed.2.node, listed.2.methods)) =
      unit.typeSpots.map fun spot => (spot.node, (methodSpots spot).map fun m => ⟨m.node⟩) := by
  have hspots : ∀ spot : Spot, ((methodSpots spot).map fun m => (⟨m.node⟩ : Method)) =
      ((memberNodes spot.node).filter isMethod).map Method.mk := by
    intro spot
    rw [← map_node_memberSpots, ← Spot.map_node_filter, List.map_map]
    rfl
  have hnodes := congrArg
    (List.map fun node => (node, ((memberNodes node).filter isMethod).map Method.mk))
    unit.map_node_typeSpots
  rw [List.map_map, List.map_map] at hnodes
  simp only [hspots, methods_eq]
  exact hnodes.symm

theorem flatMap_methods_enumerate (unit : CompilationUnit) :
    unit.enumerate.flatMap (·.2.methods) = unit.ownMethodSpots.map fun m => ⟨m.node⟩ := by
  have h := congrArg (List.flatMap Prod.snd) unit.map_methods_enumerate
  rw [List.flatMap_map, List.flatMap_map] at h
  rw [h, ownMethodSpots, List.map_flatMap]

/-! ## The two agree -/

theorem nodup_ownMethodSpots (unit : CompilationUnit) :
    (unit.ownMethodSpots.map (·.way)).Nodup := by
  apply Descent.nodup_flatMap_run
  · intro spot
    exact Spot.nodup_of_pairwise ((pairwise_memberSpots spot).sublist List.filter_sublist)
  · intro spot m hm
    exact (above_of_mem_memberSpots (List.mem_of_mem_filter hm)).1
  · -- a method and a member type of one type are two of its members
    intro spot m hm type htype
    obtain ⟨hm, hmethod⟩ := List.mem_filter.mp hm
    obtain ⟨htype, hdeclares⟩ := List.mem_filter.mp htype
    have hne : m ≠ type := by
      rintro rfl
      rw [declaresType_of_isMethod hmethod] at hdeclares
      cases hdeclares
    exact ((pairwise_memberSpots spot).forall hm htype hne).2
  · exact (Spot.pairwise_namedChildren _).sublist List.filter_sublist

theorem nodup_fileMethodSpots (unit : CompilationUnit) :
    (unit.fileMethodSpots.map (·.way)).Nodup :=
  (Node.nodup_walkSpots isMethod unit.root).sublist (List.filter_sublist.map _)

theorem mem_spots_of_fileMethodSpots {unit : CompilationUnit} {m : Spot}
    (h : m ∈ unit.fileMethodSpots) : m ∈ unit.root.spots :=
  (Node.mem_walkSpots.mp (List.mem_of_mem_filter h)).1

section

variable {unit : CompilationUnit} (hroot : isMethod unit.root = false)
  (hbody : ∀ node ∈ unit.root.descendants, declaresType node = true →
    ∀ body, node.child? .body = some body → isMethod body = false)

include hroot hbody

/-- The walk that is cut at methods comes to every member of a type that it comes to. -/
theorem mem_walkSpots_of_memberSpots {type member : Spot}
    (htype : type ∈ unit.root.walkSpots isMethod) (hdeclares : declaresType type.node = true)
    (hmember : member ∈ memberSpots type) : member ∈ unit.root.walkSpots isMethod := by
  have hnode : type.node ∈ unit.root.descendants := by
    rw [← Node.map_node_spots]
    exact List.mem_map_of_mem (Node.mem_walkSpots.mp htype).1
  rw [Node.walkSpots_eq_run hroot] at htype ⊢
  exact Descent.mem_run_of_reaches htype
    (reaches_of_mem_memberSpots (isMethod_of_declaresType hdeclares)
      (hbody type.node hnode hdeclares) hmember)

theorem mem_walkSpots_of_typeSpots {type : Spot} (h : type ∈ unit.typeSpots) :
    type ∈ unit.root.walkSpots isMethod ∧ declaresType type.node = true := by
  obtain ⟨start, hstart, hreach⟩ := Descent.mem_run.mp h
  clear h
  -- along the steps from a top-level type to its member types
  induction hreach with
  | refl =>
      obtain ⟨hnamed, hdeclares⟩ := List.mem_filter.mp hstart
      refine ⟨?_, hdeclares⟩
      rw [Node.walkSpots_eq_run hroot]
      refine Descent.mem_run.mpr ⟨_, List.mem_singleton_self _, .single ?_⟩
      exact mem_next_walk.mpr ⟨hroot, Spot.mem_children_of_namedChildren hnamed⟩
  | tail _ hstep ih =>
      obtain ⟨hmember, hdeclares⟩ := List.mem_filter.mp hstep
      exact ⟨mem_walkSpots_of_memberSpots hroot hbody ih.1 ih.2 hmember, hdeclares⟩

theorem mem_fileMethodSpots_of_own {m : Spot} (h : m ∈ unit.ownMethodSpots) :
    m ∈ unit.fileMethodSpots := by
  obtain ⟨type, htype, hm⟩ := List.mem_flatMap.mp h
  obtain ⟨hmember, hmethod⟩ := List.mem_filter.mp hm
  obtain ⟨hwalk, hdeclares⟩ := mem_walkSpots_of_typeSpots hroot hbody htype
  exact List.mem_filter.mpr
    ⟨mem_walkSpots_of_memberSpots hroot hbody hwalk hdeclares hmember, hmethod⟩

/-- The methods of all types together are some of the methods of the file, none of them taken
twice. -/
theorem methods_subperm_fileMethods :
    (unit.enumerate.flatMap (·.2.methods)).Subperm unit.fileMethods := by
  rw [flatMap_methods_enumerate, fileMethods_eq]
  have hnodup : unit.ownMethodSpots.Nodup := List.Nodup.of_map _ unit.nodup_ownMethodSpots
  have hsub : unit.ownMethodSpots ⊆ unit.fileMethodSpots :=
    fun _ hm => mem_fileMethodSpots_of_own hroot hbody hm
  obtain ⟨kept, hperm, hkept⟩ := hnodup.subperm hsub
  exact ⟨kept.map fun m => ⟨m.node⟩, hperm.map _, hkept.map _⟩

end

end CompilationUnit

end JavaMetrics.Java
