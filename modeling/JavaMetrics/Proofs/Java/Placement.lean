import JavaMetrics.Proofs.Java.MemberSpots
import Mathlib.Data.List.Forall2

/-!
# Types in their places

A tree is well placed when every node holds its children, one after the other.
That is what a tree of a source looks like, clean or not, and nothing that is
listed depends on it; what the listing says of offsets does.

The listing of the types carries with each type the siblings before it, among
which its documentation is found. `forall₂_enumerateStack` says that they are the
right ones: the types are listed in the order of their spots, and each of them
stands behind the siblings that it was given.
-/

namespace JavaMetrics

/-- Does a node hold its children, one after the other? -/
structure Node.HoldsChildren (node : Node) : Prop where
  range : node.start ≤ node.stop
  inside : ∀ child ∈ node.children, node.start ≤ child.start ∧ child.stop ≤ node.stop
  inOrder : node.children.Pairwise fun first second => first.stop ≤ second.start

/-- Does every node of a tree hold its children? -/
def Node.WellPlaced (root : Node) : Prop :=
  ∀ node ∈ root.descendants, node.HoldsChildren

instance (node : Node) : Decidable node.HoldsChildren :=
  decidable_of_iff
    (node.start ≤ node.stop ∧
      (∀ child ∈ node.children, node.start ≤ child.start ∧ child.stop ≤ node.stop) ∧
      node.children.Pairwise fun first second => first.stop ≤ second.start)
    ⟨fun h => ⟨h.1, h.2.1, h.2.2⟩, fun h => ⟨h.range, h.inside, h.inOrder⟩⟩

instance (root : Node) : Decidable root.WellPlaced :=
  inferInstanceAs (Decidable (∀ node ∈ root.descendants, node.HoldsChildren))

namespace Node.WellPlaced

theorem of_at? {root node : Node} (h : root.WellPlaced) {way : List Nat}
    (hat : root.at? way = some node) : node.WellPlaced := by
  intro below hbelow
  exact h below (mem_descendants_trans (mem_descendants.mpr ⟨way, hat⟩) hbelow)

theorem holds {root : Node} (h : root.WellPlaced) : root.HoldsChildren :=
  h root root.self_mem_descendants

theorem child {root child : Node} (h : root.WellPlaced) (hchild : child ∈ root.children) :
    child.WellPlaced := by
  obtain ⟨i, hi⟩ := List.getElem?_of_mem hchild
  exact h.of_at? (at?_cons hi [])

theorem range_child {root child : Node} (h : root.WellPlaced) (hchild : child ∈ root.children) :
    child.start ≤ child.stop :=
  (h.child hchild).holds.range

end Node.WellPlaced

namespace Java

/-! ## Types with their siblings -/

/-- Does a node stand at a spot of a tree, with the right siblings before it? -/
def StandsAt (root : Node) (spot : Spot) (placed : Placed) : Prop :=
  ∃ parent ∈ root.spots, ∃ after,
    parent.node.children = placed.before.reverse ++ placed.node :: after ∧
      spot = ⟨parent.way ++ [placed.before.length], placed.node⟩

theorem StandsAt.node_eq {root : Node} {spot : Spot} {placed : Placed}
    (h : StandsAt root spot placed) : spot.node = placed.node := by
  obtain ⟨parent, -, after, -, rfl⟩ := h
  rfl

theorem StandsAt.mem_spots {root : Node} {spot : Spot} {placed : Placed}
    (h : StandsAt root spot placed) : spot ∈ root.spots := by
  obtain ⟨parent, hparent, after, hchildren, rfl⟩ := h
  apply Spot.mem_spots_of_children hparent
  rw [Spot.mem_children]
  refine ⟨placed.before.length, ?_, rfl⟩
  rw [hchildren, ← List.length_reverse, List.getElem?_append_right (Nat.le_refl _)]
  simp

theorem forall₂_placeFrom {root : Node} {parent : Spot} (hparent : parent ∈ root.spots)
    {before rest : List Node} (h : parent.node.children = before.reverse ++ rest) :
    List.Forall₂ (StandsAt root)
      (rest.mapIdx fun i child => ⟨parent.way ++ [i + before.length], child⟩)
      (placeFrom before rest) := by
  induction rest generalizing before with
  | nil => exact .nil
  | cons node rest ih =>
      rw [List.mapIdx_cons, placeFrom]
      refine .cons ⟨parent, hparent, rest, h, by rw [Nat.zero_add]⟩ ?_
      have hnext : parent.node.children = (node :: before).reverse ++ rest := by
        rw [h, List.reverse_cons, List.append_assoc, List.singleton_append]
      have := ih hnext
      simpa only [List.length_cons, Nat.add_right_comm, Nat.add_assoc, Nat.add_comm 1] using this

theorem forall₂_namedChildren {root : Node} {spot : Spot} (hspot : spot ∈ root.spots) :
    List.Forall₂ (StandsAt root) spot.namedChildren (placedChildren spot.node) := by
  rw [Spot.namedChildren, placedChildren]
  apply List.rel_filter
  · intro child placed hstands
    show child.node.named = true ↔ placed.node.named = true
    rw [hstands.node_eq]
  · have hall : spot.node.children = ([] : List Node).reverse ++ spot.node.children := rfl
    exact forall₂_placeFrom hspot hall

theorem forall₂_memberSpots {root : Node} {spot : Spot} (hspot : spot ∈ root.spots) :
    List.Forall₂ (StandsAt root) (memberSpots spot) (members spot.node) := by
  rw [memberSpots, members, ← Spot.map_node_child?]
  cases hbody : spot.child? .body with
  | none => exact .nil
  | some body =>
      have hin := Spot.mem_spots_of_children hspot (Spot.mem_children_of_child? hbody)
      refine List.rel_flatMap (forall₂_namedChildren hin) ?_
      intro member placed hstands
      simp only [groupSpots, ← hstands.node_eq]
      split
      · exact forall₂_namedChildren hstands.mem_spots
      · exact .cons hstands .nil

/-- A type as a node with its siblings. -/
def TypeDeclaration.placed (type : TypeDeclaration) : Placed := ⟨type.node, type.before⟩

theorem forall₂_typeDeclarations {root : Node} {spots : List Spot} {nodes : List Placed}
    (outer : Option String) (h : List.Forall₂ (StandsAt root) spots nodes) :
    List.Forall₂ (fun spot type => StandsAt root spot type.placed)
      (spots.filter (declaresType ·.node)) (typeDeclarations outer nodes) := by
  induction h with
  | nil => exact .nil
  | @cons spot placed spots nodes hstands _ ih =>
      rw [typeDeclarations, List.filterMap_cons, List.filter_cons, declaresType, hstands.node_eq]
      cases TypeKind.ofNodeKind? placed.node.kind with
      | none => exact ih
      | some kind => exact .cons hstands ih

theorem forall₂_nested (code : List UInt8) {root : Node} {spot : Spot} {type : TypeDeclaration}
    (h : StandsAt root spot type.placed) :
    List.Forall₂ (fun spot type => StandsAt root spot type.placed)
      (typeDescent.next spot) (type.nested code) := by
  have hnode : spot.node = type.node := h.node_eq
  have hmembers := forall₂_memberSpots h.mem_spots
  rw [hnode] at hmembers
  exact forall₂_typeDeclarations _ hmembers

/-- What ties the spots to the types of a stack, and the members of a spot to those of a type, ties
the spots to the types that are listed. -/
theorem forall₂_run {R : Spot → TypeDeclaration → Prop} (code : List UInt8) (package : String)
    (hnext : ∀ spot type, R spot type →
      List.Forall₂ R (typeDescent.next spot) (type.nested code))
    {spots : List Spot} {stack : List TypeDeclaration} (h : List.Forall₂ R spots stack) :
    List.Forall₂ R (typeDescent.run spots) ((enumerateStack code package stack).map (·.2)) := by
  fun_induction enumerateStack code package stack generalizing spots with
  | case1 =>
      cases h
      rw [Descent.run]
      exact .nil
  | case2 type rest ih =>
      obtain _ | ⟨hfirst, hrest⟩ := h
      rw [Descent.run, List.map_cons]
      exact .cons hfirst (ih (List.rel_append (hnext _ _ hfirst) hrest))

theorem forall₂_enumerateStack (code : List UInt8) (package : String) {root : Node}
    {spots : List Spot} {stack : List TypeDeclaration}
    (h : List.Forall₂ (fun spot type => StandsAt root spot type.placed) spots stack) :
    List.Forall₂ (fun spot type => StandsAt root spot type.placed)
      (typeDescent.run spots) ((enumerateStack code package stack).map (·.2)) :=
  forall₂_run code package (fun _ _ => forall₂_nested code) h

end Java

end JavaMetrics
