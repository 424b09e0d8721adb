import JavaMetrics.Syntax.Node
import Mathlib.Data.List.Basic
import Mathlib.Data.List.Infix

/-!
# Spots of a tree

Two nodes of a tree can be alike in every field and still be two nodes. What
tells them apart is where they stand, so a `Spot` is a node together with the way
that leads to it from the root: for each step the index of the child taken.

A node stands at or below another one exactly when its way goes on from the
other's. Two spots are `Apart` when neither is at or below the other; then
whatever lies below the one is apart from whatever lies below the other
(`Apart.below`). All arguments that something is met only once rest on that
fact.

Spots that are apart part at a spot above both, and the one that goes to the earlier
child there is `LeftOf` the other, with all that lies below it: the children of a spot
stand from left to right (`pairwise_leftOf_children`), and so do lists gathered below
such spots (`pairwise_leftOf_flatMap`). Pre-order is the order in which a spot
`Precedes` what lies below it and what it is left of. It is the order of the ways as
words (`Precedes.way_lt`).
-/

namespace JavaMetrics

/-- The node to which a way leads, if there is one. -/
def Node.at? : Node → List Nat → Option Node
  | node, [] => some node
  | node, i :: way =>
    match node.children[i]? with
    | some child => child.at? way
    | none => none

theorem Node.at?_cons {node child : Node} {i : Nat} (h : node.children[i]? = some child)
    (way : List Nat) : node.at? (i :: way) = child.at? way := by
  rw [at?, h]

theorem Node.at?_append (node : Node) (way rest : List Nat) :
    node.at? (way ++ rest) = (node.at? way).bind (·.at? rest) := by
  induction way generalizing node with
  | nil => rfl
  | cons i way ih =>
      rw [List.cons_append, at?, at?]
      split
      · next child _ => exact ih child
      · rfl

/-- A node and the way that leads to it. -/
structure Spot where
  way : List Nat
  node : Node

namespace Spot

/-- The spot of the root of a tree. -/
def top (root : Node) : Spot := ⟨[], root⟩

def children (spot : Spot) : List Spot :=
  spot.node.children.mapIdx fun i child => ⟨spot.way ++ [i], child⟩

def namedChildren (spot : Spot) : List Spot :=
  spot.children.filter (·.node.named)

def child? (spot : Spot) (f : Field) : Option Spot :=
  spot.children.find? fun child => decide (child.node.field = some f)

theorem map_node_children (spot : Spot) :
    spot.children.map (·.node) = spot.node.children := by
  apply List.ext_getElem?
  intro i
  rw [children, List.getElem?_map, List.getElem?_mapIdx, Option.map_map]
  exact Option.map_id'

theorem map_node_filter (p : Node → Bool) (spots : List Spot) :
    (spots.filter (p ·.node)).map (·.node) = (spots.map (·.node)).filter p := by
  rw [List.filter_map]
  rfl

theorem map_node_namedChildren (spot : Spot) :
    spot.namedChildren.map (·.node) = spot.node.namedChildren := by
  rw [namedChildren, map_node_filter (·.named), map_node_children, Node.namedChildren]

theorem map_node_child? (spot : Spot) (f : Field) :
    (spot.child? f).map (·.node) = spot.node.child? f := by
  rw [Node.child?, ← map_node_children, List.find?_map]
  rfl

theorem mem_children {spot child : Spot} :
    child ∈ spot.children ↔
      ∃ i, spot.node.children[i]? = some child.node ∧ child.way = spot.way ++ [i] := by
  rw [children, List.mem_mapIdx]
  constructor
  · rintro ⟨i, hi, rfl⟩
    exact ⟨i, List.getElem?_eq_getElem hi, rfl⟩
  · rintro ⟨i, hnode, hway⟩
    obtain ⟨hi, hget⟩ := List.getElem?_eq_some_iff.mp hnode
    refine ⟨i, hi, ?_⟩
    rw [hget, ← hway]

theorem mem_children_of_child? {spot child : Spot} {f : Field}
    (h : spot.child? f = some child) : child ∈ spot.children :=
  List.mem_of_find?_eq_some h

theorem mem_children_of_namedChildren {spot child : Spot}
    (h : child ∈ spot.namedChildren) : child ∈ spot.children :=
  List.mem_of_mem_filter h

/-! ## Above, below and apart -/

/-- Is the second spot below the first? -/
def Above (upper lower : Spot) : Prop :=
  upper.way <+: lower.way ∧ upper.way ≠ lower.way

instance (upper lower : Spot) : Decidable (Above upper lower) :=
  inferInstanceAs (Decidable (_ ∧ _))

/-- Is neither of two spots at or below the other? -/
def Apart (first second : Spot) : Prop :=
  ¬ first.way <+: second.way ∧ ¬ second.way <+: first.way

theorem Above.not_le {upper lower : Spot} (h : upper.Above lower) :
    ¬ lower.way <+: upper.way := by
  intro hback
  exact h.2 (h.1.eq_of_length_le hback.length_le)

theorem Above.trans_le {upper middle lower : Spot} (h : upper.Above middle)
    (hlower : middle.way <+: lower.way) : upper.Above lower := by
  refine ⟨h.1.trans hlower, fun heq => h.not_le ?_⟩
  rw [heq]
  exact hlower

instance : Std.Symm Apart where
  symm _ _ h := ⟨h.2, h.1⟩

theorem Apart.below {first second first' second' : Spot} (h : Apart first second)
    (hfirst : first.way <+: first'.way) (hsecond : second.way <+: second'.way) :
    Apart first' second' := by
  constructor
  · intro hle
    rcases List.prefix_or_prefix_of_prefix (hfirst.trans hle) hsecond with hp | hp
    · exact h.1 hp
    · exact h.2 hp
  · intro hle
    rcases List.prefix_or_prefix_of_prefix hfirst (hsecond.trans hle) with hp | hp
    · exact h.1 hp
    · exact h.2 hp

theorem above_of_mem_children {spot child : Spot} (h : child ∈ spot.children) :
    spot.Above child := by
  obtain ⟨i, -, hway⟩ := mem_children.mp h
  rw [Above, hway]
  exact ⟨List.prefix_append _ _, by simp⟩

/-! ## Pre-order -/

/-- Do two spots part at a spot from which the first takes an earlier child than the second? -/
def LeftOf (first second : Spot) : Prop :=
  ∃ way i j rest rest', first.way = way ++ i :: rest ∧ second.way = way ++ j :: rest' ∧ i < j

/-- Does the first spot come before the second in pre-order? -/
def Precedes (first second : Spot) : Prop :=
  first.Above second ∨ first.LeftOf second

theorem LeftOf.below {first second first' second' : Spot} (h : LeftOf first second)
    (hfirst : first.way <+: first'.way) (hsecond : second.way <+: second'.way) :
    LeftOf first' second' := by
  obtain ⟨way, i, j, rest, rest', hway, hway', hij⟩ := h
  obtain ⟨more, hmore⟩ := hfirst
  obtain ⟨more', hmore'⟩ := hsecond
  refine ⟨way, i, j, rest ++ more, rest' ++ more', ?_, ?_, hij⟩
  · rw [← hmore, hway, List.append_assoc, List.cons_append]
  · rw [← hmore', hway', List.append_assoc, List.cons_append]

theorem LeftOf.apart {first second : Spot} (h : LeftOf first second) : Apart first second := by
  obtain ⟨way, i, j, rest, rest', hway, hway', hij⟩ := h
  rw [Apart, hway, hway', List.prefix_append_right_inj, List.prefix_append_right_inj,
    List.cons_prefix_cons, List.cons_prefix_cons]
  omega

theorem LeftOf.way_ne {first second : Spot} (h : LeftOf first second) :
    first.way ≠ second.way := by
  intro heq
  exact h.apart.1 (by rw [heq])

theorem Precedes.way_ne {first second : Spot} (h : Precedes first second) :
    first.way ≠ second.way := by
  rcases h with habove | hleft
  · exact habove.2
  · exact hleft.way_ne

theorem Precedes.way_lt {first second : Spot} (h : Precedes first second) :
    first.way < second.way := by
  rcases h with ⟨⟨rest, hrest⟩, hne⟩ | ⟨way, i, j, rest, rest', hway, hway', hij⟩
  · cases rest with
    | nil => exact absurd (by simpa using hrest) hne
    | cons i rest =>
        have hlt : first.way ++ [] < first.way ++ i :: rest :=
          List.append_left_lt (List.nil_lt_cons i rest)
        rwa [List.append_nil, hrest] at hlt
  · rw [hway, hway']
    exact List.append_left_lt (List.cons_lt_cons_iff.mpr (.inl hij))

/-- In a list in pre-order a spot comes before another one exactly if it precedes it. -/
theorem pair_sublist_iff_precedes {spots : List Spot} (h : spots.Pairwise Precedes)
    {first second : Spot} (hfirst : first ∈ spots) (hsecond : second ∈ spots) :
    [first, second].Sublist spots ↔ first.Precedes second := by
  constructor
  · intro hsub
    exact List.pairwise_iff_forall_sublist.mp h hsub
  · intro hpre
    induction spots with
    | nil => cases hfirst
    | cons spot rest ih =>
        obtain ⟨hspot, hrest⟩ := List.pairwise_cons.mp h
        rcases List.mem_cons.mp hfirst with rfl | hfirstLater
        · rcases List.mem_cons.mp hsecond with rfl | hsecondLater
          · exact absurd rfl hpre.way_ne
          · exact (List.singleton_sublist.mpr hsecondLater).cons_cons _
        · rcases List.mem_cons.mp hsecond with rfl | hsecondLater
          · exact absurd hpre.way_lt (List.lt_asymm (hspot first hfirstLater).way_lt)
          · exact (ih hrest hfirstLater hsecondLater).cons _

theorem pairwise_leftOf_children (spot : Spot) : spot.children.Pairwise LeftOf := by
  rw [children, List.pairwise_iff_getElem]
  intro i j hi hj hij
  rw [List.getElem_mapIdx, List.getElem_mapIdx]
  exact ⟨spot.way, i, j, [], [], rfl, rfl, hij⟩

theorem pairwise_leftOf_namedChildren (spot : Spot) : spot.namedChildren.Pairwise LeftOf :=
  spot.pairwise_leftOf_children.sublist List.filter_sublist

theorem pairwise_children (spot : Spot) : spot.children.Pairwise Apart :=
  spot.pairwise_leftOf_children.imp LeftOf.apart

theorem pairwise_namedChildren (spot : Spot) : spot.namedChildren.Pairwise Apart :=
  spot.pairwise_leftOf_namedChildren.imp LeftOf.apart

theorem nodup_of_pairwise {spots : List Spot} (h : spots.Pairwise Apart) :
    (spots.map (·.way)).Nodup := by
  rw [List.Nodup, List.pairwise_map]
  refine h.imp ?_
  intro first second happart hway
  exact happart.1 (by rw [hway])

theorem pairwise_leftOf_flatMap {spots : List Spot} {f : Spot → List Spot}
    (hspots : spots.Pairwise LeftOf) (hf : ∀ s ∈ spots, (f s).Pairwise LeftOf)
    (hbelow : ∀ s ∈ spots, ∀ t ∈ f s, s.way <+: t.way) :
    (spots.flatMap f).Pairwise LeftOf := by
  rw [List.pairwise_flatMap]
  refine ⟨hf, hspots.imp_of_mem ?_⟩
  intro first second hfirst hsecond hleft x hx y hy
  exact hleft.below (hbelow first hfirst x hx) (hbelow second hsecond y hy)

end Spot

end JavaMetrics
