import JavaMetrics.Proofs.Syntax.Spot
import JavaMetrics.Syntax.Walk
import Mathlib.Data.List.Nodup
import Mathlib.Logic.Relation

/-!
# Descents through a tree

The walk over a tree and the listing of its types are one loop: take a spot off a
stack, give it, and put the spots that come next below it on the stack. What
differs is which spots come next. A `Descent` is such a choice; it carries why the
loop ends and why nothing is met twice: the spots that come next lie below, they
are apart from one another, and together they have fewer nodes.

Two facts about `Descent.run` serve every listing. `mem_run` says which spots are
given: those that steps of the descent reach from the stack. `nodup_flatMap_run`
says that lists gathered along the way never meet: it is proved from the spots of
the stack being apart, which the loop preserves.

The walk is the descent to all children, or to none where it is cut. `mem_spots`
says that the whole walk gives the nodes of the tree, each at its way, and
`reaches_walk` that the cut walk gives those with no cut node above them.
-/

namespace JavaMetrics

/-- A choice of the spots below a spot at which a listing goes on. -/
structure Descent where
  next : Spot → List Spot
  smaller : ∀ spot, Node.sizeAll ((next spot).map (·.node)) < spot.node.size
  above : ∀ spot, ∀ below ∈ next spot, spot.Above below
  apart : ∀ spot, (next spot).Pairwise Spot.Apart

namespace Descent

/-- Takes a spot off the stack, gives it, and puts the next ones on the stack. -/
def run (descent : Descent) (stack : List Spot) : List Spot :=
  match stack with
  | [] => []
  | spot :: rest => spot :: descent.run (descent.next spot ++ rest)
termination_by Node.sizeAll (stack.map (·.node))
decreasing_by
  have := descent.smaller spot
  simp only [List.map_append, List.map_cons, Node.sizeAll_append, Node.sizeAll]
  omega

/-- Does the descent come from the first spot to the second? -/
def Reaches (descent : Descent) : Spot → Spot → Prop :=
  Relation.ReflTransGen fun spot below => below ∈ descent.next spot

theorem Reaches.way {descent : Descent} {spot below : Spot}
    (h : descent.Reaches spot below) : spot.way <+: below.way := by
  induction h with
  | refl => exact List.prefix_rfl
  | tail _ hstep ih => exact ih.trans (descent.above _ _ hstep).1

theorem mem_run {descent : Descent} {stack : List Spot} {spot : Spot} :
    spot ∈ descent.run stack ↔ ∃ start ∈ stack, descent.Reaches start spot := by
  fun_induction descent.run stack with
  | case1 => simp
  | case2 first rest ih =>
      rw [List.mem_cons, ih]
      constructor
      · rintro (rfl | ⟨start, hstart, hreach⟩)
        · exact ⟨spot, List.mem_cons_self, .refl⟩
        · rcases List.mem_append.mp hstart with hnext | hrest
          · exact ⟨first, List.mem_cons_self, .head hnext hreach⟩
          · exact ⟨start, List.mem_cons_of_mem _ hrest, hreach⟩
      · rintro ⟨start, hstart, hreach⟩
        rcases List.mem_cons.mp hstart with rfl | hrest
        · rcases hreach.cases_head with rfl | ⟨middle, hnext, htail⟩
          · exact .inl rfl
          · exact .inr ⟨middle, List.mem_append_left _ hnext, htail⟩
        · exact .inr ⟨start, List.mem_append_right _ hrest, hreach⟩

theorem mem_run_of_reaches {descent : Descent} {stack : List Spot} {spot below : Spot}
    (h : spot ∈ descent.run stack) (hreach : descent.Reaches spot below) :
    below ∈ descent.run stack := by
  obtain ⟨start, hstart, hspot⟩ := mem_run.mp h
  exact mem_run.mpr ⟨start, hstart, hspot.trans hreach⟩

/-- The step of the loop: a stack of spots that are apart stays one. -/
theorem pairwise_next_append {descent : Descent} {spot : Spot} {rest : List Spot}
    (h : (spot :: rest).Pairwise Spot.Apart) :
    (descent.next spot ++ rest).Pairwise Spot.Apart := by
  rw [List.pairwise_cons] at h
  rw [List.pairwise_append]
  refine ⟨descent.apart spot, h.2, ?_⟩
  intro below hbelow other hother
  exact (h.1 other hother).below (descent.above spot below hbelow).1 List.prefix_rfl

/-- Lists gathered at the spots of a run do not meet, if what is gathered at a spot lies at or below
it, and not where the descent goes on. -/
theorem nodup_flatMap_run (descent : Descent) {own : Spot → List Spot}
    (hnodup : ∀ spot, ((own spot).map (·.way)).Nodup)
    (hbelow : ∀ spot, ∀ o ∈ own spot, spot.way <+: o.way)
    (hfree : ∀ spot, ∀ o ∈ own spot, ∀ next ∈ descent.next spot, ¬ next.way <+: o.way)
    {stack : List Spot} (hstack : stack.Pairwise Spot.Apart) :
    (((descent.run stack).flatMap own).map (·.way)).Nodup := by
  fun_induction descent.run stack with
  | case1 => simp
  | case2 spot rest ih =>
      rw [List.flatMap_cons, List.map_append, List.nodup_append]
      refine ⟨hnodup spot, ih (pairwise_next_append hstack), ?_⟩
      intro way hhere way' hlater heq
      subst heq
      obtain ⟨o, ho, rfl⟩ := List.mem_map.mp hhere
      obtain ⟨o', ho', hway⟩ := List.mem_map.mp hlater
      obtain ⟨later, hrun, hown⟩ := List.mem_flatMap.mp ho'
      obtain ⟨start, hstart, hreach⟩ := mem_run.mp hrun
      have hunder : start.way <+: o.way := by
        rw [← hway]
        exact hreach.way.trans (hbelow later o' hown)
      -- `later` was reached either from a next spot or from one that was waiting
      rcases List.mem_append.mp hstart with hnext | hrest
      · exact hfree spot o ho start hnext hunder
      · have hapart := (List.pairwise_cons.mp hstack).1 start hrest
        exact (hapart.below (hbelow spot o ho) hunder).1 List.prefix_rfl

theorem nodup_run (descent : Descent) {stack : List Spot}
    (hstack : stack.Pairwise Spot.Apart) : ((descent.run stack).map (·.way)).Nodup := by
  rw [← List.flatMap_singleton' (descent.run stack)]
  apply descent.nodup_flatMap_run _ _ _ hstack
  · simp
  · simp
  · intro spot o ho next hnext
    obtain rfl := List.mem_singleton.mp ho
    exact (descent.above _ next hnext).not_le

/-- Of two spots that a descent from left to right gives, the later one is reached from the earlier
one, or stands to the right of it. -/
theorem pairwise_run (descent : Descent)
    (hnext : ∀ spot, (descent.next spot).Pairwise Spot.LeftOf) {stack : List Spot}
    (hstack : stack.Pairwise Spot.LeftOf) :
    (descent.run stack).Pairwise fun first second =>
      (∃ below ∈ descent.next first, descent.Reaches below second) ∨ first.LeftOf second := by
  fun_induction descent.run stack with
  | case1 => exact .nil
  | case2 spot rest ih =>
      obtain ⟨hspot, hrest⟩ := List.pairwise_cons.mp hstack
      refine List.pairwise_cons.mpr ⟨?_, ih ?_⟩
      · intro later hlater
        obtain ⟨start, hstart, hreach⟩ := mem_run.mp hlater
        rcases List.mem_append.mp hstart with hbelow | hwaiting
        · exact .inl ⟨start, hbelow, hreach⟩
        · exact .inr ((hspot start hwaiting).below List.prefix_rfl hreach.way)
      · refine List.pairwise_append.mpr ⟨hnext spot, hrest, ?_⟩
        intro below hbelow waiting hwaiting
        exact (hspot waiting hwaiting).below (descent.above spot below hbelow).1 List.prefix_rfl

/-- Such a descent gives its spots in pre-order. -/
theorem pairwise_precedes_run (descent : Descent)
    (hnext : ∀ spot, (descent.next spot).Pairwise Spot.LeftOf) {stack : List Spot}
    (hstack : stack.Pairwise Spot.LeftOf) : (descent.run stack).Pairwise Spot.Precedes := by
  refine (descent.pairwise_run hnext hstack).imp ?_
  rintro first second (⟨below, hbelow, hreach⟩ | hleft)
  · exact .inl ((descent.above first below hbelow).trans_le hreach.way)
  · exact .inr hleft

end Descent

/-! ## The walk as a descent -/

/-- All children come next, or none at a spot where the walk is cut. -/
def walkNext (cut : Node → Bool) (spot : Spot) : List Spot :=
  if cut spot.node then [] else spot.children

theorem walkNext_sublist (cut : Node → Bool) (spot : Spot) :
    (walkNext cut spot).Sublist spot.children := by
  rw [walkNext]
  split
  · exact List.nil_sublist _
  · exact List.Sublist.refl _

theorem sizeAll_walkNext_lt (cut : Node → Bool) (spot : Spot) :
    Node.sizeAll ((walkNext cut spot).map (·.node)) < spot.node.size := by
  rw [walkNext, Node.size_eq]
  split
  · rw [List.map_nil, Node.sizeAll]
    omega
  · rw [Spot.map_node_children]
    omega

/-- The walk that is cut where `cut` holds. -/
def walkDescent (cut : Node → Bool) : Descent where
  next := walkNext cut
  smaller := sizeAll_walkNext_lt cut
  above _ _ h := Spot.above_of_mem_children ((walkNext_sublist cut _).subset h)
  apart spot := spot.pairwise_children.sublist (walkNext_sublist cut spot)

theorem next_walk_of_cut {cut : Node → Bool} {spot : Spot} (h : cut spot.node = true) :
    (walkDescent cut).next spot = [] :=
  if_pos h

theorem next_walk_of_not_cut {cut : Node → Bool} {spot : Spot} (h : cut spot.node = false) :
    (walkDescent cut).next spot = spot.children :=
  if_neg (by simp [h])

theorem mem_next_walk {cut : Node → Bool} {spot below : Spot} :
    below ∈ (walkDescent cut).next spot ↔ cut spot.node = false ∧ below ∈ spot.children := by
  cases h : cut spot.node with
  | false => simp [next_walk_of_not_cut h]
  | true => simp [next_walk_of_cut h]

theorem map_node_run_walk (cut : Node → Bool) (stack : List Spot) :
    ((walkDescent cut).run stack).map (·.node) = Node.walkStack cut (stack.map (·.node)) := by
  fun_induction (walkDescent cut).run stack with
  | case1 => rw [List.map_nil, Node.walkStack]
  | case2 spot rest ih =>
      rw [List.map_cons, ih, List.map_cons, Node.walkStack]
      split
      · next h => rw [next_walk_of_cut h, List.nil_append]
      · next h =>
          rw [next_walk_of_not_cut (Bool.eq_false_iff.mpr h), List.map_append,
            Spot.map_node_children]

/-- Is `cut` false of every node that a way passes before its end? -/
def Node.IsOpen (cut : Node → Bool) (node : Node) (way : List Nat) : Prop :=
  ∀ before passed, before <+: way → before ≠ way → node.at? before = some passed →
    cut passed = false

theorem Node.isOpen_cons {cut : Node → Bool} {node child : Node} {i : Nat} {way : List Nat}
    (hchild : node.children[i]? = some child) :
    node.IsOpen cut (i :: way) ↔ cut node = false ∧ child.IsOpen cut way := by
  constructor
  · intro h
    refine ⟨h [] node List.nil_prefix (by simp) rfl, ?_⟩
    intro before passed hbefore hne hpassed
    refine h (i :: before) passed (List.cons_prefix_cons.mpr ⟨rfl, hbefore⟩) (by simpa using hne) ?_
    rw [at?_cons hchild, hpassed]
  · rintro ⟨hnode, h⟩ before passed hbefore hne hpassed
    cases before with
    | nil =>
        rw [at?] at hpassed
        injection hpassed with hpassed
        rw [← hpassed, hnode]
    | cons j before =>
        obtain ⟨rfl, htail⟩ := List.cons_prefix_cons.mp hbefore
        rw [at?_cons hchild] at hpassed
        exact h before passed htail (by simpa using hne) hpassed

theorem reaches_walk {cut : Node → Bool} {spot below : Spot} :
    (walkDescent cut).Reaches spot below ↔
      ∃ way, below.way = spot.way ++ way ∧ spot.node.at? way = some below.node ∧
        spot.node.IsOpen cut way := by
  constructor
  · intro h
    induction h using Relation.ReflTransGen.head_induction_on with
    | refl =>
        refine ⟨[], by simp, rfl, ?_⟩
        intro before passed hbefore hne
        exact absurd (List.prefix_nil.mp hbefore) hne
    | head hstep _ ih =>
        obtain ⟨hcut, hmem⟩ := mem_next_walk.mp hstep
        obtain ⟨i, hi, hway⟩ := Spot.mem_children.mp hmem
        obtain ⟨way, hbelow, hat, hopen⟩ := ih
        refine ⟨i :: way, ?_, ?_, (Node.isOpen_cons hi).mpr ⟨hcut, hopen⟩⟩
        · rw [hbelow, hway, List.append_assoc, List.singleton_append]
        · rw [Node.at?_cons hi, hat]
  · rintro ⟨way, hbelow, hat, hopen⟩
    induction way generalizing spot with
    | nil =>
        rw [Node.at?] at hat
        injection hat with hat
        rw [List.append_nil] at hbelow
        obtain rfl : spot = below := by
          cases spot; cases below; simp_all
        exact .refl
    | cons i way ih =>
        rw [Node.at?] at hat
        split at hat
        · next child hchild =>
            obtain ⟨hcut, hopen⟩ := (Node.isOpen_cons hchild).mp hopen
            have hmem : (⟨spot.way ++ [i], child⟩ : Spot) ∈ spot.children :=
              Spot.mem_children.mpr ⟨i, hchild, rfl⟩
            refine .head (mem_next_walk.mpr ⟨hcut, hmem⟩) (ih ?_ hat hopen)
            rw [hbelow, List.append_assoc, List.singleton_append]
        · cases hat

/-- The spots of a tree from its root down, in pre-order, without those below a spot other than the
root at which `cut` holds. -/
def Node.walkSpots (cut : Node → Bool) (root : Node) : List Spot :=
  Spot.top root :: (walkDescent cut).run (Spot.top root).children

/-- Every spot of a tree, in pre-order. -/
def Node.spots (root : Node) : List Spot :=
  root.walkSpots fun _ => false

namespace Node

theorem map_node_walkSpots (cut : Node → Bool) (root : Node) :
    (root.walkSpots cut).map (·.node) = root.walk cut := by
  rw [walkSpots, List.map_cons, map_node_run_walk, Spot.map_node_children]
  rfl

theorem map_node_spots (root : Node) : root.spots.map (·.node) = root.descendants :=
  map_node_walkSpots _ root

theorem walkSpots_eq_run {cut : Node → Bool} {root : Node} (h : cut root = false) :
    root.walkSpots cut = (walkDescent cut).run [Spot.top root] := by
  rw [Descent.run, List.append_nil, walkSpots]
  rw [next_walk_of_not_cut h]

theorem isOpen_whole (node : Node) (way : List Nat) :
    node.IsOpen (fun _ => false) way :=
  fun _ _ _ _ _ => rfl

theorem mem_spots {root : Node} {spot : Spot} :
    spot ∈ root.spots ↔ root.at? spot.way = some spot.node := by
  rw [spots, walkSpots_eq_run rfl, Descent.mem_run]
  simp only [List.mem_singleton, exists_eq_left, reaches_walk, Spot.top, List.nil_append]
  constructor
  · rintro ⟨way, hway, hat, -⟩
    rw [hway, hat]
  · intro hat
    exact ⟨spot.way, rfl, hat, isOpen_whole _ _⟩

theorem nodup_walkSpots (cut : Node → Bool) (root : Node) :
    ((root.walkSpots cut).map (·.way)).Nodup := by
  rw [walkSpots, List.map_cons, List.nodup_cons]
  refine ⟨?_, Descent.nodup_run _ (Spot.pairwise_children _)⟩
  intro hmem
  obtain ⟨spot, hspot, hway⟩ := List.mem_map.mp hmem
  obtain ⟨child, hchild, hreach⟩ := Descent.mem_run.mp hspot
  have habove := (Spot.above_of_mem_children hchild).trans_le hreach.way
  exact habove.2 hway.symm

theorem pairwise_precedes_walkSpots (cut : Node → Bool) (root : Node) :
    (root.walkSpots cut).Pairwise Spot.Precedes := by
  have hnext : ∀ spot, ((walkDescent cut).next spot).Pairwise Spot.LeftOf := fun spot =>
    spot.pairwise_leftOf_children.sublist (walkNext_sublist cut spot)
  refine List.pairwise_cons.mpr ⟨?_, Descent.pairwise_precedes_run _ hnext
    (Spot.pairwise_leftOf_children _)⟩
  intro spot hspot
  obtain ⟨child, hchild, hreach⟩ := Descent.mem_run.mp hspot
  exact .inl ((Spot.above_of_mem_children hchild).trans_le hreach.way)

theorem nodup_spots (root : Node) : (root.spots.map (·.way)).Nodup :=
  nodup_walkSpots _ root

theorem mem_descendants {root node : Node} :
    node ∈ root.descendants ↔ ∃ way, root.at? way = some node := by
  rw [← map_node_spots, List.mem_map]
  constructor
  · rintro ⟨spot, hspot, rfl⟩
    exact ⟨spot.way, mem_spots.mp hspot⟩
  · rintro ⟨way, hat⟩
    exact ⟨⟨way, node⟩, mem_spots.mpr hat, rfl⟩

theorem self_mem_descendants (root : Node) : root ∈ root.descendants :=
  List.mem_cons_self

theorem mem_descendants_of_mem_children {root child : Node} (h : child ∈ root.children) :
    child ∈ root.descendants := by
  obtain ⟨i, hi⟩ := List.getElem?_of_mem h
  exact mem_descendants.mpr ⟨[i], at?_cons hi []⟩

theorem mem_descendants_trans {root node below : Node} (h : node ∈ root.descendants)
    (hbelow : below ∈ node.descendants) : below ∈ root.descendants := by
  obtain ⟨way, hat⟩ := mem_descendants.mp h
  obtain ⟨rest, hrest⟩ := mem_descendants.mp hbelow
  refine mem_descendants.mpr ⟨way ++ rest, ?_⟩
  rw [at?_append, hat]
  exact hrest

/-- A way below a child of the root is open exactly if nothing above its end is cut, the root
apart. -/
theorem isOpen_iff_above {cut : Node → Bool} {root child : Node} {i : Nat} {spot : Spot}
    {way : List Nat} (hchild : root.children[i]? = some child) (hway : spot.way = i :: way) :
    child.IsOpen cut way ↔
      ∀ upper ∈ root.spots, upper.Above spot → upper.way ≠ [] → cut upper.node = false := by
  simp only [Spot.Above, hway, mem_spots]
  constructor
  · intro hopen upper hupper habove hne
    cases hw : upper.way with
    | nil => exact absurd hw hne
    | cons j before =>
        rw [hw] at hupper habove
        obtain ⟨rfl, hbefore⟩ := List.cons_prefix_cons.mp habove.1
        rw [at?_cons hchild] at hupper
        exact hopen before upper.node hbefore (by simpa using habove.2) hupper
  · intro hfree before passed hbefore hne hpassed
    refine hfree ⟨i :: before, passed⟩ ?_ ⟨?_, ?_⟩ (by simp)
    · rw [at?_cons hchild, hpassed]
    · exact List.cons_prefix_cons.mpr ⟨rfl, hbefore⟩
    · simpa using hne

/-- The cut walk gives the spots with no cut spot above them, the root apart. -/
theorem mem_walkSpots {cut : Node → Bool} {root : Node} {spot : Spot} :
    spot ∈ root.walkSpots cut ↔
      spot ∈ root.spots ∧
        ∀ upper ∈ root.spots, upper.Above spot → upper.way ≠ [] → cut upper.node = false := by
  rw [mem_spots, walkSpots, List.mem_cons, Descent.mem_run]
  constructor
  · rintro (rfl | ⟨child, hchild, hreach⟩)
    · refine ⟨rfl, ?_⟩
      intro upper _ habove hne
      exact absurd (List.prefix_nil.mp habove.1) hne
    · obtain ⟨i, hi, hchildWay⟩ := Spot.mem_children.mp hchild
      change root.children[i]? = some child.node at hi
      obtain ⟨way, hbelow, hat, hopen⟩ := reaches_walk.mp hreach
      have hway : spot.way = i :: way := by rw [hbelow, hchildWay]; rfl
      refine ⟨?_, (isOpen_iff_above hi hway).mp hopen⟩
      rw [hway, at?_cons hi, hat]
  · rintro ⟨hat, hfree⟩
    obtain ⟨way, node⟩ := spot
    cases way with
    | nil =>
        rw [at?] at hat
        injection hat with hat
        exact .inl (by rw [Spot.top, hat])
    | cons i way =>
        rw [at?] at hat
        split at hat
        · next child hchild =>
            have hopen := (isOpen_iff_above hchild rfl).mpr hfree
            exact .inr ⟨⟨[i], child⟩, Spot.mem_children.mpr ⟨i, hchild, rfl⟩,
              reaches_walk.mpr ⟨way, rfl, hat, hopen⟩⟩
        · cases hat

end Node

/-! ## The part of a tree below a spot -/

/-- Every spot at and below a spot, in pre-order. -/
def Spot.under (spot : Spot) : List Spot :=
  (walkDescent fun _ => false).run [spot]

namespace Spot

theorem map_node_under (spot : Spot) :
    spot.under.map (·.node) = spot.node.descendants := by
  rw [under, map_node_run_walk, List.map_cons, List.map_nil, Node.walkStack]
  simp only [Bool.false_eq_true, if_false, List.append_nil]
  rfl

theorem nodup_under (spot : Spot) : (spot.under.map (·.way)).Nodup :=
  Descent.nodup_run _ (List.pairwise_singleton _ _)

theorem mem_under {root : Node} {spot below : Spot} (hspot : spot ∈ root.spots) :
    below ∈ spot.under ↔ below ∈ root.spots ∧ spot.way <+: below.way := by
  rw [Node.mem_spots] at hspot
  rw [under, Descent.mem_run, Node.mem_spots]
  simp only [List.mem_singleton, exists_eq_left, reaches_walk]
  constructor
  · rintro ⟨way, hway, hat, -⟩
    rw [hway, Node.at?_append, hspot]
    exact ⟨hat, List.prefix_append _ _⟩
  · rintro ⟨hat, way, hway⟩
    rw [← hway, Node.at?_append, hspot] at hat
    exact ⟨way, hway.symm, hat, Node.isOpen_whole _ _⟩

theorem mem_spots_of_children {root : Node} {spot child : Spot} (hspot : spot ∈ root.spots)
    (hchild : child ∈ spot.children) : child ∈ root.spots := by
  obtain ⟨i, hi, hway⟩ := mem_children.mp hchild
  rw [Node.mem_spots] at hspot ⊢
  rw [hway, Node.at?_append, hspot]
  exact Node.at?_cons hi []

end Spot

end JavaMetrics
