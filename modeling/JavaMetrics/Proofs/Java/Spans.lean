import JavaMetrics.Proofs.Java.Placement
import Mathlib.Data.List.TakeWhile

/-!
# The spans of types

A type covers the bytes of its node and, in front of it, those of its
documentation. The documentation is looked for among the siblings before the
node, back over comments only, and it is this condition that keeps the spans of
neighbours apart: the search stops at anything that is no comment, so it never
comes to a type that was declared before, nor to the declarations of an enum that
hold one.

In a tree that is well placed, two facts are enough for all pairs of types at any
depth. The members of a type lie inside it and follow one another
(`member_inside`, `pairwise_precedes_members`); and the listing takes the types
off a stack on which each one ends before the next one starts, which a step of
the listing preserves (`pairwise_sites`).
-/

namespace JavaMetrics.Java

/-! ## Where a span starts -/

/-- Are the siblings before a type the comments at the head of its span, and others that end before
it? Both lists have the nearest first. -/
structure HeadOf (code : List UInt8) (type : TypeDeclaration) (head rest : List Node) : Prop where
  split : type.before = head ++ rest
  comments : ∀ comment ∈ head, comment.isComment = true ∧
    type.start code ≤ comment.start ∧ comment.stop ≤ type.node.start
  ended : ∀ sibling ∈ rest, sibling.stop ≤ type.start code
  /-- The span starts with the first of the comments, or with the node if there is none. -/
  start : type.start code = (head.getLast?.map (·.start)).getD type.node.start

theorem stop_le_of_mem_before {parent sibling : Node} {placed : Placed} {after : List Node}
    (hparent : parent.WellPlaced)
    (hchildren : parent.children = placed.before.reverse ++ placed.node :: after)
    (h : sibling ∈ placed.before) : sibling.stop ≤ placed.node.start := by
  have horder := hparent.holds.inOrder
  rw [hchildren, List.pairwise_append] at horder
  exact horder.2.2 sibling (List.mem_reverse.mpr h) placed.node List.mem_cons_self

section

variable {type : TypeDeclaration} {parent : Node} {after : List Node}
  (hparent : parent.WellPlaced)
  (hchildren : parent.children = type.before.reverse ++ type.node :: after)

include hparent hchildren

theorem pairwise_before :
    type.before.Pairwise fun later earlier => earlier.stop ≤ later.start := by
  have horder := hparent.holds.inOrder
  rw [hchildren, List.pairwise_append] at horder
  exact List.pairwise_reverse.mp horder.1

theorem exists_headOf (code : List UInt8) :
    ∃ head rest, HeadOf code type head rest := by
  have hbefore : ∀ sibling ∈ type.before, sibling.stop ≤ type.node.start := by
    intro sibling hmem
    change sibling ∈ type.placed.before at hmem
    exact stop_le_of_mem_before hparent hchildren hmem
  cases hdoc : type.documentation? code with
  | none =>
      have hstart : type.start code = type.node.start := by rw [TypeDeclaration.start, hdoc]
      refine ⟨[], type.before, rfl, by simp, ?_, hstart⟩
      rw [hstart]
      exact hbefore
  | some doc =>
      have hstart : type.start code = doc.start := by rw [TypeDeclaration.start, hdoc]
      obtain ⟨-, near, far, htake, -⟩ := List.find?_eq_some_iff_append.mp hdoc
      have hcomment : ∀ comment ∈ near ++ [doc], comment.isComment = true := by
        intro comment hmem
        have hmem : comment ∈ type.before.takeWhile (·.isComment) := by
          rw [htake, List.append_cons]
          exact List.mem_append_left _ hmem
        exact List.mem_takeWhile_imp hmem
      have hsplit : type.before =
          (near ++ [doc]) ++ (far ++ type.before.dropWhile (·.isComment)) := by
        have hwhole := List.takeWhile_append_dropWhile (p := (·.isComment)) (l := type.before)
        rw [htake] at hwhole
        rw [← List.append_assoc, List.append_assoc near, List.singleton_append, hwhole]
      -- the comments before the documentation are nearer to the type, all else is farther
      have hpair := pairwise_before hparent hchildren
      rw [hsplit, List.pairwise_append, List.pairwise_append] at hpair
      obtain ⟨⟨-, -, hnear⟩, -, hfar⟩ := hpair
      have hdocIn : doc ∈ parent.children := by
        rw [hchildren, hsplit]
        simp
      refine ⟨near ++ [doc], _, hsplit, ?_, ?_, by simp [hstart]⟩
      · intro comment hmem
        refine ⟨hcomment comment hmem, ?_, hbefore comment ?_⟩
        · rw [hstart]
          rcases List.mem_append.mp hmem with hin | hlast
          · have := hnear comment hin doc List.mem_cons_self
            have := hparent.range_child hdocIn
            omega
          · rw [List.mem_singleton.mp hlast]
        · rw [hsplit]
          exact List.mem_append_left _ hmem
      · intro other hmem
        rw [hstart]
        exact hfar doc (by simp) other hmem

theorem start_le_node (code : List UInt8) : type.start code ≤ type.node.start := by
  obtain ⟨head, rest, hhead⟩ := exists_headOf hparent hchildren code
  rw [hhead.start]
  cases hlast : head.getLast? with
  | none => exact Nat.le_refl _
  | some comment =>
      have hmem := List.mem_of_getLast? hlast
      have hends := (hhead.comments comment hmem).2.2
      have hrange : comment.start ≤ comment.stop := by
        apply hparent.range_child
        rw [hchildren, hhead.split]
        simp [hmem]
      show comment.start ≤ type.node.start
      omega

theorem parent_le_start (code : List UInt8) : parent.start ≤ type.start code := by
  obtain ⟨head, rest, hhead⟩ := exists_headOf hparent hchildren code
  rw [hhead.start]
  cases hlast : head.getLast? with
  | none =>
      refine (hparent.holds.inside type.node ?_).1
      rw [hchildren]
      simp
  | some comment =>
      have hmem := List.mem_of_getLast? hlast
      refine (hparent.holds.inside comment ?_).1
      rw [hchildren, hhead.split]
      simp [hmem]

/-- The search for documentation stops at what is no comment. -/
theorem stop_le_start_of_not_comment (code : List UInt8) {sibling : Node}
    (hmem : sibling ∈ type.before) (hcomment : sibling.isComment = false) :
    sibling.stop ≤ type.start code := by
  obtain ⟨head, rest, hhead⟩ := exists_headOf hparent hchildren code
  rw [hhead.split] at hmem
  rcases List.mem_append.mp hmem with hin | hout
  · rw [(hhead.comments sibling hin).1] at hcomment
    cases hcomment
  · exact hhead.ended sibling hout

end

/-! ## Members follow one another inside their type -/

theorem children_of_mem_placeFrom {before rest : List Node} {placed : Placed}
    (h : placed ∈ placeFrom before rest) :
    ∃ after, before.reverse ++ rest = placed.before.reverse ++ placed.node :: after := by
  induction rest generalizing before with
  | nil => cases h
  | cons node rest ih =>
      rcases List.mem_cons.mp h with rfl | hrest
      · exact ⟨rest, rfl⟩
      · obtain ⟨after, hafter⟩ := ih hrest
        refine ⟨after, ?_⟩
        rw [← hafter, List.reverse_cons, List.append_assoc, List.singleton_append]

theorem children_of_mem_placedChildren {node : Node} {placed : Placed}
    (h : placed ∈ placedChildren node) :
    ∃ after, node.children = placed.before.reverse ++ placed.node :: after :=
  children_of_mem_placeFrom (List.mem_of_mem_filter h)

theorem pairwise_placeFrom (before rest : List Node) :
    (∀ placed ∈ placeFrom before rest, ∀ node ∈ before, node ∈ placed.before) ∧
      (placeFrom before rest).Pairwise fun first second => first.node ∈ second.before := by
  induction rest generalizing before with
  | nil => exact ⟨fun _ h => absurd h (by simp [placeFrom]), .nil⟩
  | cons node rest ih =>
      obtain ⟨hkept, hpair⟩ := ih (node :: before)
      rw [placeFrom, List.pairwise_cons]
      refine ⟨?_, ?_, hpair⟩
      · intro placed hplaced earlier hearlier
        rcases List.mem_cons.mp hplaced with rfl | hrest
        · exact hearlier
        · exact hkept placed hrest earlier (List.mem_cons_of_mem _ hearlier)
      · intro placed hplaced
        exact hkept placed hplaced node List.mem_cons_self

theorem pairwise_placedChildren (node : Node) :
    (placedChildren node).Pairwise fun first second => first.node ∈ second.before :=
  (pairwise_placeFrom [] node.children).2.sublist List.filter_sublist

/-- What a named child of a body adds to the members. -/
def placedGroup (placed : Placed) : List Placed :=
  if placed.node.kind == "enum_body_declarations" then placedChildren placed.node else [placed]

theorem not_comment_of_declaresType {node : Node} (h : declaresType node = true) :
    node.isComment = false := by
  cases hc : node.isComment with
  | false => rfl
  | true =>
      simp only [Node.isComment, Bool.or_eq_true, beq_iff_eq] at hc
      rcases hc with (hc | hc) | hc <;> simp [declaresType, TypeKind.ofNodeKind?, hc] at h

section

variable {parent : Node} (hparent : parent.WellPlaced)

include hparent

theorem wellPlaced_of_placedChildren {placed : Placed} (h : placed ∈ placedChildren parent) :
    placed.node.WellPlaced := by
  obtain ⟨after, hchildren⟩ := children_of_mem_placedChildren h
  apply hparent.child
  rw [hchildren]
  simp

theorem child_inside (code : List UInt8) {type : TypeDeclaration}
    (h : type.placed ∈ placedChildren parent) :
    parent.start ≤ type.start code ∧ type.node.stop ≤ parent.stop := by
  obtain ⟨after, hchildren⟩ := children_of_mem_placedChildren h
  refine ⟨parent_le_start hparent hchildren code, (hparent.holds.inside type.node ?_).2⟩
  rw [hchildren]
  exact List.mem_append_right _ List.mem_cons_self

/-- A type in a group lies inside the group, and after every sibling of the group that is no
comment. -/
theorem group_inside (code : List UInt8) {type : TypeDeclaration} {group : Placed}
    (hgroup : group ∈ placedChildren parent) (h : type.placed ∈ placedGroup group) :
    parent.start ≤ type.start code ∧ type.node.stop ≤ group.node.stop ∧
      ∀ sibling ∈ group.before, sibling.isComment = false → sibling.stop ≤ type.start code := by
  obtain ⟨after, hchildren⟩ := children_of_mem_placedChildren hgroup
  rw [placedGroup] at h
  split at h
  · obtain ⟨hstart, hstop⟩ := child_inside (wellPlaced_of_placedChildren hparent hgroup) code h
    have hgroupIn := (hparent.holds.inside group.node (by rw [hchildren]; simp)).1
    refine ⟨by omega, hstop, ?_⟩
    intro sibling hsibling _
    have := stop_le_of_mem_before hparent hchildren hsibling
    omega
  · obtain rfl := List.mem_singleton.mp h
    refine ⟨parent_le_start hparent hchildren code, Nat.le_refl _, ?_⟩
    intro sibling hsibling hcomment
    exact stop_le_start_of_not_comment hparent hchildren code hsibling hcomment

end

theorem not_comment_of_group {type : TypeDeclaration} {group : Placed}
    (h : type.placed ∈ placedGroup group) (htype : declaresType type.node = true) :
    group.node.isComment = false := by
  rw [placedGroup] at h
  split at h
  · next hkind => simp [Node.isComment, beq_iff_eq.mp hkind]
  · obtain rfl := List.mem_singleton.mp h
    exact not_comment_of_declaresType htype

theorem mem_members {node : Node} {placed : Placed} :
    placed ∈ members node ↔
      ∃ body, node.child? .body = some body ∧
        ∃ group ∈ placedChildren body, placed ∈ placedGroup group := by
  rw [members]
  cases node.child? .body with
  | none => simp
  | some body => simp only [List.mem_flatMap, placedGroup, Option.some.injEq, exists_eq_left']

theorem member_inside (code : List UInt8) {node : Node} (hnode : node.WellPlaced)
    {type : TypeDeclaration} (h : type.placed ∈ members node) :
    node.start ≤ type.start code ∧ type.node.stop ≤ node.stop := by
  obtain ⟨body, hbody, group, hgroup, hmem⟩ := mem_members.mp h
  have hchild := List.mem_of_find?_eq_some hbody
  have hinside := hnode.holds.inside body hchild
  obtain ⟨hstart, hstop, -⟩ := group_inside (hnode.child hchild) code hgroup hmem
  obtain ⟨after, hchildren⟩ := children_of_mem_placedChildren hgroup
  have hgroupIn := ((hnode.child hchild).holds.inside group.node (by rw [hchildren]; simp)).2
  omega

/-- Does a type in the second place start, with its documentation, after one in the first has
ended? -/
def Precedes (code : List UInt8) (first second : Placed) : Prop :=
  ∀ early late : TypeDeclaration, early.placed = first → late.placed = second →
    declaresType early.node = true → early.node.stop ≤ late.start code

theorem pairwise_precedes_children (code : List UInt8) {node : Node} (hnode : node.WellPlaced) :
    (placedChildren node).Pairwise (Precedes code) := by
  refine (pairwise_placedChildren node).imp_of_mem ?_
  rintro _ _ - hsecond hbefore early late rfl rfl htype
  obtain ⟨after, hchildren⟩ := children_of_mem_placedChildren hsecond
  exact stop_le_start_of_not_comment hnode hchildren code hbefore
    (not_comment_of_declaresType htype)

theorem pairwise_precedes_members (code : List UInt8) {node : Node} (hnode : node.WellPlaced) :
    (members node).Pairwise (Precedes code) := by
  rw [members]
  split
  · exact .nil
  · next body hbody =>
      have hplaced := hnode.child (List.mem_of_find?_eq_some hbody)
      rw [List.pairwise_flatMap]
      constructor
      · intro group hgroup
        split
        · exact pairwise_precedes_children code (wellPlaced_of_placedChildren hplaced hgroup)
        · exact List.pairwise_singleton _ _
      · refine (pairwise_placedChildren body).imp_of_mem ?_
        rintro first second hfirst hsecond hbefore _ hearly _ hlate early late rfl rfl htype
        have hstop := (group_inside hplaced code hfirst hearly).2.1
        have hstart := (group_inside hplaced code hsecond hlate).2.2 first.node hbefore
          (not_comment_of_group hearly htype)
        omega

theorem of_mem_typeDeclarations {outer : Option String} {nodes : List Placed}
    {type : TypeDeclaration} (h : type ∈ typeDeclarations outer nodes) :
    type.placed ∈ nodes ∧ declaresType type.node = true := by
  rw [typeDeclarations, List.mem_filterMap] at h
  obtain ⟨placed, hplaced, htype⟩ := h
  obtain ⟨kind, hkind, rfl⟩ := Option.map_eq_some_iff.mp htype
  exact ⟨hplaced, by rw [declaresType, hkind]; rfl⟩

theorem pairwise_typeDeclarations {code : List UInt8} {nodes : List Placed}
    (h : nodes.Pairwise (Precedes code)) (outer : Option String) :
    (typeDeclarations outer nodes).Pairwise fun early late =>
      early.node.stop ≤ late.start code := by
  rw [typeDeclarations, List.pairwise_filterMap]
  refine h.imp ?_
  intro first second hprecedes early hearly late hlate
  obtain ⟨kind, hkind, rfl⟩ := Option.map_eq_some_iff.mp hearly
  obtain ⟨kind', -, rfl⟩ := Option.map_eq_some_iff.mp hlate
  exact hprecedes _ _ rfl rfl (by rw [declaresType, hkind]; rfl)

/-! ## Types along the listing -/

/-- A listed type and the spot at which it stands. -/
abbrev Site := Spot × TypeDeclaration

/-- Does the second type stand at or below the first and lie inside its span? -/
def Site.Holds (code : List UInt8) (outer inner : Site) : Prop :=
  outer.1.way <+: inner.1.way ∧ outer.2.start code ≤ inner.2.start code ∧
    inner.2.node.stop ≤ outer.2.node.stop

/-- Do two types stand apart, the first ending before the second starts? -/
def Site.Before (code : List UInt8) (first second : Site) : Prop :=
  first.1.Apart second.1 ∧ first.2.node.stop ≤ second.2.start code

theorem Site.Holds.trans {code : List UInt8} {outer middle inner : Site}
    (h : Site.Holds code outer middle) (h' : Site.Holds code middle inner) :
    Site.Holds code outer inner :=
  ⟨h.1.trans h'.1, Nat.le_trans h.2.1 h'.2.1, Nat.le_trans h'.2.2 h.2.2⟩

theorem pairwise_zip_before {code : List UInt8} {spots : List Spot} {types : List TypeDeclaration}
    (hlength : spots.length = types.length) (hspots : spots.Pairwise Spot.Apart)
    (htypes : types.Pairwise fun early late => early.node.stop ≤ late.start code) :
    (spots.zip types).Pairwise (Site.Before code) := by
  rw [← List.map_fst_zip (Nat.le_of_eq hlength), List.pairwise_map] at hspots
  rw [← List.map_snd_zip (Nat.le_of_eq hlength.symm), List.pairwise_map] at htypes
  exact hspots.and htypes

section

variable {root : Node} {code : List UInt8} {spot : Spot} {type : TypeDeclaration}
  (hroot : root.WellPlaced) (hstands : StandsAt root spot type.placed)

include hroot hstands

theorem StandsAt.wellPlaced : type.node.WellPlaced := by
  have hnode : spot.node = type.node := hstands.node_eq
  rw [← hnode]
  exact hroot.of_at? (Node.mem_spots.mp hstands.mem_spots)

theorem StandsAt.exists_headOf (code : List UInt8) :
    ∃ head rest, HeadOf code type head rest := by
  obtain ⟨parent, hparent, after, hchildren, -⟩ := hstands
  exact Java.exists_headOf (hroot.of_at? (Node.mem_spots.mp hparent)) hchildren code

theorem StandsAt.start_le (code : List UInt8) : type.start code ≤ type.node.start := by
  obtain ⟨parent, hparent, after, hchildren, -⟩ := hstands
  exact start_le_node (hroot.of_at? (Node.mem_spots.mp hparent)) hchildren code

theorem StandsAt.start_le_nested {inner : TypeDeclaration} (h : inner ∈ type.nested code) :
    type.start code ≤ inner.start code ∧ inner.node.stop ≤ type.node.stop := by
  have hinside := member_inside code (hstands.wellPlaced hroot) (of_mem_typeDeclarations h).1
  have := hstands.start_le hroot code
  omega

theorem holds_of_mem_nested {inner : Site}
    (h : inner ∈ (typeDescent.next spot).zip (type.nested code)) :
    spot.Above inner.1 ∧ Site.Holds code (spot, type) inner := by
  obtain ⟨hspot, htype⟩ := List.of_mem_zip h
  have habove := typeDescent.above spot inner.1 hspot
  exact ⟨habove, habove.1, hstands.start_le_nested hroot htype⟩

theorem pairwise_nested :
    ((typeDescent.next spot).zip (type.nested code)).Pairwise (Site.Before code) := by
  apply pairwise_zip_before (forall₂_nested code hstands).length_eq (typeDescent.apart spot)
  exact pairwise_typeDeclarations (pairwise_precedes_members code (hstands.wellPlaced hroot)) _

end

section

variable {root : Node} (hroot : root.WellPlaced) (code : List UInt8) (package : String)
  {spots : List Spot} {stack : List TypeDeclaration}
  (hstands : List.Forall₂ (fun spot type => StandsAt root spot type.placed) spots stack)

include hroot hstands

/-- Whatever is listed from a stack lies inside a type of the stack. -/
theorem exists_holds_of_listed {site : Site}
    (h : site ∈ (typeDescent.run spots).zip ((enumerateStack code package stack).map (·.2))) :
    ∃ start ∈ spots.zip stack, Site.Holds code start site := by
  fun_induction enumerateStack code package stack generalizing spots with
  | case1 => simp at h
  | case2 type rest ih =>
      obtain _ | @⟨spot, _, others, _, hfirst, hothers⟩ := hstands
      rw [Descent.run, List.map_cons, List.zip_cons_cons] at h
      rw [List.zip_cons_cons]
      rcases List.mem_cons.mp h with rfl | hlater
      · exact ⟨_, List.mem_cons_self, List.prefix_rfl, Nat.le_refl _, Nat.le_refl _⟩
      · have hnext := forall₂_nested code hfirst
        obtain ⟨start, hstart, hholds⟩ := ih (List.rel_append hnext hothers) hlater
        rw [List.zip_append hnext.length_eq] at hstart
        rcases List.mem_append.mp hstart with hinner | hwaiting
        · exact ⟨_, List.mem_cons_self, (holds_of_mem_nested hroot hfirst hinner).2.trans hholds⟩
        · exact ⟨start, List.mem_cons_of_mem _ hwaiting, hholds⟩

/-- On the stack each type ends before the next one starts, and of two types that are listed from it
either the second lies inside the first or they follow one another as well. -/
theorem pairwise_sites (hstack : (spots.zip stack).Pairwise (Site.Before code)) :
    ((typeDescent.run spots).zip ((enumerateStack code package stack).map (·.2))).Pairwise
      fun first second => first.1.Above second.1 ∧ Site.Holds code first second ∨
        Site.Before code first second := by
  fun_induction enumerateStack code package stack generalizing spots with
  | case1 => simp
  | case2 type rest ih =>
      obtain _ | @⟨spot, _, others, _, hfirst, hothers⟩ := hstands
      rw [List.zip_cons_cons, List.pairwise_cons] at hstack
      have hnext := forall₂_nested code hfirst
      have hstands' := List.rel_append hnext hothers
      rw [Descent.run, List.map_cons, List.zip_cons_cons, List.pairwise_cons]
      constructor
      · intro later hlater
        obtain ⟨start, hstart, hholds⟩ :=
          exists_holds_of_listed hroot code package hstands' hlater
        rw [List.zip_append hnext.length_eq] at hstart
        -- the later type comes from a member of this one or from one that was waiting
        rcases List.mem_append.mp hstart with hinner | hwaiting
        · obtain ⟨habove, hheld⟩ := holds_of_mem_nested hroot hfirst hinner
          exact .inl ⟨habove.trans_le hholds.1, hheld.trans hholds⟩
        · obtain ⟨hapart, hends⟩ := hstack.1 start hwaiting
          exact .inr ⟨hapart.below List.prefix_rfl hholds.1, Nat.le_trans hends hholds.2.1⟩
      · apply ih hstands'
        rw [List.zip_append hnext.length_eq, List.pairwise_append]
        refine ⟨pairwise_nested hroot hfirst, hstack.2, ?_⟩
        intro inner hinner waiting hwaiting
        obtain ⟨habove, hheld⟩ := holds_of_mem_nested hroot hfirst hinner
        obtain ⟨hapart, hends⟩ := hstack.1 waiting hwaiting
        exact ⟨hapart.below habove.1 List.prefix_rfl, Nat.le_trans hheld.2.2 hends⟩

end

/-! ## The spans of a unit -/

/-- The offset after the last byte of a span. -/
def spanEnd (span : Nat × Int) : Int :=
  span.1 + span.2

def SpanInside (inner outer : Nat × Int) : Prop :=
  outer.1 ≤ inner.1 ∧ spanEnd inner ≤ spanEnd outer

/-- Does one of two spans end before the other starts? -/
def SpansDisjoint (first second : Nat × Int) : Prop :=
  spanEnd first ≤ second.1 ∨ spanEnd second ≤ first.1

theorem spanEnd_span (code : List UInt8) (type : TypeDeclaration) :
    spanEnd (type.span code) = type.node.stop := by
  simp only [spanEnd, TypeDeclaration.span]
  omega

theorem spanInside_of_le {code : List UInt8} {inner outer : TypeDeclaration}
    (h : outer.start code ≤ inner.start code ∧ inner.node.stop ≤ outer.node.stop) :
    SpanInside (inner.span code) (outer.span code) := by
  rw [SpanInside, spanEnd_span, spanEnd_span]
  exact ⟨h.1, Int.ofNat_le.mpr h.2⟩

/-- Do the spans of two types lie as their spots do? If the second stands below the first it lies
inside, and if neither is at or below the other they have no byte in common. -/
def Site.Laminar (code : List UInt8) (first second : Site) : Prop :=
  (first.1.Above second.1 → SpanInside (second.2.span code) (first.2.span code)) ∧
    (first.1.Apart second.1 → SpansDisjoint (first.2.span code) (second.2.span code))

namespace CompilationUnit

/-- The types of a unit in the order in which they are listed, each with its spot. -/
def sites (unit : CompilationUnit) : List Site :=
  unit.typeSpots.zip (unit.enumerate.map (·.2))

theorem forall₂_types (unit : CompilationUnit) :
    List.Forall₂ (fun spot type => StandsAt unit.root spot type.placed)
      ((Spot.top unit.root).namedChildren.filter (declaresType ·.node)) unit.types :=
  forall₂_typeDeclarations none (forall₂_namedChildren (Node.mem_spots.mpr rfl))

theorem forall₂_typeSpots (unit : CompilationUnit) :
    List.Forall₂ (fun spot type => StandsAt unit.root spot type.placed)
      unit.typeSpots (unit.enumerate.map (·.2)) :=
  forall₂_enumerateStack _ _ unit.forall₂_types

theorem exists_standsAt (unit : CompilationUnit) {type : TypeDeclaration}
    (h : type ∈ unit.enumerate.map (·.2)) : ∃ spot, StandsAt unit.root spot type.placed := by
  obtain ⟨i, hi, rfl⟩ := List.getElem_of_mem h
  have hlength := unit.forall₂_typeSpots.length_eq
  exact ⟨_, unit.forall₂_typeSpots.get (by omega) hi⟩

theorem nodup_typeSpots (unit : CompilationUnit) : (unit.typeSpots.map (·.way)).Nodup :=
  typeDescent.nodup_run ((Spot.pairwise_namedChildren _).sublist List.filter_sublist)

theorem pairwise_before_or_above {unit : CompilationUnit} (h : unit.root.WellPlaced) :
    unit.sites.Pairwise fun first second =>
      first.1.Above second.1 ∧ Site.Holds unit.code first second ∨
        Site.Before unit.code first second := by
  apply pairwise_sites h unit.code unit.packageName unit.forall₂_types
  apply pairwise_zip_before unit.forall₂_types.length_eq
  · exact (Spot.pairwise_namedChildren _).sublist List.filter_sublist
  · exact pairwise_typeDeclarations (pairwise_precedes_children unit.code h) none

theorem laminar_sites {unit : CompilationUnit} (h : unit.root.WellPlaced) :
    ∀ ⦃first⦄, first ∈ unit.sites → ∀ ⦃second⦄, second ∈ unit.sites →
      Site.Laminar unit.code first second := by
  apply List.Pairwise.forall_of_forall_of_flip
  · intro site _
    exact ⟨fun habove => absurd rfl habove.2, fun hapart => absurd List.prefix_rfl hapart.1⟩
  · refine (unit.pairwise_before_or_above h).imp ?_
    rintro first second (⟨habove, hholds⟩ | ⟨hapart, hends⟩)
    · exact ⟨fun _ => spanInside_of_le hholds.2, fun hapart => absurd habove.1 hapart.1⟩
    · exact ⟨fun habove => absurd habove.1 hapart.1,
        fun _ => .inl (by rw [spanEnd_span]; exact Int.ofNat_le.mpr hends)⟩
  · refine (unit.pairwise_before_or_above h).imp ?_
    rintro first second (⟨habove, -⟩ | ⟨hapart, hends⟩)
    · exact ⟨fun hback => absurd hback.1 habove.not_le, fun hapart => absurd habove.1 hapart.2⟩
    · exact ⟨fun hback => absurd hback.1 hapart.2,
        fun _ => .inr (by rw [spanEnd_span]; exact Int.ofNat_le.mpr hends)⟩

end CompilationUnit

/-- How the spans of the types of a unit lie to one another and to their nodes. -/
structure SpanAccount (unit : CompilationUnit) : Prop where
  /-- The listed types stand in the tree behind their siblings, each at a spot of its own. -/
  placed : List.Forall₂ (fun spot type => StandsAt unit.root spot type.placed)
    unit.typeSpots (unit.enumerate.map (·.2))
  distinct : (unit.typeSpots.map (·.way)).Nodup
  /-- A member type lies inside the type that declares it. -/
  nested : ∀ type ∈ unit.enumerate.map (·.2), ∀ inner ∈ type.nested unit.code,
    SpanInside (inner.span unit.code) (type.span unit.code)
  /-- So does every type that stands below another one. -/
  enclosed : ∀ outer ∈ unit.sites, ∀ inner ∈ unit.sites, outer.1.Above inner.1 →
    SpanInside (inner.2.span unit.code) (outer.2.span unit.code)
  /-- Two types of which neither stands at or below the other have no byte in common. -/
  disjoint : ∀ first ∈ unit.sites, ∀ second ∈ unit.sites, first.1.Apart second.1 →
    SpansDisjoint (first.2.span unit.code) (second.2.span unit.code)
  ends : ∀ type ∈ unit.enumerate.map (·.2), spanEnd (type.span unit.code) = type.node.stop
  starts : ∀ type ∈ unit.enumerate.map (·.2), (type.span unit.code).1 = type.start unit.code ∧
    type.start unit.code ≤ type.node.start
  /-- The part before the node holds comments that are its siblings, and nothing else. -/
  head : ∀ type ∈ unit.enumerate.map (·.2), ∃ head rest, HeadOf unit.code type head rest

/-- In a tree whose nodes lie inside their parents and one after the other, the spans of the types
are nested as the types are, and otherwise disjoint. -/
theorem spans_are_laminar (unit : CompilationUnit) (hplaced : unit.root.WellPlaced) :
    SpanAccount unit where
  placed := unit.forall₂_typeSpots
  distinct := unit.nodup_typeSpots
  nested type htype inner hinner := by
    obtain ⟨spot, hstands⟩ := unit.exists_standsAt htype
    exact spanInside_of_le (hstands.start_le_nested hplaced hinner)
  enclosed outer houter inner hinner habove :=
    (CompilationUnit.laminar_sites hplaced houter hinner).1 habove
  disjoint first hfirst second hsecond hapart :=
    (CompilationUnit.laminar_sites hplaced hfirst hsecond).2 hapart
  ends type _ := spanEnd_span unit.code type
  starts type htype := by
    obtain ⟨spot, hstands⟩ := unit.exists_standsAt htype
    exact ⟨rfl, hstands.start_le hplaced unit.code⟩
  head type htype := by
    obtain ⟨spot, hstands⟩ := unit.exists_standsAt htype
    exact hstands.exists_headOf hplaced unit.code

/-- A class with documentation and a member class with its own, and a second class after it. -/
def documentedTypes : CompilationUnit :=
  .ofTree "A.java" "/***/class A\x7b/***/class B\x7b\x7d\x7dclass C\x7b\x7d"
    { kind := "program", start := 0, stop := 37, children := [
      { kind := "block_comment", start := 0, stop := 5 },
      { kind := "class_declaration", start := 5, stop := 28, children := [
        { kind := "identifier", field := some .name, start := 11, stop := 12 },
        { kind := "class_body", field := some .body, start := 12, stop := 28, children := [
          { kind := "\x7b", named := false, start := 12, stop := 13 },
          { kind := "block_comment", start := 13, stop := 18 },
          { kind := "class_declaration", start := 18, stop := 27, children := [
            { kind := "identifier", field := some .name, start := 24, stop := 25 },
            { kind := "class_body", field := some .body, start := 25, stop := 27 }] },
          { kind := "\x7d", named := false, start := 27, stop := 28 }] }] },
      { kind := "class_declaration", start := 28, stop := 37, children := [
        { kind := "identifier", field := some .name, start := 34, stop := 35 },
        { kind := "class_body", field := some .body, start := 35, stop := 37 }] }] }

theorem spans_of_documented_types :
    documentedTypes.enumerate.map (fun listed => (listed.1, listed.2.span documentedTypes.code)) =
        [("A", 0, 28), ("A$B", 13, 14), ("C", 28, 9)] ∧
      documentedTypes.root.WellPlaced ∧ SpanAccount documentedTypes := by
  have hplaced : documentedTypes.root.WellPlaced := by decide +kernel
  exact ⟨by decide +kernel, hplaced, spans_are_laminar _ hplaced⟩

end JavaMetrics.Java
