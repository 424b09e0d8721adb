import JavaMetrics.Proofs.Syntax.Descent
import JavaMetrics.Syntax.Position

/-!
# Trees without their comments

A comment may stand among the children of any node. `Node.uncommented` takes all of
them out and leaves the rest of the tree as it is, the offsets included.

Whatever is looked for below a node is looked for in its list of children: by a role,
by a kind, by being named, or by a walk. Each of these ways has one lemma here, and all
of them have the same form: what is found in the tree without comments is what was found
in the tree, without its comments. Two things have to be known of the comments. They
have no role, or `child?` would find one in the place of a child; and nothing stands
below them, or it would go with them.
-/

namespace JavaMetrics.Node

mutual

/-- The tree without the comments below its root. -/
def uncommented : Node → Node
  | ⟨kind, named, missing, textless, field, start, stop, children⟩ =>
    ⟨kind, named, missing, textless, field, start, stop, uncommentedAll children⟩

/-- Some trees without those that are comments, and without the comments in the others. -/
def uncommentedAll : List Node → List Node
  | [] => []
  | node :: rest =>
    if node.isComment then uncommentedAll rest else uncommented node :: uncommentedAll rest

end

@[simp] theorem kind_uncommented (node : Node) : node.uncommented.kind = node.kind := by
  cases node
  rfl

@[simp] theorem named_uncommented (node : Node) : node.uncommented.named = node.named := by
  cases node
  rfl

@[simp] theorem field_uncommented (node : Node) : node.uncommented.field = node.field := by
  cases node
  rfl

@[simp] theorem children_uncommented (node : Node) :
    node.uncommented.children = uncommentedAll node.children := by
  cases node
  rfl

/-- A node by itself, without what is below it. -/
def alone (node : Node) : Node :=
  { node with children := [] }

theorem alone_uncommented (node : Node) : node.uncommented.alone = node.alone := by
  cases node
  rfl

@[simp] theorem text_uncommented (code : List UInt8) (node : Node) :
    node.uncommented.text code = node.text code := by
  cases node
  rfl

theorem uncommentedAll_cons_of_comment {node : Node} (h : node.isComment = true)
    (rest : List Node) : uncommentedAll (node :: rest) = uncommentedAll rest := by
  rw [uncommentedAll, if_pos h]

theorem uncommentedAll_cons {node : Node} (h : node.isComment = false) (rest : List Node) :
    uncommentedAll (node :: rest) = node.uncommented :: uncommentedAll rest := by
  rw [uncommentedAll, if_neg (by simp [h])]

theorem uncommentedAll_eq (nodes : List Node) :
    uncommentedAll nodes = (nodes.filter (!·.isComment)).map uncommented := by
  induction nodes with
  | nil => rfl
  | cons node rest ih =>
      cases h : node.isComment with
      | true => rw [uncommentedAll_cons_of_comment h, ih, List.filter_cons_of_neg (by simp [h])]
      | false =>
          rw [uncommentedAll_cons h, ih, List.filter_cons_of_pos (by simp [h]), List.map_cons]

theorem mem_uncommentedAll {nodes : List Node} {node : Node} :
    node ∈ uncommentedAll nodes ↔ ∃ n ∈ nodes, n.isComment = false ∧ n.uncommented = node := by
  simp only [uncommentedAll_eq, List.mem_map, List.mem_filter, Bool.not_eq_true', and_assoc]

theorem uncommentedAll_append (first second : List Node) :
    uncommentedAll (first ++ second) = uncommentedAll first ++ uncommentedAll second := by
  rw [uncommentedAll_eq, List.filter_append, List.map_append, ← uncommentedAll_eq,
    ← uncommentedAll_eq]

/-! ## Looking for nodes in a list -/

/-- The kinds of the nodes that are comments. -/
def commentKinds : List String := ["comment", "line_comment", "block_comment"]

theorem kind_mem_of_isComment {node : Node} (h : node.isComment = true) :
    node.kind ∈ commentKinds := by
  simpa [isComment, commentKinds, or_assoc] using h

/-- Does the test look through comments? It says no to them, and to any other node what it says to
the node without comments. -/
def LooksThrough (p : Node → Bool) (nodes : List Node) : Prop :=
  ∀ node ∈ nodes,
    (node.isComment = true → p node = false) ∧ p node.uncommented = p node

theorem LooksThrough.tail {p : Node → Bool} {node : Node} {rest : List Node}
    (h : LooksThrough p (node :: rest)) : LooksThrough p rest :=
  fun n hn => h n (List.mem_cons_of_mem _ hn)

theorem filter_uncommentedAll {p : Node → Bool} {nodes : List Node} (h : LooksThrough p nodes) :
    (uncommentedAll nodes).filter p = (nodes.filter p).map uncommented := by
  induction nodes with
  | nil => rfl
  | cons node rest ih =>
      have hrest := ih h.tail
      obtain ⟨hcomment, hsame⟩ := h node List.mem_cons_self
      cases hc : node.isComment with
      | true =>
          rw [uncommentedAll_cons_of_comment hc, hrest,
            List.filter_cons_of_neg (by simp [hcomment hc])]
      | false =>
          rw [uncommentedAll_cons hc, List.filter_cons, List.filter_cons, hsame, hrest]
          split
          · rw [List.map_cons]
          · rfl

theorem find?_uncommentedAll {p : Node → Bool} {nodes : List Node} (h : LooksThrough p nodes) :
    (uncommentedAll nodes).find? p = (nodes.find? p).map uncommented := by
  rw [← List.head?_filter, ← List.head?_filter, filter_uncommentedAll h, List.head?_map]

/-- A test of the kind that no comment passes looks through comments. -/
theorem looksThrough_kind {q : String → Bool}
    (h : ∀ kind ∈ commentKinds, q kind = false) (nodes : List Node) :
    LooksThrough (q ·.kind) nodes := by
  intro node _
  exact ⟨fun hcomment => h _ (kind_mem_of_isComment hcomment), by simp⟩

theorem namedChildren_uncommented (node : Node) :
    node.uncommented.namedChildren = uncommentedAll node.namedChildren := by
  rw [namedChildren, children_uncommented, namedChildren, uncommentedAll_eq, uncommentedAll_eq,
    List.filter_map, List.filter_filter, List.filter_filter]
  congr 1
  apply List.filter_congr
  intro child _
  simp [Bool.and_comm]

/-! ## Bare comments -/

/-- Is a node that is a comment a leaf without a role? -/
def BareIfComment (node : Node) : Prop :=
  node.isComment = true → node.children = [] ∧ node.field = none

/-- Are the comments below a node leaves without a role? -/
def BareComments (root : Node) : Prop :=
  ∀ node ∈ root.descendants, ∀ child ∈ node.children, child.BareIfComment

instance (node : Node) : Decidable node.BareIfComment :=
  inferInstanceAs (Decidable (_ → _ ∧ _))

instance (root : Node) : Decidable root.BareComments :=
  inferInstanceAs (Decidable (∀ node ∈ root.descendants, ∀ child ∈ node.children, _))

namespace BareComments

theorem below {root node : Node} (h : root.BareComments) (hnode : node ∈ root.descendants) :
    node.BareComments :=
  fun _ hlower => h _ (mem_descendants_trans hnode hlower)

theorem child {root child : Node} (h : root.BareComments) (hchild : child ∈ root.children) :
    child.BareComments :=
  h.below (mem_descendants_of_mem_children hchild)

theorem bare_children {root child : Node} (h : root.BareComments)
    (hchild : child ∈ root.children) : child.BareIfComment :=
  h root root.self_mem_descendants child hchild

end BareComments

theorem child?_uncommented {node : Node} (h : node.BareComments) (f : Field) :
    node.uncommented.child? f = (node.child? f).map uncommented := by
  rw [child?, children_uncommented, child?]
  apply find?_uncommentedAll
  intro child hchild
  refine ⟨fun hcomment => ?_, by simp⟩
  simp [(h.bare_children hchild hcomment).2]

/-! ## The walk -/

/-- Is it true of some trees that their comments are leaves without a role, themselves included? -/
def BareAll (nodes : List Node) : Prop :=
  ∀ node ∈ nodes, node.BareComments ∧ node.BareIfComment

theorem bareAll_append {first second : List Node} :
    BareAll (first ++ second) ↔ BareAll first ∧ BareAll second :=
  List.forall_mem_append

theorem BareComments.bareAll_children {node : Node} (h : node.BareComments) :
    BareAll node.children :=
  fun _ hchild => ⟨h.child hchild, h.bare_children hchild⟩

/-- A walk meets the same nodes but for the comments. -/
theorem walkStack_uncommentedAll {cut : Node → Bool}
    (hcut : ∀ node : Node, cut node.uncommented = cut node) {stack : List Node}
    (h : BareAll stack) :
    walkStack cut (uncommentedAll stack) = uncommentedAll (walkStack cut stack) := by
  fun_induction walkStack cut stack with
  | case1 =>
      rw [uncommentedAll, walkStack]
  | case2 node rest ihcut ihwhole =>
      obtain ⟨⟨hbare, hleaf⟩, hrest⟩ := List.forall_mem_cons.mp h
      have hwaiting := ihcut hrest
      have hbelow := ihwhole (bareAll_append.mpr ⟨hbare.bareAll_children, hrest⟩)
      cases hc : node.isComment with
      | true =>
          -- there is nothing below a comment, so it does not matter whether the walk is cut there
          rw [uncommentedAll_cons_of_comment hc, uncommentedAll_cons_of_comment hc, (hleaf hc).1,
            List.nil_append, ite_self, hwaiting]
      | false =>
          rw [uncommentedAll_cons hc, uncommentedAll_cons hc, walkStack, hcut,
            children_uncommented, ← uncommentedAll_append]
          split
          · rw [hwaiting]
          · rw [hbelow]

theorem walk_uncommented {cut : Node → Bool}
    (hcut : ∀ node : Node, cut node.uncommented = cut node) {root : Node}
    (h : root.BareComments) :
    root.uncommented.walk cut =
      root.uncommented :: uncommentedAll (walkStack cut root.children) := by
  rw [walk, children_uncommented, walkStack_uncommentedAll hcut h.bareAll_children]

/-- Below the root the comments are gone, and every other node is there, as it was. -/
theorem alone_descendants_uncommented {root : Node} (h : root.BareComments) :
    root.uncommented.descendants.tail.map alone =
      (root.descendants.tail.filter (!·.isComment)).map alone := by
  rw [descendants, walk_uncommented (fun _ => rfl) h, List.tail_cons, uncommentedAll_eq,
    List.map_map]
  exact List.map_congr_left fun node _ => alone_uncommented node

/-- What a test that looks through comments finds on a walk. -/
theorem filter_walk_uncommented {cut p : Node → Bool}
    (hcut : ∀ node : Node, cut node.uncommented = cut node) {root : Node}
    (h : root.BareComments) (hp : ∀ node ∈ root.walk cut, p node.uncommented = p node)
    (hcomment : ∀ node : Node, node.isComment = true → p node = false) :
    (root.uncommented.walk cut).filter p = ((root.walk cut).filter p).map uncommented := by
  obtain ⟨hroot, hrest⟩ := List.forall_mem_cons.mp hp
  have hlooks : LooksThrough p (walkStack cut root.children) :=
    fun node hnode => ⟨hcomment node, hrest node hnode⟩
  rw [walk_uncommented hcut h, walk, List.filter_cons, List.filter_cons, hroot,
    filter_uncommentedAll hlooks]
  split
  · rw [List.map_cons]
  · rfl

end JavaMetrics.Node
