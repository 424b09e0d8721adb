import JavaMetrics.Proofs.Java.SourceLines
import JavaMetrics.Proofs.Syntax.Uncommented

/-!
# What is declared without the comments

Types are listed with the siblings before them, and a type is found among the named
children of a body or of a group in it. Here the listing is told for a tree without its
comments: every function from the tree to the types gives what it gave for the tree,
without the comments, down to the siblings of each type. The names come from the source
and stay; so do the kinds of the types, their order and the types around them
(`enumerate_uncommented`).

The methods of a type and those of the file follow (`methods_uncommented`,
`fileMethods_uncommented`).
-/

namespace JavaMetrics.Java

open Node (uncommentedAll uncommentedAll_eq)

/-! ## Members -/

def Placed.uncommented (placed : Placed) : Placed :=
  ⟨placed.node.uncommented, uncommentedAll placed.before⟩

@[simp] theorem Placed.node_uncommented (placed : Placed) :
    placed.uncommented.node = placed.node.uncommented :=
  rfl

/-- Some placed nodes without the comments, also among their siblings. -/
def uncommentedPlaced (nodes : List Placed) : List Placed :=
  (nodes.filter (!·.node.isComment)).map Placed.uncommented

theorem uncommentedPlaced_cons_of_comment {placed : Placed} (h : placed.node.isComment = true)
    (rest : List Placed) : uncommentedPlaced (placed :: rest) = uncommentedPlaced rest := by
  rw [uncommentedPlaced, List.filter_cons_of_neg (by simp [h]), uncommentedPlaced]

theorem uncommentedPlaced_cons {placed : Placed} (h : placed.node.isComment = false)
    (rest : List Placed) :
    uncommentedPlaced (placed :: rest) = placed.uncommented :: uncommentedPlaced rest := by
  rw [uncommentedPlaced, List.filter_cons_of_pos (by simp [h]), List.map_cons, uncommentedPlaced]

theorem uncommentedPlaced_append (first second : List Placed) :
    uncommentedPlaced (first ++ second) = uncommentedPlaced first ++ uncommentedPlaced second := by
  rw [uncommentedPlaced, List.filter_append, List.map_append]
  rfl

theorem map_node_uncommentedPlaced (nodes : List Placed) :
    (uncommentedPlaced nodes).map (·.node) = uncommentedAll (nodes.map (·.node)) := by
  rw [uncommentedPlaced, uncommentedAll_eq, List.filter_map, List.map_map, List.map_map]
  rfl

theorem placeFrom_uncommentedAll (before nodes : List Node) :
    placeFrom (uncommentedAll before) (uncommentedAll nodes) =
      uncommentedPlaced (placeFrom before nodes) := by
  induction nodes generalizing before with
  | nil => rfl
  | cons node rest ih =>
      have hrest := ih (node :: before)
      cases hc : node.isComment with
      | true =>
          rw [Node.uncommentedAll_cons_of_comment hc] at hrest
          rw [Node.uncommentedAll_cons_of_comment hc, placeFrom, hrest,
            uncommentedPlaced_cons_of_comment hc]
      | false =>
          rw [Node.uncommentedAll_cons hc] at hrest
          rw [Node.uncommentedAll_cons hc, placeFrom, placeFrom, hrest, uncommentedPlaced_cons hc]
          rfl

theorem placedChildren_uncommented (node : Node) :
    placedChildren node.uncommented = uncommentedPlaced (placedChildren node) := by
  rw [placedChildren, Node.children_uncommented, placedChildren]
  have hplaced := placeFrom_uncommentedAll [] node.children
  rw [uncommentedAll] at hplaced
  rw [hplaced, uncommentedPlaced, uncommentedPlaced, List.filter_map, List.filter_filter,
    List.filter_filter]
  congr 1
  apply List.filter_congr
  intro placed _
  simp [Bool.and_comm]

theorem flatMap_placedGroup_uncommented (nodes : List Placed) :
    (uncommentedPlaced nodes).flatMap placedGroup =
      uncommentedPlaced (nodes.flatMap placedGroup) := by
  induction nodes with
  | nil => rfl
  | cons placed rest ih =>
      rw [List.flatMap_cons, uncommentedPlaced_append, ← ih]
      cases hc : placed.node.isComment with
      | true =>
          have hkinds : ∀ kind ∈ Node.commentKinds, ¬ (kind == "enum_body_declarations") := by
            decide
          have hgroup : placedGroup placed = [placed] :=
            if_neg (hkinds _ (Node.kind_mem_of_isComment hc))
          rw [hgroup, uncommentedPlaced_cons_of_comment hc, uncommentedPlaced_cons_of_comment hc]
          rfl
      | false =>
          rw [uncommentedPlaced_cons hc, List.flatMap_cons]
          congr 1
          rw [placedGroup, placedGroup, Placed.node_uncommented, Node.kind_uncommented]
          split
          · exact placedChildren_uncommented placed.node
          · rw [uncommentedPlaced_cons hc]
            rfl

theorem members_uncommented {node : Node} (h : node.BareComments) :
    members node.uncommented = uncommentedPlaced (members node) := by
  rw [members, members, Node.child?_uncommented h]
  cases node.child? .body with
  | none => rfl
  | some body =>
      simp only [Option.map_some]
      rw [placedChildren_uncommented]
      exact flatMap_placedGroup_uncommented (placedChildren body)

theorem mem_descendants_of_placedChildren {node : Node} {placed : Placed}
    (h : placed ∈ placedChildren node) : placed.node ∈ node.descendants := by
  apply Node.mem_descendants_of_mem_children
  have hmem := List.mem_map_of_mem (f := (·.node)) h
  rw [map_node_placedChildren] at hmem
  exact List.mem_of_mem_filter hmem

theorem mem_descendants_of_members {node : Node} {placed : Placed} (h : placed ∈ members node) :
    placed.node ∈ node.descendants := by
  obtain ⟨body, hbody, group, hgroup, hmem⟩ := mem_members.mp h
  have hbodyIn := Node.mem_descendants_of_mem_children (List.mem_of_find?_eq_some hbody)
  have hgroupIn := Node.mem_descendants_trans hbodyIn (mem_descendants_of_placedChildren hgroup)
  rw [placedGroup] at hmem
  split at hmem
  · exact Node.mem_descendants_trans hgroupIn (mem_descendants_of_placedChildren hmem)
  · obtain rfl := List.mem_singleton.mp hmem
    exact hgroupIn

/-! ## Types -/

theorem declaredName_uncommented (code : List UInt8) {node : Node} (h : node.BareComments) :
    declaredName code node.uncommented = declaredName code node := by
  rw [declaredName, declaredName, Node.child?_uncommented h]
  cases node.child? .name with
  | none => rfl
  | some name => exact Node.text_uncommented code name

def TypeDeclaration.uncommented (type : TypeDeclaration) : TypeDeclaration :=
  { type with node := type.node.uncommented, before := uncommentedAll type.before }

theorem typeDeclarations_uncommented (outer : Option String) (nodes : List Placed) :
    typeDeclarations outer (uncommentedPlaced nodes) =
      (typeDeclarations outer nodes).map TypeDeclaration.uncommented := by
  induction nodes with
  | nil => rfl
  | cons placed rest ih =>
      rw [typeDeclarations] at ih
      cases hc : placed.node.isComment with
      | true =>
          have hkinds : ∀ kind ∈ Node.commentKinds, TypeKind.ofNodeKind? kind = none := by decide
          have hnone := hkinds _ (Node.kind_mem_of_isComment hc)
          rw [uncommentedPlaced_cons_of_comment hc, typeDeclarations, ih, typeDeclarations,
            typeDeclarations, List.filterMap_cons, hnone]
          rfl
      | false =>
          rw [uncommentedPlaced_cons hc, typeDeclarations, List.filterMap_cons, ih,
            typeDeclarations, typeDeclarations, List.filterMap_cons, Placed.node_uncommented,
            Node.kind_uncommented]
          cases TypeKind.ofNodeKind? placed.node.kind with
          | none => rfl
          | some kind => rfl

namespace TypeDeclaration

theorem name_uncommented (code : List UInt8) {type : TypeDeclaration}
    (h : type.node.BareComments) : type.uncommented.name code = type.name code :=
  declaredName_uncommented code h

theorem nested_uncommented (code : List UInt8) {type : TypeDeclaration}
    (h : type.node.BareComments) :
    type.uncommented.nested code = (type.nested code).map uncommented := by
  rw [nested, name_uncommented code h, nested, ← typeDeclarations_uncommented,
    ← members_uncommented h]
  rfl

theorem bareComments_of_nested {code : List UInt8} {type inner : TypeDeclaration}
    (h : type.node.BareComments) (hinner : inner ∈ type.nested code) : inner.node.BareComments :=
  h.below (mem_descendants_of_members (of_mem_typeDeclarations hinner).1)

end TypeDeclaration

/-- From a stack without comments the same types are listed, without comments. -/
theorem enumerateStack_uncommented (code : List UInt8) (package : String)
    {stack : List TypeDeclaration} (h : ∀ type ∈ stack, type.node.BareComments) :
    enumerateStack code package (stack.map TypeDeclaration.uncommented) =
      (enumerateStack code package stack).map fun listed => (listed.1, listed.2.uncommented) := by
  fun_induction enumerateStack code package stack with
  | case1 => rw [List.map_nil, enumerateStack, List.map_nil]
  | case2 type rest ih =>
      obtain ⟨htype, hrest⟩ := List.forall_mem_cons.mp h
      have hstack : ∀ t ∈ type.nested code ++ rest, t.node.BareComments :=
        List.forall_mem_append.mpr ⟨fun _ => TypeDeclaration.bareComments_of_nested htype, hrest⟩
      rw [List.map_cons, enumerateStack, TypeDeclaration.name_uncommented code htype,
        TypeDeclaration.nested_uncommented code htype, ← List.map_append, ih hstack]
      rfl

/-! ## Methods -/

def Method.uncommented (method : Method) : Method :=
  ⟨method.node.uncommented⟩

theorem isMethod_uncommented (node : Node) : isMethod node.uncommented = isMethod node := by
  simp only [isMethod, Node.kind_uncommented]

theorem not_isMethod_of_isComment {node : Node} (h : node.isComment = true) :
    isMethod node = false := by
  have hkinds : ∀ kind ∈ Node.commentKinds, isMethod { kind, start := 0, stop := 0 } = false := by
    decide
  exact hkinds _ (Node.kind_mem_of_isComment h)

theorem TypeDeclaration.methods_uncommented {type : TypeDeclaration}
    (h : type.node.BareComments) :
    type.uncommented.methods = type.methods.map Method.uncommented := by
  have hnodes : memberNodes type.uncommented.node = uncommentedAll (memberNodes type.node) := by
    rw [← map_node_members, ← map_node_members, ← map_node_uncommentedPlaced,
      ← members_uncommented h]
    rfl
  have hlooks : Node.LooksThrough isMethod (memberNodes type.node) :=
    fun node _ => ⟨not_isMethod_of_isComment, isMethod_uncommented node⟩
  rw [methods_eq, methods_eq, hnodes, Node.filter_uncommentedAll hlooks, List.map_map,
    List.map_map]
  rfl

/-! ## Units -/

namespace CompilationUnit

/-- The unit with its source as it is and the comments taken out of its tree. -/
def uncommented (unit : CompilationUnit) : CompilationUnit :=
  { unit with root := unit.root.uncommented }

theorem packageNode?_uncommented (declaration : Node) :
    packageNode? declaration.uncommented = (packageNode? declaration).map Node.uncommented := by
  rw [packageNode?, Node.namedChildren_uncommented, packageNode?]
  exact Node.find?_uncommentedAll (Node.looksThrough_kind
    (q := fun kind => kind == "identifier" || kind == "scoped_identifier") (by decide) _)

theorem packageName_uncommented (unit : CompilationUnit) :
    unit.uncommented.packageName = unit.packageName := by
  have hdeclarations :
      unit.uncommented.root.namedChildren.filter (·.kind == "package_declaration") =
        (unit.root.namedChildren.filter (·.kind == "package_declaration")).map
          Node.uncommented := by
    show unit.root.uncommented.namedChildren.filter _ = _
    rw [Node.namedChildren_uncommented]
    exact Node.filter_uncommentedAll
      (Node.looksThrough_kind (q := (· == "package_declaration")) (by decide) _)
  have hfound : packageNode? ∘ Node.uncommented = Option.map Node.uncommented ∘ packageNode? :=
    funext packageNode?_uncommented
  rw [packageName, packageName, hdeclarations, List.findSome?_map, hfound, ← List.map_findSome?]
  cases List.findSome? packageNode? _ with
  | none => rfl
  | some name => simp only [Option.map_some, Node.text_uncommented]; rfl

theorem types_uncommented (unit : CompilationUnit) :
    unit.uncommented.types = unit.types.map TypeDeclaration.uncommented := by
  rw [types, types, ← typeDeclarations_uncommented, ← placedChildren_uncommented]
  rfl

variable {unit : CompilationUnit} (h : unit.root.BareComments)

include h

theorem enumerate_uncommented :
    unit.uncommented.enumerate =
      unit.enumerate.map fun listed => (listed.1, listed.2.uncommented) := by
  rw [enumerate, packageName_uncommented, types_uncommented]
  apply enumerateStack_uncommented
  intro type htype
  exact h.below (mem_descendants_of_placedChildren (of_mem_typeDeclarations htype).1)

theorem fileMethods_uncommented :
    unit.uncommented.fileMethods = unit.fileMethods.map Method.uncommented := by
  have hfilter : (unit.uncommented.root.walk isMethod).filter isMethod =
      ((unit.root.walk isMethod).filter isMethod).map Node.uncommented :=
    Node.filter_walk_uncommented isMethod_uncommented h
      (fun node _ => isMethod_uncommented node) (fun _ => not_isMethod_of_isComment)
  rw [fileMethods, fileMethods, hfilter, List.map_map, List.map_map]
  rfl

end CompilationUnit

end JavaMetrics.Java
