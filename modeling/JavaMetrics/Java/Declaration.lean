import JavaMetrics.Syntax.Position

/-!
# Types and methods

Declarations of types and methods as they are found in a tree. A type knows the
siblings in front of it, among which its documentation is found, and the name of
the type that declares it.
-/

namespace JavaMetrics.Java

/-- The text of the node under a declaration that gives its name; empty without one. -/
def declaredName (code : List UInt8) (node : Node) : String :=
  match node.child? .name with
  | some name => name.text code
  | none => ""

/-- The kinds of type declarations. -/
inductive TypeKind where
  | classType
  | interfaceType
  | enumType
  | annotationType
deriving DecidableEq, Repr

namespace TypeKind

/-- The kind of type that a node of some kind declares, if it declares one. A record is a class. -/
def ofNodeKind? (kind : String) : Option TypeKind :=
  if kind == "class_declaration" || kind == "record_declaration" then some .classType
  else if kind == "interface_declaration" then some .interfaceType
  else if kind == "enum_declaration" then some .enumType
  else if kind == "annotation_type_declaration" then some .annotationType
  else none

/-- The name of a kind of types. -/
def name : TypeKind → String
  | .classType => "class"
  | .interfaceType => "interface"
  | .enumType => "enum"
  | .annotationType => "annotation_type"

end TypeKind

/-- Does the node declare a method or a constructor? -/
def isMethod (node : Node) : Bool :=
  node.kind == "method_declaration" || node.kind == "constructor_declaration" ||
    node.kind == "compact_constructor_declaration"

/-- A method or a constructor. -/
structure Method where
  node : Node
deriving Repr

namespace Method

def name (code : List UInt8) (method : Method) : String :=
  declaredName code method.node

def isConstructor (method : Method) : Bool :=
  method.node.kind != "method_declaration"

/-- The modifiers as they are written; annotations are not among them. -/
def modifiers (method : Method) : List String :=
  match method.node.children.find? (·.kind == "modifiers") with
  | some list => (list.children.filter (!·.named)).map (·.kind)
  | none => []

/-- Is it written to be public? -/
def isPublic (method : Method) : Bool :=
  method.modifiers.contains "public"

/-- The body; a method that is only announced has none. -/
def body? (method : Method) : Option Node :=
  method.node.child? .body

/-- The line on which the declaration starts. -/
def startLine (code : List UInt8) (method : Method) : Nat :=
  (position code method.node.start).1 + 1

end Method

/-- A node and the siblings before it, nearest first. -/
structure Placed where
  node : Node
  before : List Node
deriving Repr

/-- Each of the nodes with those before it. -/
def placeFrom (before : List Node) : List Node → List Placed
  | [] => []
  | node :: rest => ⟨node, before⟩ :: placeFrom (node :: before) rest

/-- The named children of a node, each with its siblings. -/
def placedChildren (node : Node) : List Placed :=
  (placeFrom [] node.children).filter (·.node.named)

/-- The members of a type: the named children of its body. In an enum they stand together in a node
after the constants. -/
def members (node : Node) : List Placed :=
  match node.child? .body with
  | none => []
  | some body => (placedChildren body).flatMap fun member =>
      if member.node.kind == "enum_body_declarations" then placedChildren member.node else [member]

/-- A declaration of a type. -/
structure TypeDeclaration where
  kind : TypeKind
  node : Node
  /-- The siblings before it, nearest first. -/
  before : List Node
  /-- The simple name of the type of which it is a member. -/
  outer : Option String
deriving Repr

/-- The type declarations among some nodes. -/
def typeDeclarations (outer : Option String) (nodes : List Placed) : List TypeDeclaration :=
  nodes.filterMap fun placed =>
    (TypeKind.ofNodeKind? placed.node.kind).map fun kind =>
      ⟨kind, placed.node, placed.before, outer⟩

namespace TypeDeclaration

def name (code : List UInt8) (type : TypeDeclaration) : String :=
  declaredName code type.node

/-- Is the type not a member of another one? -/
def isTopLevel (type : TypeDeclaration) : Bool :=
  type.outer.isNone

/-- Is the comment a documentation comment? -/
def isDocumentation (code : List UInt8) (comment : Node) : Bool :=
  let text := comment.text code
  "/**".isPrefixOf text && text != "/**/"

/-- The documentation comment of a type: the nearest one, with nothing but comments between it and
the type. -/
def documentation? (code : List UInt8) (type : TypeDeclaration) : Option Node :=
  (type.before.takeWhile (·.isComment)).find? (isDocumentation code)

/-- Where a type starts, together with its documentation. -/
def start (code : List UInt8) (type : TypeDeclaration) : Nat :=
  match type.documentation? code with
  | some comment => comment.start
  | none => type.node.start

/-- The start of a type together with its documentation, and the length from there to its end. -/
def span (code : List UInt8) (type : TypeDeclaration) : Nat × Int :=
  let start := type.start code
  (start, (type.node.stop : Int) - start)

/-- The methods and constructors of a type itself. -/
def methods (type : TypeDeclaration) : List Method :=
  ((members type.node).filter (isMethod ·.node)).map fun member => ⟨member.node⟩

/-- The member types of a type itself. -/
def nested (code : List UInt8) (type : TypeDeclaration) : List TypeDeclaration :=
  typeDeclarations (some (type.name code)) (members type.node)

end TypeDeclaration

/-! ## Members are smaller

The nodes of the members of a type together are fewer than those of the type, so
that a descent through member types comes to an end. -/

/-- The number of nodes below and at some placed nodes. -/
def weight (nodes : List Placed) : Nat :=
  Node.sizeAll (nodes.map (·.node))

theorem sizeAll_filter_le (p : Node → Bool) (nodes : List Node) :
    Node.sizeAll (nodes.filter p) ≤ Node.sizeAll nodes := by
  induction nodes with
  | nil => simp
  | cons node rest ih =>
    rw [List.filter_cons]
    split <;> simp only [Node.sizeAll] <;> omega

theorem map_node_placeFrom (before nodes : List Node) :
    (placeFrom before nodes).map (·.node) = nodes := by
  induction nodes generalizing before with
  | nil => rfl
  | cons node rest ih => simp [placeFrom, ih]

theorem map_node_placedChildren (node : Node) :
    (placedChildren node).map (·.node) = node.namedChildren := by
  have h := map_node_placeFrom [] node.children
  simp only [placedChildren, Node.namedChildren]
  conv => rhs; rw [← h]
  rw [List.filter_map]
  rfl

theorem weight_placedChildren_lt (node : Node) : weight (placedChildren node) < node.size := by
  rw [weight, map_node_placedChildren, Node.size_eq]
  have := sizeAll_filter_le (·.named) node.children
  simp only [Node.namedChildren]
  omega

theorem sizeAll_mem_le {node : Node} {nodes : List Node} (h : node ∈ nodes) :
    node.size ≤ Node.sizeAll nodes := by
  induction nodes with
  | nil => cases h
  | cons first rest ih =>
    simp only [Node.sizeAll]
    rcases List.mem_cons.mp h with rfl | h
    · omega
    · have := ih h; omega

theorem child?_size_lt {node child : Node} {f : Field} (h : node.child? f = some child) :
    child.size < node.size := by
  have := sizeAll_mem_le (List.mem_of_find?_eq_some h)
  rw [Node.size_eq node]
  omega

theorem weight_flatMap_le (f : Placed → List Placed) (nodes : List Placed)
    (h : ∀ placed ∈ nodes, weight (f placed) ≤ placed.node.size) :
    weight (nodes.flatMap f) ≤ weight nodes := by
  induction nodes with
  | nil => simp
  | cons placed rest ih =>
    have head := h placed (by simp)
    have tail := ih fun q hq => h q (by simp [hq])
    simp only [weight, List.flatMap_cons, List.map_append, List.map_cons, Node.sizeAll,
      Node.sizeAll_append] at *
    omega

theorem weight_members_lt (node : Node) : weight (members node) < node.size := by
  unfold members
  split
  · rw [Node.size_eq]
    simp only [weight, List.map_nil, Node.sizeAll]
    omega
  · rename_i body hbody
    have below := child?_size_lt hbody
    have inner := weight_placedChildren_lt body
    refine Nat.lt_of_le_of_lt (weight_flatMap_le _ _ ?_) (by omega)
    intro placed _
    split
    · exact Nat.le_of_lt (weight_placedChildren_lt placed.node)
    · simp [weight, Node.sizeAll]

/-- The number of nodes below and at some type declarations. -/
def declarationWeight (types : List TypeDeclaration) : Nat :=
  Node.sizeAll (types.map (·.node))

theorem declarationWeight_typeDeclarations_le (outer : Option String) (nodes : List Placed) :
    declarationWeight (typeDeclarations outer nodes) ≤ weight nodes := by
  induction nodes with
  | nil => simp [typeDeclarations, declarationWeight, weight]
  | cons placed rest ih =>
    simp only [typeDeclarations, declarationWeight, weight, List.filterMap_cons, List.map_cons,
      Node.sizeAll] at *
    cases TypeKind.ofNodeKind? placed.node.kind with
    | none => simp only [Option.map_none]; omega
    | some kind => simp only [Option.map_some, List.map_cons, Node.sizeAll]; omega

theorem declarationWeight_nested_lt (code : List UInt8) (type : TypeDeclaration) :
    declarationWeight (type.nested code) < type.node.size :=
  Nat.lt_of_le_of_lt (declarationWeight_typeDeclarations_le _ _) (weight_members_lt _)

end JavaMetrics.Java
