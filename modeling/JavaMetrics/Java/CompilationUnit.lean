import JavaMetrics.Java.Declaration
import JavaMetrics.Syntax.Problem

/-!
# Compilation units

One source with its tree, and what is declared in it.
-/

namespace JavaMetrics.Java

/-- One source with its tree. -/
structure CompilationUnit where
  /-- The name under which the source is known. -/
  path : String
  text : String
  /-- The text in UTF-8, to which the offsets of the tree refer. -/
  code : List UInt8
  root : Node

namespace CompilationUnit

/-- The unit of a text and its tree. -/
def ofTree (path text : String) (root : Node) : CompilationUnit :=
  { path, text, code := Text.Utf8.encode text.toList, root }

/-- What is wrong with the source. -/
def problems (unit : CompilationUnit) : List Problem :=
  unit.root.problems unit.code

/-- The lines of the source. -/
def lines (unit : CompilationUnit) : List String :=
  Text.lines unit.text

/-- The number of the line that an offset lies on. -/
def lineOf (unit : CompilationUnit) (offset : Int) : Nat :=
  JavaMetrics.lineOf (lineStarts unit.code) offset

/-- The name in a package declaration, if it has one. -/
def packageNode? (declaration : Node) : Option Node :=
  declaration.namedChildren.find? fun part =>
    part.kind == "identifier" || part.kind == "scoped_identifier"

/-- The name of the package: of the first declaration that has one, without white space. It is empty
when there is none. -/
def packageName (unit : CompilationUnit) : String :=
  let declarations := unit.root.namedChildren.filter (·.kind == "package_declaration")
  match declarations.findSome? packageNode? with
  | some name => String.ofList (Text.words (name.text unit.code).toList).flatten
  | none => ""

/-- The types that are not members of other types. -/
def types (unit : CompilationUnit) : List TypeDeclaration :=
  typeDeclarations none (placedChildren unit.root)

/-- The methods of the whole source that are not inside another one. -/
def fileMethods (unit : CompilationUnit) : List Method :=
  ((unit.root.walk isMethod).filter isMethod).map fun node => ⟨node⟩

end CompilationUnit

/-! ## Names of types -/

/-- The name of a type within its package is qualified by the simple name of the type that directly
declares it, if that is not empty, and then by the package, if there is one. -/
def qualifiedName (package simple : String) (outer : Option String) : String :=
  let inPackage :=
    match outer with
    | some outer => if outer.isEmpty then simple else outer ++ "$" ++ simple
    | none => simple
  if package.isEmpty then inPackage else package ++ "." ++ inPackage

/-- Takes a type off the stack, gives it with its qualified name, and puts its member types on the
stack. -/
def enumerateStack (code : List UInt8) (package : String) (stack : List TypeDeclaration) :
    List (String × TypeDeclaration) :=
  match stack with
  | [] => []
  | type :: rest =>
    (qualifiedName package (type.name code) type.outer, type) ::
      enumerateStack code package (type.nested code ++ rest)
termination_by declarationWeight stack
decreasing_by
  have := declarationWeight_nested_lt code type
  simp only [declarationWeight, List.map_append, List.map_cons, Node.sizeAll_append,
    Node.sizeAll] at *
  omega

/-- The types of a unit with their qualified names: every type before its members, and these before
the next type. Method bodies are not entered. -/
def CompilationUnit.enumerate (unit : CompilationUnit) : List (String × TypeDeclaration) :=
  enumerateStack unit.code unit.packageName unit.types

end JavaMetrics.Java
