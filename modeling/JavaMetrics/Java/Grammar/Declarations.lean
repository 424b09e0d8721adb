import JavaMetrics.Java.Phrase

/-!
# Declarations

Modules, packages, imports, the five kinds of type declarations and their
members. The name and the body of a declaration are found by their roles.
-/

namespace JavaMetrics.Java.Grammar

open Phrase

/-- The name under which something is declared. -/
def declaredName : Phrase :=
  (identifier "identifier").withField .name

/-- The body of a declaration. -/
def bodyOf (s : Symbol) : Phrase :=
  (the s).withField .body

/-- Members between braces. -/
def braced (members : List Phrase) : Phrase :=
  braces (many (oneOf members))

/-- The list of names after a word of a module directive. -/
def namesAfter (keyword : String) : Phrase :=
  all [word keyword, sepBy1 "," (the .name)]

/-- The rules of modules, packages and imports. -/
def moduleRules : List Rule := [
  ⟨.moduleDeclaration, "module_declaration",
    all [many (the .annotationAny), opt (word "open"), word "module", (the .name).withField .name,
      bodyOf .moduleBody]⟩,
  ⟨.moduleBody, "module_body",
    braced [the .requiresDirective, the .exportsDirective, the .opensDirective,
      the .usesDirective, the .providesDirective]⟩,
  ⟨.requiresDirective, "requires_module_directive",
    all [word "requires", many (the .requiresModifier), the .name, mark ";"]⟩,
  ⟨.requiresModifier, "requires_modifier", oneOf [word "transitive", word "static"]⟩,
  ⟨.exportsDirective, "exports_module_directive",
    all [word "exports", the .name, opt (namesAfter "to"), mark ";"]⟩,
  ⟨.opensDirective, "opens_module_directive",
    all [word "opens", the .name, opt (namesAfter "to"), mark ";"]⟩,
  ⟨.usesDirective, "uses_module_directive", all [word "uses", the .name, mark ";"]⟩,
  ⟨.providesDirective, "provides_module_directive",
    all [word "provides", the .name, namesAfter "with", mark ";"]⟩,
  ⟨.packageDeclaration, "package_declaration",
    all [many (the .annotationAny), word "package", the .name, mark ";"]⟩,
  ⟨.importDeclaration, "import_declaration",
    all [word "import", opt (word "static"), the .name,
      opt (.seq (mark ".") (.single (.token (.mark "*" (some "asterisk"))) none)), mark ";"]⟩]

/-- The rules of type declarations and their bodies. -/
def typeDeclarationRules : List Rule := [
  ⟨.declaration, none,
    oneOf [the .moduleDeclaration, the .packageDeclaration, the .importDeclaration,
      the .classDeclaration, the .recordDeclaration, the .interfaceDeclaration,
      the .annotationTypeDeclaration, the .enumDeclaration]⟩,
  ⟨.classDeclaration, "class_declaration",
    all [opt (the .modifiers), word "class", declaredName, opt (the .typeParameters),
      opt (the .superclass), opt (the .interfaces), opt (the .permits), bodyOf .classBody]⟩,
  ⟨.superclass, "superclass", all [word "extends", the .type]⟩,
  ⟨.interfaces, "super_interfaces", all [word "implements", the .typeList]⟩,
  ⟨.permits, "permits", all [word "permits", the .typeList]⟩,
  ⟨.classBody, "class_body", braced [the .member]⟩,
  ⟨.member, none,
    oneOf [the .fieldDeclaration, the .recordDeclaration, the .methodDeclaration,
      the .compactConstructor, the .classDeclaration, the .interfaceDeclaration,
      the .annotationTypeDeclaration, the .enumDeclaration, the .block, the .staticInitializer,
      the .constructorDeclaration, mark ";"]⟩,
  ⟨.recordDeclaration, "record_declaration",
    all [opt (the .modifiers), word "record", declaredName, opt (the .typeParameters),
      the .formalParameters, opt (the .interfaces), bodyOf .classBody]⟩,
  ⟨.interfaceDeclaration, "interface_declaration",
    all [opt (the .modifiers), word "interface", declaredName, opt (the .typeParameters),
      opt (the .extendedInterfaces), opt (the .permits), bodyOf .interfaceBody]⟩,
  ⟨.extendedInterfaces, "extends_interfaces", all [word "extends", the .typeList]⟩,
  ⟨.interfaceBody, "interface_body",
    braced [the .constantDeclaration, the .enumDeclaration, the .methodDeclaration,
      the .classDeclaration, the .interfaceDeclaration, the .recordDeclaration,
      the .annotationTypeDeclaration, mark ";"]⟩,
  ⟨.annotationTypeDeclaration, "annotation_type_declaration",
    all [opt (the .modifiers), mark "@interface", declaredName, bodyOf .annotationTypeBody]⟩,
  ⟨.annotationTypeBody, "annotation_type_body",
    braced [the .annotationElement, the .constantDeclaration, the .classDeclaration,
      the .interfaceDeclaration, the .enumDeclaration, the .annotationTypeDeclaration, mark ";"]⟩,
  ⟨.annotationElement, "annotation_type_element_declaration",
    all [opt (the .modifiers), the .plainType, (the .ident).withField .name, mark "(", mark ")",
      opt (the .dimensions), opt (.seq (word "default") (the .elementValue)), mark ";"]⟩,
  ⟨.enumDeclaration, "enum_declaration",
    all [opt (the .modifiers), word "enum", declaredName, opt (the .interfaces),
      bodyOf .enumBody]⟩,
  ⟨.enumBody, "enum_body",
    braces (all [sepBy "," (the .enumConstant), opt (mark ","),
      opt (the .enumBodyDeclarations)])⟩,
  ⟨.enumBodyDeclarations, "enum_body_declarations", .seq (mark ";") (many (the .member))⟩,
  ⟨.enumConstant, "enum_constant",
    all [opt (the .modifiers), declaredName, opt (the .arguments), opt (bodyOf .classBody)]⟩]

/-- The rules of fields, methods and constructors. -/
def memberRules : List Rule := [
  ⟨.staticInitializer, "static_initializer", all [word "static", the .block]⟩,
  ⟨.constructorDeclaration, "constructor_declaration",
    all [opt (the .modifiers), opt (the .typeParameters), declaredName, the .formalParameters,
      opt (the .throws), bodyOf .constructorBody]⟩,
  ⟨.constructorBody, "constructor_body",
    braces (.seq (opt (the .constructorCall)) (many (the .statement)))⟩,
  ⟨.constructorCall, "explicit_constructor_invocation",
    all [oneOf [.seq (opt (the .typeArguments)) (oneOf [the .this, the .super]),
        all [the .primary, mark ".", opt (the .typeArguments), the .super]],
      the .arguments, mark ";"]⟩,
  ⟨.compactConstructor, "compact_constructor_declaration",
    all [opt (the .modifiers), declaredName, bodyOf .block]⟩,
  ⟨.fieldDeclaration, "field_declaration",
    all [opt (the .modifiers), the .plainType, sepBy1 "," (the .variableDeclarator), mark ";"]⟩,
  ⟨.constantDeclaration, "constant_declaration",
    all [opt (the .modifiers), the .plainType, sepBy1 "," (the .variableDeclarator), mark ";"]⟩,
  ⟨.methodDeclaration, "method_declaration",
    all [opt (the .modifiers), opt (.seq (the .typeParameters) (many (the .annotationAny))),
      the .plainType, (the .ident).withField .name, the .formalParameters, opt (the .dimensions),
      opt (the .throws), oneOf [bodyOf .block, mark ";"]]⟩,
  ⟨.formalParameters, "formal_parameters",
    all [mark "(",
      oneOf [the .receiverParameter,
        .seq (opt (.seq (the .receiverParameter) (mark ",")))
          (sepBy "," (oneOf [the .formalParameter, the .spreadParameter]))],
      mark ")"]⟩,
  ⟨.formalParameter, "formal_parameter",
    all [opt (the .modifiers), the .plainType, the .variableName]⟩,
  ⟨.spreadParameter, "spread_parameter",
    all [opt (the .modifiers), the .plainType, mark "...", many (the .annotationAny),
      the .variableDeclarator]⟩,
  ⟨.receiverParameter, "receiver_parameter",
    all [many (the .annotationAny), the .plainType,
      many (.seq (identifier "identifier") (mark ".")), the .this]⟩,
  ⟨.throws, "throws", all [word "throws", sepBy1 "," (the .type)]⟩,
  ⟨.variableDeclarator, "variable_declarator",
    .seq (the .variableName) (opt (.seq (mark "=") (the .initializer)))⟩,
  ⟨.variableName, none,
    .seq (oneOf [the .ident, namedWord "_" "underscore_pattern"]) (opt (the .dimensions))⟩,
  ⟨.initializer, none, oneOf [the .expression, the .arrayInitializer]⟩,
  ⟨.arrayInitializer, "array_initializer",
    braces (.seq (sepBy "," (the .initializer)) (opt (mark ",")))⟩]

/-- The rules of declarations. -/
def declarationRules : List Rule :=
  moduleRules ++ typeDeclarationRules ++ memberRules

end JavaMetrics.Java.Grammar
