import JavaMetrics.Java.Phrase

/-!
# Names, annotations and types
-/

namespace JavaMetrics.Java.Grammar

open Phrase

/-- A keyword that is an identifier wherever nothing else can be meant. -/
def reservedWord (text : String) : Phrase :=
  namedWord text "identifier"

/-- An identifier as the name of a type. -/
def typeName : Phrase :=
  identifier "type_identifier"

/-- The rules of names, annotations and types. -/
def typeRules : List Rule := [
  ⟨.reserved, none, oneOf (["open", "module", "record", "with", "sealed", "yield"].map reservedWord)⟩,
  ⟨.ident, none, oneOf [identifier "identifier", the .reserved]⟩,
  ⟨.name, none, oneOf [the .ident, the .scopedIdentifier]⟩,
  ⟨.scopedIdentifier, "scoped_identifier", all [the .name, mark ".", the .ident]⟩,
  ⟨.annotationAny, none, oneOf [the .annotationMarker, the .annotationFull]⟩,
  ⟨.annotationMarker, "marker_annotation", all [mark "@", the .name]⟩,
  ⟨.annotationFull, "annotation", all [mark "@", the .name, the .annotationArguments]⟩,
  ⟨.annotationArguments, "annotation_argument_list",
    all [mark "(", oneOf [the .elementValue, sepBy "," (the .elementPair)], mark ")"]⟩,
  ⟨.elementPair, "element_value_pair", all [the .ident, mark "=", the .elementValue]⟩,
  ⟨.elementValue, none, oneOf [the .expression, the .elementArray, the .annotationAny]⟩,
  ⟨.elementArray, "element_value_array_initializer",
    braces (.seq (sepBy "," (the .elementValue)) (opt (mark ",")))⟩,
  ⟨.modifiers, "modifiers",
    .plus (oneOf ([the .annotationAny, mark "non-sealed"] ++
      ["public", "protected", "private", "abstract", "static", "final", "strictfp", "default",
        "synchronized", "native", "transient", "volatile", "sealed"].map word))⟩,
  ⟨.type, none, oneOf [the .plainType, the .annotatedType]⟩,
  ⟨.plainType, none, oneOf [the .simpleType, the .arrayType]⟩,
  ⟨.simpleType, none,
    oneOf [the .voidType, the .integralType, the .floatingType, the .booleanType, typeName,
      the .scopedType, the .genericType]⟩,
  ⟨.voidType, none, namedWord "void" "void_type"⟩,
  ⟨.integralType, "integral_type", oneOf (["byte", "short", "int", "long", "char"].map word)⟩,
  ⟨.floatingType, "floating_point_type", oneOf (["float", "double"].map word)⟩,
  ⟨.booleanType, none, namedWord "boolean" "boolean_type"⟩,
  ⟨.annotatedType, "annotated_type", all [.plus (the .annotationAny), the .plainType]⟩,
  ⟨.scopedType, "scoped_type_identifier",
    all [oneOf [typeName, the .scopedType, the .genericType], mark ".",
      many (the .annotationAny), typeName]⟩,
  ⟨.genericType, "generic_type", all [oneOf [typeName, the .scopedType], the .typeArguments]⟩,
  ⟨.typeArguments, "type_arguments",
    all [mark "<", sepBy "," (oneOf [the .type, the .wildcard]),
      .single (.token .closeAngle) none]⟩,
  ⟨.wildcard, "wildcard",
    all [many (the .annotationAny), mark "?",
      opt (.seq (oneOf [word "extends", the .super]) (the .type))]⟩,
  ⟨.arrayType, "array_type", all [the .plainType, the .dimensions]⟩,
  ⟨.dimensions, "dimensions", .plus (all [many (the .annotationAny), mark "[", mark "]"])⟩,
  ⟨.typeParameters, "type_parameters",
    all [mark "<", sepBy1 "," (the .typeParameter), .single (.token .closeAngle) none]⟩,
  ⟨.typeParameter, "type_parameter",
    all [many (the .annotationAny), typeName, opt (the .typeBound)]⟩,
  ⟨.typeBound, "type_bound", all [word "extends", sepBy1 "&" (the .type)]⟩,
  ⟨.typeList, "type_list", sepBy1 "," (the .type)⟩]

end JavaMetrics.Java.Grammar
