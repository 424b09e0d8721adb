import JavaMetrics.Java.Phrase

/-!
# Expressions

Operators bind by levels: every level is the next tighter one, or a node that
joins two operands by an operator of the level, to the left. An assignment and a
lambda reach as far to the right as they can, so they may also stand as the last
operand of any operator.
-/

namespace JavaMetrics.Java.Grammar

open Phrase

/-- The operator of a binary expression. -/
def operator (texts : List String) : Phrase :=
  (oneOf (texts.map mark)).withField .operator

/-- The two rules of a level of left-associative operators: the level itself, and the node that
joins its operands. -/
def level (self node tighter : Symbol) (texts : List String) (others : List Symbol) : List Rule := [
  ⟨self, none, oneOf ([the tighter, the node] ++ others.map the)⟩,
  ⟨node, "binary_expression",
    all [the self, operator texts, oneOf [the tighter, the .openEnded]]⟩]

/-- The levels of the binary operators, loosest first. -/
def levelRules : List Rule :=
  level .disjunction .disjunctionNode .conjunction ["||"] [] ++
  level .conjunction .conjunctionNode .bitOr ["&&"] [] ++
  level .bitOr .bitOrNode .bitXor ["|"] [] ++
  level .bitXor .bitXorNode .bitAnd ["^"] [] ++
  level .bitAnd .bitAndNode .equality ["&"] [] ++
  level .equality .equalityNode .relational ["==", "!="] [] ++
  level .relational .relationalNode .shift ["<", ">", "<=", ">="] [.instanceofNode] ++
  level .shift .shiftNode .additive ["<<", ">>", ">>>"] [] ++
  level .additive .additiveNode .multiplicative ["+", "-"] [] ++
  level .multiplicative .multiplicativeNode .unary ["*", "/", "%"] []

/-- A literal as a token of its own. -/
def literalToken (form : Literal) : Phrase :=
  .single (.token (.literal form)) none

/-- A text with expressions between its pieces. -/
def mixed (quoting : Quoting) : Phrase :=
  all [literalToken (.textHead quoting), the .interpolation,
    many (.seq (literalToken (.textMiddle quoting)) (the .interpolation)),
    literalToken (.textTail quoting)]

/-- What may be assigned to. -/
def target : Phrase :=
  oneOf [the .ident, the .fieldAccess, the .arrayAccess]

/-- The rules of everything above and below the binary operators. -/
def operandRules : List Rule := [
  ⟨.expression, none, oneOf [the .openEnded, the .conditional]⟩,
  ⟨.openEnded, none, oneOf [the .assignment, the .lambda]⟩,
  ⟨.assignment, "assignment_expression",
    all [target,
      operator ["=", "+=", "-=", "*=", "/=", "&=", "|=", "^=", "%=", "<<=", ">>=", ">>>="],
      the .expression]⟩,
  ⟨.lambda, "lambda_expression",
    all [oneOf [the .ident, the .formalParameters, the .inferredParameters], mark "->",
      oneOf [the .expression, the .block]]⟩,
  ⟨.inferredParameters, "inferred_parameters", all [mark "(", sepBy1 "," (the .ident), mark ")"]⟩,
  ⟨.conditional, none, oneOf [the .disjunction, the .ternary]⟩,
  ⟨.ternary, "ternary_expression",
    all [the .disjunction, mark "?", the .expression, mark ":", the .expression]⟩,
  ⟨.instanceofNode, "instanceof_expression",
    all [the .relational, word "instanceof", opt (word "final"),
      oneOf [.seq (the .type) (opt (the .ident)), the .recordPattern]]⟩,
  ⟨.unary, none, oneOf [the .unaryNode, the .prefixUpdate, the .cast, the .postfixed]⟩,
  ⟨.operand, none, oneOf [the .unary, the .openEnded]⟩,
  ⟨.unaryNode, "unary_expression", all [operator ["+", "-", "!", "~"], the .operand]⟩,
  ⟨.prefixUpdate, "update_expression", all [oneOf [mark "++", mark "--"], the .operand]⟩,
  ⟨.cast, "cast_expression",
    all [mark "(", sepBy1 "&" (the .type), mark ")", the .operand]⟩,
  ⟨.postfixed, none, oneOf [the .primary, the .switchExpression, the .postfixUpdate]⟩,
  ⟨.postfixUpdate, "update_expression", all [the .postfixed, oneOf [mark "++", mark "--"]]⟩]

/-- The rules of primary expressions. -/
def primaryRules : List Rule := [
  ⟨.primary, none,
    oneOf [the .literal, the .classLiteral, the .this, the .ident, the .parenthesized,
      the .objectCreation, the .fieldAccess, the .arrayAccess, the .methodInvocation,
      the .methodReference, the .arrayCreation, the .template]⟩,
  ⟨.literal, none,
    oneOf [literalToken .decimalInteger, literalToken .hexInteger, literalToken .octalInteger,
      literalToken .binaryInteger, literalToken .decimalFloat, literalToken .hexFloat,
      namedWord "true" "true", namedWord "false" "false", literalToken .character,
      the .text, namedWord "null" "null_literal"]⟩,
  ⟨.text, none,
    oneOf [literalToken (.text .string), literalToken (.text .block), the .mixedText]⟩,
  ⟨.mixedText, "string_literal", oneOf [mixed .string, mixed .block]⟩,
  ⟨.interpolation, "string_interpolation", the .expression⟩,
  ⟨.classLiteral, "class_literal", all [the .plainType, mark ".", word "class"]⟩,
  ⟨.this, none, namedWord "this" "this"⟩,
  ⟨.super, none, namedWord "super" "super"⟩,
  ⟨.parenthesized, "parenthesized_expression", all [mark "(", the .expression, mark ")"]⟩,
  ⟨.objectCreation, "object_creation_expression",
    oneOf [the .bareCreation, all [the .primary, mark ".", the .bareCreation]]⟩,
  ⟨.bareCreation, none,
    all [word "new", many (the .annotationAny),
      opt (.seq (the .typeArguments) (many (the .annotationAny))), the .simpleType,
      the .arguments, opt (the .classBody)]⟩,
  ⟨.fieldAccess, "field_access",
    all [oneOf [the .primary, the .super], opt (.seq (mark ".") (the .super)), mark ".",
      oneOf [the .ident, the .this]]⟩,
  ⟨.arrayAccess, "array_access", all [the .primary, mark "[", the .expression, mark "]"]⟩,
  ⟨.methodInvocation, "method_invocation",
    .seq (oneOf [the .ident,
        all [oneOf [the .primary, the .super], mark ".", opt (.seq (the .super) (mark ".")),
          opt (the .typeArguments), the .ident]])
      (the .arguments)⟩,
  ⟨.methodReference, "method_reference",
    all [oneOf [the .type, the .primary, the .super], mark "::", opt (the .typeArguments),
      oneOf [word "new", identifier "identifier"]]⟩,
  ⟨.arrayCreation, "array_creation_expression",
    all [word "new", many (the .annotationAny), the .simpleType,
      oneOf [.seq (.plus (the .sizedDimension)) (opt (the .dimensions)),
        .seq (the .dimensions) (the .arrayInitializer)]]⟩,
  ⟨.sizedDimension, "dimensions_expr",
    all [many (the .annotationAny), mark "[", the .expression, mark "]"]⟩,
  ⟨.template, "template_expression", all [the .primary, mark ".", the .text]⟩,
  ⟨.arguments, "argument_list", all [mark "(", sepBy "," (the .expression), mark ")"]⟩]

/-- The rules of expressions. -/
def expressionRules : List Rule :=
  operandRules ++ levelRules ++ primaryRules

end JavaMetrics.Java.Grammar
