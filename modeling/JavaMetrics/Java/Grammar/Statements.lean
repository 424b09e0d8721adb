import JavaMetrics.Java.Phrase

/-!
# Statements, switches and patterns
-/

namespace JavaMetrics.Java.Grammar

open Phrase

/-- The keyword, what follows it, and the semicolon. -/
def simpleStatement (keyword : String) (rest : Phrase) : Phrase :=
  all [word keyword, rest, mark ";"]

/-- The rules of switches and of the patterns in them. -/
def switchRules : List Rule := [
  ⟨.switchExpression, "switch_expression",
    all [word "switch", the .parenthesized, (the .switchBlock).withField .body]⟩,
  ⟨.switchBlock, "switch_block",
    braces (oneOf [.seq (many (the .switchGroup)) (opt (the .switchEnd)),
      .plus (the .switchRule)])⟩,
  ⟨.switchGroup, "switch_block_statement_group",
    .seq (.plus (.seq (the .switchLabel) (mark ":"))) (.plus (the .statement))⟩,
  ⟨.switchEnd, "switch_block_statement_group", .plus (.seq (the .switchLabel) (mark ":"))⟩,
  ⟨.switchRule, "switch_rule",
    all [the .switchLabel, mark "->",
      oneOf [the .expressionStatement, the .throwStatement, the .block]]⟩,
  ⟨.switchLabel, "switch_label",
    oneOf [all [word "case", oneOf [the .pattern, sepBy1 "," (the .expression)], opt (the .guard)],
      word "default"]⟩,
  ⟨.pattern, "pattern", oneOf [the .typePattern, the .recordPattern]⟩,
  ⟨.typePattern, "type_pattern", all [the .plainType, the .ident]⟩,
  ⟨.recordPattern, "record_pattern",
    all [oneOf [the .ident, the .genericType], the .recordPatternBody]⟩,
  ⟨.recordPatternBody, "record_pattern_body",
    all [mark "(", sepBy "," (oneOf [the .recordPatternPart, the .recordPattern]), mark ")"]⟩,
  ⟨.recordPatternPart, "record_pattern_component",
    oneOf [namedWord "_" "underscore_pattern", all [the .plainType, the .ident]]⟩,
  ⟨.guard, "guard", all [word "when", the .expression]⟩]

/-- The rules of statements. -/
def statementRules : List Rule := switchRules ++ [
  ⟨.statement, none,
    oneOf [the .declaration, the .expressionStatement, the .labeledStatement, the .ifStatement,
      the .whileStatement, the .forStatement, the .forEachStatement, the .block, mark ";",
      the .assertStatement, the .doStatement, the .breakStatement, the .continueStatement,
      the .returnStatement, the .yieldStatement, the .switchExpression,
      the .synchronizedStatement, the .localVariable, the .throwStatement, the .tryStatement,
      the .resourcesStatement]⟩,
  ⟨.block, "block", braces (many (the .statement))⟩,
  ⟨.expressionStatement, "expression_statement", all [the .expression, mark ";"]⟩,
  ⟨.labeledStatement, "labeled_statement",
    all [identifier "identifier", mark ":", the .statement]⟩,
  ⟨.assertStatement, "assert_statement",
    simpleStatement "assert" (.seq (the .expression) (opt (.seq (mark ":") (the .expression))))⟩,
  ⟨.doStatement, "do_statement",
    all [word "do", (the .statement).withField .body, word "while", the .parenthesized, mark ";"]⟩,
  ⟨.breakStatement, "break_statement", simpleStatement "break" (opt (identifier "identifier"))⟩,
  ⟨.continueStatement, "continue_statement",
    simpleStatement "continue" (opt (identifier "identifier"))⟩,
  ⟨.returnStatement, "return_statement", simpleStatement "return" (opt (the .expression))⟩,
  ⟨.yieldStatement, "yield_statement", simpleStatement "yield" (the .expression)⟩,
  ⟨.synchronizedStatement, "synchronized_statement",
    all [word "synchronized", the .parenthesized, (the .block).withField .body]⟩,
  ⟨.throwStatement, "throw_statement", simpleStatement "throw" (the .expression)⟩,
  ⟨.tryStatement, "try_statement",
    all [word "try", (the .block).withField .body,
      oneOf [.plus (the .catchClause),
        .seq (many (the .catchClause)) (the .finallyClause)]]⟩,
  ⟨.resourcesStatement, "try_with_resources_statement",
    all [word "try", the .resourceList, (the .block).withField .body, many (the .catchClause),
      opt (the .finallyClause)]⟩,
  ⟨.resourceList, "resource_specification",
    all [mark "(", sepBy1 ";" (the .resource), opt (mark ";"), mark ")"]⟩,
  ⟨.resource, "resource",
    oneOf [all [opt (the .modifiers), the .plainType, the .variableName, mark "=",
        the .expression],
      identifier "identifier", the .fieldAccess]⟩,
  ⟨.catchClause, "catch_clause",
    all [word "catch", mark "(", the .catchParameter, mark ")", (the .block).withField .body]⟩,
  ⟨.catchParameter, "catch_formal_parameter",
    all [opt (the .modifiers), the .catchType, the .variableName]⟩,
  ⟨.catchType, "catch_type", sepBy1 "|" (the .plainType)⟩,
  ⟨.finallyClause, "finally_clause", all [word "finally", the .block]⟩,
  ⟨.ifStatement, "if_statement",
    all [word "if", the .parenthesized, the .statement,
      opt (.seq (word "else") (the .statement))]⟩,
  ⟨.whileStatement, "while_statement",
    all [word "while", the .parenthesized, (the .statement).withField .body]⟩,
  ⟨.forStatement, "for_statement",
    all [word "for", mark "(",
      oneOf [the .localVariable, .seq (sepBy "," (the .expression)) (mark ";")],
      opt (the .expression), mark ";", sepBy "," (the .expression), mark ")",
      (the .statement).withField .body]⟩,
  ⟨.forEachStatement, "enhanced_for_statement",
    all [word "for", mark "(", opt (the .modifiers), the .plainType, the .variableName, mark ":",
      the .expression, mark ")", (the .statement).withField .body]⟩,
  ⟨.localVariable, "local_variable_declaration",
    all [opt (the .modifiers), the .plainType, sepBy1 "," (the .variableDeclarator), mark ";"]⟩]

end JavaMetrics.Java.Grammar
