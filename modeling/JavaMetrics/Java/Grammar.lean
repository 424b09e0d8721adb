import JavaMetrics.Java.Grammar.Declarations
import JavaMetrics.Java.Grammar.Expressions
import JavaMetrics.Java.Grammar.Statements
import JavaMetrics.Java.Grammar.Types

/-!
# The grammar of Java

A program is a sequence of statements and methods, in any order; declarations of
packages, imports and types are statements. The grammar is wider than the
language: it says what can be read, not what makes sense. No part can be empty,
which the parser relies on.
-/

namespace JavaMetrics.Java

/-- All the rules. -/
def grammar : List Rule := [
  ⟨.program, "program", .plus (.single (.part .topLevel) none)⟩,
  ⟨.topLevel, none, Phrase.oneOf [Phrase.the .statement, Phrase.the .methodDeclaration]⟩] ++
  Grammar.typeRules ++ Grammar.expressionRules ++ Grammar.statementRules ++
  Grammar.declarationRules

/-- The grammar taken apart for the parser. -/
def network : Network :=
  Network.ofRules grammar

end JavaMetrics.Java
