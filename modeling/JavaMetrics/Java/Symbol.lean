/-!
# The parts of a program

The nonterminals of the grammar: every part of a Java program that has a rule of
its own. Some become nodes of the tree, others only group the parts they hold.
-/

namespace JavaMetrics.Java

/-- A part of a program that has a rule of its own. -/
inductive Symbol where
  | program
  | topLevel
  -- Names and annotations.
  | reserved
  | ident
  | name
  | scopedIdentifier
  | annotationAny
  | annotationMarker
  | annotationFull
  | annotationArguments
  | elementPair
  | elementValue
  | elementArray
  | modifiers
  -- Types.
  | type
  | plainType
  | simpleType
  | voidType
  | integralType
  | floatingType
  | booleanType
  | annotatedType
  | scopedType
  | genericType
  | typeArguments
  | wildcard
  | arrayType
  | dimensions
  | typeParameters
  | typeParameter
  | typeBound
  | typeList
  -- Expressions.
  | expression
  | assignment
  | lambda
  | inferredParameters
  | openEnded
  | conditional
  | ternary
  | disjunction
  | disjunctionNode
  | conjunction
  | conjunctionNode
  | bitOr
  | bitOrNode
  | bitXor
  | bitXorNode
  | bitAnd
  | bitAndNode
  | equality
  | equalityNode
  | relational
  | relationalNode
  | instanceofNode
  | shift
  | shiftNode
  | additive
  | additiveNode
  | multiplicative
  | multiplicativeNode
  | unary
  | unaryNode
  | operand
  | prefixUpdate
  | cast
  | postfixed
  | postfixUpdate
  | primary
  | literal
  | text
  | mixedText
  | interpolation
  | classLiteral
  | this
  | super
  | parenthesized
  | objectCreation
  | bareCreation
  | fieldAccess
  | arrayAccess
  | methodInvocation
  | methodReference
  | arrayCreation
  | sizedDimension
  | template
  | arguments
  -- Switches and patterns.
  | switchExpression
  | switchBlock
  | switchGroup
  | switchEnd
  | switchRule
  | switchLabel
  | pattern
  | typePattern
  | recordPattern
  | recordPatternBody
  | recordPatternPart
  | guard
  -- Statements.
  | statement
  | block
  | expressionStatement
  | labeledStatement
  | assertStatement
  | doStatement
  | breakStatement
  | continueStatement
  | returnStatement
  | yieldStatement
  | synchronizedStatement
  | throwStatement
  | tryStatement
  | resourcesStatement
  | resourceList
  | resource
  | catchClause
  | catchParameter
  | catchType
  | finallyClause
  | ifStatement
  | whileStatement
  | forStatement
  | forEachStatement
  | localVariable
  -- Declarations.
  | declaration
  | moduleDeclaration
  | moduleBody
  | requiresDirective
  | requiresModifier
  | exportsDirective
  | opensDirective
  | usesDirective
  | providesDirective
  | packageDeclaration
  | importDeclaration
  | classDeclaration
  | superclass
  | interfaces
  | permits
  | classBody
  | member
  | staticInitializer
  | constructorDeclaration
  | constructorBody
  | constructorCall
  | compactConstructor
  | fieldDeclaration
  | recordDeclaration
  | annotationTypeDeclaration
  | annotationTypeBody
  | annotationElement
  | interfaceDeclaration
  | extendedInterfaces
  | interfaceBody
  | constantDeclaration
  | enumDeclaration
  | enumBody
  | enumBodyDeclarations
  | enumConstant
  | methodDeclaration
  | formalParameters
  | formalParameter
  | spreadParameter
  | receiverParameter
  | throws
  | variableDeclarator
  | variableName
  | initializer
  | arrayInitializer
deriving DecidableEq, Repr

/-- A number for every part, below `Symbol.count`. -/
def Symbol.index (s : Symbol) : Nat :=
  s.ctorIdx

/-- The number of parts. -/
def Symbol.count : Nat :=
  Symbol.arrayInitializer.index + 1

end JavaMetrics.Java
