/-
The kinds of node a stylesheet tree is made of. The set is closed, its order is the order in which kinds are listed,
and each kind has a fixed name by which trees and messages refer to it.
-/

namespace StyleTree

/-- the kinds of node -/
inductive Kind where
  /-- the root of a stylesheet -/
  | styleSheet
  /-- line comments -/
  | comment
  /-- an explicit blank line -/
  | newline
  /-- a bare name, written with a dollar sign in variable positions -/
  | identifier
  /-- a single-quoted string -/
  | sassString
  /-- a number -/
  | sassNumber
  /-- one of the words `true` and `false` -/
  | sassBoolean
  /-- a colour, written as given -/
  | sassColor
  /-- a value of any shape, written as it is -/
  | sassValue
  /-- a parenthesised list -/
  | sassList
  /-- a parenthesised map -/
  | sassMap
  /-- one `key: value` entry of a map -/
  | sassMapProperty
  /-- an assignment to a variable -/
  | assignment
  /-- a parameter with a default -/
  | assignmentPattern
  /-- a rest parameter or argument -/
  | restPattern
  /-- a property with its value -/
  | declaration
  /-- selectors and a block -/
  | rule
  /-- an at-rule, with or without a block -/
  | atRule
  /-- statements in braces -/
  | blockStatement
  /-- a call -/
  | callExpression
  /-- a call of a stylesheet function -/
  | sassFunctionCall
  /-- a function definition -/
  | sassFunction
  /-- a mixin definition -/
  | sassMixin
  /-- an inclusion of a mixin -/
  | sassMixinCall
  /-- the place of a mixin's content block -/
  | atContent
  /-- the result of a function -/
  | atReturn
  /-- an `@if` with its `@else` branches -/
  | ifStatement
  /-- two operands with an operator between them -/
  | logicalExpression
  /-- an import of a path -/
  | sassImport
  /-- a use of a module, with or without a namespace -/
  | sassModule
deriving DecidableEq, Repr

namespace Kind

/-- every kind, in order -/
def all : List Kind :=
  [.styleSheet, .comment, .newline, .identifier, .sassString, .sassNumber, .sassBoolean, .sassColor, .sassValue,
   .sassList, .sassMap, .sassMapProperty, .assignment, .assignmentPattern, .restPattern, .declaration, .rule,
   .atRule, .blockStatement, .callExpression, .sassFunctionCall, .sassFunction, .sassMixin, .sassMixinCall,
   .atContent, .atReturn, .ifStatement, .logicalExpression, .sassImport, .sassModule]

/-- the name of a kind -/
def name : Kind → String
  | .styleSheet => "StyleSheet"
  | .comment => "Comment"
  | .newline => "Newline"
  | .identifier => "Identifier"
  | .sassString => "SassString"
  | .sassNumber => "SassNumber"
  | .sassBoolean => "SassBoolean"
  | .sassColor => "SassColor"
  | .sassValue => "SassValue"
  | .sassList => "SassList"
  | .sassMap => "SassMap"
  | .sassMapProperty => "SassMapProperty"
  | .assignment => "Assignment"
  | .assignmentPattern => "AssignmentPattern"
  | .restPattern => "RestPattern"
  | .declaration => "Declaration"
  | .rule => "Rule"
  | .atRule => "AtRule"
  | .blockStatement => "BlockStatement"
  | .callExpression => "CallExpression"
  | .sassFunctionCall => "SassFunctionCall"
  | .sassFunction => "SassFunction"
  | .sassMixin => "SassMixin"
  | .sassMixinCall => "SassMixinCall"
  | .atContent => "AtContent"
  | .atReturn => "AtReturn"
  | .ifStatement => "IfStatement"
  | .logicalExpression => "LogicalExpression"
  | .sassImport => "SassImport"
  | .sassModule => "SassModule"

/-- the kind of a name -/
def ofName? (name : String) : Option Kind := all.find? fun k => k.name == name

end Kind

/-- the error of asking for a kind by a name that none has -/
structure UnknownKind where
  name : String
deriving DecidableEq, Repr

/-- the text of the error -/
def UnknownKind.message (e : UnknownKind) : String := "unknown node type `" ++ e.name ++ "`"

/-- the kind of a name, or the error that there is none -/
def Kind.ofName (name : String) : Except UnknownKind Kind :=
  match ofName? name with
  | some k => .ok k
  | none => .error ⟨name⟩

end StyleTree
