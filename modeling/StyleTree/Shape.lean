/-
Shapes: what a field value is required to be. A shape is data built from primitives, node kinds, unions and lists, and
is checked against a value by recursion on the shape.

A deferred shape stands for one of three fixed unions of kinds under a label of its own: its description is the label,
but a value it refuses is told the whole union. A union refuses with its own description whatever its alternatives
had to complain about; a list refuses with the position of its first bad element.
-/
import StyleTree.Value

namespace StyleTree

/-- the scalar types -/
inductive Primitive where
  | string
  | number
  | boolean
deriving DecidableEq, Repr

namespace Primitive

def name : Primitive → String
  | .string => "string"
  | .number => "number"
  | .boolean => "boolean"

/-- the value is a scalar of this type -/
def admits : Primitive → Value → Bool
  | .string, .string _ => true
  | .number, .number _ => true
  | .boolean, .bool _ => true
  | _, _ => false

end Primitive

/-- the unions of kinds that shapes refer to -/
inductive Family where
  /-- whatever can stand as a value -/
  | sassValue
  /-- whatever can stand in the body of a stylesheet or block -/
  | statement
  /-- whatever can stand as a parameter of a function or mixin -/
  | param
deriving DecidableEq, Repr

/-- the kinds of a family, in the order they are described -/
def Family.kinds : Family → List Kind
  | .sassValue =>
    [.identifier, .sassString, .sassNumber, .sassBoolean, .sassColor, .sassValue, .sassList, .sassMap,
     .callExpression, .sassFunctionCall, .logicalExpression, .restPattern]
  | .statement =>
    [.assignment, .atContent, .atReturn, .atRule, .comment, .declaration, .ifStatement, .newline, .rule,
     .sassFunction, .sassImport, .sassMixin, .sassMixinCall, .sassModule]
  | .param => [.identifier, .assignmentPattern, .restPattern]

/-- what a value can be required to be -/
inductive Shape where
  | any
  | primitive (p : Primitive)
  | kind (k : Kind)
  | node
  | oneOf (alternatives : List Shape)
  | listOf (item : Shape)
  | deferred (label : String) (family : Family)
deriving Repr

/-- the union of a family's kinds -/
def Family.shape (f : Family) : Shape := .oneOf (f.kinds.map .kind)

/-- why a shape refused a value: something else was expected, here or of an element -/
inductive Mismatch where
  | expected (description : String)
  | element (index : Nat) (inner : Mismatch)
deriving DecidableEq, Repr

namespace Mismatch

def text : Mismatch → String
  | .expected d => d
  | .element i m => "element " ++ Nat.repr i ++ " to be " ++ m.text

def message (m : Mismatch) : String := "expected " ++ m.text

end Mismatch

namespace Shape

def isUnion : Shape → Bool
  | .oneOf _ => true
  | _ => false

mutual

/-- what the shape accepts, in words -/
def describe : Shape → String
  | .any => "any value"
  | .primitive p => p.name
  | .kind k => k.name
  | .node => "node"
  | .oneOf alternatives => " | ".intercalate (describes alternatives)
  | .listOf item => if item.isUnion then "list of (" ++ item.describe ++ ")" else "list of " ++ item.describe
  | .deferred label _ => label

def describes : List Shape → List String
  | [] => []
  | s :: ss => s.describe :: describes ss

end

/-- the value is a node of one of these kinds -/
def isNodeOf (kinds : List Kind) : Value → Bool
  | .node k _ => kinds.contains k
  | _ => false

/-- accepts if the test holds; otherwise the description was expected -/
def require (test : Bool) (description : String) : Except Mismatch Unit :=
  if test then .ok () else .error (.expected description)

/-- runs a check on every element from position `i` on; the first complaint is told with its position -/
def checkItems (check : Value → Except Mismatch Unit) : Nat → List Value → Except Mismatch Unit
  | _, [] => .ok ()
  | i, v :: vs =>
    match check v with
    | .error m => .error (.element i m)
    | .ok () => checkItems check (i + 1) vs

mutual

/-- checks a value against a shape -/
def check : Shape → Value → Except Mismatch Unit
  | .any, _ => .ok ()
  | .primitive p, v => require (p.admits v) p.name
  | .kind k, v => require (isNodeOf [k] v) k.name
  | .node, v => require v.node?.isSome "node"
  | .oneOf alternatives, v => require (admitsAny alternatives v) (describe (.oneOf alternatives))
  | .listOf item, .list vs => checkItems (fun v => item.check v) 0 vs
  | .listOf item, _ => .error (.expected (describe (.listOf item)))
  | .deferred _ f, v => require (isNodeOf f.kinds v) f.shape.describe

/-- some alternative accepts the value -/
def admitsAny : List Shape → Value → Bool
  | [], _ => false
  | s :: ss, v => (s.check v).isOk || admitsAny ss v

end

/-- the shape accepts the value -/
def admits (s : Shape) (v : Value) : Bool := (s.check v).isOk

end Shape

end StyleTree
