/-
The schema: which fields each kind of node has, in order, which of them may be omitted, and the shape of each. A node
is built from supplied fields by `build`, which goes through the schema in order and stops at the first field that is
missing or refused; only when all declared fields are in order does an undeclared one count. A field supplied as null
counts as omitted and is not stored.
-/
import StyleTree.Shape

namespace StyleTree

/-! ## Declared fields -/

/-- one declared field -/
structure FieldSpec where
  name : String
  optional : Bool
  shape : Shape
deriving Repr

namespace Schema

def required (name : String) (shape : Shape) : FieldSpec := ⟨name, false, shape⟩

def optional (name : String) (shape : Shape) : FieldSpec := ⟨name, true, shape⟩

def string : Shape := .primitive .string

def boolean : Shape := .primitive .boolean

def ident : Shape := .kind .identifier

def block : Shape := .kind .blockStatement

def value : Shape := Family.sassValue.shape

/-- a value, described by a label because values may nest -/
def nestedValue : Shape := .deferred "sass value" .sassValue

def values : Shape := .listOf nestedValue

def statements : Shape := .listOf (.deferred "statement" .statement)

def params : Shape := .listOf Family.param.shape

end Schema

open Schema in
/-- the declared fields of a kind, in order -/
def Kind.schema : Kind → List FieldSpec
  | .styleSheet => [required "children" statements]
  | .comment => [optional "value" string]
  | .newline => []
  | .identifier => [required "name" string]
  | .sassString => [required "value" string]
  | .sassNumber => [required "value" (.primitive .number)]
  | .sassBoolean => [required "value" boolean]
  | .sassColor => [required "value" string]
  | .sassValue => [required "value" .any]
  | .sassList => [required "elements" values]
  | .sassMap => [required "properties" (.listOf (.kind .sassMapProperty))]
  | .sassMapProperty => [required "key" ident, required "value" nestedValue, optional "quoted" boolean]
  | .assignment =>
    [required "id" ident, required "init" value, optional "default" boolean, optional "global" boolean]
  | .assignmentPattern => [required "left" ident, required "right" value]
  | .restPattern => [required "id" ident]
  | .declaration =>
    [required "property" string, required "value" (.oneOf [string, .node]), optional "important" boolean]
  | .rule => [required "selectors" (.listOf string), required "declarations" statements]
  | .atRule => [required "name" string, optional "media" string, optional "children" statements]
  | .blockStatement => [required "body" statements]
  | .callExpression => [required "callee" ident, optional "arguments" values]
  | .sassFunctionCall => [required "id" ident, optional "params" values]
  | .sassFunction => [required "id" ident, optional "params" params, required "body" block]
  | .sassMixin => [required "id" ident, optional "params" params, required "body" block]
  | .sassMixinCall => [required "id" ident, optional "params" values, optional "body" block]
  | .atContent => []
  | .atReturn => [required "argument" value]
  | .ifStatement =>
    [required "test" value, required "consequent" block,
     optional "alternate" (.oneOf [.kind .ifStatement, block])]
  | .logicalExpression => [required "left" nestedValue, required "operator" string, required "right" nestedValue]
  | .sassImport => [required "path" string]
  | .sassModule => [required "path" string, optional "namespace" string]

/-! ## Building -/

/-- what is wrong with a field -/
inductive FieldFault where
  | missing
  | mismatch (m : Mismatch)
  | undeclared
deriving DecidableEq, Repr

def FieldFault.message : FieldFault → String
  | .missing => "required field is missing"
  | .mismatch m => m.message
  | .undeclared => "unknown field"

/-- the field that kept a node from being built, with the value supplied for it -/
structure SchemaError where
  kind : Kind
  field : String
  got : Value
  fault : FieldFault
deriving Repr

def SchemaError.message (e : SchemaError) : String :=
  "invalid `" ++ e.kind.name ++ "." ++ e.field ++ "`: " ++ e.fault.message ++ " (got " ++ e.got.display ++ ")"

/-- what a supplied value contributes to the stored fields -/
def FieldSpec.stored (kind : Kind) (spec : FieldSpec) : Option Value → Except SchemaError (Option Value)
  | none | some .null => if spec.optional then .ok none else .error ⟨kind, spec.name, .null, .missing⟩
  | some v =>
    match spec.shape.check v with
    | .ok () => .ok (some v)
    | .error m => .error ⟨kind, spec.name, v, .mismatch m⟩

/-- the stored fields of a list of declared ones, up to the first fault -/
def store (kind : Kind) (supplied : Fields) : List FieldSpec → Except SchemaError (List (String × Value))
  | [] => .ok []
  | spec :: specs =>
    match spec.stored kind (supplied.get? spec.name) with
    | .error e => .error e
    | .ok none => store kind supplied specs
    | .ok (some v) =>
      match store kind supplied specs with
      | .error e => .error e
      | .ok rest => .ok ((spec.name, v) :: rest)

/-- the first supplied field that the kind does not declare -/
def Kind.undeclared? (kind : Kind) (supplied : Fields) : Option (String × Value) :=
  supplied.entries.find? fun (name, _) => !kind.schema.any fun spec => spec.name == name

/-- builds a node of a kind from supplied fields -/
def build (kind : Kind) (supplied : Fields) : Except SchemaError Node :=
  match store kind supplied kind.schema with
  | .error e => .error e
  | .ok fields =>
    match kind.undeclared? supplied with
    | some (name, v) => .error ⟨kind, name, v, .undeclared⟩
    | none => .ok ⟨kind, fields⟩

end StyleTree
