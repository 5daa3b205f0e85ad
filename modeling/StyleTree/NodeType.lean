/-
The table of node types: for each kind its name, its declared fields and its routine, found by name. A node type can
build nodes and tell its own, and has two texts: its signature and a longer summary.
-/
import StyleTree.Emission.Routine
import StyleTree.Schema

namespace StyleTree

/-- a kind with its name, its declared fields and the routine that writes its nodes -/
structure NodeType where
  name : String
  kind : Kind
  fields : List FieldSpec
  routine : Emission.Routine

namespace NodeType

def ofKind (kind : Kind) : NodeType := ⟨kind.name, kind, kind.schema, Emission.routine kind⟩

/-- the node types, in the order of their kinds -/
def table : List NodeType := Kind.all.map ofKind

/-- the node type of a name -/
def find (name : String) : Except UnknownKind NodeType :=
  match table.find? fun t => t.name == name with
  | some t => .ok t
  | none => .error ⟨name⟩

/-- every kind is in the table, under its own name -/
theorem find_name (k : Kind) : find k.name = .ok (ofKind k) := by
  cases k <;> rfl

/-- builds a node of this type -/
def build (t : NodeType) (supplied : Fields) : Except SchemaError Node := StyleTree.build t.kind supplied

/-- the node is of this type -/
def isTypeOf (t : NodeType) (n : Node) : Bool := n.kind == t.kind

/-- the type as `Name(field, field, omissible?)` -/
def signature (t : NodeType) : String :=
  t.name ++ "(" ++ ", ".intercalate (t.fields.map fun f => if f.optional then f.name ++ "?" else f.name) ++ ")"

/-- the type with the names of its fields, for diagnostics -/
def summary (t : NodeType) : String :=
  "TypeDefinition \x7b name: " ++ Text.display t.name ++ ", fields: [" ++
    ", ".intercalate (t.fields.map fun f => Text.display f.name) ++ "], .. \x7d"

end NodeType

/-! ## Constructors -/

/-- a function from supplied fields to a node -/
abbrev Constructor := Fields → Except SchemaError Node

/-- the constructors, by the names of their kinds -/
def constructors : List (String × Constructor) := Kind.all.map fun k => (k.name, build k)

/-- the constructor of a name -/
def constructor (name : String) : Except UnknownKind Constructor :=
  match constructors.lookup name with
  | some c => .ok c
  | none => .error ⟨name⟩

end StyleTree
