/-
Trees of values. A value is a scalar, a list of values or a node; a node has a kind and named fields in a fixed order,
and does not know its parent. Values are finite trees, and every function on them here follows their structure.

Equality (`same`) compares numbers as numbers and fields by name, whatever their order. `display` and `describe` are
the two texts a value has in messages: in full, and by its shape alone.
-/
import StyleTree.Assoc
import StyleTree.Double.Text
import StyleTree.Kind
import StyleTree.Text

namespace StyleTree

/-- a field value: absent, a scalar, a child node, or a list -/
inductive Value where
  | null
  | bool (b : Bool)
  | number (x : Double)
  | string (s : String)
  | node (kind : Kind) (fields : List (String × Value))
  | list (items : List Value)
deriving Repr

/-- a node: its kind and its stored fields, in schema order -/
structure Node where
  kind : Kind
  fields : List (String × Value)
deriving Repr

namespace Node

/-- a node as a value -/
def toValue (n : Node) : Value := .node n.kind n.fields

/-- a stored field; an omitted one has no value -/
def get? (n : Node) (field : String) : Option Value := n.fields.lookup field

end Node

namespace Value

/-! ## Views -/

def isNull : Value → Bool
  | .null => true
  | _ => false

def bool? : Value → Option Bool
  | .bool b => some b
  | _ => none

def number? : Value → Option Double
  | .number x => some x
  | _ => none

def string? : Value → Option String
  | .string s => some s
  | _ => none

def node? : Value → Option Node
  | .node k fs => some ⟨k, fs⟩
  | _ => none

def list? : Value → Option (List Value)
  | .list items => some items
  | _ => none

/-! ## Texts -/

/-- the shape of a value, for messages -/
def describe : Value → String
  | .null => "null"
  | .bool _ => "boolean"
  | .number _ => "number"
  | .string _ => "string"
  | .node k _ => k.name ++ " node"
  | .list _ => "list"

mutual

/-- a value in full, for messages; a node shows its kind only -/
def display : Value → String
  | .null => "null"
  | .bool b => if b then "true" else "false"
  | .number x => x.display
  | .string s => Text.display s
  | .node k _ => "<" ++ k.name ++ ">"
  | .list items => "[" ++ ", ".intercalate (displays items) ++ "]"

/-- each value of a list in full -/
def displays : List Value → List String
  | [] => []
  | v :: vs => v.display :: displays vs

end

/-! ## Equality -/

mutual

/-- equality of values: numbers as numbers, lists element by element, fields by name -/
def same : Value → Value → Bool
  | .null, .null => true
  | .bool a, .bool b => a == b
  | .number x, .number y => x.same y
  | .string s, .string t => s == t
  | .node k fs, .node l gs => k == l && fs.length == gs.length && sameFields fs gs
  | .list vs, .list ws => sameItems vs ws
  | _, _ => false

/-- every field on the left has an equal one of its name on the right -/
def sameFields : List (String × Value) → List (String × Value) → Bool
  | [], _ => true
  | (name, v) :: rest, gs =>
    (match gs.lookup name with
      | some w => v.same w
      | none => false) && sameFields rest gs

/-- equal length and equal elements -/
def sameItems : List Value → List Value → Bool
  | [], [] => true
  | v :: vs, w :: ws => v.same w && sameItems vs ws
  | _, _ => false

end

end Value

/-- equality of nodes -/
def Node.same (a b : Node) : Bool := a.toValue.same b.toValue

/-! ## Supplied fields -/

/-- named values supplied for a node: ordered, each name once -/
structure Fields where
  entries : List (String × Value)
  nodup : (Assoc.names entries).Nodup

namespace Fields

def empty : Fields := ⟨[], by simp [Assoc.names]⟩

/-- sets a field; a name already supplied keeps its place -/
def insert (fs : Fields) (name : String) (value : Value) : Fields :=
  ⟨Assoc.put name value fs.entries, Assoc.nodup_put fs.nodup⟩

/-- the fields supplied by a list of pairs, taken in order -/
def ofList (l : List (String × Value)) : Fields := l.foldl (fun fs (name, v) => fs.insert name v) empty

def get? (fs : Fields) (name : String) : Option Value := fs.entries.lookup name

def size (fs : Fields) : Nat := fs.entries.length

def isEmpty (fs : Fields) : Bool := fs.entries.isEmpty

/-- equality of field sets, by name -/
def same (fs gs : Fields) : Bool := fs.size == gs.size && Value.sameFields fs.entries gs.entries

end Fields

end StyleTree
