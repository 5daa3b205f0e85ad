/-
Pieces: the fields of a node that is about to be written. A piece is a field value in which every node already comes
with its script, so a node is written from its kind and its pieces alone. The readers here give a field the form that
writing needs and refuse it otherwise.
-/
import StyleTree.Script
import StyleTree.Value

namespace StyleTree

/-- a node ready to be written: its kind, whether it writes nothing, and its script -/
structure Rendered where
  kind : Kind
  silent : Bool
  script : Script
deriving DecidableEq, Repr

/-- a field value whose nodes are ready to be written -/
inductive Piece where
  | null
  | bool (b : Bool)
  | number (x : Double)
  | string (s : String)
  | node (r : Rendered)
  | list (items : List Piece)
deriving Repr

/-- the shape of a piece, for messages -/
def Piece.describe : Piece → String
  | .null => "null"
  | .bool _ => "boolean"
  | .number _ => "number"
  | .string _ => "string"
  | .node r => r.kind.name ++ " node"
  | .list _ => "list"

/-- a node that is about to be written: its kind and its fields -/
structure Site where
  kind : Kind
  fields : List (String × Piece)
deriving Repr

namespace Site

def get? (s : Site) (field : String) : Option Piece := s.fields.lookup field

/-- refuses a field -/
def refuse {α : Type} (s : Site) (field : String) (c : Complaint) : Except Fault α :=
  .error (.malformed s.kind field c)

/-- the script of a child that may be omitted -/
def child? (s : Site) (field : String) : Except Fault (Option Script) :=
  match s.get? field with
  | none => .ok none
  | some (.node r) => .ok (some r.script)
  | some p => s.refuse field (.notNode p.describe)

/-- the script of a child -/
def child (s : Site) (field : String) : Except Fault Script :=
  match s.child? field with
  | .error f => .error f
  | .ok none => s.refuse field .missingNode
  | .ok (some script) => .ok script

/-- the nodes of a list, the first element being at position `i` -/
def nodes (s : Site) (field : String) (i : Nat) : List Piece → Except Fault (List Rendered)
  | [] => .ok []
  | .node r :: rest =>
    match s.nodes field (i + 1) rest with
    | .error f => .error f
    | .ok rs => .ok (r :: rs)
  | p :: _ => s.refuse field (.itemNotNode i p.describe)

/-- the children of a list field; an omitted list is empty -/
def children (s : Site) (field : String) : Except Fault (List Rendered) :=
  match s.get? field with
  | none => .ok []
  | some (.list items) => s.nodes field 0 items
  | some p => s.refuse field (.notList p.describe)

/-- a text that may be omitted -/
def text? (s : Site) (field : String) : Except Fault (Option String) :=
  match s.get? field with
  | none => .ok none
  | some (.string t) => .ok (some t)
  | some p => s.refuse field (.notString p.describe)

/-- a text -/
def text (s : Site) (field : String) : Except Fault String :=
  match s.text? field with
  | .error f => .error f
  | .ok none => s.refuse field .missingString
  | .ok (some t) => .ok t

/-- the texts of a list -/
def strings (s : Site) (field : String) : List Piece → Except Fault (List String)
  | [] => .ok []
  | .string t :: rest =>
    match s.strings field rest with
    | .error f => .error f
    | .ok ts => .ok (t :: ts)
  | p :: _ => s.refuse field (.notString p.describe)

/-- the texts of a list field; anything but a list has none -/
def texts (s : Site) (field : String) : Except Fault (List String) :=
  match s.get? field with
  | some (.list items) => s.strings field items
  | _ => .ok []

/-- a field of any shape -/
def value (s : Site) (field : String) : Except Fault Piece :=
  match s.get? field with
  | some p => .ok p
  | none => s.refuse field .missingValue

/-- a flag; anything but `true` leaves it off -/
def flag (s : Site) (field : String) : Bool :=
  match s.get? field with
  | some (.bool b) => b
  | _ => false

end Site

end StyleTree
