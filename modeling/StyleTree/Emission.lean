/-
Writing trees. Every node of a tree gets its script from its kind, the kind of its parent and its fields, from the
leaves up; its routine is looked up in the table of node types by the name of its kind. What a child sees as its parent
depends only on the field it stands in: names that are written bare see none, everything else sees the node that has the
field, also through lists.
-/
import StyleTree.NodeType

namespace StyleTree

namespace Emission

/-- the fields whose identifiers are written bare, whatever the node they stand in -/
def bareFields : Kind → List String
  | .sassMapProperty => ["key"]
  | .callExpression => ["callee"]
  | .sassFunctionCall | .sassFunction | .sassMixin | .sassMixinCall => ["id"]
  | _ => []

/-- the parent that the nodes in a field are written under -/
def contextIn (kind : Kind) (field : String) : Option Kind :=
  if (bareFields kind).contains field then none else some kind

/-- a comment without text writes nothing -/
def isSilent (kind : Kind) (fields : List (String × Value)) : Bool :=
  kind == .comment &&
    match fields.lookup "value" with
    | none | some .null => true
    | some (.string s) => s.isEmpty
    | some _ => false

/-- the whole script of a node: the routine of its type between the marks for entering and leaving it -/
def scriptOf (parent : Option Kind) (s : Site) : Script :=
  match NodeType.find s.kind.name with
  | .error e => [.fail (.unknownKind e)]
  | .ok t => [.enter t.kind] ++ orFail (t.routine parent s) ++ [.leave]

/-- no kind is missing from the table -/
theorem scriptOf_eq (parent : Option Kind) (s : Site) :
    scriptOf parent s = [.enter s.kind] ++ orFail (routine s.kind parent s) ++ [.leave] := by
  rw [scriptOf, NodeType.find_name]
  rfl

mutual

/-- a value whose nodes are ready to be written under a parent -/
def piece (parent : Option Kind) : Value → Piece
  | .null => .null
  | .bool b => .bool b
  | .number x => .number x
  | .string s => .string s
  | .node kind fields => .node ⟨kind, isSilent kind fields, scriptOf parent ⟨kind, fieldPieces kind fields⟩⟩
  | .list items => .list (pieces parent items)

def pieces (parent : Option Kind) : List Value → List Piece
  | [] => []
  | v :: vs => piece parent v :: pieces parent vs

def fieldPieces (kind : Kind) : List (String × Value) → List (String × Piece)
  | [] => []
  | (name, v) :: rest => (name, piece (contextIn kind name) v) :: fieldPieces kind rest

end

end Emission

/-- the script that writes a node under a parent -/
def Node.script (n : Node) (parent : Option Kind) : Script :=
  Emission.scriptOf parent ⟨n.kind, Emission.fieldPieces n.kind n.fields⟩

end StyleTree
