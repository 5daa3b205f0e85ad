/-
Scripts: what writing a node amounts to, as data. A script is a list of instructions: operations for the printer, marks
for entering and leaving a node, and failure. A script is run from the front; a failure ends the run.
-/
import StyleTree.Kind
import StyleTree.Printer

namespace StyleTree

/-- what a node's field turned out to be when it was to be written -/
inductive Complaint where
  | missingNode
  | notNode (found : String)
  | notList (found : String)
  | itemNotNode (index : Nat) (found : String)
  | missingString
  | notString (found : String)
  | missingValue
  | notNumber
  | notBoolean
  | notStringOrCall (found : String)
deriving DecidableEq, Repr

def Complaint.message : Complaint → String
  | .missingNode => "missing child node"
  | .notNode found => "expected a node, found " ++ found
  | .notList found => "expected a list, found " ++ found
  | .itemNotNode i found => "element " ++ Nat.repr i ++ ": expected a node, found " ++ found
  | .missingString => "missing string"
  | .notString found => "expected a string, found " ++ found
  | .missingValue => "missing value"
  | .notNumber => "expected a number"
  | .notBoolean => "expected a boolean"
  | .notStringOrCall found => "expected a string or call expression, found " ++ found

/-- what kept a node from being written: its kind is not in the table of node types, or one of its fields will not do -/
inductive Fault where
  | unknownKind (e : UnknownKind)
  | malformed (kind : Kind) (field : String) (complaint : Complaint)
deriving DecidableEq, Repr

/-- one instruction -/
inductive Instr where
  | print (op : Printer.Op)
  | enter (kind : Kind)
  | leave
  | fail (fault : Fault)
deriving DecidableEq, Repr

namespace Instr

def token (s : String) : Instr := .print (.token s)

def space : Instr := .print .space

def newline : Instr := .print .newline

def maybeNewline : Instr := .print .maybeNewline

def openBlock (mark : String) : Instr := .print (.openBlock mark)

def closeBlock (mark : String) : Instr := .print (.closeBlock mark)

end Instr

/-- instructions, first to last -/
abbrev Script := List Instr

end StyleTree
