/-
The generator: a printer together with the path of nodes that are being written, outermost first. Running a script
drives both. A failure ends the run and leaves the generator as it stands: what was written stays, blocks stay open,
and the path still shows the nodes that were not left. `render` writes one tree with a generator of its own.
-/
import StyleTree.Emission

namespace StyleTree

/-- why writing stopped, and on which path -/
structure RenderError where
  fault : Fault
  path : List Kind
deriving DecidableEq, Repr

/-- the text of the error; the path is told with a field, and not with a kind that is unknown -/
def RenderError.message (e : RenderError) : String :=
  match e.fault with
  | .unknownKind cause => cause.message
  | .malformed kind field complaint =>
    "malformed `" ++ kind.name ++ "." ++ field ++ "` at " ++ " > ".intercalate (e.path.map Kind.name) ++ ": " ++
      complaint.message

/-- a printer and the path of nodes being written -/
structure Generator where
  printer : Printer
  path : List Kind
deriving DecidableEq, Repr

namespace Generator

def new (indent : String) : Generator := ⟨Printer.new indent, []⟩

/-- carries out a printer operation -/
def print (g : Generator) (op : Printer.Op) : Generator := { g with printer := g.printer.step op }

/-- runs a script up to its end or its first failure -/
def run : Script → Generator → Generator × Option RenderError
  | [], g => (g, none)
  | .print op :: rest, g => run rest (g.print op)
  | .enter kind :: rest, g => run rest { g with path := g.path ++ [kind] }
  | .leave :: rest, g => run rest { g with path := g.path.dropLast }
  | .fail fault :: _, g => (g, some ⟨fault, g.path⟩)

/-- writes a node as a child of a parent, if it has one -/
def write (g : Generator) (n : Node) (parent : Option Node) : Generator × Option RenderError :=
  run (n.script (parent.map Node.kind)) g

/-- the text written -/
def text (g : Generator) : String := g.printer.text

end Generator

/-- the indentation used unless another is asked for -/
def defaultIndent : String := spaces 2

/-- the text of a tree -/
def render (n : Node) (parent : Option Node) (indent : String) : Except RenderError String :=
  match (Generator.new indent).write n parent with
  | (g, none) => .ok g.text
  | (_, some e) => .error e

end StyleTree
