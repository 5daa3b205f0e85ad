/-
From the source text of a tree to its stylesheet (`stylesheet`), and the command that does it for files. A source is
refused either because it describes no tree or because the tree cannot be written.

Running the command, a tree is read, decoded and rendered; checking stops there, building sends the text and one line
feed to the screen or to a file. The only effects are one read and, for a build to a file that has come this far, one
write, so the work is cut at these two points: `proceed` goes on from what was read, `conclude` from how writing went.
`run` does all of it on a file system held as data.

A failure says what was being done, to which path, and why. Where a cause has a cause of its own, that one is named
again behind it. Lines on what has been done are of two grades and change nothing else. All of them are shown if asked
for, and otherwise those that are usual. What is usual is up to the environment (`SCSSGEN_LOG`), so it is a parameter
here, and `defaultDetail` is what holds if the environment says nothing. Finer wishes, for some lines of a grade or for
a line on every node, are left out.
-/
import StyleTree.Command.Arguments
import StyleTree.Command.Disk
import StyleTree.Generator
import StyleTree.Json.Tree

namespace StyleTree

/-! ## Stylesheets -/

/-- why a source text gives no stylesheet -/
inductive Rejection where
  | source (e : Json.SourceError)
  | render (e : RenderError)
deriving Repr

/-- the stylesheet that a source text describes -/
def stylesheet (source : String) (indent : String) : Except Rejection String :=
  match Json.readTree source with
  | .error e => .error (.source e)
  | .ok n =>
    match render n none indent with
    | .error e => .error (.render e)
    | .ok text => .ok text

/-- the version of the program -/
def version : String := "0.1.0"

namespace Command

/-! ## Failures and progress -/

/-- why a job failed -/
inductive Failure where
  | reading (path : String) (fault : FileFault)
  | decoding (path : String) (e : Json.SourceError)
  | generating (path : String) (e : RenderError)
  | writing (path : String) (fault : FileFault)
deriving Repr

/-- an error of the source, and behind it the cause it stems from, if it has one of its own -/
def sourceChain (e : Json.SourceError) : String :=
  match e with
  | .tree ⟨_, .unknownKind cause⟩ => e.message ++ ": " ++ cause.message
  | .tree ⟨_, .schema cause⟩ => e.message ++ ": " ++ cause.message
  | _ => e.message

def Failure.message : Failure → String
  | .reading path fault => "reading " ++ path ++ ": " ++ fault.message
  | .decoding path e => "decoding " ++ path ++ ": " ++ sourceChain e
  | .generating path e => "generating " ++ path ++ ": " ++ e.message
  | .writing path fault => "writing " ++ path ++ ": " ++ fault.message

/-- what has been done so far -/
inductive Event where
  | read (path : String) (bytes : Nat)
  | generating (root : Kind)
  | generated (bytes : Nat)
  | built (path : String)
deriving DecidableEq, Repr

def Event.line : Event → String
  | .read path bytes => "DEBUG read tree path=" ++ path ++ " bytes=" ++ Nat.repr bytes
  | .generating root => "DEBUG generating scss root=" ++ Text.display root.name
  | .generated bytes => "DEBUG generated scss bytes=" ++ Nat.repr bytes
  | .built path => " INFO built output=" ++ path

/-- how much is shown of what has been done: nothing, the results, or every step -/
inductive Detail where
  | off
  | info
  | debug
deriving DecidableEq, Repr

def Detail.rank : Detail → Nat
  | .off => 0
  | .info => 1
  | .debug => 2

/-- what is usual unless the environment says otherwise -/
def defaultDetail : Detail := .info

/-- the least detail at which an event is shown -/
def Event.detail : Event → Detail
  | .built _ => .info
  | .read .. | .generating _ | .generated _ => .debug

/-- the lines of the events that are shown -/
def progress (shown : Detail) (events : List Event) : String :=
  String.join ((events.filter fun e => e.detail.rank ≤ shown.rank).map fun e => e.line ++ "\n")

/-- a wish for progress is for every step -/
def Invocation.shown (i : Invocation) (usual : Detail) : Detail := if i.verbose then .debug else usual

/-! ## Jobs -/

/-- how a run of the program ended -/
structure Report where
  code : Nat
  stdout : String
  stderr : String
  failure : Option Failure
deriving Repr

namespace Report

/-- success, with what goes to the screen and what goes to the log -/
def success (stdout stderr : String) : Report := ⟨0, stdout, stderr, none⟩

/-- failure of a job; nothing goes to the screen -/
def failed (log : String) (f : Failure) : Report := ⟨1, "", log ++ "Error: " ++ f.message ++ "\n", some f⟩

/-- refusal of a command line -/
def refused : Report := ⟨2, "", "", none⟩

end Report

/-- the stylesheet of a tree that was read, or why there is none, with what was done on the way -/
def compose (path : String) (width : Nat) : Except FileFault String → List Event × Except Failure String
  | .error fault => ([], .error (.reading path fault))
  | .ok source =>
    match Json.readTree source with
    | .error e => ([.read path source.utf8ByteSize], .error (.decoding path e))
    | .ok n =>
      match render n none (spaces width) with
      | .error e => ([.read path source.utf8ByteSize, .generating n.kind], .error (.generating path e))
      | .ok text =>
        ([.read path source.utf8ByteSize, .generating n.kind, .generated text.utf8ByteSize], .ok text)

/-- a file that is to be written, with what was done before -/
structure Draft where
  path : String
  text : String
  events : List Event
deriving DecidableEq, Repr

/-- a job is finished once its tree has been read, or has a file to write -/
inductive Stage where
  | finished (r : Report)
  | writing (d : Draft)
deriving Repr

/-- the width of the indentation that an action renders with -/
def Action.width : Action → Nat
  | .check => defaultWidth
  | .build width _ => width

/-- goes on with a tree from what was read at its path -/
def proceed (shown : Detail) (path : String) (action : Action) (input : Except FileFault String) : Stage :=
  match compose path action.width input with
  | (events, .error f) => .finished (.failed (progress shown events) f)
  | (events, .ok text) =>
    match action with
    | .check => .finished (.success "" (progress shown events ++ "OK: " ++ path ++ "\n"))
    | .build _ .screen => .finished (.success (text ++ "\n") (progress shown events))
    | .build _ (.file target) => .writing ⟨target, text ++ "\n", events⟩

/-- ends a build from how writing its file went -/
def conclude (shown : Detail) (d : Draft) : Except FileFault Unit → Report
  | .error fault => .failed (progress shown d.events) (.writing d.path fault)
  | .ok () => .success "" (progress shown (d.events ++ [.built d.path]) ++ "Built: " ++ d.path ++ "\n")

/-- the listing of node types -/
def typeListing : String := String.join (NodeType.table.map fun t => t.signature ++ "\n")

/-- the line that names the program and its version -/
def versionLine : String := "scssgen " ++ version ++ "\n"

/-- how the program is called -/
def usage : String :=
  "Render JSON-described stylesheet trees to SCSS\n\n" ++
  "Usage: scssgen [-v] build PATH [-o FILE | --stdout] [--indent WIDTH]\n" ++
  "       scssgen [-v] check PATH\n" ++
  "       scssgen [-v] types\n"

/-! ## Whole runs -/

/-- performs a job on a file system, where a detail is usual -/
def Invocation.run (i : Invocation) (usual : Detail) (d : Disk) : Report × Disk :=
  match i.job with
  | .types => (.success typeListing "", d)
  | .tree path action =>
    match proceed (i.shown usual) path action (d.read path) with
    | .finished r => (r, d)
    | .writing draft =>
      match d.write draft.path draft.text with
      | .error fault => (conclude (i.shown usual) draft (.error fault), d)
      | .ok d' => (conclude (i.shown usual) draft (.ok ()), d')

/-- runs a command line on a file system, where a detail is usual -/
def run (usual : Detail) (args : List String) (d : Disk) : Report × Disk :=
  match request? args with
  | none => (.refused, d)
  | some .version => (.success versionLine "", d)
  | some .help => (.success usage "", d)
  | some (.perform i) => i.run usual d

end Command

end StyleTree
