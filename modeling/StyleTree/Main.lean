/-
The program: runs a command line on the file system. The reading, the writing and the printing stand here; what is
read, written and printed is decided elsewhere. The environment is not asked how much is usual.
-/
import StyleTree.Command.Run

namespace StyleTree.Command

/-- the fault behind an input or output error; the code of the system may come negated -/
def FileFault.ofError : IO.Error → FileFault
  | .noFileOrDirectory .. => .notFound
  | .inappropriateType _ code _ => if code = 21 ∨ 0 - code = 21 then .isDirectory else .notDirectory
  | e => .other (toString e)

/-- prints a report and gives its exit code -/
def Report.print (r : Report) : IO UInt32 := do
  (← IO.getStdout).putStr r.stdout
  (← IO.getStderr).putStr r.stderr
  pure (UInt32.ofNat r.code)

/-- an action's result, or the fault it ended with -/
def attempt {α : Type} (action : IO α) : IO (Except FileFault α) := do
  match ← action.toBaseIO with
  | .ok a => pure (.ok a)
  | .error e => pure (.error (FileFault.ofError e))

/-- performs a job on the file system -/
def Invocation.perform (i : Invocation) : IO Report := do
  match i.job with
  | .types => pure (.success typeListing "")
  | .tree path action =>
    let shown := i.shown defaultDetail
    match proceed shown path action (← attempt (IO.FS.readFile path)) with
    | .finished r => pure r
    | .writing draft => pure (conclude shown draft (← attempt (IO.FS.writeFile draft.path draft.text)))

end StyleTree.Command

open StyleTree.Command in
/-- the entry point -/
def main (args : List String) : IO UInt32 := do
  match request? args with
  | none =>
    (← IO.getStderr).putStr usage
    pure 2
  | some .version => (Report.success versionLine "").print
  | some .help => (Report.success usage "").print
  | some (.perform i) => (← i.perform).print
