/-
The command line. Options come in a long form (`--output file`, `--output=file`) and some also in a short one
(`-o file`, `-ofile`, `-o=file`, several letters behind one dash); a value that starts with a dash has to be attached,
a lone dash apart. Everything behind `--` is an operand. Each option may be given once before the command word and
once behind it.

Arguments are read from left to right, the letters behind a dash one by one, and reading stops at the first thing that
settles the matter: a fault refuses the command line, a wish for help or the version is granted at once, and what
stands behind it is not looked at. Only what is missing or does not go together is found at the end.
-/
import StyleTree.Decimal
import StyleTree.Double

namespace StyleTree.Command

/-! ## Requests -/

/-- where a stylesheet goes -/
inductive Destination where
  | screen
  | file (path : String)
deriving DecidableEq, Repr

/-- what is done with a tree -/
inductive Action where
  | check
  | build (width : Nat) (destination : Destination)
deriving DecidableEq, Repr

/-- what is done at all -/
inductive Job where
  | types
  | tree (path : String) (action : Action)
deriving DecidableEq, Repr

/-- a job, and whether all of its progress is to be shown -/
structure Invocation where
  verbose : Bool
  job : Job
deriving DecidableEq, Repr

/-- what a command line asks for -/
inductive Request where
  | version
  | help
  | perform (i : Invocation)
deriving DecidableEq, Repr

/-- why reading stopped before the end -/
inductive Halt where
  | refused
  | granted (r : Request)
deriving DecidableEq, Repr

/-! ## Options -/

/-- the options without a value -/
inductive Switch where
  | verbose
  | version
  | help
  | stdout
deriving DecidableEq, Repr

def Switch.word : Switch → String
  | .verbose => "verbose"
  | .version => "version"
  | .help => "help"
  | .stdout => "stdout"

def Switch.letter? : Switch → Option Char
  | .verbose => some 'v'
  | .version => some 'V'
  | .help => some 'h'
  | .stdout => none

/-- the options with a value -/
inductive Setting where
  | output
  | indent
deriving DecidableEq, Repr

def Setting.word : Setting → String
  | .output => "output"
  | .indent => "indent"

def Setting.letter? : Setting → Option Char
  | .output => some 'o'
  | .indent => none

/-- what has been given so far at one level of the command line -/
structure Given where
  verbose : Bool
  screen : Bool
  output : Option String
  width : Option Nat
  path : Option String
deriving DecidableEq, Repr

/-- nothing given yet -/
def Given.none : Given := ⟨false, false, .none, .none, .none⟩

/-- a width: decimal digits, with or without a plus, in 64 bits -/
def width? (s : String) : Option Nat :=
  let ds := match s.toList with
    | '+' :: rest => rest
    | cs => cs
  let n := Decimal.ofFigures ds
  if !ds.isEmpty && ds.all Char.isDigit && n < exp2 64 then some n else none

namespace Given

/-- a switch is given; the same one a second time is refused -/
def turnOn (g : Given) : Switch → Except Halt Given
  | .verbose => if g.verbose then .error .refused else .ok { g with verbose := true }
  | .stdout => if g.screen then .error .refused else .ok { g with screen := true }
  | .version => .error (.granted .version)
  | .help => .error (.granted .help)

/-- a setting is given its value; a second one is refused, and so is a value that it cannot have -/
def assign (g : Given) (value : String) : Setting → Except Halt Given
  | .output => if g.output.isSome || value.isEmpty then .error .refused else .ok { g with output := some value }
  | .indent =>
    match g.width, width? value with
    | .none, some w => .ok { g with width := some w }
    | _, _ => .error .refused

/-- an operand is given, which can only be the one path -/
def operand (g : Given) (text : String) : Except Halt Given :=
  if g.path.isSome || text.isEmpty then .error .refused else .ok { g with path := some text }

end Given

/-! ## One level -/

/-- what is understood at one level -/
structure Grammar where
  switches : List Switch
  settings : List Setting
  takesPath : Bool
deriving DecidableEq, Repr

namespace Grammar

/-- the letters behind one dash, one by one; gives also the setting whose value has to be the next argument -/
def letters (g : Grammar) (given : Given) : List Char → Except Halt (Given × Option Setting)
  | [] => .ok (given, none)
  | c :: rest =>
    match g.switches.find? fun s => s.letter? == some c with
    | some s =>
      match given.turnOn s with
      | .error h => .error h
      | .ok given => g.letters given rest
    | none =>
      match g.settings.find? fun s => s.letter? == some c with
      | none => .error .refused
      | some s =>
        match rest with
        | [] => .ok (given, some s)
        | '=' :: value => (given.assign (String.ofList value) s).map fun given => (given, none)
        | value => (given.assign (String.ofList value) s).map fun given => (given, none)

/-- what stands behind two dashes: a word, or a word with an attached value -/
def long (g : Grammar) (given : Given) (cs : List Char) : Except Halt (Given × Option Setting) :=
  let word := String.ofList (cs.takeWhile (· ≠ '='))
  let switch? := g.switches.find? fun s => s.word == word
  let setting? := g.settings.find? fun s => s.word == word
  match switch?, setting?, cs.dropWhile (· ≠ '=') with
  | some s, _, [] => (given.turnOn s).map fun given => (given, none)
  | none, some s, [] => .ok (given, some s)
  | none, some s, _ :: value => (given.assign (String.ofList value) s).map fun given => (given, none)
  | _, _, _ => .error .refused

/-- an argument that has the form of an option -/
def option (g : Grammar) (given : Given) (arg : String) : Except Halt (Given × Option Setting) :=
  match arg.toList with
  | '-' :: '-' :: cs => g.long given cs
  | '-' :: cs => g.letters given cs
  | _ => .error .refused

/-- an operand, where one is understood -/
def operand (g : Grammar) (given : Given) (text : String) : Except Halt Given :=
  if g.takesPath then given.operand text else .error .refused

end Grammar

/-- the argument has the form of an option -/
def isOption (arg : String) : Bool :=
  match arg.toList with
  | '-' :: _ :: _ => true
  | _ => false

/-- the state of reading one level -/
structure Level where
  given : Given
  awaiting : Option Setting
  operandsOnly : Bool
deriving DecidableEq, Repr

/-- reads one argument behind the command word -/
def Grammar.step (g : Grammar) (l : Level) (arg : String) : Except Halt Level :=
  if l.operandsOnly then (g.operand l.given arg).map fun given => { l with given := given }
  else
    match l.awaiting with
    | some s =>
      if isOption arg then .error .refused
      else (l.given.assign arg s).map fun given => ⟨given, none, false⟩
    | none =>
      if arg = "--" then .ok { l with operandsOnly := true }
      else if isOption arg then (g.option l.given arg).map fun (given, awaiting) => ⟨given, awaiting, false⟩
      else (g.operand l.given arg).map fun given => { l with given := given }

/-- reads all arguments behind the command word; a setting may not be left without its value -/
def Grammar.read (g : Grammar) (args : List String) : Except Halt Given :=
  match args.foldlM g.step ⟨.none, none, false⟩ with
  | .error h => .error h
  | .ok l => if l.awaiting.isSome then .error .refused else .ok l.given

/-! ## Commands -/

/-- a path with the extension `.scss`: in place of the last name's extension if it has one, behind it if not -/
def withScssExtension (path : String) : String :=
  let cs := path.toList.reverse
  let name := cs.takeWhile (· ≠ '/')
  let stem := (name.dropWhile (· ≠ '.')).drop 1
  let kept := if stem.isEmpty then name else stem
  String.ofList ((cs.drop name.length).reverse ++ kept.reverse) ++ ".scss"

/-- the default width of an indentation -/
def defaultWidth : Nat := 2

/-- the command words -/
inductive Verb where
  | build
  | check
  | types
deriving DecidableEq, Repr

namespace Verb

def ofWord? (word : String) : Option Verb :=
  if word = "build" then some .build
  else if word = "check" then some .check
  else if word = "types" then some .types
  else none

/-- what is understood behind the command word -/
def grammar : Verb → Grammar
  | .build => ⟨[.verbose, .help, .stdout], [.output, .indent], true⟩
  | .check => ⟨[.verbose, .help], [], true⟩
  | .types => ⟨[.verbose, .help], [], false⟩

/-- the job that was asked for, unless something is missing or two things exclude each other -/
def job? (v : Verb) (given : Given) : Option Job :=
  match v, given.path with
  | .types, _ => some .types
  | .check, some path => some (.tree path .check)
  | .build, some path =>
    let width := given.width.getD defaultWidth
    match given.output, given.screen with
    | none, true => some (.tree path (.build width .screen))
    | none, false => some (.tree path (.build width (.file (withScssExtension path))))
    | some target, false => some (.tree path (.build width (.file target)))
    | some _, true => none
  | _, none => none

/-- the request of a command and the arguments behind its word -/
def request (v : Verb) (verbose : Bool) (args : List String) : Except Halt Request :=
  match v.grammar.read args with
  | .error h => .error h
  | .ok given =>
    match v.job? given with
    | none => .error .refused
    | some job => .ok (.perform ⟨verbose || given.verbose, job⟩)

end Verb

/-- what is understood before the command word -/
def topGrammar : Grammar := ⟨[.verbose, .version, .help], [], false⟩

/-- the help command: about the program or about one command -/
def helpRequest (args : List String) : Except Halt Request :=
  match args with
  | [] => .ok .help
  | [word] => if word = "help" ∨ (Verb.ofWord? word).isSome then .ok .help else .error .refused
  | _ => .error .refused

/-- the request of a command line of which something has been read -/
def requestFrom : Given → List String → Except Halt Request
  | _, [] => .error .refused
  | given, arg :: rest =>
    if isOption arg then
      match topGrammar.option given arg with
      | .error h => .error h
      | .ok (given, _) => requestFrom given rest
    else if arg = "help" then helpRequest rest
    else
      match Verb.ofWord? arg with
      | some v => v.request given.verbose rest
      | none => .error .refused

/-- the request of a command line, unless it is refused -/
def request? (args : List String) : Option Request :=
  match requestFrom .none args with
  | .ok r => some r
  | .error (.granted r) => some r
  | .error .refused => none

end StyleTree.Command
