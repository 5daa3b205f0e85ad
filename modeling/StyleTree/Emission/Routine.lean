/-
How each kind of node is written. A routine turns a node's fields into a script; the scripts of its children are
already there and are only put in place. Fields are read before anything is written, except that a declaration writes
its property before it looks at its value.

Bodies: children that write nothing are dropped, then trailing blank lines; the others stand one to a line, and a run
of assignments is set off from whatever else follows it by a blank line.
-/
import StyleTree.Emission.Piece
import StyleTree.Text

namespace StyleTree.Emission

open Instr

/-! ## Sequences -/

/-- scripts with commas between them -/
def separated (scripts : List Script) : Script := List.intercalate [token ",", space] scripts

/-- the children of a body that are written: no silent ones, no blank lines at the end -/
def visible (items : List Rendered) : List Rendered :=
  ((items.filter fun r => !r.silent).reverse.dropWhile fun r => r.kind == .newline).reverse

/-- what stands between two statements of a body -/
def gap (item next : Rendered) : Script :=
  if item.kind = .assignment ∧ next.kind ≠ .assignment ∧ next.kind ≠ .newline then [maybeNewline, newline]
  else [maybeNewline]

/-- statements with the gaps between them -/
def stacked : List Rendered → Script
  | [] => []
  | [item] => item.script
  | item :: next :: rest => item.script ++ gap item next ++ stacked (next :: rest)

/-- the statements of a body -/
def body (items : List Rendered) : Script := stacked (visible items)

/-- a body in braces -/
def braced (items : List Rendered) : Script := [openBlock "\x7b"] ++ body items ++ [closeBlock "\x7d"]

/-- instructions that are there only if a condition holds -/
def optionally (condition : Bool) (script : Script) : Script := if condition then script else []

/-- a parameter or argument list -/
def parenthesised (items : List Rendered) : Script :=
  [token "("] ++ separated (items.map Rendered.script) ++ [token ")"]

/-! ## Structure -/

def styleSheet (s : Site) : Except Fault Script := do
  let children ← s.children "children"
  pure (body children)

def blockStatement (s : Site) : Except Fault Script := do
  let statements ← s.children "body"
  pure (braced statements)

/-- one line of a comment -/
def commentLine (line : List Char) : Script :=
  if line.isEmpty then [token "//"] else [token "//", space, token (String.ofList line)]

def comment (s : Site) : Except Fault Script := do
  match ← s.text? "value" with
  | none => pure []
  | some text => pure (List.intercalate [newline] ((Text.lines text.toList).map commentLine))

def rule (s : Site) : Except Fault Script := do
  let selectors ← s.texts "selectors"
  let declarations ← s.children "declarations"
  pure ([token (", ".intercalate selectors), space] ++ braced declarations)

def atRule (s : Site) : Except Fault Script := do
  let name ← s.text "name"
  let media ← s.text? "media"
  let children ← s.children "children"
  let query := match media with
    | none => []
    | some m => optionally (!m.isEmpty) [space, token m]
  pure ([token "@", token name] ++ query ++ optionally (!children.isEmpty) ([space] ++ braced children))

/-- the value of a declaration: a text as it stands, or a call -/
def declared (s : Site) : Except Fault Script := do
  match ← s.value "value" with
  | .string raw => pure [token raw]
  | .node r =>
    if r.kind = .callExpression ∨ r.kind = .sassFunctionCall then pure r.script
    else s.refuse "value" (.notStringOrCall (Piece.describe (.node r)))
  | p => s.refuse "value" (.notStringOrCall p.describe)

/-- a script, or the failure to give one -/
def orFail : Except Fault Script → Script
  | .ok script => script
  | .error f => [.fail f]

def declaration (s : Site) : Except Fault Script := do
  let property ← s.text "property"
  pure ([token property, token ":", space] ++ orFail (declared s) ++
    optionally (s.flag "important") [space, token "!important"] ++ [token ";"])

/-! ## Variables and values -/

/-- the kinds under which an identifier names a variable -/
def variableContexts : List Kind :=
  [.assignment, .assignmentPattern, .atReturn, .callExpression, .ifStatement, .logicalExpression, .restPattern,
   .sassFunction, .sassFunctionCall, .sassList, .sassMapProperty, .sassMixin, .sassMixinCall]

/-- a child of this parent stands in a variable position -/
def isVariableContext : Option Kind → Bool
  | some k => variableContexts.contains k
  | none => false

def identifier (parent : Option Kind) (s : Site) : Except Fault Script := do
  let name ← s.text "name"
  pure (optionally (isVariableContext parent) [token "$"] ++ [token name])

def assignment (s : Site) : Except Fault Script := do
  let id ← s.child "id"
  let init ← s.child "init"
  pure (id ++ [token ":", space] ++ init ++ optionally (s.flag "default") [space, token "!default"] ++
    optionally (s.flag "global") [space, token "!global"] ++ [token ";"])

def assignmentPattern (s : Site) : Except Fault Script := do
  let left ← s.child "left"
  let right ← s.child "right"
  pure (left ++ [token ":", space] ++ right)

def restPattern (s : Site) : Except Fault Script := do
  let id ← s.child "id"
  pure (id ++ [token "..."])

def sassString (s : Site) : Except Fault Script := do
  let value ← s.text "value"
  pure [token (Text.quoted value)]

def boolText (b : Bool) : String := if b then "true" else "false"

def sassNumber (s : Site) : Except Fault Script := do
  match ← s.value "value" with
  | .number x => pure [token x.cssText]
  | _ => s.refuse "value" .notNumber

def sassBoolean (s : Site) : Except Fault Script := do
  match ← s.value "value" with
  | .bool b => pure [token (boolText b)]
  | _ => s.refuse "value" .notBoolean

def sassColor (s : Site) : Except Fault Script := do
  let value ← s.text "value"
  pure [token value]

mutual

/-- a piece as it stands; the items of a list have commas between them -/
def raw : Piece → Script
  | .null => []
  | .bool b => [token (boolText b)]
  | .number x => [token x.cssText]
  | .string t => [token t]
  | .node r => r.script
  | .list items => separated (raws items)

def raws : List Piece → List Script
  | [] => []
  | p :: ps => raw p :: raws ps

end

def sassValue (s : Site) : Except Fault Script := do
  let value ← s.value "value"
  pure (raw value)

def sassList (s : Site) : Except Fault Script := do
  let elements ← s.children "elements"
  pure (parenthesised elements)

def sassMap (s : Site) : Except Fault Script := do
  let properties ← s.children "properties"
  if properties.isEmpty then pure [token "()"]
  else
    pure ([openBlock "("] ++ List.intercalate [token ",", newline] (properties.map Rendered.script) ++
      [closeBlock ")"])

def sassMapProperty (s : Site) : Except Fault Script := do
  let key ← s.child "key"
  let value ← s.child "value"
  let mark := optionally (s.flag "quoted") [token "'"]
  pure (mark ++ key ++ mark ++ [token ":", space] ++ value)

def logicalExpression (s : Site) : Except Fault Script := do
  let left ← s.child "left"
  let operator ← s.text "operator"
  let right ← s.child "right"
  pure (left ++ [space, token operator, space] ++ right)

/-! ## Functions and mixins -/

/-- a call: the name, bare, and the arguments in parentheses, even if there are none -/
def call (name arguments : String) (s : Site) : Except Fault Script := do
  let callee ← s.child name
  let items ← s.children arguments
  pure (callee ++ parenthesised items)

def sassFunction (s : Site) : Except Fault Script := do
  let id ← s.child "id"
  let params ← s.children "params"
  let body ← s.child "body"
  pure ([token "@function", space] ++ id ++ parenthesised params ++ [space] ++ body)

def sassMixin (s : Site) : Except Fault Script := do
  let id ← s.child "id"
  let params ← s.children "params"
  let body ← s.child "body"
  pure ([token "@mixin", space] ++ id ++ optionally (!params.isEmpty) (parenthesised params) ++ [space] ++ body)

def sassMixinCall (s : Site) : Except Fault Script := do
  let id ← s.child "id"
  let params ← s.children "params"
  let content := match ← s.child? "body" with
    | none => []
    | some body => [space] ++ body
  pure ([token "@include", space] ++ id ++ optionally (!params.isEmpty) (parenthesised params) ++ content ++
    [token ";"])

def atReturn (s : Site) : Except Fault Script := do
  let argument ← s.child "argument"
  pure ([maybeNewline, token "@return", space] ++ argument ++ [token ";"])

/-! ## Control flow and modules -/

/-- an `@if`; as the alternative of another one it continues its `@else` -/
def ifStatement (parent : Option Kind) (s : Site) : Except Fault Script := do
  let test ← s.child "test"
  let consequent ← s.child "consequent"
  let otherwise := match ← s.child? "alternate" with
    | none => []
    | some alternate => [space, token "@else", space] ++ alternate
  let keyword := if parent = some .ifStatement then "if" else "@if"
  pure ([token keyword, space] ++ test ++ [space] ++ consequent ++ otherwise)

def sassImport (s : Site) : Except Fault Script := do
  let path ← s.text "path"
  pure [token "@import", space, token (Text.quoted path), token ";"]

def sassModule (s : Site) : Except Fault Script := do
  let path ← s.text "path"
  let suffix := match ← s.text? "namespace" with
    | none => []
    | some name => [space, token "as", space, token name]
  pure ([token "@use", space, token (Text.quoted path)] ++ suffix ++ [token ";"])

/-! ## Every kind -/

/-- a function from the parent's kind, if there is a parent, and a node's fields to what is written -/
abbrev Routine := Option Kind → Site → Except Fault Script

/-- how the nodes of a kind are written -/
def routine (kind : Kind) : Routine := fun parent s =>
  match kind with
  | .styleSheet => styleSheet s
  | .comment => comment s
  | .newline => .ok [newline]
  | .identifier => identifier parent s
  | .sassString => sassString s
  | .sassNumber => sassNumber s
  | .sassBoolean => sassBoolean s
  | .sassColor => sassColor s
  | .sassValue => sassValue s
  | .sassList => sassList s
  | .sassMap => sassMap s
  | .sassMapProperty => sassMapProperty s
  | .assignment => assignment s
  | .assignmentPattern => assignmentPattern s
  | .restPattern => restPattern s
  | .declaration => declaration s
  | .rule => rule s
  | .atRule => atRule s
  | .blockStatement => blockStatement s
  | .callExpression => call "callee" "arguments" s
  | .sassFunctionCall => call "id" "params" s
  | .sassFunction => sassFunction s
  | .sassMixin => sassMixin s
  | .sassMixinCall => sassMixinCall s
  | .atContent => .ok [maybeNewline, token "@content;"]
  | .atReturn => atReturn s
  | .ifStatement => ifStatement parent s
  | .logicalExpression => logicalExpression s
  | .sassImport => sassImport s
  | .sassModule => sassModule s

end StyleTree.Emission
