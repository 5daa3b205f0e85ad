/-
JSON values, and texts read as values. Objects keep the order in which members first appear, and each member name has
one value; numbers are binary64.

The tokens of a text drive a stack of open arrays and objects; a finished value goes into the innermost open one, or is
the value of the text if none is open. At most 127 may be open at once. A member name that comes again replaces the
value of its first appearance.
-/
import StyleTree.Assoc
import StyleTree.Json.Token

namespace StyleTree

/-- a JSON value -/
inductive Json where
  | null
  | bool (b : Bool)
  | number (x : Double)
  | string (s : String)
  | array (items : List Json)
  | object (members : List (String × Json))
deriving Repr

namespace Json

/-- an open array or object: what it holds so far, array items last first -/
inductive Frame where
  | array (items : List Json)
  | object (members : List (String × Json))
  | member (members : List (String × Json)) (name : String)
deriving Repr

/-- what may come next -/
inductive Expect where
  /-- a value -/
  | value
  /-- a value, or the end of an array just opened -/
  | firstItem
  /-- a member name, or the end of an object just opened -/
  | firstName
  /-- a member name -/
  | name
  /-- the colon after a member name -/
  | colon
  /-- a comma or the end of the innermost array or object -/
  | separator
  /-- nothing more -/
  | finish (value : Json)
deriving Repr

/-- the reader's state -/
structure Reader where
  stack : List Frame
  expect : Expect
deriving Repr

/-- the deepest nesting of arrays and objects -/
def maxDepth : Nat := 127

namespace Reader

/-- places a finished value -/
def place? (stack : List Frame) (v : Json) : Option Reader :=
  match stack with
  | [] => some ⟨[], .finish v⟩
  | .array items :: below => some ⟨.array (v :: items) :: below, .separator⟩
  | .member members name :: below => some ⟨.object (Assoc.put name v members) :: below, .separator⟩
  | .object _ :: _ => none

/-- opens an array or object, unless too many are open -/
def open? (stack : List Frame) (frame : Frame) (expect : Expect) : Option Reader :=
  if stack.length < maxDepth then some ⟨frame :: stack, expect⟩ else none

/-- reads the first token of a value -/
def value? (stack : List Frame) : Token → Option Reader
  | .null => place? stack .null
  | .bool b => place? stack (.bool b)
  | .number x => place? stack (.number x)
  | .string s => place? stack (.string s)
  | .openArray => open? stack (.array []) .firstItem
  | .openObject => open? stack (.object []) .firstName
  | _ => none

/-- reads a member name -/
def name? (stack : List Frame) : Token → Option Reader
  | .string s =>
    match stack with
    | .object members :: below => some ⟨.member members s :: below, .colon⟩
    | _ => none
  | _ => none

/-- closes the innermost array -/
def closeArray? : List Frame → Option Reader
  | .array items :: below => place? below (.array items.reverse)
  | _ => none

/-- closes the innermost object -/
def closeObject? : List Frame → Option Reader
  | .object members :: below => place? below (.object members)
  | _ => none

/-- reads what may stand after a finished item or member -/
def separator? (stack : List Frame) : Token → Option Reader
  | .comma =>
    match stack with
    | .array _ :: _ => some ⟨stack, .value⟩
    | .object _ :: _ => some ⟨stack, .name⟩
    | _ => none
  | .closeArray => closeArray? stack
  | .closeObject => closeObject? stack
  | _ => none

/-- reads one token -/
def step? (r : Reader) (t : Token) : Option Reader :=
  match r.expect with
  | .value => value? r.stack t
  | .firstItem => if t = .closeArray then closeArray? r.stack else value? r.stack t
  | .firstName => if t = .closeObject then closeObject? r.stack else name? r.stack t
  | .name => name? r.stack t
  | .colon => if t = .colon then some ⟨r.stack, .value⟩ else none
  | .separator => separator? r.stack t
  | .finish _ => none

/-- the value read, if the text has come to its end -/
def result? (r : Reader) : Option Json :=
  match r.expect with
  | .finish v => some v
  | _ => none

end Reader

/-- the value that a JSON text denotes -/
def parse? (text : String) : Option Json := do
  let tokens ← Token.scan? text.toList
  let r ← tokens.foldlM Reader.step? ⟨[], .value⟩
  r.result?

end Json

end StyleTree
