/-
Trees described in JSON. A node is an object with a member `kind` that names its kind; every other member is a field.
Arrays are lists and scalars stand for themselves. Decoding builds every node through the schema, so a tree read from
JSON is held to the same rules as any other. Encoding is the other direction: the kind first, then the stored fields.

An error says where it is by the steps from the root. A missing or unknown kind is found on the way into an object,
before its members are looked at; a schema error is found on the way out, after all of them have been decoded.
-/
import StyleTree.Json.Reader
import StyleTree.Schema

namespace StyleTree.Json

/-! ## Places and errors -/

/-- a step into a JSON value -/
inductive Step where
  | member (name : String)
  | index (i : Nat)
deriving DecidableEq, Repr

def Step.text : Step → String
  | .member name => "." ++ name
  | .index i => "[" ++ Nat.repr i ++ "]"

/-- the text of a path from the root -/
def pathText (path : List Step) : String := "$" ++ String.join (path.map Step.text)

/-- what is wrong at a place -/
inductive TreeFault where
  | rootNotNode
  | noKind
  | unknownKind (e : UnknownKind)
  | schema (e : SchemaError)
deriving Repr

def TreeFault.message : TreeFault → String
  | .rootNotNode => "the root must be a node object with a \"kind\" member"
  | .noKind => "node object has no string \"kind\" member"
  | .unknownKind e => e.message
  | .schema e => e.message

/-- a fault and its place -/
structure TreeError where
  path : List Step
  fault : TreeFault
deriving Repr

def TreeError.message (e : TreeError) : String := "at " ++ pathText e.path ++ ": " ++ e.fault.message

/-- moves the errors of a part to the whole -/
def under {α : Type} (step : Step) : Except TreeError α → Except TreeError α
  | .ok a => .ok a
  | .error e => .error ⟨step :: e.path, e.fault⟩

/-! ## Decoding -/

/-- a node from the members of its object; `decoded` are the fields, needed only once the kind is known -/
def assemble (members : List (String × Json)) (decoded : Except TreeError (List (String × Value))) :
    Except TreeError Node :=
  match members.lookup "kind" with
  | some (.string name) =>
    match Kind.ofName name with
    | .error e => .error ⟨[], .unknownKind e⟩
    | .ok kind =>
      match decoded with
      | .error e => .error e
      | .ok fields =>
        match build kind (Fields.ofList fields) with
        | .error e => .error ⟨[], .schema e⟩
        | .ok node => .ok node
  | _ => .error ⟨[], .noKind⟩

mutual

/-- the value that a JSON value describes -/
def decodeValue : Json → Except TreeError Value
  | .null => .ok .null
  | .bool b => .ok (.bool b)
  | .number x => .ok (.number x)
  | .string s => .ok (.string s)
  | .array items =>
    match decodeItems 0 items with
    | .ok vs => .ok (.list vs)
    | .error e => .error e
  | .object members =>
    match assemble members (decodeMembers members) with
    | .ok n => .ok n.toValue
    | .error e => .error e

/-- the items of an array, from position `i` on -/
def decodeItems (i : Nat) : List Json → Except TreeError (List Value)
  | [] => .ok []
  | j :: js =>
    match under (.index i) (decodeValue j) with
    | .error e => .error e
    | .ok v =>
      match decodeItems (i + 1) js with
      | .error e => .error e
      | .ok vs => .ok (v :: vs)

/-- the members of an object other than its kind -/
def decodeMembers : List (String × Json) → Except TreeError (List (String × Value))
  | [] => .ok []
  | (name, j) :: rest =>
    if name = "kind" then decodeMembers rest
    else
      match under (.member name) (decodeValue j) with
      | .error e => .error e
      | .ok v =>
        match decodeMembers rest with
        | .error e => .error e
        | .ok fields => .ok ((name, v) :: fields)

end

/-- the tree that a JSON value describes; its root has to be a node -/
def decode : Json → Except TreeError Node
  | .object members => assemble members (decodeMembers members)
  | _ => .error ⟨[], .rootNotNode⟩

/-! ## Encoding -/

mutual

/-- a value in JSON -/
def encodeValue : Value → Json
  | .null => .null
  | .bool b => .bool b
  | .number x => .number x
  | .string s => .string s
  | .list items => .array (encodeItems items)
  | .node kind fields => .object (("kind", .string kind.name) :: encodeFields fields)

def encodeItems : List Value → List Json
  | [] => []
  | v :: vs => encodeValue v :: encodeItems vs

def encodeFields : List (String × Value) → List (String × Json)
  | [] => []
  | (name, v) :: rest => (name, encodeValue v) :: encodeFields rest

end

/-- a node in JSON -/
def encode (n : Node) : Json := encodeValue n.toValue

/-! ## Source texts -/

/-- why a source text gives no tree -/
inductive SourceError where
  /-- the text is not JSON; where it stops being JSON, and for what reason, is not kept -/
  | malformed
  /-- the JSON value describes no tree -/
  | tree (e : TreeError)
deriving Repr

/-- the text of the error; a text that is not JSON gets the bare statement, without the reader's account of it -/
def SourceError.message : SourceError → String
  | .malformed => "invalid JSON"
  | .tree e => e.message

/-- the tree that a source text describes -/
def readTree (text : String) : Except SourceError Node :=
  match parse? text with
  | none => .error .malformed
  | some j =>
    match decode j with
    | .ok n => .ok n
    | .error e => .error (.tree e)

end StyleTree.Json
