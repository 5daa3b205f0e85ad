/-
A file system as data: what stands at each place, a place being the names of the directories on the way from the root,
and a working directory. A path is followed name by name, from the root if it starts with a slash and from the working
directory if not; it may pass only through directories. Besides files and directories there are sinks, which are empty
to read and swallow what is written.
-/
import StyleTree.Text

namespace StyleTree.Command

/-- why a file could not be read or written -/
inductive FileFault where
  | notFound
  | notDirectory
  | isDirectory
  | nameTooLong
  | other (text : String)
deriving DecidableEq, Repr

def FileFault.message : FileFault → String
  | .notFound => "No such file or directory (os error 2)"
  | .notDirectory => "Not a directory (os error 20)"
  | .isDirectory => "Is a directory (os error 21)"
  | .nameTooLong => "File name too long (os error 36)"
  | .other text => text

/-- the names on the way from the root, outermost first -/
abbrev Place := List String

/-- what stands at a place -/
inductive Entry where
  | file (text : String)
  | directory
  | sink
deriving DecidableEq, Repr

/-- a file system and the working directory in it -/
structure Disk where
  entries : List (Place × Entry)
  here : Place
deriving DecidableEq, Repr

/-! ## Paths -/

/-- the longest name, in bytes -/
def maxName : Nat := 255

/-- the longest path, in bytes -/
def maxPath : Nat := 4095

/-- cuts a text at its slashes -/
def cutAtSlashes : List Char → List (List Char)
  | [] => [[]]
  | '/' :: rest => [] :: cutAtSlashes rest
  | c :: rest => Text.consLine c (cutAtSlashes rest)

/-- the names of a path -/
def namesOf (path : String) : List String := (cutAtSlashes path.toList).map String.ofList

/-- a name that can be a file's, and not a way of saying this directory or the one above -/
def isFileName (name : String) : Bool := !(name = "" || name = "." || name = "..")

/-- what a path says of its last name -/
structure Route where
  /-- the names up to the last one -/
  directories : List String
  /-- the last name, if it can be a file's -/
  file? : Option String
deriving DecidableEq, Repr

/-- splits the last name off a path -/
def Route.ofPath (path : String) : Route :=
  let names := namesOf path
  let last := names.getLastD ""
  if isFileName last then ⟨names.dropLast, some last⟩ else ⟨names, none⟩

/-- the route to the directory that holds what a path with slashes at its end names -/
def Route.toParent (path : String) : List String :=
  ((namesOf path).reverse.dropWhile (· = "")).reverse.dropLast

namespace Disk

/-- what stands at a place; the root is always there -/
def entry? (d : Disk) (place : Place) : Option Entry :=
  if place.isEmpty then some .directory else d.entries.lookup place

/-- goes from one directory to the next -/
def enter (d : Disk) (place : Place) (name : String) : Except FileFault Place :=
  if name = "" ∨ name = "." then .ok place
  else if name = ".." then .ok place.dropLast
  else if maxName < name.utf8ByteSize then .error .nameTooLong
  else
    match d.entry? (place ++ [name]) with
    | some .directory => .ok (place ++ [name])
    | some _ => .error .notDirectory
    | none => .error .notFound

/-- where a path starts -/
def start (d : Disk) (path : String) : Place := if path.toList.head? = some '/' then [] else d.here

/-- follows the directories of a path -/
def walk (d : Disk) (path : String) (names : List String) : Except FileFault Place :=
  if path.isEmpty then .error .notFound
  else if maxPath < path.utf8ByteSize then .error .nameTooLong
  else names.foldlM d.enter (d.start path)

/-- the place of a file in a directory -/
def placeIn (directory : Place) (name : String) : Except FileFault Place :=
  if maxName < name.utf8ByteSize then .error .nameTooLong else .ok (directory ++ [name])

/-! ## Reading and writing -/

/-- reads a file -/
def read (d : Disk) (path : String) : Except FileFault String := do
  let route := Route.ofPath path
  let directory ← d.walk path route.directories
  match route.file? with
  | none => throw .isDirectory
  | some name =>
    match d.entry? (← placeIn directory name) with
    | some (.file text) => pure text
    | some .sink => pure ""
    | some .directory => throw .isDirectory
    | none => throw .notFound

/-- sets what stands at a place, and leaves every other place as it is -/
def put (d : Disk) (place : Place) (entry : Entry) : Disk :=
  if (d.entries.lookup place).isSome then
    { d with entries := d.entries.map fun (p, e) => if p = place then (p, entry) else (p, e) }
  else { d with entries := d.entries ++ [(place, entry)] }

/-- the path ends in a slash -/
def endsInSlash (path : String) : Bool := path.toList.getLast? == some '/'

/-- writes a file as a whole; its directory has to be there, and a path that ends in a slash means a directory -/
def write (d : Disk) (path : String) (text : String) : Except FileFault Disk := do
  if endsInSlash path then
    let _ ← d.walk path (Route.toParent path)
    throw .isDirectory
  else
    let route := Route.ofPath path
    let directory ← d.walk path route.directories
    match route.file? with
    | none => throw .isDirectory
    | some name =>
      let place ← placeIn directory name
      match d.entry? place with
      | some .directory => throw .isDirectory
      | some .sink => pure d
      | _ => pure (d.put place (.file text))

end Disk

end StyleTree.Command
