/-
The printer: the text written so far, the unit of indentation, the block depth, and whether the cursor is at the start
of a line. Indentation is written lazily, before the first character of a line that has one, so empty lines carry
none. A token is written character by character; a line feed in it starts a new line like any other.

A printer is driven by operations, one step at a time. Two of them look at what was written: a space is dropped at
the start of a line or after another space, and a line is ended only if something stands on it.
-/

namespace StyleTree

/-- the state of a printer; `written` is the text so far, last character first -/
structure Printer where
  written : List Char
  indent : String
  depth : Nat
  atLineStart : Bool
deriving DecidableEq, Repr

namespace Printer

/-- a printer that has written nothing -/
def new (indent : String) : Printer := ⟨[], indent, 0, true⟩

/-- the text written -/
def text (p : Printer) : String := String.ofList p.written.reverse

/-- the indentation of the current depth -/
def indentation (p : Printer) : List Char := (List.replicate p.depth p.indent).flatMap String.toList

/-- ends the line, whatever stands on it -/
def newline (p : Printer) : Printer := { p with written := '\n' :: p.written, atLineStart := true }

/-- ends the line if something stands on it -/
def maybeNewline (p : Printer) : Printer := if p.atLineStart then p else p.newline

/-- writes one character, behind the indentation if it is the first of its line -/
def put (p : Printer) (c : Char) : Printer :=
  if c = '\n' then p.newline
  else if p.atLineStart then
    { p with written := c :: (p.indentation.reverse ++ p.written), atLineStart := false }
  else { p with written := c :: p.written }

/-- writes a text -/
def token (p : Printer) (s : String) : Printer := s.toList.foldl put p

/-- writes a space, but not at the start of a line or after another space -/
def space (p : Printer) : Printer :=
  if p.atLineStart || p.written.head? == some ' ' then p else { p with written := ' ' :: p.written }

/-- writes an opening mark, ends the line and goes one level deeper -/
def openBlock (p : Printer) (mark : String) : Printer :=
  let p := (p.token mark).newline
  { p with depth := p.depth + 1 }

/-- ends the line if need be, comes one level out if there is one, and writes a closing mark -/
def closeBlock (p : Printer) (mark : String) : Printer :=
  let p := p.maybeNewline
  token { p with depth := p.depth - 1 } mark

/-! ## Runs -/

/-- one thing a printer is told to do -/
inductive Op where
  | token (s : String)
  | space
  | newline
  | maybeNewline
  | openBlock (mark : String)
  | closeBlock (mark : String)
deriving DecidableEq, Repr

/-- carries out one operation -/
def step (p : Printer) : Op → Printer
  | .token s => p.token s
  | .space => p.space
  | .newline => p.newline
  | .maybeNewline => p.maybeNewline
  | .openBlock mark => p.openBlock mark
  | .closeBlock mark => p.closeBlock mark

/-- carries out operations in order -/
def run (p : Printer) (ops : List Op) : Printer := ops.foldl step p

end Printer

/-- an indentation of so many spaces -/
def spaces (width : Nat) : String := "".pushn ' ' width

end StyleTree
