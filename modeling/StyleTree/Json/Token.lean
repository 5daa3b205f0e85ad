/-
The tokens of a JSON text. The text is read one character at a time by a small machine: between tokens, inside a
string, after a backslash, inside the hexadecimal digits of an escape, or inside a number or a word. A character that
cannot belong to a number or word ends it and is then read as a character between tokens.

Strings may hold any character from the space on; escapes for the upper half of a surrogate pair must be followed at
once by one for a lower half, and a lower half cannot stand alone.
-/
import StyleTree.Json.Number

namespace StyleTree.Json

/-- a token of a JSON text -/
inductive Token where
  | openObject
  | closeObject
  | openArray
  | closeArray
  | colon
  | comma
  | null
  | bool (b : Bool)
  | number (x : Double)
  | string (s : String)
deriving DecidableEq, Repr

namespace Token

/-- what the machine is in the middle of; characters of a string, number or word are kept last first -/
inductive Mode where
  | between
  | inString (read : List Char)
  | escape (read : List Char)
  | unicode (read : List Char) (upper : Option Nat) (digits : Nat) (code : Nat)
  | lowerEscape (read : List Char) (upper : Nat)
  | lowerMark (read : List Char) (upper : Nat)
  | inNumber (read : List Char)
  | inWord (read : List Char)
deriving DecidableEq, Repr

/-- the machine's state: the tokens read, last first, and what it is in the middle of -/
structure Scan where
  tokens : List Token
  mode : Mode
deriving DecidableEq, Repr

def isBlank (c : Char) : Bool := c = ' ' || c = '\t' || c = '\n' || c = '\r'

/-- a character that can stand in a number -/
def isNumeric (c : Char) : Bool := c.isDigit || c = '-' || c = '+' || c = '.' || c = 'e' || c = 'E'

/-- the token that a word stands for -/
def ofWord? (w : List Char) : Option Token :=
  if w = ['n', 'u', 'l', 'l'] then some .null
  else if w = ['t', 'r', 'u', 'e'] then some (.bool true)
  else if w = ['f', 'a', 'l', 's', 'e'] then some (.bool false)
  else none

/-- the value of a hexadecimal digit -/
def hexDigit? (c : Char) : Option Nat :=
  if c.isDigit then some (c.toNat - '0'.toNat)
  else if 'a' ≤ c ∧ c ≤ 'f' then some (c.toNat - 'a'.toNat + 10)
  else if 'A' ≤ c ∧ c ≤ 'F' then some (c.toNat - 'A'.toNat + 10)
  else none

/-- the character of a one-letter escape -/
def escapeOf? (c : Char) : Option Char :=
  if c = '\x22' ∨ c = '\\' ∨ c = '/' then some c
  else if c = 'b' then some '\x08'
  else if c = 'f' then some '\x0c'
  else if c = 'n' then some '\n'
  else if c = 'r' then some '\r'
  else if c = 't' then some '\t'
  else none

def isUpperHalf (n : Nat) : Bool := 0xD800 ≤ n && n < 0xDC00

def isLowerHalf (n : Nat) : Bool := 0xDC00 ≤ n && n < 0xE000

/-- what follows a complete hexadecimal escape -/
def afterCode? (read : List Char) (upper : Option Nat) (code : Nat) : Option Mode :=
  match upper with
  | some hi =>
    if isLowerHalf code then
      some (.inString (Char.ofNat (0x10000 + (hi - 0xD800) * 0x400 + (code - 0xDC00)) :: read))
    else none
  | none =>
    if isUpperHalf code then some (.lowerEscape read code)
    else if isLowerHalf code then none
    else some (.inString (Char.ofNat code :: read))

namespace Scan

/-- reads one character between tokens -/
def start? (s : Scan) (c : Char) : Option Scan :=
  if isBlank c then some ⟨s.tokens, .between⟩
  else if c = '\x22' then some ⟨s.tokens, .inString []⟩
  else if c = '\x7b' then some ⟨.openObject :: s.tokens, .between⟩
  else if c = '\x7d' then some ⟨.closeObject :: s.tokens, .between⟩
  else if c = '[' then some ⟨.openArray :: s.tokens, .between⟩
  else if c = ']' then some ⟨.closeArray :: s.tokens, .between⟩
  else if c = ':' then some ⟨.colon :: s.tokens, .between⟩
  else if c = ',' then some ⟨.comma :: s.tokens, .between⟩
  else if c = '-' || c.isDigit then some ⟨s.tokens, .inNumber [c]⟩
  else if c.isAlpha then some ⟨s.tokens, .inWord [c]⟩
  else none

/-- closes a number or word that is being read -/
def close? (s : Scan) : Option Scan :=
  match s.mode with
  | .between => some s
  | .inNumber read => (number? read.reverse).map fun x => ⟨.number x :: s.tokens, .between⟩
  | .inWord read => (ofWord? read.reverse).map fun t => ⟨t :: s.tokens, .between⟩
  | _ => none

/-- reads one character -/
def step? (s : Scan) (c : Char) : Option Scan :=
  match s.mode with
  | .between => s.start? c
  | .inString read =>
    if c = '\x22' then some ⟨.string (String.ofList read.reverse) :: s.tokens, .between⟩
    else if c = '\\' then some { s with mode := .escape read }
    else if c < ' ' then none
    else some { s with mode := .inString (c :: read) }
  | .escape read =>
    if c = 'u' then some { s with mode := .unicode read none 0 0 }
    else (escapeOf? c).map fun e => { s with mode := .inString (e :: read) }
  | .unicode read upper digits code =>
    match hexDigit? c with
    | none => none
    | some d =>
      if digits = 3 then (afterCode? read upper (16 * code + d)).map fun m => { s with mode := m }
      else some { s with mode := .unicode read upper (digits + 1) (16 * code + d) }
  | .lowerEscape read upper => if c = '\\' then some { s with mode := .lowerMark read upper } else none
  | .lowerMark read upper => if c = 'u' then some { s with mode := .unicode read (some upper) 0 0 } else none
  | .inNumber read =>
    if isNumeric c then some { s with mode := .inNumber (c :: read) } else s.close?.bind (·.start? c)
  | .inWord read =>
    if c.isAlpha then some { s with mode := .inWord (c :: read) } else s.close?.bind (·.start? c)

end Scan

/-- the tokens of a text, if it has no fault -/
def scan? (cs : List Char) : Option (List Token) := do
  let s ← cs.foldlM Scan.step? ⟨[], .between⟩
  let s ← s.close?
  pure s.tokens.reverse

end Token

end StyleTree.Json
