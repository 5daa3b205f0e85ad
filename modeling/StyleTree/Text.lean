/-
Texts, by what is done with them.

- Lines: line feeds end lines, one carriage return before a line feed belongs to the line end, and a text that ends in a
  line feed has no further, empty line after it. A carriage return elsewhere is an ordinary character.
- Literals: `quoted` wraps a text in single quotes and puts a backslash before each quote and each backslash in it;
  `readQuoted` reads such a literal back from the front of a text: a backslash gives the character after it, an unescaped
  quote ends the literal, anything else stands for itself.
- Display, for messages: double quotes around the text, backslash escapes for the quote, the backslash and the common
  control characters, and a code point in hexadecimal for every other character that would not show as itself, that is,
  one that is unprintable, is by default not shown, or is a mark on the character before it.
-/
import StyleTree.Text.Visible

namespace StyleTree.Text

/-! ## Lines -/

/-- puts a character in front of the first line -/
def consLine (c : Char) : List (List Char) → List (List Char)
  | [] => [[c]]
  | l :: ls => (c :: l) :: ls

/-- the lines of a text, without their line ends -/
def lines : List Char → List (List Char)
  | [] => []
  | '\n' :: rest => [] :: lines rest
  | '\r' :: '\n' :: rest => [] :: lines rest
  | c :: rest => consLine c (lines rest)

/-! ## Single-quoted literals -/

/-- the single quote -/
def quoteMark : Char := '\x27'

/-- one character inside a quoted literal -/
def escapeChar (c : Char) : List Char := if c = '\\' ∨ c = quoteMark then ['\\', c] else [c]

/-- the inside of the literal that denotes a text -/
def escaped (s : List Char) : List Char := s.flatMap escapeChar

/-- the literal that denotes a text -/
def quotedChars (s : List Char) : List Char := quoteMark :: (escaped s ++ [quoteMark])

/-- the literal that denotes a text -/
def quoted (s : String) : String := String.ofList (quotedChars s.toList)

/-- reads to the closing quote; gives the text read and what follows the quote -/
def readToQuote : List Char → Option (List Char × List Char)
  | [] => none
  | '\\' :: [] => none
  | '\\' :: c :: rest => (readToQuote rest).map fun (s, r) => (c :: s, r)
  | c :: rest => if c = quoteMark then some ([], rest) else (readToQuote rest).map fun (s, r) => (c :: s, r)

/-- reads one quoted literal from the front of a text; gives the text it denotes and the rest -/
def readQuoted : List Char → Option (List Char × List Char)
  | [] => none
  | c :: rest => if c = quoteMark then readToQuote rest else none

/-! ## Display -/

/-- a code point as a hexadecimal escape -/
def codePoint (c : Char) : List Char := ['\\', 'u', '\x7b'] ++ Nat.toDigits 16 c.toNat ++ ['\x7d']

/-- one character of a displayed text -/
def displayChar (c : Char) : List Char :=
  if c = '\x22' then ['\\', '\x22']
  else if c = '\\' then ['\\', '\\']
  else if c = '\n' then ['\\', 'n']
  else if c = '\r' then ['\\', 'r']
  else if c = '\t' then ['\\', 't']
  else if c = '\x00' then ['\\', '0']
  else if isVisible c then [c]
  else codePoint c

/-- a text as it is shown in messages -/
def display (s : String) : String := String.ofList ('\x22' :: s.toList.flatMap displayChar ++ ['\x22'])

end StyleTree.Text
