/-
Tokens run together. A text can be given to a printer as one token or as many, cut wherever one likes, inside a line or
across lines, at a line feed or before it: the printer ends in the same state (`tokens_concatenate`). What it writes is
thus a matter of the text, not of how the text came in.

A token is taken character by character. On the page it falls into stretches, the texts between its line feeds:
`token_eq_stretches` says that it writes one stretch after the other and ends a line between two of them, where a
stretch has the indentation before it if it begins its line, and an empty stretch writes nothing at all. Cut between
two characters, a stretch is written as its two halves would be (`stretch_cons`); this is all that happens at a seam.
-/
import Mathlib.Tactic.Common
import StyleTree.Proofs.Printer

namespace StyleTree.Printer

/-! ## Stretches -/

/-- goes onto the line: writes the indentation, if nothing stands on the line yet -/
def enterLine (p : Printer) : Printer :=
  if p.atLineStart then { p with written := p.indentation.reverse ++ p.written, atLineStart := false } else p

/-- writes a text without line feeds; an empty one leaves the line as it is -/
def stretch (p : Printer) (l : List Char) : Printer :=
  if l = [] then p else { p.enterLine with written := l.reverse ++ p.enterLine.written }

/-- writes stretches, each on a line of its own -/
def stretches (p : Printer) : List (List Char) → Printer
  | [] => p
  | [l] => p.stretch l
  | l :: l' :: ls => (p.stretch l).newline.stretches (l' :: ls)

theorem stretches_cons (p : Printer) (l : List Char) {ls : List (List Char)} (h : ls ≠ []) :
    p.stretches (l :: ls) = (p.stretch l).newline.stretches ls := by
  cases ls with
  | nil => exact absurd rfl h
  | cons l' ls => rfl

/-- the first character of a stretch can be written by itself -/
theorem stretch_cons (p : Printer) {c : Char} (hc : c ≠ '\n') (l : List Char) :
    p.stretch (c :: l) = (p.put c).stretch l := by
  have hput : p.put c = { p.enterLine with written := c :: p.enterLine.written } := by
    unfold put enterLine
    rw [if_neg hc]
    split <;> rfl
  -- with `c` on it the line has begun, so the rest brings no indentation
  have hbegun : (p.put c).enterLine = p.put c := by
    have hstart : p.enterLine.atLineStart = false := by
      unfold enterLine
      split
      · rfl
      · rename_i hs
        exact Bool.eq_false_iff.2 hs
    rw [hput, enterLine, if_neg (by simp [hstart])]
  by_cases hl : l = []
  · subst hl
    exact hput.symm
  · have hrest : (p.put c).stretch l = { p.put c with written := l.reverse ++ (p.put c).written } := by
      rw [stretch, if_neg hl, hbegun]
    rw [hrest, hput, stretch, if_neg (List.cons_ne_nil c l)]
    simp

theorem stretches_put (p : Printer) {c : Char} (hc : c ≠ '\n') {ls : List (List Char)} (h : ls ≠ []) :
    p.stretches (ls.modifyHead (c :: ·)) = (p.put c).stretches ls := by
  cases ls with
  | nil => exact absurd rfl h
  | cons l ls =>
    rw [List.modifyHead_cons]
    cases ls with
    | nil => exact stretch_cons p hc l
    | cons l' ls => rw [stretches, stretches, stretch_cons p hc l]

/-- a line feed ends the first piece of what it stands before; any other character belongs to it -/
theorem splitOn_cons (c : Char) (l : List Char) :
    (c :: l).splitOn '\n' = if c = '\n' then [] :: l.splitOn '\n' else (l.splitOn '\n').modifyHead (c :: ·) := by
  simp [List.splitOn_eq_splitOnP, List.splitOnP_cons_eq_if_modifyHead]

/-- **Line by line.** A token writes the stretches between its line feeds. -/
theorem token_eq_stretches (p : Printer) (s : String) : p.token s = p.stretches (s.toList.splitOn '\n') := by
  rw [token_eq_foldl]
  induction s.toList generalizing p with
  | nil => rfl
  | cons c l ih =>
    have hne : l.splitOn '\n' ≠ [] := List.splitOn_ne_nil '\n' l
    rw [List.foldl_cons, ih, splitOn_cons]
    by_cases hc : c = '\n'
    · subst hc
      rw [if_pos rfl, stretches_cons p [] hne]
      rfl
    · rw [if_neg hc, stretches_put p hc hne]

/-! ## Tokens in a row -/

/-- **Any cut will do.** Tokens in a row are one token. -/
theorem run_tokens (p : Printer) (parts : List String) : p.run (parts.map .token) = p.token (String.join parts) := by
  induction parts generalizing p with
  | nil => rfl
  | cons s parts ih =>
    calc p.run ((s :: parts).map .token)
        = (p.token s).run (parts.map .token) := rfl
      _ = (p.token s).token (String.join parts) := ih (p.token s)
      _ = p.token (String.join (s :: parts)) := by rw [String.join_cons, token_append]

theorem run_append (p : Printer) (ops more : List Op) : p.run (ops ++ more) = (p.run ops).run more :=
  List.foldl_append

/-! ## Operations that look before they write -/

theorem space_space (p : Printer) : p.space.space = p.space := by
  have hdone : (p.space.atLineStart || p.space.written.head? == some ' ') = true := by
    unfold space
    split
    · assumption
    · simp
  rw [space, if_pos hdone]

theorem maybeNewline_maybeNewline (p : Printer) : p.maybeNewline.maybeNewline = p.maybeNewline := by
  have hdone : p.maybeNewline.atLineStart = true := by
    unfold maybeNewline
    split
    · assumption
    · rfl
  rw [maybeNewline, if_pos hdone]

/-- **Tokens concatenate.** From every state of a printer, two tokens leave what their texts in one token leave, the
empty text leaves everything as it was, and a line feed ends the line. So a text may be cut into tokens at any points,
within the stretches between its line feeds or at their ends, whatever the printer does afterwards. Asking twice for a
space, or for the end of a line, is asking once. -/
theorem tokens_concatenate (p : Printer) :
    (∀ a b : String, (p.token a).token b = p.token (a ++ b)) ∧ p.token "" = p ∧ p.token "\n" = p.newline ∧
    (∀ (parts : List String) (more : List Op),
      p.run (parts.map .token ++ more) = (p.token (String.join parts)).run more) ∧
    (∀ s : String, p.token s = p.stretches (s.toList.splitOn '\n')) ∧
    p.space.space = p.space ∧ p.maybeNewline.maybeNewline = p.maybeNewline := by
  refine ⟨fun a b => (token_append p a b).symm, rfl, rfl, fun parts more => ?_, token_eq_stretches p, space_space p,
    maybeNewline_maybeNewline p⟩
  rw [run_append, run_tokens]

end StyleTree.Printer
