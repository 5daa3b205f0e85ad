/-
What single printer operations do. Every operation only adds to the text and keeps the unit of indentation
(`step_grows`); only the block operations change the depth (`step_depth`). A text can be cut into tokens at will
(`token_append`).
-/
import Mathlib.Tactic.Common
import StyleTree.Printer

namespace StyleTree.Printer

/-! ## Depth -/

@[simp] theorem newline_depth (p : Printer) : p.newline.depth = p.depth := rfl

@[simp] theorem newline_atLineStart (p : Printer) : p.newline.atLineStart = true := rfl

@[simp] theorem newline_written (p : Printer) : p.newline.written = '\n' :: p.written := rfl

@[simp] theorem maybeNewline_depth (p : Printer) : p.maybeNewline.depth = p.depth := by
  unfold maybeNewline; split <;> rfl

@[simp] theorem space_depth (p : Printer) : p.space.depth = p.depth := by
  unfold space; split <;> rfl

@[simp] theorem put_depth (p : Printer) (c : Char) : (p.put c).depth = p.depth := by
  unfold put; split
  · rfl
  · split <;> rfl

/-! ## Tokens -/

theorem token_eq_foldl (p : Printer) (s : String) : p.token s = s.toList.foldl put p := rfl

theorem token_append (p : Printer) (s t : String) : p.token (s ++ t) = (p.token s).token t := by
  rw [token_eq_foldl, String.toList_append, List.foldl_append]; rfl

theorem foldl_put_depth (p : Printer) (l : List Char) : (l.foldl put p).depth = p.depth := by
  induction l generalizing p with
  | nil => rfl
  | cons c l ih => rw [List.foldl_cons, ih, put_depth]

@[simp] theorem token_depth (p : Printer) (s : String) : (p.token s).depth = p.depth := foldl_put_depth p s.toList

/-! ## Steps -/

/-- an operation that opens and closes no block -/
def Op.isFlat : Op → Bool
  | .openBlock _ | .closeBlock _ => false
  | _ => true

/-- the depth after an operation -/
theorem step_depth (p : Printer) (op : Op) :
    (p.step op).depth = match op with
      | .openBlock _ => p.depth + 1
      | .closeBlock _ => p.depth - 1
      | _ => p.depth := by
  cases op with
  | token s => exact token_depth p s
  | space => exact space_depth p
  | newline => rfl
  | maybeNewline => exact maybeNewline_depth p
  | openBlock mark => simp [step, openBlock]
  | closeBlock mark => simp [step, closeBlock]

theorem step_depth_of_flat {op : Op} (h : op.isFlat = true) (p : Printer) : (p.step op).depth = p.depth := by
  rw [step_depth]
  cases op <;> first | rfl | cases h

/-- `q` has written what `p` has, and perhaps more, with the same unit of indentation -/
structure Grows (p q : Printer) : Prop where
  written : p.written <:+ q.written
  indent : q.indent = p.indent

theorem Grows.refl (p : Printer) : Grows p p := ⟨List.suffix_refl _, rfl⟩

theorem Grows.trans {p q r : Printer} (h1 : Grows p q) (h2 : Grows q r) : Grows p r :=
  ⟨h1.written.trans h2.written, h2.indent.trans h1.indent⟩

theorem newline_grows (p : Printer) : Grows p p.newline := ⟨List.suffix_cons _ _, rfl⟩

theorem maybeNewline_grows (p : Printer) : Grows p p.maybeNewline := by
  unfold maybeNewline
  split
  · exact Grows.refl p
  · exact newline_grows p

theorem space_grows (p : Printer) : Grows p p.space := by
  unfold space
  split
  · exact Grows.refl p
  · exact ⟨List.suffix_cons _ _, rfl⟩

theorem put_grows (p : Printer) (c : Char) : Grows p (p.put c) := by
  unfold put
  split
  · exact newline_grows p
  · split
    · exact ⟨(List.suffix_append _ _).trans (List.suffix_cons _ _), rfl⟩
    · exact ⟨List.suffix_cons _ _, rfl⟩

theorem token_grows (p : Printer) (s : String) : Grows p (p.token s) := by
  rw [token_eq_foldl]
  induction s.toList generalizing p with
  | nil => exact Grows.refl p
  | cons c l ih => exact (put_grows p c).trans (ih (p.put c))

/-- **Printing only appends.** -/
theorem step_grows (p : Printer) (op : Op) : Grows p (p.step op) := by
  cases op with
  | token s => exact token_grows p s
  | space => exact space_grows p
  | newline => exact newline_grows p
  | maybeNewline => exact maybeNewline_grows p
  | openBlock mark =>
    have h := (token_grows p mark).trans (newline_grows _)
    exact ⟨h.written, h.indent⟩
  | closeBlock mark =>
    have h := maybeNewline_grows p
    have h1 : Grows p { p.maybeNewline with depth := p.maybeNewline.depth - 1 } := ⟨h.written, h.indent⟩
    exact h1.trans (token_grows _ mark)

/-- what was written stays at the front of the text -/
theorem Grows.text {p q : Printer} (h : Grows p q) : ∃ added, q.text = p.text ++ added := by
  obtain ⟨l, hl⟩ := h.written
  refine ⟨String.ofList l.reverse, ?_⟩
  rw [Printer.text, Printer.text, ← hl, List.reverse_append, String.ofList_append]

end StyleTree.Printer
