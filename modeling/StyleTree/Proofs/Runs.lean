/-
Runs of a printer. A printer takes any operations in any order: empty texts, texts with line feeds at their ends or
inside, marks of several lines, more blocks closed than were opened. Whatever it was told, the cursor flag tells whether
the text ends a line, the depth counts the blocks, and every line that has text stands behind the indentation of the
depth at which its text began.

A new printer is deep in nothing, so the page that goes with it can close blocks at will (`run_shows`). On
the page it can be said which operation began a line:
- `Continues`: lines with text keep their depth, and any other line begins at a given depth;
- `step_continues`: one operation continues the page at the depth at which it writes;
- `run_begun`: so every line with text was begun by some operation of the run, at its depth.
`run_invariant` says the same of the text itself, cut at its line feeds.
-/
import StyleTree.Proofs.Body

namespace StyleTree

namespace Printer

/-! ## Depth -/

/-- how an operation changes the number of open blocks -/
def Op.rise : Op → Int
  | .openBlock _ => 1
  | .closeBlock _ => -1
  | _ => 0

/-- blocks opened less blocks closed, from a number of open ones, never below zero -/
def openBlocks (n : Int) (ops : List Op) : Int := ops.foldl (fun n op => max 0 (n + op.rise)) n

/-- the depth at which an operation writes its text: a closing mark stands one level out already -/
def Op.level (depth : Nat) : Op → Nat
  | .closeBlock _ => depth - 1
  | _ => depth

theorem step_rise (p : Printer) (op : Op) : ((p.step op).depth : Int) = max 0 (p.depth + op.rise) := by
  rw [step_depth]
  cases op <;> simp only [Op.rise] <;> omega

theorem run_depth (p : Printer) (ops : List Op) : ((p.run ops).depth : Int) = openBlocks p.depth ops := by
  induction ops generalizing p with
  | nil => rfl
  | cons op ops ih =>
    have hstep := ih (p.step op)
    rw [step_rise] at hstep
    exact hstep

/-! ## Growth -/

theorem run_grows (p : Printer) (ops : List Op) : Grows p (p.run ops) := by
  induction ops generalizing p with
  | nil => exact Grows.refl p
  | cons op ops ih => exact (step_grows p op).trans (ih (p.step op))

/-! ## From the start -/

/-- the printer that has carried out operations from the start -/
def after (indent : String) (ops : List Op) : Printer := (new indent).run ops

theorem after_concat (indent : String) (ops : List Op) (op : Op) :
    after indent (ops ++ [op]) = (after indent ops).step op := by
  rw [after, run, List.foldl_append]; rfl

/-- the lines of the text, cut at its line feeds -/
def rows (p : Printer) : List String := (p.text.toList.splitOn '\n').map String.ofList

end Printer

/-- the page of operations from the start -/
def Page.after (ops : List Printer.Op) : Page := ops.foldl Page.step .empty

theorem Page.after_concat (ops : List Printer.Op) (op : Printer.Op) :
    Page.after (ops ++ [op]) = (Page.after ops).step op := by
  rw [Page.after, List.foldl_append]; rfl

/-- printer and page go together from the start, whatever is closed -/
theorem run_shows (indent : String) (ops : List Printer.Op) :
    Shows (Printer.new indent) (Page.after ops) (Printer.after indent ops) := by
  induction ops using List.reverseRecOn with
  | nil => exact Shows.begin rfl
  | append_singleton ops op ih =>
    rw [Page.after_concat, Printer.after_concat]
    by_cases hop : ∃ mark, op = .closeBlock mark
    · obtain ⟨mark, rfl⟩ := hop
      exact ih.closeBlock mark (Or.inr rfl)
    · exact step_shows ih op fun mark hmark => absurd ⟨mark, hmark⟩ hop

theorem after_text (indent : String) (ops : List Printer.Op) :
    (Printer.after indent ops).text = (Page.after ops).text indent 0 :=
  (run_shows indent ops).text.trans String.empty_append

theorem after_depth (indent : String) (ops : List Printer.Op) :
    (Printer.after indent ops).depth = (Page.after ops).depth := by
  rw [(run_shows indent ops).depth]
  exact Nat.zero_add _

/-! ## Lines -/

theorem Line.text_unbroken {indent : String} (hi : '\n' ∉ indent.toList) (depth : Nat) (l : Line) :
    '\n' ∉ (l.text indent depth).toList := by
  unfold Line.text
  split
  · simp
  · rw [String.toList_append, String.toList_join, List.mem_append, List.mem_flatMap]
    rintro (⟨s, hs, hc⟩ | hc)
    · rw [List.eq_of_mem_replicate hs] at hc
      exact hi hc
    · exact l.unbroken hc

/-- cutting the text at its line feeds gives the lines of the page -/
theorem after_rows {indent : String} (hi : '\n' ∉ indent.toList) (ops : List Printer.Op) :
    (Printer.after indent ops).rows = (Page.after ops).lines.map (Line.text indent 0) := by
  have hlines : (((Page.after ops).lines.map (Line.text indent 0)).map String.toList) ≠ [] := by
    simp [Page.lines]
  have hunbroken : ∀ l ∈ ((Page.after ops).lines.map (Line.text indent 0)).map String.toList, '\n' ∉ l := by
    intro cs hcs
    obtain ⟨s, hs, rfl⟩ := List.mem_map.1 hcs
    obtain ⟨l, -, rfl⟩ := List.mem_map.1 hs
    exact l.text_unbroken hi 0
  rw [Printer.rows, after_text, Page.text, String.toList_intercalate]
  change List.map String.ofList (List.splitOn '\n' (['\n'].intercalate _)) = _
  rw [List.splitOn_intercalate '\n' hunbroken hlines, List.map_map]
  simp

theorem Line.text_eq_empty {indent : String} {depth : Nat} {l : Line} : l.text indent depth = "" ↔ l.content = "" := by
  unfold Line.text
  split
  · rename_i h
    exact ⟨fun _ => h, fun _ => rfl⟩
  · rw [String.append_eq_empty_iff]
    exact ⟨fun h => h.2, fun h => absurd h ‹_›⟩

/-- an element of a list with one more at its end -/
theorem getElem?_concat_eq_some {α : Type} {l : List α} {a x : α} {i : Nat} :
    (l ++ [a])[i]? = some x ↔ l[i]? = some x ∨ (i = l.length ∧ x = a) := by
  rcases Nat.lt_trichotomy i l.length with hi | rfl | hi
  · rw [List.getElem?_append_left hi]
    exact ⟨Or.inl, fun h => h.resolve_right fun h => by omega⟩
  · simp [eq_comm]
  · have hnone : (l ++ [a])[i]? = none := List.getElem?_eq_none (by rw [List.length_append]; exact hi)
    have hnone' : l[i]? = none := List.getElem?_eq_none (by omega)
    rw [hnone, hnone']
    simp only [reduceCtorEq, false_or, false_iff, not_and]
    omega

namespace Page

/-- what stands on a page stays when it is continued: lines with text keep their depth, and every other line that comes
to have text begins at depth `d` -/
structure Continues (d : Nat) (page page' : Page) : Prop where
  kept : ∀ (i : Nat) (l : Line), page.lines[i]? = some l → l.content ≠ "" →
    ∃ l' : Line, page'.lines[i]? = some l' ∧ l'.content ≠ "" ∧ l'.depth = l.depth
  begun : ∀ (i : Nat) (l' : Line), page'.lines[i]? = some l' → l'.content ≠ "" →
    (∀ l : Line, page.lines[i]? = some l → l.content = "") → l'.depth = d

namespace Continues

variable {d : Nat} {page page' page'' : Page}

theorem refl (d : Nat) (page : Page) : Continues d page page :=
  ⟨fun _ l hl hc => ⟨l, hl, hc, rfl⟩, fun _ l hl hc hnone => absurd (hnone l hl) hc⟩

theorem trans (h : Continues d page page') (h' : Continues d page' page'') : Continues d page page'' := by
  refine ⟨fun i l hl hc => ?_, fun i l'' hl'' hc'' hnone => ?_⟩
  · obtain ⟨l', hl', hc', hd'⟩ := h.kept i l hl hc
    obtain ⟨l'', hl'', hc'', hd''⟩ := h'.kept i l' hl' hc'
    exact ⟨l'', hl'', hc'', hd''.trans hd'⟩
  · by_cases hbetween : ∃ l' : Line, page'.lines[i]? = some l' ∧ l'.content ≠ ""
    · obtain ⟨l', hl', hc'⟩ := hbetween
      obtain ⟨m, hm, -, hd⟩ := h'.kept i l' hl' hc'
      rw [hl'', Option.some.injEq] at hm
      rw [hm, hd]
      exact h.begun i l' hl' hc' hnone
    · refine h'.begun i l'' hl'' hc'' fun l' hl' => ?_
      by_contra hc'
      exact hbetween ⟨l', hl', hc'⟩

/-- the depth of the page itself does not matter to its lines -/
theorem redeepen (h : Continues d page page') (n : Nat) : Continues d page { page' with depth := n } := ⟨h.kept, h.begun⟩

end Continues

theorem newline_continues (d : Nat) (page : Page) : Continues d page page.newline := by
  have hlines : page.newline.lines = page.lines ++ [.blank] := rfl
  refine ⟨fun i l hl hc => ⟨l, ?_, hc, rfl⟩, fun i l' hl' hc' hnone => ?_⟩
  · rw [hlines]
    exact getElem?_concat_eq_some.2 (Or.inl hl)
  · rw [hlines] at hl'
    rcases getElem?_concat_eq_some.1 hl' with hl' | ⟨-, rfl⟩
    · exact absurd (hnone l' hl') hc'
    · exact absurd rfl hc'

/-- a character begins the line at the cursor, or goes on with it -/
theorem put_continues (page : Page) (c : Char) : Continues page.depth page (page.put c) := by
  unfold put
  split
  · exact newline_continues _ _
  · rename_i hc
    refine ⟨fun i l hl hl0 => ?_, fun i l' hl' hl0 hnone => ?_⟩
    · rcases getElem?_concat_eq_some.1 hl with hl | ⟨rfl, rfl⟩
      · exact ⟨l, getElem?_concat_eq_some.2 (Or.inl hl), hl0, rfl⟩
      · refine ⟨_, getElem?_concat_eq_some.2 (Or.inr ⟨rfl, rfl⟩), String.push_ne_empty, if_neg hl0⟩
    · rcases getElem?_concat_eq_some.1 hl' with hl' | ⟨rfl, rfl⟩
      · exact absurd (hnone l' (getElem?_concat_eq_some.2 (Or.inl hl'))) hl0
      · exact if_pos (hnone page.line (getElem?_concat_eq_some.2 (Or.inr ⟨rfl, rfl⟩)))

theorem token_continues (page : Page) (s : String) : Continues page.depth page (page.token s) := by
  rw [token]
  induction s.toList generalizing page with
  | nil => exact .refl _ _
  | cons c l ih =>
    have hrest := ih (page.put c)
    rw [put_depth] at hrest
    exact (put_continues page c).trans hrest

theorem maybeNewline_continues (d : Nat) (page : Page) : Continues d page page.maybeNewline := by
  unfold maybeNewline
  split
  · exact .refl _ _
  · exact newline_continues _ _

/-- **One operation.** Whatever text it begins a line with stands at the depth at which the operation writes. -/
theorem step_continues (page : Page) (op : Printer.Op) : Continues (op.level page.depth) page (page.step op) := by
  cases op with
  | token s => exact token_continues page s
  | space =>
    change Continues page.depth page page.space
    unfold space
    split
    · exact .refl _ _
    · exact put_continues page ' '
  | newline => exact newline_continues _ _
  | maybeNewline => exact maybeNewline_continues _ _
  | openBlock mark => exact ((token_continues page mark).trans (newline_continues _ _)).redeepen _
  | closeBlock mark =>
    let out : Page := { page.maybeNewline with depth := page.maybeNewline.depth - 1 }
    have hdepth : page.maybeNewline.depth - 1 = page.depth - 1 := congrArg (· - 1) (maybeNewline_depth page)
    have hout : Continues (page.maybeNewline.depth - 1) page out := (maybeNewline_continues _ page).redeepen _
    change Continues (page.depth - 1) page (out.token mark)
    rw [← hdepth]
    exact hout.trans (token_continues out mark)

/-- **Whole runs.** Every line with text on it was begun by an operation of the run, at the depth at which that wrote. -/
theorem run_begun (ops : List Printer.Op) {i : Nat} {l : Line} (hl : (after ops).lines[i]? = some l)
    (hc : l.content ≠ "") :
    ∃ done op rest, ops = done ++ op :: rest ∧ (∀ m : Line, (after done).lines[i]? = some m → m.content = "") ∧
      (∃ m : Line, (after (done ++ [op])).lines[i]? = some m ∧ m.content ≠ "") ∧
      l.depth = op.level (after done).depth := by
  induction ops using List.reverseRecOn generalizing l with
  | nil =>
    rcases getElem?_concat_eq_some.1 hl with hl | ⟨-, rfl⟩
    · cases hl
    · exact absurd rfl hc
  | append_singleton ops op ih =>
    have hstep := step_continues (after ops) op
    rw [← after_concat] at hstep
    by_cases hold : ∃ m : Line, (after ops).lines[i]? = some m ∧ m.content ≠ ""
    · obtain ⟨m, hm, hmc⟩ := hold
      obtain ⟨done, op', rest, rfl, hbefore, hafter, hd⟩ := ih hm hmc
      obtain ⟨l', hl', -, hd'⟩ := hstep.kept i m hm hmc
      rw [hl, Option.some.injEq] at hl'
      exact ⟨done, op', rest ++ [op], by simp, hbefore, hafter, by rw [hl', hd', hd]⟩
    · have hbefore : ∀ m : Line, (after ops).lines[i]? = some m → m.content = "" := by
        intro m hm
        by_contra hmc
        exact hold ⟨m, hm, hmc⟩
      exact ⟨ops, op, [], rfl, hbefore, ⟨l, hl, hc⟩, hstep.begun i l hl hc hbefore⟩

end Page

/-! ## The text -/

/-- the lines of the text before a line is begun do not have it, or have it empty -/
theorem row_empty {indent : String} (hi : '\n' ∉ indent.toList) {ops : List Printer.Op} {i : Nat}
    (h : ∀ m : Line, (Page.after ops).lines[i]? = some m → m.content = "") {r : String}
    (hr : (Printer.after indent ops).rows[i]? = some r) : r = "" := by
  rw [after_rows hi, List.getElem?_map, Option.map_eq_some_iff] at hr
  obtain ⟨m, hm, rfl⟩ := hr
  exact Line.text_eq_empty.2 (h m hm)

/-- **What holds after every run.** However a printer was driven from the start: the cursor is at the start of a line
exactly if the text is empty or ends in a line feed; whatever follows only adds to the text; the depth is the number of
blocks opened less those closed, kept from falling below zero at each step. And if the unit of indentation has no line
feed, every line of the text is empty, or it is the unit, repeated as often as the operation that first wrote on the line
was deep, and then some text. -/
theorem run_invariant (indent : String) (ops : List Printer.Op) :
    ((Printer.after indent ops).atLineStart = true ↔
      (Printer.after indent ops).text = "" ∨ (Printer.after indent ops).text.toList.getLast? = some '\n') ∧
    (∀ more, ∃ added, (Printer.after indent (ops ++ more)).text = (Printer.after indent ops).text ++ added) ∧
    ((Printer.after indent ops).depth : Int) = Printer.openBlocks 0 ops ∧
    ('\n' ∉ indent.toList → ∀ (i : Nat) (row : String), (Printer.after indent ops).rows[i]? = some row → row = "" ∨
      ∃ done op rest content, ops = done ++ op :: rest ∧
        (∀ r, (Printer.after indent done).rows[i]? = some r → r = "") ∧
        (∃ r, (Printer.after indent (done ++ [op])).rows[i]? = some r ∧ r ≠ "") ∧
        row = String.join (List.replicate (op.level (Printer.after indent done).depth) indent) ++ content ∧
        content ≠ "") := by
  have hshows := run_shows indent ops
  refine ⟨?_, fun more => ?_, Printer.run_depth (Printer.new indent) ops, fun hi i row hrow => ?_⟩
  · rw [after_text]
    exact hshows.fresh.trans (ended_page indent 0 _).symm
  · rw [Printer.after, Printer.run, List.foldl_append]
    exact (Printer.run_grows (Printer.after indent ops) more).text
  · rw [after_rows hi, List.getElem?_map, Option.map_eq_some_iff] at hrow
    obtain ⟨l, hl, rfl⟩ := hrow
    by_cases hc : l.content = ""
    · exact Or.inl (Line.text_eq_empty.2 hc)
    · obtain ⟨done, op, rest, rfl, hbefore, ⟨m, hm, hmc⟩, hd⟩ := Page.run_begun ops hl hc
      refine Or.inr ⟨done, op, rest, l.content, rfl, fun r hr => row_empty hi hbefore hr, ?_, ?_, hc⟩
      · refine ⟨m.text indent 0, ?_, fun hempty => hmc (Line.text_eq_empty.1 hempty)⟩
        rw [after_rows hi, List.getElem?_map, hm]; rfl
      · rw [Line.text, if_neg hc, hd, after_depth, Nat.zero_add]

/-- a block closed that is not open, then one opened and closed again, with marks of two lines -/
def oddOps : List Printer.Op :=
  [.closeBlock "x", .openBlock "a\nb", .token "\n\nc", .space, .maybeNewline, .closeBlock "d\ne"]

/-- of seven lines one is indented, and for each line with text there is the operation that began it -/
theorem oddOps_lines :
    (Printer.after "- " oddOps).rows = ["xa", "b", "", "", "- c ", "d", "e"] ∧ '\n' ∉ "- ".toList ∧
    ∃ done op rest content, oddOps = done ++ op :: rest ∧
      (∀ r, (Printer.after "- " done).rows[4]? = some r → r = "") ∧
      "- c " = String.join (List.replicate (op.level (Printer.after "- " done).depth) "- ") ++ content ∧
      content ≠ "" := by
  have hrows : (Printer.after "- " oddOps).rows = ["xa", "b", "", "", "- c ", "d", "e"] := by decide
  have hindent : '\n' ∉ "- ".toList := by decide
  refine ⟨hrows, hindent, ?_⟩
  rcases (run_invariant "- " oddOps).2.2.2 hindent 4 "- c " (by rw [hrows]; rfl) with hempty | hbegun
  · exact absurd hempty (by decide)
  · obtain ⟨done, op, rest, content, hops, hbefore, -, hrow, hcontent⟩ := hbegun
    exact ⟨done, op, rest, content, hops, hbefore, hrow, hcontent⟩

end StyleTree
