/-
Layout. A printer looks at what it wrote in two places only: a space looks at the last character, and ending a line
looks at whether anything stands on it. Neither can see indentation or earlier text. So what a node is written as is a
list of lines, each with a depth of its own, and only the margin comes from the generator.

A `Page` is what a printer would write with no margin at all: finished lines, the line at the cursor, and the depth
since the start. `Shows start page p` says that a printer which began at `start`, at the start of a line, is now at `p`
with the page on top of what was there.

- `step_shows`: every operation keeps printer and page together, except closing a block that is not open on the page;
- `Nested.shows`: so does a whole nested script, whose blocks are all its own, and the page depends on the script only;
- `layout_independent`: one list of lines for each node and parent, whatever the unit, the depth and the text before.
-/
import StyleTree.Proofs.Effect

namespace StyleTree

open Instr

/-! ## Pages -/

/-- a line: how deep it stands, and its text behind the margin -/
structure Line where
  depth : Nat
  content : String
  unbroken : '\n' ∉ content.toList

namespace Line

def blank : Line := ⟨0, "", by simp⟩

/-- the line as it is printed; one without text has no indentation either -/
def text (indent : String) (depth : Nat) (l : Line) : String :=
  if l.content = "" then "" else String.join (List.replicate (depth + l.depth) indent) ++ l.content

/-- one character more; the first one settles the depth -/
def push (l : Line) (depth : Nat) (c : Char) (h : c ≠ '\n') : Line :=
  ⟨if l.content = "" then depth else l.depth, l.content.push c, by
    simp only [String.toList_push, List.mem_append, List.mem_singleton, not_or]
    exact ⟨l.unbroken, h.symm⟩⟩

end Line

/-- finished lines, the line at the cursor, and the depth, all without a margin -/
structure Page where
  done : List Line
  line : Line
  depth : Nat

namespace Page

def empty : Page := ⟨[], .blank, 0⟩

def lines (page : Page) : List Line := page.done ++ [page.line]

/-- the page as it is printed -/
def text (indent : String) (depth : Nat) (page : Page) : String :=
  "\n".intercalate (page.lines.map (Line.text indent depth))

def newline (page : Page) : Page := ⟨page.lines, .blank, page.depth⟩

def maybeNewline (page : Page) : Page := if page.line.content = "" then page else page.newline

def put (page : Page) (c : Char) : Page :=
  if h : c = '\n' then page.newline else { page with line := page.line.push page.depth c h }

def token (page : Page) (s : String) : Page := s.toList.foldl put page

def space (page : Page) : Page :=
  if page.line.content = "" ∨ page.line.content.toList.getLast? = some ' ' then page else page.put ' '

def openBlock (page : Page) (mark : String) : Page :=
  let page := (page.token mark).newline
  { page with depth := page.depth + 1 }

def closeBlock (page : Page) (mark : String) : Page :=
  let page := page.maybeNewline
  token { page with depth := page.depth - 1 } mark

/-- carries out one operation of a printer -/
def step (page : Page) : Printer.Op → Page
  | .token s => page.token s
  | .space => page.space
  | .newline => page.newline
  | .maybeNewline => page.maybeNewline
  | .openBlock mark => page.openBlock mark
  | .closeBlock mark => page.closeBlock mark

/-! ## Depth -/

@[simp] theorem newline_depth (page : Page) : page.newline.depth = page.depth := rfl

@[simp] theorem maybeNewline_depth (page : Page) : page.maybeNewline.depth = page.depth := by
  unfold maybeNewline; split <;> rfl

@[simp] theorem put_depth (page : Page) (c : Char) : (page.put c).depth = page.depth := by
  unfold put; split <;> rfl

@[simp] theorem token_depth (page : Page) (s : String) : (page.token s).depth = page.depth := by
  rw [token]
  induction s.toList generalizing page with
  | nil => rfl
  | cons c l ih => rw [List.foldl_cons, ih, put_depth]

@[simp] theorem space_depth (page : Page) : page.space.depth = page.depth := by
  unfold space; split
  · rfl
  · exact put_depth page ' '

theorem openBlock_depth (page : Page) (mark : String) : (page.openBlock mark).depth = page.depth + 1 := by
  simp [openBlock]

theorem closeBlock_depth (page : Page) (mark : String) : (page.closeBlock mark).depth = page.depth - 1 := by
  simp [closeBlock]

theorem step_depth_of_flat {op : Printer.Op} (h : op.isFlat = true) (page : Page) :
    (page.step op).depth = page.depth := by
  cases op with
  | openBlock mark => cases h
  | closeBlock mark => cases h
  | token s => exact token_depth page s
  | space => exact space_depth page
  | newline => rfl
  | maybeNewline => exact maybeNewline_depth page

/-! ## Printed pages -/

theorem intercalate_concat (s : String) (l : List String) (t : String) :
    s.intercalate (l ++ [t]) = String.join (l.map (· ++ s)) ++ t := by
  induction l with
  | nil => simp
  | cons a l ih =>
    rw [List.cons_append, String.intercalate_cons_of_ne_nil (by simp), ih, List.map_cons, String.join_cons]
    simp only [String.append_assoc]

/-- everything before the line at the cursor -/
def above (indent : String) (depth : Nat) (page : Page) : String :=
  String.join (page.done.map fun l => l.text indent depth ++ "\n")

theorem text_eq (indent : String) (depth : Nat) (page : Page) :
    page.text indent depth = page.above indent depth ++ page.line.text indent depth := by
  rw [text, lines, List.map_append, List.map_singleton, intercalate_concat, List.map_map]
  rfl

theorem text_newline (indent : String) (depth : Nat) (page : Page) :
    page.newline.text indent depth = page.text indent depth ++ "\n" := by
  have habove : page.newline.above indent depth = page.text indent depth ++ "\n" := by
    rw [text_eq, above, newline, lines, List.map_append, String.join_append, List.map_singleton]
    simp only [String.join_cons, String.join_nil, String.append_empty, String.append_assoc]
    rfl
  rw [text_eq, habove]
  exact String.append_empty

/-- the first character of a line brings its indentation with it -/
theorem text_push_first (indent : String) (depth : Nat) (page : Page) (h0 : page.line.content = "") {c : Char}
    (hc : c ≠ '\n') :
    (Page.text indent depth { page with line := page.line.push page.depth c hc }) =
      page.text indent depth ++ String.join (List.replicate (depth + page.depth) indent) ++ String.singleton c := by
  have hline : page.line.text indent depth = "" := by rw [Line.text, if_pos h0]
  have hpush : (page.line.push page.depth c hc).text indent depth =
      String.join (List.replicate (depth + page.depth) indent) ++ String.singleton c := by
    rw [Line.text, Line.push, if_neg String.push_ne_empty]
    simp only [h0, if_true]
    rfl
  rw [text_eq, text_eq, hline, String.append_empty, String.append_assoc, ← hpush]
  rfl

/-- any other character is just added -/
theorem text_push_next (indent : String) (depth : Nat) (page : Page) (h0 : page.line.content ≠ "") {c : Char}
    (hc : c ≠ '\n') :
    (Page.text indent depth { page with line := page.line.push page.depth c hc }) =
      page.text indent depth ++ String.singleton c := by
  have hpush : (page.line.push page.depth c hc).text indent depth =
      page.line.text indent depth ++ String.singleton c := by
    rw [Line.text, Line.text, Line.push, if_neg String.push_ne_empty, if_neg h0]
    simp only [if_neg h0]
    rw [String.append_assoc, String.append_singleton]
  rw [text_eq, text_eq, String.append_assoc, ← hpush]
  rfl

end Page

/-! ## Printers and pages -/

/-- a printer that began at `start`, at the start of a line, has put the page on top of what was there -/
structure Shows (start : Printer) (page : Page) (p : Printer) : Prop where
  indent : p.indent = start.indent
  depth : p.depth = start.depth + page.depth
  fresh : p.atLineStart = true ↔ page.line.content = ""
  written : p.written = (page.text start.indent start.depth).toList.reverse ++ start.written

namespace Shows

variable {start p : Printer} {page : Page}

theorem begin (h : start.atLineStart = true) : Shows start .empty start :=
  ⟨rfl, rfl, by simp [h, Page.empty, Line.blank], by simp [Page.text, Page.empty, Page.lines, Line.text, Line.blank]⟩

theorem text (h : Shows start page p) : p.text = start.text ++ page.text start.indent start.depth := by
  rw [Printer.text, h.written, List.reverse_append, List.reverse_reverse, String.ofList_append, String.ofList_toList]
  rfl

theorem newline (h : Shows start page p) : Shows start page.newline p.newline := by
  refine ⟨h.indent, h.depth, by simp [Page.newline, Line.blank], ?_⟩
  rw [Page.text_newline, Printer.newline_written, h.written]
  simp

theorem maybeNewline (h : Shows start page p) : Shows start page.maybeNewline p.maybeNewline := by
  unfold Page.maybeNewline Printer.maybeNewline
  by_cases h0 : page.line.content = ""
  · rw [if_pos h0, if_pos (h.fresh.2 h0)]; exact h
  · rw [if_neg h0, if_neg fun hs => h0 (h.fresh.1 hs)]; exact h.newline

/-- the indentation of a line on the page, in the margin -/
theorem indentation (h : Shows start page p) :
    p.indentation = (String.join (List.replicate (start.depth + page.depth) start.indent)).toList := by
  rw [Printer.indentation, h.depth, h.indent, String.toList_join]

theorem put (h : Shows start page p) (c : Char) : Shows start (page.put c) (p.put c) := by
  unfold Page.put Printer.put
  by_cases hc : c = '\n'
  · rw [dif_pos hc, if_pos hc]; exact h.newline
  · rw [dif_neg hc, if_neg hc]
    by_cases h0 : page.line.content = ""
    · rw [if_pos (h.fresh.2 h0)]
      refine ⟨h.indent, h.depth, by simp [Line.push], ?_⟩
      rw [Page.text_push_first _ _ _ h0 hc, h.indentation, h.written]
      simp
    · rw [if_neg fun hs => h0 (h.fresh.1 hs)]
      refine ⟨h.indent, h.depth, ?_, ?_⟩
      · simp only [Line.push, String.push_ne_empty, iff_false]
        exact fun hs => h0 (h.fresh.1 hs)
      · rw [Page.text_push_next _ _ _ h0 hc, h.written]
        simp

theorem token (h : Shows start page p) (s : String) : Shows start (page.token s) (p.token s) := by
  rw [Page.token, Printer.token_eq_foldl]
  induction s.toList generalizing page p with
  | nil => exact h
  | cons c l ih => exact ih (h.put c)

/-- the last character that a printer sees stands on the page, unless the line is empty -/
theorem head? (h : Shows start page p) (h0 : page.line.content ≠ "") :
    p.written.head? = page.line.content.toList.getLast? := by
  have hne : page.line.content.toList.reverse ≠ [] := by simpa using h0
  rw [h.written, Page.text_eq, Line.text, if_neg h0]
  simp only [String.toList_append, List.reverse_append, List.append_assoc]
  rw [List.head?_append_of_ne_nil _ hne, List.head?_reverse]

theorem space (h : Shows start page p) : Shows start page.space p.space := by
  unfold Page.space Printer.space
  by_cases h0 : page.line.content = ""
  · rw [if_pos (Or.inl h0), if_pos (by simp [h.fresh.2 h0])]; exact h
  · have hs : p.atLineStart = false := by simpa using fun hs => h0 (h.fresh.1 hs)
    have hp : p.put ' ' = { p with written := ' ' :: p.written } := by
      unfold Printer.put
      simp [hs]
    by_cases hl : page.line.content.toList.getLast? = some ' '
    · rw [if_pos (Or.inr hl), if_pos (by simp [h.head? h0, hl])]; exact h
    · rw [if_neg (by simp [h0, hl]), if_neg (by simp [hs, h.head? h0, hl]), ← hp]
      exact h.put ' '

/-- a block can be closed on the page, or there was none before it either -/
theorem closeBlock (h : Shows start page p) (mark : String) (hd : 0 < page.depth ∨ start.depth = 0) :
    Shows start (page.closeBlock mark) (p.closeBlock mark) := by
  have h1 := h.maybeNewline
  have hout : Shows start { page.maybeNewline with depth := page.maybeNewline.depth - 1 }
      { p.maybeNewline with depth := p.maybeNewline.depth - 1 } := by
    refine ⟨h1.indent, ?_, h1.fresh, h1.written⟩
    have hdepth := h1.depth
    rw [← Page.maybeNewline_depth page] at hd
    change p.maybeNewline.depth - 1 = start.depth + (page.maybeNewline.depth - 1)
    omega
  exact hout.token mark

end Shows

/-- **Printer and page go together**, as long as a block that is closed is one of the page. -/
theorem step_shows {start p : Printer} {page : Page} (h : Shows start page p) (op : Printer.Op)
    (hop : ∀ mark, op = .closeBlock mark → 0 < page.depth) : Shows start (page.step op) (p.step op) := by
  cases op with
  | token s => exact h.token s
  | space => exact h.space
  | newline => exact h.newline
  | maybeNewline => exact h.maybeNewline
  | openBlock mark =>
    have h1 := (h.token mark).newline
    exact ⟨h1.indent, congrArg (· + 1) h1.depth, h1.fresh, h1.written⟩
  | closeBlock mark => exact h.closeBlock mark (Or.inl (hop mark rfl))

/-- **One page for each script.** A nested script that does not stop takes all printers that show one page to printers
that show another, at the same depth. -/
theorem Nested.shows {s : Script} {r : Option Halt} (h : Nested s r) (hr : r = none) (page : Page) :
    ∃ page' : Page, page'.depth = page.depth ∧ ∀ (start : Printer) (g : Generator), Shows start page g.printer →
      Shows start page' (Generator.run s g).1.printer := by
  induction h generalizing page with
  | nil => exact ⟨page, rfl, fun _ _ hg => hg⟩
  | @print op hop =>
    refine ⟨page.step op, Page.step_depth_of_flat hop page, fun start g hg => step_shows hg op ?_⟩
    rintro mark rfl
    cases hop
  | fail f => cases hr
  | @append s t r r' hs _ ihs iht =>
    obtain ⟨rfl, rfl⟩ := Option.or_eq_none_iff.1 hr
    obtain ⟨page₁, hd₁, h₁⟩ := ihs rfl page
    obtain ⟨page₂, hd₂, h₂⟩ := iht rfl page₁
    refine ⟨page₂, hd₂.trans hd₁, fun start g hg => ?_⟩
    rw [Generator.run_append_of_none (hs.run g).error]
    exact h₂ start _ (h₁ start g hg)
  | @block m m' s r hs ih =>
    obtain rfl := Option.map_eq_none_iff.1 hr
    have hopen : (page.step (.openBlock m)).depth = page.depth + 1 := Page.openBlock_depth page m
    obtain ⟨page₁, hd₁, h₁⟩ := ih rfl (page.step (.openBlock m))
    refine ⟨page₁.step (.closeBlock m'), ?_, fun start g hg => ?_⟩
    · have hclose : (page₁.step (.closeBlock m')).depth = page₁.depth - 1 := Page.closeBlock_depth page₁ m'
      omega
    · have hg₁ : Shows start (page.step (.openBlock m)) (g.print (.openBlock m)).printer :=
        step_shows hg _ fun mark he => by cases he
      have hg₂ := h₁ start _ hg₁
      rw [List.append_assoc, List.singleton_append]
      change Shows start _ (Generator.run (s ++ [closeBlock m']) (g.print (.openBlock m))).1.printer
      rw [Generator.run_append_of_none (hs.run _).error]
      exact step_shows hg₂ _ fun _ _ => by omega
  | @node k s r hs ih =>
    obtain rfl := Option.map_eq_none_iff.1 hr
    obtain ⟨page₁, hd₁, h₁⟩ := ih rfl page
    refine ⟨page₁, hd₁, fun start g hg => ?_⟩
    have hg₁ := h₁ start { g with path := g.path ++ [k] } hg
    rw [List.append_assoc, List.singleton_append]
    change Shows start _ (Generator.run (s ++ [.leave]) { g with path := g.path ++ [k] }).1.printer
    rw [Generator.run_append_of_none (hs.run _).error]
    exact hg₁

/-! ## Nodes -/

/-- **Layout comes from the node.** Whether a valid node can be written does not depend on the generator. If it can,
there is one list of lines for it and its parent: any generator at the start of a line appends those lines, each at its
own depth under the depth of the generator, and in the generator's unit of indentation. -/
theorem layout_independent (n : Node) (hv : n.Valid) (parent : Option Node) :
    (∀ g g' : Generator, (g.write n parent).2 = none ↔ (g'.write n parent).2 = none) ∧
    ((∃ g : Generator, (g.write n parent).2 = none) →
      ∃ lines : List Line, ∀ g : Generator, g.printer.atLineStart = true →
        (g.write n parent).2 = none ∧
        (g.write n parent).1.text =
          g.text ++ "\n".intercalate (lines.map (Line.text g.printer.indent g.printer.depth))) := by
  have hnone : ∀ g : Generator, (g.write n parent).2 = none ↔ n.halt? = none := by
    intro g
    rw [(write_ends hv parent g).error, Option.map_eq_none_iff]
  refine ⟨fun g g' => (hnone g).trans (hnone g').symm, ?_⟩
  rintro ⟨g₀, h₀⟩
  have hh := (hnone g₀).1 h₀
  obtain ⟨page, -, hpage⟩ := (script_nested n hv (parent.map Node.kind)).shows hh .empty
  refine ⟨page.lines, fun g hg => ⟨(hnone g).2 hh, ?_⟩⟩
  exact (hpage g.printer g (Shows.begin hg)).text

/-- a rule with one declaration has lines of its own -/
theorem plainRule_lines :
    (plainRule "a" "color" "red").Valid ∧ ∃ lines : List Line, ∀ g : Generator, g.printer.atLineStart = true →
      (g.write (plainRule "a" "color" "red") none).2 = none ∧
      (g.write (plainRule "a" "color" "red") none).1.text =
        g.text ++ "\n".intercalate (lines.map (Line.text g.printer.indent g.printer.depth)) := by
  have hv := plainRule_valid "a" "color" "red"
  refine ⟨hv, (layout_independent (plainRule "a" "color" "red") hv none).2 ⟨Generator.new "", ?_⟩⟩
  rw [(write_ends hv none _).error]; rfl

end StyleTree
