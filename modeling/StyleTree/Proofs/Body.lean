/-
The text of a body. Statements stand one to a line: each is written as it would be on its own, and between two of them
the line is ended, unless the first has ended it already; a run of assignments is set off by a blank line. `bodyText` is
that rule, on the texts of the statements.

`Adds p t q` says that a printer went from `p`, at the start of a line, to `q` and added the text `t`; what the printer
can still see of `t` is whether it leaves the cursor at the start of a line (`Ended`).

- `statement_silent_iff`: of all statements only silent comments write nothing, so silence can be told from the text;
- `Prints.stacked`: statements in a row print the text of the body, at any depth;
- `body_policy`: so a sheet is the body of its children, and a block that of its statements, one level deeper.
-/
import StyleTree.Proofs.Layout

namespace StyleTree

open Emission Instr

/-! ## What writes something -/

/-- operations that add to the text of every printer -/
def Printer.Op.writes : Printer.Op → Bool
  | .token s | .closeBlock s => s != ""
  | .newline | .openBlock _ => true
  | .space | .maybeNewline => false

namespace Printer

theorem put_written_ne_nil (p : Printer) (c : Char) : (p.put c).written ≠ [] := by
  unfold put
  split
  · simp
  · split <;> simp

theorem token_written_ne_nil (p : Printer) {s : String} (h : s ≠ "") : (p.token s).written ≠ [] := by
  rw [ne_eq, ← String.toList_eq_nil_iff] at h
  rw [token_eq_foldl]
  cases hs : s.toList with
  | nil => exact absurd hs h
  | cons c l =>
    have hgrow : Grows (p.put c) (l.foldl put (p.put c)) := by
      have htoken := token_grows (p.put c) (String.ofList l)
      rwa [token_eq_foldl, String.toList_ofList] at htoken
    exact fun h0 => put_written_ne_nil p c (List.suffix_nil.1 (h0 ▸ hgrow.written))

theorem step_written_ne_nil (p : Printer) {op : Op} (h : op.writes = true) : (p.step op).written ≠ [] := by
  cases op with
  | token s => exact token_written_ne_nil p (by simpa [Op.writes] using h)
  | newline => exact List.cons_ne_nil _ _
  | openBlock mark => exact List.cons_ne_nil _ _
  | closeBlock mark => exact token_written_ne_nil _ (by simpa [Op.writes] using h)
  | _ => cases h

end Printer

/-- a run that gets through something that writes has written something -/
theorem run_written_ne_nil {s : Script} {op : Printer.Op} (hs : .print op ∈ s) (hop : op.writes = true) {g : Generator}
    (hr : (Generator.run s g).2 = none) : (Generator.run s g).1.printer.written ≠ [] := by
  obtain ⟨pre, post, rfl⟩ := List.append_of_mem hs
  rw [Generator.run_append_of_none (Generator.run_none_of_append hr)]
  have hgrow := Generator.run_grows post ((Generator.run pre g).1.print op)
  exact fun h0 => Printer.step_written_ne_nil _ hop (List.suffix_nil.1 (h0 ▸ hgrow.written))

/-- an element that writes something in every node -/
def Emission.Element.isMark (e : Element) : Bool :=
  e.guard == .always && match e.part with
    | .print op => op.writes
    | .keyword => true
    | _ => false

/-- all statements but comments and rules have a mark of their own -/
theorem format_marked : ∀ k ∈ Family.statement.kinds, k ≠ .comment → k ≠ .rule →
    k.format.any Element.isMark = true := by
  decide

theorem mark_writes {e : Element} (h : e.isMark = true) (parent : Option Kind) (s : Site) :
    ∃ op : Printer.Op, op.writes = true ∧ .print op ∈ e.script parent s := by
  obtain ⟨guard, part⟩ := e
  simp only [Element.isMark, Bool.and_eq_true, beq_iff_eq] at h
  obtain ⟨rfl, h⟩ := h
  cases part with
  | print op => exact ⟨op, h, List.mem_singleton_self _⟩
  | keyword =>
    refine ⟨_, ?_, List.mem_singleton_self _⟩
    split <;> decide
  | _ => cases h

theorem lines_ne_nil {l : List Char} (h : l ≠ []) : Text.lines l ≠ [] := by
  fun_cases Text.lines l with
  | case1 => exact absurd rfl h
  | case2 rest => exact List.cons_ne_nil _ _
  | case3 rest => exact List.cons_ne_nil _ _
  | case4 c rest =>
    unfold Text.consLine
    split <;> exact List.cons_ne_nil _ _

/-- a comment that is not silent has a first line, and that begins with a mark -/
theorem commentLines_writes {t : String} (ht : t ≠ "") : .print (.token "//") ∈ commentLines t := by
  have hlines : Text.lines t.toList ≠ [] := lines_ne_nil (by simpa using ht)
  have hfirst : ∀ line, .print (.token "//") ∈ commentLine line := by
    intro line
    unfold commentLine
    split <;> exact List.mem_cons_self
  rw [commentLines]
  cases hl : Text.lines t.toList with
  | nil => exact absurd hl hlines
  | cons line rest =>
    cases rest with
    | nil => simpa using hfirst line
    | cons line' rest =>
      rw [List.map_cons, List.map_cons, List.intercalate_cons_cons]
      exact List.mem_append_left _ (List.mem_append_left _ (hfirst line))

/-- a comment is silent exactly if it has no text -/
theorem isSilent_comment {n : Node} (hv : n.Valid) (hk : n.kind = .comment) :
    isSilent n.kind n.fields = true ↔ n.get? "value" = none ∨ n.get? "value" = some (.string "") := by
  rw [isSilent, hk, Bool.and_eq_true]
  rcases optional_get? hv hk "value" (.head _) with hg | ⟨v, hg, ha⟩
  · have hlookup : n.fields.lookup "value" = none := hg
    simp [hg, hlookup]
  · obtain ⟨t, rfl⟩ := Shape.textual_string v ha
    have hlookup : n.fields.lookup "value" = some (.string t) := hg
    simp [hg, hlookup]

theorem statement_writes {n : Node} (hv : n.Valid) (hk : n.kind ∈ Family.statement.kinds)
    (hs : isSilent n.kind n.fields = false) (parent : Option Kind) :
    ∃ op : Printer.Op, op.writes = true ∧ .print op ∈ n.script parent := by
  -- the text of a comment and the selectors of a rule may be empty; all other formats have a fixed mark
  have hin : ∀ op, .print op ∈ formatted parent n.site → .print op ∈ n.script parent := fun op h => by
    rw [script_eq hv]
    exact List.mem_append_left _ (List.mem_append_right _ h)
  by_cases hc : n.kind = .comment
  · have htext : ∃ t, n.get? "value" = some (.string t) ∧ t ≠ "" := by
      rw [Bool.eq_false_iff, ne_eq, isSilent_comment hv hc, not_or] at hs
      rcases optional_get? hv hc "value" (.head _) with hg | ⟨v, hg, ha⟩
      · exact absurd hg hs.1
      · obtain ⟨t, rfl⟩ := Shape.textual_string v ha
        exact ⟨t, hg, fun he => hs.2 (by rw [hg, he])⟩
    obtain ⟨t, hg, ht⟩ := htext
    have hsite : n.site.get? "value" = some (.string t) := by rw [site_get?, hg, Option.map_some, piece_string]
    refine ⟨.token "//", rfl, hin _ ?_⟩
    rw [formatted_of_kind hc]
    simpa [Kind.format, script_field _ _ _ hsite] using commentLines_writes ht
  · by_cases hr : n.kind = .rule
    · obtain ⟨rs, hrs⟩ := required_nodes hv hr "declarations" (.tail _ (.head _)) (Shape.nodal_deferred _ _)
      refine ⟨.openBlock "\x7b", rfl, hin _ ?_⟩
      rw [formatted_of_kind hr]
      simp [Kind.format, script_field _ _ _ hrs, braced, Instr.openBlock]
    · obtain ⟨e, he, hm⟩ := List.any_eq_true.1 (format_marked n.kind hk hc hr)
      obtain ⟨op, hop, hmem⟩ := mark_writes hm parent n.site
      exact ⟨op, hop, hin op (List.mem_flatMap.2 ⟨e, he, hmem⟩)⟩

/-- a silent comment has nothing to write -/
theorem script_of_silent {n : Node} (hv : n.Valid) (hs : isSilent n.kind n.fields = true) (parent : Option Kind) :
    n.script parent = [.enter n.kind, .leave] := by
  have hk : n.kind = .comment := by
    rw [isSilent, Bool.and_eq_true] at hs
    exact eq_of_beq hs.1
  rw [script_eq hv, formatted_of_kind hk]
  rcases (isSilent_comment hv hk).1 hs with hg | hg
  · have hsite : n.site.get? "value" = none := by rw [site_get?, hg]; rfl
    simp [Kind.format, script_field_none _ _ _ hsite]
  · have hsite : n.site.get? "value" = some (.string "") := by rw [site_get?, hg, Option.map_some, piece_string]
    simp [Kind.format, script_field _ _ _ hsite, commentLines, Text.lines]

/-- **Silence.** A statement writes the empty text exactly if it is a silent comment. -/
theorem statement_silent_iff {n : Node} (hv : n.Valid) (hk : n.kind ∈ Family.statement.kinds) (parent : Option Node)
    (indent : String) : render n parent indent = .ok "" ↔ isSilent n.kind n.fields = true := by
  constructor
  · intro h
    cases hs : isSilent n.kind n.fields with
    | true => rfl
    | false =>
      obtain ⟨op, hop, hmem⟩ := statement_writes hv hk hs (parent.map Node.kind)
      have hhalt := (render_ok_iff hv parent indent).1 ⟨"", h⟩
      have hrun : (Generator.run (n.script (parent.map Node.kind)) (Generator.new indent)).2 = none := by
        have herr := (write_ends hv parent (Generator.new indent)).error
        rw [hhalt] at herr
        exact herr
      rw [render_eq n hv, hhalt, Except.ok.injEq, Generator.text, Printer.text] at h
      have hnil := run_written_ne_nil hmem hop hrun
      rw [← String.toList_inj] at h
      simp only [String.toList_ofList, String.toList_empty, List.reverse_eq_nil_iff] at h
      exact absurd h hnil
  · intro hs
    rw [render, Generator.write, script_of_silent hv hs]
    rfl

/-! ## Adding texts -/

/-- a text after which the cursor stands at the start of a line, if it stood so before -/
def Ended (t : String) : Prop := t = "" ∨ t.toList.getLast? = some '\n'

instance (t : String) : Decidable (Ended t) := inferInstanceAs (Decidable (_ ∨ _))

theorem ended_append {s t : String} (hs : Ended s) : Ended (s ++ t) ↔ Ended t := by
  by_cases ht : t = ""
  · subst ht
    rw [String.append_empty]
    exact ⟨fun _ => Or.inl rfl, fun _ => hs⟩
  · have hne : t.toList ≠ [] := by simpa using ht
    simp [Ended, ht, List.getLast?_append_of_ne_nil _ hne]

theorem ended_append_newline (t : String) : Ended (t ++ "\n") := by
  right
  simp

/-- ends the line that a text has begun -/
def lineEnd (t : String) : String := if Ended t then "" else "\n"

theorem ended_lineEnd (t : String) : Ended (t ++ lineEnd t) := by
  unfold lineEnd
  split
  · rwa [String.append_empty]
  · exact ended_append_newline t

/-- the printer `q` is `p`, at the start of a line, with a text added -/
structure Adds (p : Printer) (t : String) (q : Printer) : Prop where
  indent : q.indent = p.indent
  depth : q.depth = p.depth
  written : q.written = t.toList.reverse ++ p.written
  fresh : q.atLineStart = true ↔ Ended t

namespace Adds

variable {p q r : Printer} {s t : String}

theorem refl (h : p.atLineStart = true) : Adds p "" p := ⟨rfl, rfl, rfl, by simp [h, Ended]⟩

theorem trans (h : Adds p s q) (hs : Ended s) (h' : Adds q t r) : Adds p (s ++ t) r := by
  refine ⟨h'.indent.trans h.indent, h'.depth.trans h.depth, ?_, h'.fresh.trans (ended_append hs).symm⟩
  rw [h'.written, h.written, String.toList_append, List.reverse_append, List.append_assoc]

theorem text (h : Adds p t q) : q.text = p.text ++ t := by
  rw [Printer.text, h.written, List.reverse_append, List.reverse_reverse, String.ofList_append, String.ofList_toList]
  rfl

theorem newline (h : Adds p t q) : Adds p (t ++ "\n") q.newline := by
  refine ⟨h.indent, h.depth, ?_, by simp [ended_append_newline]⟩
  rw [Printer.newline_written, h.written, String.toList_append, List.reverse_append]
  rfl

theorem maybeNewline (h : Adds p t q) : Adds p (t ++ lineEnd t) q.maybeNewline := by
  unfold lineEnd Printer.maybeNewline
  by_cases ht : Ended t
  · rw [if_pos ht, if_pos (h.fresh.2 ht), String.append_empty]; exact h
  · rw [if_neg ht, if_neg fun hq => ht (h.fresh.1 hq)]; exact h.newline

end Adds

/-- a page ends its last line exactly if nothing stands at the cursor -/
theorem ended_page (indent : String) (depth : Nat) (page : Page) :
    Ended (page.text indent depth) ↔ page.line.content = "" := by
  -- finished lines end in a line feed, so only the line at the cursor counts
  have habove : Ended (page.above indent depth) := by
    unfold Page.above
    induction page.done using List.reverseRecOn with
    | nil => exact Or.inl rfl
    | append_singleton done l ih =>
      rw [List.map_append, String.join_append, ended_append ih, List.map_singleton, String.join_cons, String.join_nil,
        String.append_empty]
      exact ended_append_newline _
  rw [Page.text_eq, ended_append habove]
  by_cases h0 : page.line.content = ""
  · rw [Line.text, if_pos h0]
    exact ⟨fun _ => h0, fun _ => Or.inl rfl⟩
  · have hne : page.line.content.toList ≠ [] := by simpa using h0
    refine ⟨?_, fun h => absurd h h0⟩
    rw [Line.text, if_neg h0, Ended, String.append_eq_empty_iff, String.toList_append,
      List.getLast?_append_of_ne_nil _ hne]
    rintro (h | h)
    · exact h.2
    · exact absurd (List.mem_of_getLast? h) page.line.unbroken

theorem adds_of_shows {p q : Printer} {page : Page} (h : Shows p page q) (hd : page.depth = 0) :
    Adds p (page.text p.indent p.depth) q :=
  ⟨h.indent, by rw [h.depth, hd]; rfl, h.written, by rw [h.fresh, ended_page]⟩

/-! ## Printing from the start of a line -/

theorem run_enter (k : Kind) (s : Script) (g : Generator) :
    Generator.run ([.enter k] ++ s) g = Generator.run s { g with path := g.path ++ [k] } := rfl

/-- from the start of a line, in this unit and at this depth, the script runs through and adds the text -/
def Prints (indent : String) (depth : Nat) (s : Script) (t : String) : Prop :=
  ∀ g : Generator, g.printer.atLineStart = true → g.printer.indent = indent → g.printer.depth = depth →
    (Generator.run s g).2 = none ∧ Adds g.printer t (Generator.run s g).1.printer

namespace Prints

variable {indent : String} {depth : Nat} {s s' : Script} {t t' : String}

theorem nil : Prints indent depth [] "" := fun _ hg _ _ => ⟨rfl, .refl hg⟩

theorem append (h : Prints indent depth s t) (ht : Ended t) (h' : Prints indent depth s' t') :
    Prints indent depth (s ++ s') (t ++ t') := by
  intro g hg hi hd
  obtain ⟨hr, ha⟩ := h g hg hi hd
  obtain ⟨hr', ha'⟩ := h' _ (ha.fresh.2 ht) (ha.indent.trans hi) (ha.depth.trans hd)
  rw [Generator.run_append_of_none hr]
  exact ⟨hr', ha.trans ht ha'⟩

/-- entering and leaving a node writes nothing -/
theorem node (h : Prints indent depth s t) (k : Kind) : Prints indent depth ([.enter k] ++ s ++ [.leave]) t := by
  intro g hg hi hd
  obtain ⟨hr, ha⟩ := h { g with path := g.path ++ [k] } hg hi hd
  rw [List.append_assoc, run_enter, Generator.run_append_of_none hr]
  exact ⟨rfl, ha⟩

theorem newline (h : Prints indent depth s t) : Prints indent depth (s ++ [Instr.newline]) (t ++ "\n") := by
  intro g hg hi hd
  obtain ⟨hr, ha⟩ := h g hg hi hd
  rw [Generator.run_append_of_none hr]
  exact ⟨rfl, ha.newline⟩

theorem maybeNewline (h : Prints indent depth s t) :
    Prints indent depth (s ++ [Instr.maybeNewline]) (t ++ lineEnd t) := by
  intro g hg hi hd
  obtain ⟨hr, ha⟩ := h g hg hi hd
  rw [Generator.run_append_of_none hr]
  exact ⟨rfl, ha.maybeNewline⟩

end Prints

/-! ## Nodes -/

/-- lines as they are printed at a depth -/
def Line.stack (indent : String) (depth : Nat) (lines : List Line) : String :=
  "\n".intercalate (lines.map (Line.text indent depth))

/-- a node that can be written prints lines of its own, in every unit and at every depth -/
theorem exists_lines {n : Node} (hv : n.Valid) (hh : n.halt? = none) (parent : Option Kind) :
    ∃ lines : List Line, ∀ indent depth, Prints indent depth (n.script parent) (Line.stack indent depth lines) := by
  have hn := script_nested n hv parent
  obtain ⟨page, hd, hpage⟩ := hn.shows hh .empty
  refine ⟨page.lines, fun indent depth g hg hi hdepth => ⟨?_, ?_⟩⟩
  · rw [(hn.run g).error, hh]; rfl
  · have hadds := adds_of_shows (hpage g.printer g (Shows.begin hg)) hd
    rwa [hi, hdepth] at hadds

/-- a printer at the start of a line that has written nothing -/
def blankAt (indent : String) (depth : Nat) : Generator := ⟨⟨[], indent, depth, true⟩, []⟩

/-- what a script prints is what it writes with nothing before it -/
theorem Prints.written {indent : String} {depth : Nat} {s : Script} {t : String} (h : Prints indent depth s t) :
    (Generator.run s (blankAt indent depth)).2 = none ∧
      (Generator.run s (blankAt indent depth)).1.printer.written = t.toList.reverse := by
  obtain ⟨hr, ha⟩ := h (blankAt indent depth) rfl rfl rfl
  exact ⟨hr, by rw [ha.written]; exact List.append_nil _⟩

/-- printing at depth zero is rendering -/
theorem render_of_prints {n : Node} {parent : Option Node} {indent t : String}
    (h : Prints indent 0 (n.script (parent.map Node.kind)) t) : render n parent indent = .ok t := by
  obtain ⟨hr, hw⟩ := h.written
  have hnew : Generator.new indent = blankAt indent 0 := rfl
  rw [render, Generator.write, hnew]
  generalize Generator.run (n.script (parent.map Node.kind)) (blankAt indent 0) = out at hr hw ⊢
  obtain ⟨g, e⟩ := out
  cases hr
  simp only [Generator.text, Printer.text, Except.ok.injEq]
  rw [hw, List.reverse_reverse, String.ofList_toList]

section Statements

variable {n : Node} (hv : n.Valid) {indent : String} {depth : Nat} {parent : Option Kind} {t : String}

include hv

theorem prints_ne_empty (hk : n.kind ∈ Family.statement.kinds) (hs : isSilent n.kind n.fields = false)
    (h : Prints indent depth (n.script parent) t) : t ≠ "" := by
  obtain ⟨hr, hw⟩ := h.written
  obtain ⟨op, hop, hmem⟩ := statement_writes hv hk hs parent
  rintro rfl
  exact run_written_ne_nil hmem hop hr hw

theorem prints_newline (hk : n.kind = .newline) (h : Prints indent depth (n.script parent) t) : t = "\n" := by
  obtain ⟨-, hw⟩ := h.written
  have hscript : n.script parent = [.enter n.kind, Instr.newline, .leave] := by
    rw [script_eq hv, formatted_of_kind hk]; rfl
  rw [hscript] at hw
  rw [← String.toList_inj, ← List.reverse_inj, ← hw]
  rfl

end Statements

/-! ## Bodies -/

/-- the line break after a text, unless it ends in one -/
def breakAfter (t : String) : String := if t.toList.getLast? = some '\n' then "" else "\n"

/-- what stands between a statement, written as a text, and the next one: the end of its line, and a blank line after
the last of a run of assignments -/
def seam (c : Node) (text : String) (next : Node) : String :=
  breakAfter text ++ if c.kind = .assignment ∧ next.kind ≠ .assignment ∧ next.kind ≠ .newline then "\n" else ""

/-- the text of statements in a body, from the texts that they have on their own -/
def bodyText (own : Node → String) : List Node → String
  | [] => ""
  | [c] => if c.kind = .newline then "\n" else own c
  | c :: next :: rest =>
    (if c.kind = .newline then "\n" else own c ++ seam c (own c) next) ++ bodyText own (next :: rest)

theorem bodyText_ne_empty {own : Node → String} {v : List Node} (hv : v ≠ []) (h : ∀ c ∈ v, own c ≠ "") :
    bodyText own v ≠ "" := by
  fun_cases bodyText own v with
  | case1 => exact absurd rfl hv
  | case2 c hk => decide
  | case3 c hk => exact h c List.mem_cons_self
  | case4 c next rest =>
    have hc : own c ≠ "" := h c List.mem_cons_self
    have hfirst : (if c.kind = .newline then "\n" else own c ++ seam c (own c) next) ≠ "" := by
      split
      · decide
      · exact fun h0 => hc (String.append_eq_empty_iff.1 h0).1
    exact fun h0 => hfirst (String.append_eq_empty_iff.1 h0).1

theorem breakAfter_eq_lineEnd {t : String} (h : t ≠ "") : breakAfter t = lineEnd t := by
  simp [breakAfter, lineEnd, Ended, h]

/-- the end of a body's last line -/
theorem lineEnd_bodyText {own : Node → String} {v : List Node} (h : ∀ c ∈ v, own c ≠ "") :
    lineEnd (bodyText own v) = if v.isEmpty then "" else breakAfter (bodyText own v) := by
  by_cases hv : v = []
  · subst hv; rfl
  · rw [if_neg (by simpa using hv), breakAfter_eq_lineEnd (bodyText_ne_empty hv h)]

namespace Prints

variable {indent : String} {depth : Nat} {parent : Option Kind} {own : Node → String}

/-- one statement, with what stands between it and the next -/
theorem seamed {c : Node} (h : Prints indent depth (c.script parent) (own c)) (hne : own c ≠ "")
    (hnl : c.kind = .newline → own c = "\n") (next : Node) :
    Prints indent depth (c.script parent ++ gap (rendered parent c) (rendered parent next))
        (if c.kind = .newline then "\n" else own c ++ seam c (own c) next) ∧
      Ended (if c.kind = .newline then "\n" else own c ++ seam c (own c) next) := by
  have hline := h.maybeNewline
  by_cases hk : c.kind = .newline
  · have hgap : gap (rendered parent c) (rendered parent next) = [Instr.maybeNewline] := by
      simp [gap, rendered, hk]
    have hend : lineEnd (own c) = "" := if_pos (Or.inr (by rw [hnl hk]; rfl))
    rw [hend, String.append_empty, hnl hk] at hline
    rw [if_pos hk, hgap]
    exact ⟨hline, Or.inr rfl⟩
  · rw [if_neg hk, seam, breakAfter_eq_lineEnd hne, ← String.append_assoc]
    by_cases hrun : c.kind = .assignment ∧ next.kind ≠ .assignment ∧ next.kind ≠ .newline
    · have hgap : gap (rendered parent c) (rendered parent next) = [Instr.maybeNewline] ++ [Instr.newline] :=
        if_pos hrun
      rw [if_pos hrun, hgap, ← List.append_assoc]
      exact ⟨hline.newline, ended_append_newline _⟩
    · have hgap : gap (rendered parent c) (rendered parent next) = [Instr.maybeNewline] := if_neg hrun
      rw [if_neg hrun, hgap, String.append_empty]
      exact ⟨hline, ended_lineEnd _⟩

/-- **Statements in a row** print the text of the body. -/
theorem stacked {v : List Node} (h : ∀ c ∈ v, Prints indent depth (c.script parent) (own c))
    (hne : ∀ c ∈ v, own c ≠ "") (hnl : ∀ c ∈ v, c.kind = .newline → own c = "\n") :
    Prints indent depth (Emission.stacked (v.map (rendered parent))) (bodyText own v) := by
  -- a statement ends its line before the gap is over, so what follows starts a line as the row itself did
  induction v with
  | nil => exact .nil
  | cons c v ih =>
    have hc := h c List.mem_cons_self
    have hnlc := hnl c List.mem_cons_self
    cases v with
    | nil =>
      have htext : bodyText own [c] = own c := by
        unfold bodyText
        split
        · rename_i hk; exact (hnlc hk).symm
        · rfl
      rw [htext]
      exact hc
    | cons next rest =>
      have hrest := ih (fun x hx => h x (List.mem_cons_of_mem _ hx)) (fun x hx => hne x (List.mem_cons_of_mem _ hx))
        (fun x hx => hnl x (List.mem_cons_of_mem _ hx))
      obtain ⟨hprint, hend⟩ := hc.seamed (hne c List.mem_cons_self) hnlc next
      exact hprint.append hend hrest

end Prints

/-- the field in which a kind has its statements -/
def Kind.bodyField? : Kind → Option String
  | .styleSheet | .atRule => some "children"
  | .blockStatement => some "body"
  | .rule => some "declarations"
  | _ => none

theorem bodyField_schema {k : Kind} {field : String} (h : k.bodyField? = some field) :
    ∃ spec ∈ k.schema, spec.name = field ∧ spec.shape = Schema.statements := by
  cases k with
  | styleSheet => cases h; exact ⟨_, .head _, rfl, rfl⟩
  | blockStatement => cases h; exact ⟨_, .head _, rfl, rfl⟩
  | rule => cases h; exact ⟨_, .tail _ (.head _), rfl, rfl⟩
  | atRule => cases h; exact ⟨_, .tail _ (.tail _ (.head _)), rfl, rfl⟩
  | _ => cases h

theorem body_admits {n : Node} (hv : n.Valid) {field : String} (hf : n.kind.bodyField? = some field) {v : Value}
    (hg : n.get? field = some v) : Schema.statements.admits v = true := by
  obtain ⟨spec, hs, rfl, hshape⟩ := bodyField_schema hf
  rcases hv.conforms.lookup (schema_names_nodup _) hs with ⟨-, hnone⟩ | ⟨w, hsome, ha⟩
  · rw [Node.get?, hnone] at hg; cases hg
  · rw [Node.get?, hsome, Option.some.injEq] at hg
    rwa [hg, hshape] at ha

/-- the statements of a valid node are valid, and of the kinds that can stand in a body -/
theorem statements_of_valid {n : Node} (hv : n.Valid) {field : String} (hf : n.kind.bodyField? = some field)
    {cs : List Node} (hg : n.get? field = some (.list (cs.map Node.toValue))) :
    ∀ c ∈ cs, c ∈ n.children ∧ c.Valid ∧ c.kind ∈ Family.statement.kinds := by
  intro c hc
  have hchild : c ∈ n.children := List.mem_flatMap.2 ⟨_, mem_of_lookup hg, by rw [Value.top_nodes]; exact hc⟩
  obtain ⟨vs, hvs, hall⟩ := Shape.admits_listOf (body_admits hv hf hg)
  have hadmits := hall c.toValue (by rw [← Value.list.inj hvs]; exact List.mem_map_of_mem hc)
  rw [Shape.admits_deferred, Node.toValue, Shape.isNodeOf, List.contains_iff_mem] at hadmits
  exact ⟨hchild, hv.of_child c hchild, hadmits⟩

/-- what can be written has children that can be written -/
theorem halt?_of_child {n : Node} (h : n.halt? = none) : ∀ m ∈ n.children, m.halt? = none := by
  cases ho : n.offence? with
  | some k => rw [Node.halt?_of_offence ho] at h; cases h
  | none =>
    rw [Node.halt?_of_children ho, Option.map_eq_none_iff, List.findSome?_eq_none_iff] at h
    exact h

/-- **A body** prints its text, each statement in lines of its own, in every unit and at every depth. -/
theorem body_prints {n : Node} (hv : n.Valid) (hh : n.halt? = none) {field : String}
    (hf : n.kind.bodyField? = some field) {cs : List Node}
    (hg : n.get? field = some (.list (cs.map Node.toValue))) :
    ∃ lines : Node → List Line,
      (∀ c ∈ cs, ∀ indent, render c (some n) indent = .ok (Line.stack indent 0 (lines c))) ∧
      (∀ c ∈ visibleNodes cs, ∀ indent depth, Line.stack indent depth (lines c) ≠ "") ∧
      ∀ indent depth, Prints indent depth (body (cs.map (rendered (some n.kind))))
        (bodyText (fun c => Line.stack indent depth (lines c)) (visibleNodes cs)) := by
  have hcs := statements_of_valid hv hf hg
  -- the lines of a child depend on neither unit nor depth, so they are chosen before both
  have hlines : ∀ c, ∃ lines : List Line, c ∈ cs → ∀ indent depth,
      Prints indent depth (c.script (some n.kind)) (Line.stack indent depth lines) := by
    intro c
    by_cases hc : c ∈ cs
    · obtain ⟨hchild, hvalid, -⟩ := hcs c hc
      obtain ⟨lines, hl⟩ := exists_lines hvalid (halt?_of_child hh c hchild) (some n.kind)
      exact ⟨lines, fun _ => hl⟩
    · exact ⟨[], fun h => absurd h hc⟩
  choose lines hlines using hlines
  have hvisible : ∀ c ∈ visibleNodes cs, c ∈ cs ∧ isSilent c.kind c.fields = false := by
    intro c hc
    have hfilter := (List.rdropWhile_prefix _ _).subset hc
    rw [List.mem_filter, Bool.not_eq_true'] at hfilter
    exact hfilter
  have hne : ∀ c ∈ visibleNodes cs, ∀ indent depth, Line.stack indent depth (lines c) ≠ "" := by
    intro c hc indent depth
    obtain ⟨hmem, hs⟩ := hvisible c hc
    obtain ⟨-, hvalid, hkind⟩ := hcs c hmem
    exact prints_ne_empty hvalid hkind hs (hlines c hmem indent depth)
  refine ⟨lines, fun c hc indent => render_of_prints (hlines c hc indent 0), hne, fun indent depth => ?_⟩
  rw [body, visible_rendered]
  refine .stacked (fun c hc => hlines c (hvisible c hc).1 indent depth) (fun c hc => hne c hc indent depth)
    fun c hc hk => ?_
  have hmem := (hvisible c hc).1
  exact prints_newline (hcs c hmem).2.1 hk (hlines c hmem indent depth)

/-! ## Blocks -/

/-- a text field; none is empty -/
def Node.textOf (n : Node) (field : String) : String := ((n.get? field).bind Value.string?).getD ""

/-- the texts of a list field -/
def Node.textsOf (n : Node) (field : String) : List String :=
  (((n.get? field).bind Value.list?).getD []).filterMap Value.string?

/-- what is written before the brace of a block: the selectors of a rule, or the name and query of an at-rule -/
def Node.header (n : Node) : List Printer.Op :=
  match n.kind with
  | .rule => [.token (", ".intercalate (n.textsOf "selectors")), .space]
  | .atRule =>
    [.token "@", .token (n.textOf "name")] ++
      (if n.textOf "media" = "" then [] else [.space, .token (n.textOf "media")]) ++ [.space]
  | _ => []

/-- the field with the statements of a block -/
def Kind.blockField? (k : Kind) : Option String := if k = .styleSheet then none else k.bodyField?

theorem bodyField_of_blockField {k : Kind} {field : String} (h : k.blockField? = some field) :
    k.bodyField? = some field := by
  unfold Kind.blockField? at h
  split at h
  · cases h
  · exact h

/-- the statements of a body, ready to be written -/
theorem body_site {n : Node} {field : String} (hf : n.kind.bodyField? = some field) {cs : List Node}
    (hg : n.get? field = some (.list (cs.map Node.toValue))) :
    n.site.get? field = some (.list ((cs.map (rendered (some n.kind))).map .node)) := by
  have hcontext : contextIn n.kind field = some n.kind := by
    cases hk : n.kind <;> rw [hk] at hf <;> cases hf <;> rfl
  rw [site_get?, hg, Option.map_some, piece_nodes, hcontext]

/-- a sheet is written as its statements -/
theorem sheet_script {s : Node} (hv : s.Valid) (hk : s.kind = .styleSheet) {cs : List Node}
    (hg : s.get? "children" = some (.list (cs.map Node.toValue))) (parent : Option Kind) :
    s.script parent = [.enter s.kind] ++ body (cs.map (rendered (some s.kind))) ++ [.leave] := by
  have hrs := body_site (by rw [hk]; rfl) hg
  generalize cs.map (rendered (some s.kind)) = rs at hrs ⊢
  rw [script_eq hv, formatted_of_kind hk]
  simp [Kind.format, script_field _ _ _ hrs]

section Blocks

variable {n : Node} (hv : n.Valid) {rs : List Rendered} (parent : Option Kind)

include hv

theorem rule_block (hk : n.kind = .rule) (hrs : n.site.get? "declarations" = some (.list (rs.map .node))) :
    formatted parent n.site = n.header.map .print ++ braced rs := by
  obtain ⟨v, hsel, ha⟩ := required_get? hv hk "selectors" (.head _)
  obtain ⟨ts, rfl⟩ := Shape.textual_string.list ha
  have hts : n.site.get? "selectors" = some (.list (ts.map .string)) := by
    rw [site_get?, hsel, Option.map_some, piece_texts]
  have htexts : n.textsOf "selectors" = ts := by
    rw [Node.textsOf, hsel, Option.bind_some, Value.list?, Option.getD_some, List.filterMap_map]
    exact List.filterMap_some
  rw [formatted_of_kind hk, Node.header, hk, htexts]
  simp [Kind.format, script_field _ _ _ hts, script_field _ _ _ hrs, Instr.token, Instr.space]

/-- the query of an at-rule: a text that is not empty -/
theorem query_script (hk : n.kind = .atRule) :
    optionally ((Guard.filled "media").holds n.site)
        (Element.space.script parent n.site ++ (Element.field "media" .text).script parent n.site) =
      (if n.textOf "media" = "" then [] else [.space, .token (n.textOf "media")]).map .print := by
  rcases optional_get? hv hk "media" (.tail _ (.head _)) with hm | ⟨v, hm, ha⟩
  · have hmedia : n.site.get? "media" = none := by rw [site_get?, hm]; rfl
    have ht : n.textOf "media" = "" := by rw [Node.textOf, hm]; rfl
    simp [Guard.holds, hmedia, ht, optionally]
  · obtain ⟨t, rfl⟩ := Shape.textual_string v ha
    have hmedia : n.site.get? "media" = some (.string t) := by rw [site_get?, hm, Option.map_some, piece_string]
    have ht : n.textOf "media" = t := by rw [Node.textOf, hm]; rfl
    by_cases h0 : t = ""
    · simp [Guard.holds, hmedia, ht, h0, optionally]
    · simp [Guard.holds, hmedia, ht, h0, optionally, script_field _ _ _ hmedia, Instr.token, Instr.space]

theorem atRule_block (hk : n.kind = .atRule) (hrs : n.site.get? "children" = some (.list (rs.map .node)))
    (hne : rs ≠ []) : formatted parent n.site = n.header.map .print ++ braced rs := by
  obtain ⟨v, hname, ha⟩ := required_get? hv hk "name" (.head _)
  obtain ⟨name, rfl⟩ := Shape.textual_string v ha
  have hsite : n.site.get? "name" = some (.string name) := by rw [site_get?, hname, Option.map_some, piece_string]
  have hn : n.textOf "name" = name := by rw [Node.textOf, hname]; rfl
  have hfilled : (Guard.filled "children").holds n.site = true := by simpa [Guard.holds, hrs] using hne
  have hquery := query_script hv parent hk
  rw [script_space] at hquery
  rw [formatted_of_kind hk, Node.header, hk, hn]
  simp only [List.map_append, ← hquery]
  simp [Kind.format, script_field _ _ _ hsite, script_field _ _ _ hrs, hfilled, optionally, Instr.token, Instr.space]

/-- a node with a block is written as its header and its statements in braces -/
theorem block_formatted {field : String} (hf : n.kind.blockField? = some field)
    (hrs : n.site.get? field = some (.list (rs.map .node))) (hne : n.kind = .atRule → rs ≠ []) :
    formatted parent n.site = n.header.map .print ++ braced rs := by
  cases hk : n.kind with
  | rule => rw [hk] at hf; cases hf; exact rule_block hv parent hk hrs
  | atRule => rw [hk] at hf; cases hf; exact atRule_block hv parent hk hrs (hne hk)
  | blockStatement =>
    rw [hk] at hf; cases hf
    rw [formatted_of_kind hk, Node.header, hk]
    simp [Kind.format, script_field _ _ _ hrs]
  | _ => rw [hk] at hf; cases hf

end Blocks

theorem run_prints (ops : List Printer.Op) (s : Script) (g : Generator) :
    Generator.run (ops.map .print ++ s) g = Generator.run s { g with printer := g.printer.run ops } := by
  induction ops generalizing g with
  | nil => rfl
  | cons op ops ih => exact ih (g.print op)

/-- what closing a block adds: the end of the line, and the mark on a line of its own one level out -/
theorem closeBlock_text {p q : Printer} {t : String} (h : Adds p t q) :
    (q.closeBlock "\x7d").text =
      p.text ++ t ++ lineEnd t ++ String.join (List.replicate (p.depth - 1) p.indent) ++ "\x7d" := by
  have hline := h.maybeNewline
  have hstart : q.maybeNewline.atLineStart = true := hline.fresh.2 (ended_lineEnd t)
  have hmark : ∀ r : Printer, r.atLineStart = true →
      (r.token "\x7d").text = r.text ++ String.join (List.replicate r.depth r.indent) ++ "\x7d" := by
    intro r hr
    have hput : r.token "\x7d" =
        { r with written := '\x7d' :: (r.indentation.reverse ++ r.written), atLineStart := false } := by
      change r.put '\x7d' = _
      rw [Printer.put, if_neg (by decide), hr]; rfl
    rw [hput, ← String.toList_inj]
    simp [Printer.text, Printer.indentation, String.toList_join]
  calc (q.closeBlock "\x7d").text
      = q.maybeNewline.text ++
          String.join (List.replicate (q.maybeNewline.depth - 1) q.maybeNewline.indent) ++ "\x7d" := hmark _ hstart
    _ = p.text ++ t ++ lineEnd t ++ String.join (List.replicate (p.depth - 1) p.indent) ++ "\x7d" := by
        rw [hline.text, hline.depth, hline.indent, ← String.append_assoc]

theorem Printer.text_newline (p : Printer) : p.newline.text = p.text ++ "\n" := by
  rw [Printer.text, Printer.newline_written, List.reverse_cons, String.ofList_append]
  rfl

/-- what opens and closes no block leaves unit and depth as they are -/
theorem Printer.run_of_flat {ops : List Printer.Op} (hops : ∀ op ∈ ops, op.isFlat = true) (p : Printer) :
    (p.run ops).indent = p.indent ∧ (p.run ops).depth = p.depth := by
  induction ops generalizing p with
  | nil => exact ⟨rfl, rfl⟩
  | cons op ops ih =>
    obtain ⟨hop, hops⟩ := List.forall_mem_cons.1 hops
    obtain ⟨hi, hd⟩ := ih hops (p.step op)
    exact ⟨hi.trans (Printer.step_grows p op).indent, hd.trans (Printer.step_depth_of_flat hop p)⟩

/-- a block from any generator: the header, the brace, the text inside one level deeper, and the closing brace -/
theorem block_text (g : Generator) {ops : List Printer.Op} (hops : ∀ op ∈ ops, op.isFlat = true) {s : Script}
    {t : String} (h : Prints g.printer.indent (g.printer.depth + 1) s t) :
    ∃ g',
      Generator.run (ops.map .print ++ ([Instr.openBlock "\x7b"] ++ s ++ [Instr.closeBlock "\x7d"])) g = (g', none) ∧
      g'.text = ((g.printer.run ops).token "\x7b").text ++ "\n" ++ t ++ lineEnd t ++
        String.join (List.replicate g.printer.depth g.printer.indent) ++ "\x7d" := by
  let opened : Generator := ⟨(g.printer.run ops).openBlock "\x7b", g.path⟩
  obtain ⟨hindent, hdepth⟩ := Printer.run_of_flat hops g.printer
  have hin : opened.printer.indent = g.printer.indent :=
    (Printer.step_grows (g.printer.run ops) (.openBlock "\x7b")).indent.trans hindent
  have hdeep : opened.printer.depth = g.printer.depth + 1 := by
    have hstep := Printer.step_depth (g.printer.run ops) (.openBlock "\x7b")
    rw [hdepth] at hstep
    exact hstep
  have hopen : Generator.run (ops.map .print ++ ([Instr.openBlock "\x7b"] ++ s ++ [Instr.closeBlock "\x7d"])) g =
      Generator.run (s ++ [Instr.closeBlock "\x7d"]) opened := by
    rw [run_prints, List.append_assoc]; rfl
  obtain ⟨hr, ha⟩ := h opened rfl hin hdeep
  refine ⟨(Generator.run s opened).1.print (.closeBlock "\x7d"), ?_, ?_⟩
  · rw [hopen, Generator.run_append_of_none hr]; rfl
  · have hclose := closeBlock_text ha
    rw [hin, hdeep] at hclose
    have hbrace : opened.printer.text = ((g.printer.run ops).token "\x7b").text ++ "\n" := Printer.text_newline _
    rw [hbrace] at hclose
    exact hclose

theorem header_flat (n : Node) : ∀ op ∈ n.header, op.isFlat = true := by
  unfold Node.header
  split
  · simp [Printer.Op.isFlat]
  · split <;> simp [Printer.Op.isFlat]
  · simp

/-- **The policy of bodies.** A sheet is written as the body of its children, each as it is rendered on its own. A block
statement, a rule, and an at-rule with children are written, from any generator, as their header, a brace, the body of
their statements one level deeper, and a closing brace on its own line; the lines of each statement are those of its own
rendering. -/
theorem body_policy :
    (∀ s : Node, s.Valid → s.kind = .styleSheet → ∀ (parent : Option Node) (indent text : String),
      render s parent indent = .ok text →
      ∃ (cs : List Node) (own : Node → String), s.get? "children" = some (.list (cs.map Node.toValue)) ∧
        (∀ c ∈ cs, render c (some s) indent = .ok (own c)) ∧ text = bodyText own (visibleNodes cs)) ∧
    ∀ n : Node, n.Valid → ∀ (field : String), n.kind.blockField? = some field → ∀ cs : List Node,
      n.get? field = some (.list (cs.map Node.toValue)) → (n.kind = .atRule → cs ≠ []) →
      (∃ parent indent text, render n parent indent = .ok text) →
      ∃ lines : Node → List Line,
        (∀ c ∈ cs, ∀ indent, render c (some n) indent = .ok (Line.stack indent 0 (lines c))) ∧
        ∀ (parent : Option Node) (g : Generator) (inner : String),
          inner = bodyText (fun c => Line.stack g.printer.indent (g.printer.depth + 1) (lines c)) (visibleNodes cs) →
          (g.write n parent).2 = none ∧
          (g.write n parent).1.text = ((g.printer.run n.header).token "\x7b").text ++ "\n" ++ inner ++
            (if (visibleNodes cs).isEmpty then "" else breakAfter inner) ++
            String.join (List.replicate g.printer.depth g.printer.indent) ++ "\x7d" := by
  refine ⟨fun s hv hk parent indent text hr => ?_, fun n hv field hf cs hg hne hr => ?_⟩
  · have hh := (render_ok_iff hv parent indent).1 ⟨text, hr⟩
    obtain ⟨v, hg, ha⟩ := required_get? hv hk "children" (.head _)
    obtain ⟨cs, rfl⟩ := (Shape.nodal_deferred _ _).list ha
    obtain ⟨lines, hown, -, hprint⟩ := body_prints hv hh (by rw [hk]; rfl) hg
    refine ⟨cs, fun c => Line.stack indent 0 (lines c), hg, fun c hc => hown c hc indent, ?_⟩
    have hsheet := (hprint indent 0).node s.kind
    rw [← sheet_script hv hk hg (parent.map Node.kind)] at hsheet
    rw [render_of_prints hsheet, Except.ok.injEq] at hr
    exact hr.symm
  · obtain ⟨parent₀, indent₀, hr⟩ := hr
    have hh := (render_ok_iff hv parent₀ indent₀).1 hr
    obtain ⟨lines, hown, hfull, hprint⟩ := body_prints hv hh (bodyField_of_blockField hf) hg
    refine ⟨lines, hown, fun parent g inner hinner => ?_⟩
    have hrs := body_site (bodyField_of_blockField hf) hg
    have hblock := block_formatted hv (parent.map Node.kind) hf hrs fun hk => by simpa using hne hk
    obtain ⟨g', hrun, htext⟩ := block_text { g with path := g.path ++ [n.kind] } (header_flat n)
      (hprint g.printer.indent (g.printer.depth + 1))
    rw [lineEnd_bodyText fun c hc => hfull c hc _ _, ← hinner] at htext
    rw [Generator.write, script_eq hv, hblock, braced, List.append_assoc, run_enter,
      Generator.run_append_of_none (by rw [hrun]), hrun]
    exact ⟨rfl, htext⟩

/-- an assignment, a silent comment, a rule and a blank line -/
def toneSheet : Node :=
  ⟨.styleSheet, [("children", .list
    [.node .assignment [("id", .node .identifier [("name", .string "tone")]),
       ("init", .node .sassColor [("value", .string "red")])],
     .node .comment [],
     (plainRule "a" "color" "$tone").toValue,
     .node .newline []])]⟩

theorem toneSheet_valid : toneSheet.Valid := Value.valid_of_isValid _ rfl

/-- the sheet is the body of its children, and the block of its rule can be written anywhere -/
theorem toneSheet_body :
    toneSheet.Valid ∧ (plainRule "a" "color" "$tone").Valid ∧
    (∃ (cs : List Node) (own : Node → String), toneSheet.get? "children" = some (.list (cs.map Node.toValue)) ∧
      (∀ c ∈ cs, render c (some toneSheet) "  " = .ok (own c)) ∧
      "$tone: red;\n\na \x7b\n  color: $tone;\n\x7d" = bodyText own (visibleNodes cs)) ∧
    ∀ g : Generator, (g.write (plainRule "a" "color" "$tone") (some toneSheet)).2 = none := by
  have hrule := plainRule_valid "a" "color" "$tone"
  refine ⟨toneSheet_valid, hrule, body_policy.1 toneSheet toneSheet_valid rfl none "  " _ rfl, ?_⟩
  let red : Node := ⟨.declaration, [("property", .string "color"), ("value", .string "$tone")]⟩
  obtain ⟨lines, -, hwrite⟩ := body_policy.2 (plainRule "a" "color" "$tone") hrule "declarations" rfl [red] rfl
    (fun hk => by cases hk) ⟨none, "  ", _, rfl⟩
  exact fun g => (hwrite (some toneSheet) g _ rfl).1

end StyleTree
