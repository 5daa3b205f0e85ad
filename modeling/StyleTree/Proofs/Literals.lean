/-
Quoted literals. A text between single quotes, with a backslash before each quote and each backslash in it, is read back
as it was. The printer does not keep to that: it takes every line feed for layout, also one inside a literal, and puts
the indentation of the current depth before the line that follows. A literal denotes its text where that adds nothing,
which is to say, in a text without line feeds, and wherever the indentation is empty. Quoted keys of maps are written
without any backslash, and are read back only if they need none.

- `readToQuote_indented`: a literal that was indented reads as the text with the same indentation;
- `put_after`, `within_literal`: what the printer makes of a text, and of a literal, inside a line;
- `literals_denote`: what is written for strings and for the paths of imports and modules, and what it is read back as;
- `quoted_keys`: what is written for a quoted key, and which of these keys are read back.
-/
import StyleTree.Proofs.Inline

namespace StyleTree

open Emission Instr

namespace Text

/-! ## Reading literals -/

/-- a text in which nothing has to be escaped -/
def Bare (l : List Char) : Prop := ∀ c ∈ l, c ≠ '\\' ∧ c ≠ quoteMark

instance (l : List Char) : Decidable (Bare l) :=
  inferInstanceAs (Decidable (∀ c ∈ l, c ≠ '\\' ∧ c ≠ quoteMark))

theorem readToQuote_cons {c : Char} (hc : c ≠ '\\' ∧ c ≠ quoteMark) (l : List Char) :
    readToQuote (c :: l) = (readToQuote l).map fun (s, r) => (c :: s, r) := by
  rw [readToQuote, if_neg hc.2] <;> simp [hc.1]

theorem readToQuote_append {l : List Char} (hl : Bare l) (l' : List Char) :
    readToQuote (l ++ l') = (readToQuote l').map fun (s, r) => (l ++ s, r) := by
  induction l with
  | nil => simp
  | cons c l ih =>
    obtain ⟨hc, hl⟩ := List.forall_mem_cons.1 hl
    rw [List.cons_append, readToQuote_cons hc, ih hl, Option.map_map]
    rfl

@[simp] theorem readToQuote_quoteMark (l : List Char) : readToQuote (quoteMark :: l) = some ([], l) := by
  simp [quoteMark, readToQuote]

@[simp] theorem readToQuote_backslash (c : Char) (l : List Char) :
    readToQuote ('\\' :: c :: l) = (readToQuote l).map fun (s, r) => (c :: s, r) := by
  simp [readToQuote]

/-- every character that is read takes up one of the literal, and an escaped one takes up two -/
theorem readToQuote_length {l s r : List Char} (h : readToQuote l = some (s, r)) :
    s.length + r.length + 1 ≤ l.length ∧ (s.length + r.length + 1 = l.length → Bare s) := by
  fun_induction readToQuote l generalizing s r with
  | case1 => cases h
  | case2 => cases h
  | case3 c l ih =>
    simp only [Option.map_eq_some_iff, Prod.mk.injEq, Prod.exists] at h
    obtain ⟨s, r, h, rfl, rfl⟩ := h
    have hle := (ih h).1
    simp only [List.length_cons]
    omega
  | case4 l h0 =>
    cases h
    simp [Bare]
  | case5 c l hlast hesc hc ih =>
    have hback : c ≠ '\\' := by
      rintro rfl
      cases l with
      | nil => exact hlast rfl rfl
      | cons c l => exact hesc c l rfl rfl
    simp only [Option.map_eq_some_iff, Prod.mk.injEq, Prod.exists] at h
    obtain ⟨s, r, h, rfl, rfl⟩ := h
    obtain ⟨hle, heq⟩ := ih h
    refine ⟨by simp only [List.length_cons]; omega, fun hlen => ?_⟩
    refine List.forall_mem_cons.2 ⟨⟨hback, hc⟩, heq ?_⟩
    simp only [List.length_cons] at hlen
    omega

theorem escaped_cons (c : Char) (s : List Char) : escaped (c :: s) = escapeChar c ++ escaped s := List.flatMap_cons

theorem Bare.escaped {s : List Char} (h : Bare s) : escaped s = s := by
  induction s with
  | nil => rfl
  | cons c s ih =>
    obtain ⟨hc, hs⟩ := List.forall_mem_cons.1 h
    rw [escaped_cons, ih hs, escapeChar, if_neg (not_or.2 hc)]
    rfl

/-- escaped or not, a character is read as itself -/
theorem readToQuote_escapeChar (c : Char) (l : List Char) :
    readToQuote (escapeChar c ++ l) = (readToQuote l).map fun (s, r) => (c :: s, r) := by
  by_cases hc : c = '\\' ∨ c = quoteMark
  · rw [escapeChar, if_pos hc]
    exact readToQuote_backslash c l
  · rw [escapeChar, if_neg hc]
    exact readToQuote_cons (not_or.1 hc) l

/-- a text is read back without escaping just if nothing in it has to be escaped -/
theorem readToQuote_iff (s r : List Char) : readToQuote (s ++ quoteMark :: r) = some (s, r) ↔ Bare s := by
  constructor
  · intro h
    exact (readToQuote_length h).2 (by simp; omega)
  · intro h
    rw [readToQuote_append h, readToQuote_quoteMark]
    simp

/-! ## Indented literals -/

/-- what stands before the next character -/
def lead (margin : List Char) (start : Bool) : List Char := if start then margin else []

/-- a text with something behind it, as the printer writes it: the margin stands at the front of every line that is not
empty, and of the last one -/
def indented (margin : List Char) : Bool → List Char → List Char
  | start, [] => lead margin start
  | start, c :: l =>
    if c = '\n' then c :: indented margin true l else lead margin start ++ c :: indented margin false l

section Indented

variable (margin : List Char)

theorem indented_newline (start : Bool) (l : List Char) :
    indented margin start ('\n' :: l) = '\n' :: indented margin true l := rfl

theorem indented_cons {c : Char} (hc : c ≠ '\n') (start : Bool) (l : List Char) :
    indented margin start (c :: l) = lead margin start ++ c :: indented margin false l := if_neg hc

/-- a text without line feeds stays as it is -/
theorem indented_unbroken {l : List Char} (hl : '\n' ∉ l) : indented margin false l = l := by
  induction l with
  | nil => rfl
  | cons c l ih =>
    simp only [List.mem_cons, not_or] at hl
    rw [indented_cons margin (fun h => hl.1 h.symm), ih hl.2]
    rfl

/-- without a margin every text stays as it is -/
theorem indented_nil (start : Bool) (l : List Char) : indented [] start l = l := by
  induction l generalizing start with
  | nil => cases start <;> rfl
  | cons c l ih =>
    by_cases hc : c = '\n'
    · rw [hc, indented_newline, ih]
    · rw [indented_cons [] hc, ih]
      cases start <;> rfl

theorem indented_length (start : Bool) (l : List Char) :
    l.length + (lead margin start).length ≤ (indented margin start l).length := by
  induction l generalizing start with
  | nil => simp [indented]
  | cons c l ih =>
    by_cases hc : c = '\n'
    · have hlead : (lead margin start).length ≤ margin.length := by cases start <;> simp [lead]
      have hrest : l.length + margin.length ≤ (indented margin true l).length := ih true
      rw [hc, indented_newline, List.length_cons, List.length_cons]
      omega
    · have hrest : l.length ≤ (indented margin false l).length := ih false
      rw [indented_cons margin hc, List.length_append, List.length_cons, List.length_cons]
      omega

/-- behind a line feed there is a margin -/
theorem indented_length_of_mem {l : List Char} (hl : '\n' ∈ l) (start : Bool) :
    l.length + margin.length ≤ (indented margin start l).length := by
  induction l generalizing start with
  | nil => cases hl
  | cons c l ih =>
    by_cases hc : c = '\n'
    · have hrest : l.length + margin.length ≤ (indented margin true l).length := indented_length margin true l
      rw [hc, indented_newline, List.length_cons, List.length_cons]
      omega
    · have hrest := ih (List.mem_of_ne_of_mem (Ne.symm hc) hl) false
      rw [indented_cons margin hc, List.length_append, List.length_cons, List.length_cons]
      omega

/-- no other text does -/
theorem indented_eq_iff (l : List Char) : indented margin false l = l ↔ '\n' ∉ l ∨ margin = [] := by
  constructor
  · intro h
    by_contra! hno
    have hlen := indented_length_of_mem margin hno.1 false
    rw [h] at hlen
    have hpos := List.length_pos_iff.2 hno.2
    omega
  · rintro (h | rfl)
    · exact indented_unbroken margin h
    · exact indented_nil false l

variable {margin}

theorem Bare.lead (hm : Bare margin) (start : Bool) : Bare (lead margin start) := by
  cases start
  · nofun
  · exact hm

theorem indented_escapeChar {c : Char} (hc : c ≠ '\n') (start : Bool) (l : List Char) :
    indented margin start (escapeChar c ++ l) = lead margin start ++ (escapeChar c ++ indented margin false l) := by
  unfold escapeChar
  split
  · rw [List.cons_append, List.cons_append, indented_cons margin (by decide), indented_cons margin hc]
    rfl
  · exact indented_cons margin hc start l

/-- **An indented literal is read as the indented text**, if nothing in the margin has to be escaped. -/
theorem readToQuote_indented (hm : Bare margin) (start : Bool) (s r : List Char) :
    readToQuote (indented margin start (escaped s) ++ quoteMark :: r) = some (indented margin start s, r) := by
  induction s generalizing start with
  | nil => exact (readToQuote_iff (lead margin start) r).2 (hm.lead start)
  | cons c s ih =>
    rw [escaped_cons]
    -- a line feed is never escaped, and a margin stands before the backslash of an escaped character
    by_cases hline : c = '\n'
    · subst hline
      have hread := readToQuote_escapeChar '\n' (indented margin true (escaped s) ++ quoteMark :: r)
      rw [ih true] at hread
      exact hread
    · rw [indented_escapeChar hline, List.append_assoc, List.append_assoc, readToQuote_append (hm.lead start),
        readToQuote_escapeChar, ih false, indented_cons margin hline]
      rfl

end Indented

/-- the literal of a text as the printer writes it inside a line -/
def literal (margin : List Char) (s : String) : String :=
  String.ofList (quoteMark :: (indented margin false (escaped s.toList) ++ [quoteMark]))

theorem literal_last (margin : List Char) (s : String) : (literal margin s).toList.getLast? = some quoteMark := by
  rw [literal, String.toList_ofList, ← List.cons_append, List.getLast?_concat]

theorem readQuoted_literal {margin : List Char} (hm : Bare margin) (s r : String) :
    readQuoted (literal margin s ++ r).toList = some (indented margin false s.toList, r.toList) := by
  rw [literal, String.toList_append, String.toList_ofList, List.cons_append, readQuoted, if_pos rfl, List.append_assoc]
  exact readToQuote_indented hm false s.toList r.toList

theorem mem_of_mem_escaped {s : List Char} (h : '\n' ∈ escaped s) : '\n' ∈ s := by
  obtain ⟨c, hc, hmem⟩ := List.mem_flatMap.1 h
  unfold escapeChar at hmem
  split at hmem
  · rw [List.mem_pair] at hmem
    exact (hmem.resolve_left (by decide)) ▸ hc
  · exact List.mem_singleton.1 hmem ▸ hc

theorem literal_eq_quoted {margin : List Char} {s : String} (h : '\n' ∉ s.toList ∨ margin = []) :
    literal margin s = quoted s := by
  have hsame : indented margin false (escaped s.toList) = escaped s.toList :=
    (indented_eq_iff margin _).2 (h.imp_left fun hs hmem => hs (mem_of_mem_escaped hmem))
  rw [literal, hsame, quoted, quotedChars]

/-- **A quoted text is read back.** -/
theorem readQuoted_quoted (s r : String) : readQuoted (quoted s ++ r).toList = some (s.toList, r.toList) := by
  have hplain : literal [] s = quoted s := literal_eq_quoted (Or.inr rfl)
  rw [← hplain, readQuoted_literal (by simp [Bare]), indented_nil]

/-- a text between quotes is read back just if nothing in it has to be escaped -/
theorem readQuoted_bare_iff (s r : String) :
    readQuoted ("'" ++ s ++ "'" ++ r).toList = some (s.toList, r.toList) ↔ Bare s.toList := by
  have hsplit : ("'" ++ s ++ "'" ++ r).toList = quoteMark :: (s.toList ++ quoteMark :: r.toList) := by
    simp [quoteMark]
  rw [hsplit, readQuoted, if_pos rfl, readToQuote_iff]

/-- a text between quotes is the literal of that text in the same cases -/
theorem quoted_bare_iff (s : String) : "'" ++ s ++ "'" = quoted s ↔ Bare s.toList := by
  constructor
  · intro h
    have hread := readQuoted_quoted s ""
    rwa [← h, readQuoted_bare_iff] at hread
  · intro h
    rw [quoted, quotedChars, h.escaped]
    simp [← String.toList_inj, quoteMark]

end Text

/-! ## Writing literals -/

namespace Printer

open Text

theorem put_of_ne {c : Char} (hc : c ≠ '\n') (p : Printer) :
    p.put c =
      { p with written := c :: ((lead p.indentation p.atLineStart).reverse ++ p.written), atLineStart := false } := by
  rw [put, if_neg hc]
  cases hp : p.atLineStart <;> simp [lead]

/-- behind a text and a further character the cursor stands inside the line -/
theorem put_after (p : Printer) (l : List Char) {c : Char} (hc : c ≠ '\n') :
    (l.foldl put p).put c =
      { p with
        written := c :: ((indented p.indentation p.atLineStart l).reverse ++ p.written)
        atLineStart := false } := by
  induction l generalizing p with
  | nil => exact put_of_ne hc p
  | cons d l ih =>
    rw [List.foldl_cons, ih]
    by_cases hd : d = '\n'
    · subst hd
      rw [indented_newline, List.reverse_cons, List.append_assoc]
      rfl
    · rw [put_of_ne hd, indented_cons _ hd, List.reverse_append, List.reverse_cons, List.append_assoc,
        List.append_assoc]
      rfl

theorem token_indentation (p : Printer) (s : String) : (p.token s).indentation = p.indentation := by
  rw [indentation, indentation, token_depth, (token_grows p s).indent]

/-- the printer with a text behind what it has written, and the cursor inside the line -/
def within (p : Printer) (t : String) : Printer :=
  { p with written := t.toList.reverse ++ p.written, atLineStart := false }

theorem within_text (p : Printer) (t : String) : (p.within t).text = p.text ++ t := by
  simp [within, text]

theorem within_empty {p : Printer} (hp : p.atLineStart = false) : p.within "" = p := by
  rw [within, ← hp]
  rfl

theorem within_token (p : Printer) (t : String) {w : String} (hw : '\n' ∉ w.toList) :
    (p.within t).token w = p.within (t ++ w) := by
  rw [token_eq_foldl, foldl_put_inline rfl hw]
  simp [within]

theorem within_space (p : Printer) {t : String} {c : Char} (ht : t.toList.getLast? = some c) (hc : c ≠ ' ') :
    (p.within t).space = p.within (t ++ " ") := by
  have hhead : (p.within t).written.head? = some c := by
    have hne : t.toList.reverse ≠ [] := by
      intro h0
      rw [List.reverse_eq_nil_iff.1 h0] at ht
      cases ht
    rw [within, List.head?_append_of_ne_nil _ hne, List.head?_reverse, ht]
  rw [space, hhead, if_neg (by simp [within, hc])]
  simp [within]

/-- any text with a further character behind it -/
theorem within_token_put (p : Printer) (t s : String) {c : Char} (hc : c ≠ '\n') :
    ((p.within t).token s).put c =
      p.within (t ++ String.ofList (indented p.indentation false s.toList) ++ String.singleton c) := by
  rw [token_eq_foldl, put_after _ _ hc]
  simp [within, indentation]

/-- a literal -/
theorem within_literal (p : Printer) (t s : String) :
    (p.within t).token (quoted s) = p.within (t ++ literal p.indentation s) := by
  have hopen : (p.within t).put quoteMark = p.within (t ++ "'") := by
    rw [put, if_neg (by decide), if_neg (by simp [within])]
    simp [within, quoteMark]
  have hclose := within_token_put p (t ++ "'") (String.ofList (escaped s.toList)) (c := quoteMark) (by decide)
  have hsplit : (p.within t).token (quoted s) =
      (((p.within t).put quoteMark).token (String.ofList (escaped s.toList))).put quoteMark := by
    rw [token_eq_foldl, token_eq_foldl, quoted, String.toList_ofList, quotedChars, List.foldl_cons, List.foldl_append,
      String.toList_ofList]
    rfl
  rw [hsplit, hopen, hclose, literal]
  simp [within, quoteMark]

/-- a keyword, a space and a literal, from any printer -/
theorem keyword_literal (p : Printer) {w : String} (hw : Clean w) (s : String) :
    (p.token w).space.token (quoted s) = (p.token w).within (" " ++ literal p.indentation s) := by
  obtain ⟨c, hlast⟩ : ∃ c, w.toList.getLast? = some c := by
    rw [← Option.isSome_iff_exists, List.getLast?_isSome]
    simpa using hw.nonempty
  have hword : p.token w = Printer.within { p with written := p.margin.reverse ++ p.written } w := token_clean p hw
  have hspace : (p.token w).space = (p.token w).within " " := by
    rw [hword, within_space _ hlast fun hc => hw.unspaced (by rw [hlast, hc])]
    simp [within]
  rw [hspace, within_literal, token_indentation]

end Printer

open Text

/-- a node of which the script only prints -/
theorem run_printed (k : Kind) (ops : List Printer.Op) (g : Generator) :
    Generator.run ([.enter k] ++ ops.map .print ++ [.leave]) g =
      (⟨g.printer.run ops, (g.path ++ [k]).dropLast⟩, none) := by
  rw [List.append_assoc, run_enter, run_prints]
  rfl

/-- what stands behind a path: perhaps a name that it gets, and a semicolon -/
def pathTail (margin : List Char) : Option String → String
  | none => ";"
  | some name => " as " ++ String.ofList (indented margin false name.toList) ++ ";"

def pathTailOps : Option String → List Printer.Op
  | none => [.token ";"]
  | some name => [.space, .token "as", .space, .token name, .token ";"]

theorem pathTailOps_run (p : Printer) {t : String} (ht : t.toList.getLast? = some quoteMark) (name : Option String) :
    (p.within t).run (pathTailOps name) = p.within (t ++ pathTail p.indentation name) := by
  cases name with
  | none => exact p.within_token t (by decide)
  | some name =>
    have hspace := p.within_space ht (by decide)
    have hword := p.within_token (t ++ " ") (w := "as") (by decide)
    have hgap := p.within_space (t := t ++ " " ++ "as") (c := 's') (by simp) (by decide)
    have hend := p.within_token_put (t ++ " " ++ "as" ++ " ") name (c := ';') (by decide)
    simp only [pathTailOps, Printer.run, List.foldl_cons, List.foldl_nil, Printer.step, hspace, hword, hgap]
    refine hend.trans ?_
    simp only [pathTail, String.append_assoc]
    rfl

/-- a keyword, a quoted path and what stands behind it -/
def pathOps (w s : String) (name : Option String) : List Printer.Op :=
  .token w :: .space :: .token (quoted s) :: pathTailOps name

theorem path_text (k : Kind) {w : String} (hw : Clean w) (s : String) (name : Option String) (g : Generator) :
    (Generator.run ([.enter k] ++ (pathOps w s name).map .print ++ [.leave]) g).2 = none ∧
      (Generator.run ([.enter k] ++ (pathOps w s name).map .print ++ [.leave]) g).1.text =
        (g.printer.token w).text ++ " " ++ literal g.printer.indentation s ++ pathTail g.printer.indentation name := by
  have hlast : (" " ++ literal g.printer.indentation s).toList.getLast? = some quoteMark := by
    rw [String.toList_append, List.getLast?_append, literal_last]
    rfl
  have hwritten : g.printer.run (pathOps w s name) = (g.printer.token w).within
      (" " ++ literal g.printer.indentation s ++ pathTail g.printer.indentation name) := by
    rw [pathOps, Printer.run, List.foldl_cons, List.foldl_cons, List.foldl_cons, ← Printer.run, Printer.step,
      Printer.step, Printer.step, Printer.keyword_literal _ hw, pathTailOps_run _ hlast, Printer.token_indentation]
  rw [run_printed]
  refine ⟨rfl, ?_⟩
  simp only [Generator.text, hwritten, Printer.within_text, String.append_assoc]

section Nodes

variable {n : Node} (hv : n.Valid) {s : String}

include hv

/-- a string inside a line -/
theorem string_text (hk : n.kind = .sassString) (hs : n.get? "value" = some (.string s)) (parent : Option Node)
    {g : Generator} (hline : g.printer.atLineStart = false) :
    (g.write n parent).2 = none ∧ (g.write n parent).1.text = g.text ++ literal g.printer.indentation s := by
  have hsite := site_text hs
  have hscript : n.script (parent.map Node.kind) = [.enter n.kind] ++ [.token (quoted s)].map .print ++ [.leave] := by
    rw [script_eq hv, formatted_of_kind hk]
    simp [Kind.format, script_field _ _ _ hsite, Instr.token]
  have hwritten := g.printer.within_literal "" s
  rw [Printer.within_empty hline, String.empty_append] at hwritten
  rw [Generator.write, hscript, run_printed]
  refine ⟨rfl, ?_⟩
  simp only [Generator.text, Printer.run, List.foldl_cons, List.foldl_nil, Printer.step, hwritten, Printer.within_text]

/-- an import, wherever it stands -/
theorem import_text (hk : n.kind = .sassImport) (hs : n.get? "path" = some (.string s)) (parent : Option Node)
    (g : Generator) :
    (g.write n parent).2 = none ∧ (g.write n parent).1.text =
      (g.printer.token "@import").text ++ " " ++ literal g.printer.indentation s ++ ";" := by
  have hsite := site_text hs
  have hscript : n.script (parent.map Node.kind) =
      [.enter n.kind] ++ (pathOps "@import" s none).map .print ++ [.leave] := by
    rw [script_eq hv, formatted_of_kind hk]
    simp [Kind.format, script_field _ _ _ hsite, pathOps, pathTailOps, Instr.token, Instr.space]
  rw [Generator.write, hscript]
  exact path_text n.kind ⟨by decide, by decide, by decide⟩ s none g

/-- a module, wherever it stands -/
theorem module_text (hk : n.kind = .sassModule) (hs : n.get? "path" = some (.string s)) {name : Option String}
    (hname : n.get? "namespace" = name.map .string) (parent : Option Node) (g : Generator) :
    (g.write n parent).2 = none ∧
      (g.write n parent).1.text = (g.printer.token "@use").text ++ " " ++ literal g.printer.indentation s ++
        pathTail g.printer.indentation name := by
  have hsite := site_text hs
  have hscript : n.script (parent.map Node.kind) =
      [.enter n.kind] ++ (pathOps "@use" s name).map .print ++ [.leave] := by
    rw [script_eq hv, formatted_of_kind hk]
    cases name with
    | none =>
      have hnone : n.site.get? "namespace" = none := by rw [site_get?, hname]; rfl
      simp [Kind.format, script_field _ _ _ hsite, hnone, optionally, pathOps, pathTailOps, Instr.token, Instr.space]
    | some t =>
      have hsome : n.site.get? "namespace" = some (.string t) := site_text hname
      simp [Kind.format, script_field _ _ _ hsite, script_field _ _ _ hsome, hsome, optionally, pathOps, pathTailOps,
        Instr.token, Instr.space]
  rw [Generator.write, hscript]
  exact path_text n.kind ⟨by decide, by decide, by decide⟩ s name g

end Nodes

/-- **What literals denote.** A string inside a line, and the path of an import or a module behind its keyword, is
written as the literal of its text with the indentation of the current depth put into it. Without a line feed, or
without indentation, that is the quoted text, at every depth the same, and it is read back as it was, with nothing left
of it before what follows. Otherwise the indentation belongs to the text that is read, unless it has quotes or
backslashes of its own. -/
theorem literals_denote (g : Generator) (parent : Option Node) {n : Node} (hv : n.Valid) (s : String) :
    (n.kind = .sassString → n.get? "value" = some (.string s) → g.printer.atLineStart = false →
      (g.write n parent).2 = none ∧ (g.write n parent).1.text = g.text ++ literal g.printer.indentation s) ∧
    (n.kind = .sassImport → n.get? "path" = some (.string s) →
      (g.write n parent).2 = none ∧ (g.write n parent).1.text =
        (g.printer.token "@import").text ++ " " ++ literal g.printer.indentation s ++ ";") ∧
    (n.kind = .sassModule → n.get? "path" = some (.string s) → ∀ name : Option String,
      n.get? "namespace" = name.map .string →
      (g.write n parent).2 = none ∧ (g.write n parent).1.text =
        (g.printer.token "@use").text ++ " " ++ literal g.printer.indentation s ++
          pathTail g.printer.indentation name) ∧
    ('\n' ∉ s.toList ∨ g.printer.indentation = [] →
      literal g.printer.indentation s = quoted s ∧
      ∀ rest : String, readQuoted (literal g.printer.indentation s ++ rest).toList = some (s.toList, rest.toList)) ∧
    (Bare g.printer.indentation →
      (∀ rest : String, readQuoted (literal g.printer.indentation s ++ rest).toList =
        some (indented g.printer.indentation false s.toList, rest.toList)) ∧
      (indented g.printer.indentation false s.toList = s.toList ↔
        '\n' ∉ s.toList ∨ g.printer.indentation = [])) := by
  refine ⟨fun hk hs hline => string_text hv hk hs parent hline, fun hk hs => import_text hv hk hs parent g,
    fun hk hs name hname => module_text hv hk hs hname parent g, fun h => ?_, fun hm => ?_⟩
  · have hsame := literal_eq_quoted h
    refine ⟨hsame, fun rest => ?_⟩
    rw [hsame]
    exact readQuoted_quoted s rest
  · exact ⟨fun rest => readQuoted_literal hm s rest, indented_eq_iff _ _⟩

/-- inside a block, behind the name of a variable -/
def assigning : Generator := ⟨(Printer.new "  ").run [.openBlock "\x7b", .token "$x:", .space], []⟩

/-- a string with a quote, and a module under a name -/
theorem assigning_denotes :
    (let n : Node := ⟨.sassString, [("value", .string "it's")]⟩
     n.Valid ∧ (assigning.write n none).1.text = "\x7b\n  $x: " ++ "'it\\'s'" ∧
       readQuoted ("'it\\'s'" ++ ";").toList = some ("it's".toList, [';'])) ∧
    (let n : Node := ⟨.sassModule, [("path", .string "a\\b"), ("namespace", .string "ab")]⟩
     n.Valid ∧ ((Generator.new "  ").write n none).1.text = "@use " ++ "'a\\\\b'" ++ " as ab;") := by
  have hstring : (⟨.sassString, [("value", .string "it's")]⟩ : Node).Valid := Value.valid_of_isValid _ rfl
  have hmodule : (⟨.sassModule, [("path", .string "a\\b"), ("namespace", .string "ab")]⟩ : Node).Valid :=
    Value.valid_of_isValid _ rfl
  obtain ⟨htext, -, -, hread, -⟩ := literals_denote assigning none hstring "it's"
  obtain ⟨-, -, htext', -, -⟩ := literals_denote (.new "  ") none hmodule "a\\b"
  exact ⟨⟨hstring, (htext rfl rfl rfl).2, (hread (Or.inl (by decide))).2 ";"⟩, hmodule,
    (htext' rfl rfl (some "ab") rfl).2⟩

/-- a line feed in a string is followed by the indentation of the block, which is then read as part of the string -/
theorem broken_string_altered :
    ¬ ∀ (g : Generator) (n : Node) (s : String), n.Valid → n.kind = .sassString →
      n.get? "value" = some (.string s) → g.printer.atLineStart = false →
      ∃ added : String, (g.write n none).1.text = g.text ++ added ∧
        readQuoted added.toList = some (s.toList, []) := by
  intro h
  obtain ⟨added, htext, hread⟩ := h assigning ⟨.sassString, [("value", .string "a\nb")]⟩ "a\nb"
    (Value.valid_of_isValid _ rfl) rfl rfl rfl
  have hwritten : assigning.text ++ "'a\n  b'" = assigning.text ++ added := htext
  obtain rfl : "'a\n  b'" = added := (String.append_right_inj _).1 hwritten
  revert hread
  decide

/-! ## Quoted keys -/

/-- a quoted key is put between quotes as it is -/
theorem quotedProperty_script {n key value : Node} {k : String} (hv : n.Valid) (hk : n.kind = .sassMapProperty)
    (hkey : n.get? "key" = some key.toValue) (hname : key.get? "name" = some (.string k))
    (hvalue : n.get? "value" = some value.toValue) (hquoted : n.get? "quoted" = some (.bool true))
    (parent : Option Kind) :
    n.script parent = [.enter n.kind, token "'", .enter .identifier, token k, .leave, token "'", token ":", space] ++
      (value.script (some .sassMapProperty) ++ [.leave]) := by
  have hident : key.kind = .identifier := (beq_iff_eq.1 (holds_of_required hv hk (.head _) hkey)).symm
  have hkeySite := site_node hk (c := none) rfl hkey
  have hvalueSite := site_node hk (c := some .sassMapProperty) rfl hvalue
  have hflag : n.site.flag "quoted" = true := by
    rw [Site.flag, site_get?, hquoted]
    rfl
  have hnameSite := site_text hname
  have hkeyScript : key.script none = [.enter .identifier, token k, .leave] := by
    rw [script_eq (hv.of_get? hkey), formatted_of_kind hident, hident]
    simp [Kind.format, script_field _ _ _ hnameSite, optionally, isVariableContext]
  rw [script_eq hv, formatted_of_kind hk]
  simp [Kind.format, script_field _ _ _ hkeySite, script_field _ _ _ hvalueSite, hflag, Guard.holds, optionally,
    rendered, hkeyScript]

/-- the quoted key and the colon, outside all blocks -/
theorem quotedKey_run {k : String} (hline : '\n' ∉ k.toList) (kind : Kind) (indent : String) (s : Script) :
    Generator.run ([.enter kind, token "'", .enter .identifier, token k, .leave, token "'", token ":", space] ++ s)
        (.new indent) =
      Generator.run s ⟨Printer.within ⟨[], indent, 0, false⟩ ("'" ++ k ++ "': "), [kind]⟩ := by
  have hopen : (Printer.new indent).token "'" = Printer.within ⟨[], indent, 0, false⟩ "'" := rfl
  have hspace : (Printer.within ⟨[], indent, 0, false⟩ ("'" ++ k ++ "'" ++ ":")).space =
      Printer.within ⟨[], indent, 0, false⟩ ("'" ++ k ++ "'" ++ ":" ++ " ") :=
    Printer.within_space _ (c := ':') (by rw [String.toList_append, List.getLast?_append]; rfl) (by decide)
  have hkey : (((((Printer.new indent).token "'").token k).token "'").token ":").space =
      Printer.within ⟨[], indent, 0, false⟩ ("'" ++ k ++ "': ") := by
    rw [hopen, Printer.within_token _ _ hline, Printer.within_token _ _ (by decide),
      Printer.within_token _ _ (by decide), hspace]
    simp only [String.append_assoc]
    rfl
  simp only [List.cons_append, List.nil_append, Generator.run, Generator.print, Instr.token, Instr.space, Printer.step,
    Generator.new, hkey]
  rfl

/-- a property with a quoted key -/
theorem quotedProperty_text {n key value : Node} {k : String} (hv : n.Valid) (hk : n.kind = .sassMapProperty)
    (hkey : n.get? "key" = some key.toValue) (hname : key.get? "name" = some (.string k))
    (hvalue : n.get? "value" = some value.toValue) (hquoted : n.get? "quoted" = some (.bool true))
    (hline : '\n' ∉ k.toList) (parent : Option Node) {indent own : String}
    (hown : render value (some n) indent = .ok own) :
    ∃ written : String, render n parent indent = .ok ("'" ++ k ++ "': " ++ written) ∧
      (value.Unmixed → written = own) := by
  have hvv := hv.of_get? hvalue
  let start : Generator := ⟨Printer.within ⟨[], indent, 0, false⟩ ("'" ++ k ++ "': "), [n.kind]⟩
  have hstart : start.printer.text = "'" ++ k ++ "': " := Printer.within_text _ _
  have hscript : value.script ((some n).map Node.kind) = value.script (some .sassMapProperty) := by
    rw [Option.map_some, hk]
  have hthrough : (Generator.run (value.script (some .sassMapProperty)) start).2 = none := by
    have hends := (write_ends hvv (some n) start).error
    rwa [(render_ok_iff hvv (some n) indent).1 ⟨own, hown⟩, Generator.write, hscript] at hends
  obtain ⟨written, hwritten⟩ := (Generator.run_grows (value.script (some .sassMapProperty)) start).text
  refine ⟨written, ?_, fun hu => ?_⟩
  · rw [render, Generator.write, quotedProperty_script hv hk hkey hname hvalue hquoted, quotedKey_run hline,
      Generator.run_append_of_none hthrough, ← hstart, ← hwritten]
    rfl
  · have hvalueKind : value.kind ∈ valueKinds := by
      have hholds := holds_of_required hv hk (.tail _ (.head _)) hvalue
      exact List.mem_append_left _ (List.contains_iff_mem.1 hholds)
    have hfollows := follows_of_render hvv (value_fluent value hvv hvalueKind hu _) hown
    rw [hscript] at hfollows
    obtain ⟨-, hprinter⟩ := hfollows start rfl rfl rfl (by simp [start, Printer.within])
    rw [hprinter, Printer.flow_text] at hwritten
    exact ((String.append_right_inj _).1 hwritten).symm

/-- **Quoted keys are not escaped.** A property with a quoted key is rendered to the key between quotes, a colon and a
space, and its value. The key is read back, and is written as a string of the same text would be, just if nothing in it
has to be escaped. -/
theorem quoted_keys {n key value : Node} {k : String} (hv : n.Valid) (hk : n.kind = .sassMapProperty)
    (hkey : n.get? "key" = some key.toValue) (hname : key.get? "name" = some (.string k))
    (hvalue : n.get? "value" = some value.toValue) (hquoted : n.get? "quoted" = some (.bool true))
    (hline : '\n' ∉ k.toList) (parent : Option Node) {indent own : String}
    (hown : render value (some n) indent = .ok own) :
    ∃ written : String, render n parent indent = .ok ("'" ++ k ++ "'" ++ (": " ++ written)) ∧
      (value.Unmixed → written = own) ∧
      (readQuoted ("'" ++ k ++ "'" ++ (": " ++ written)).toList = some (k.toList, (": " ++ written).toList) ↔
        Bare k.toList) ∧
      ("'" ++ k ++ "'" = quoted k ↔ Bare k.toList) := by
  obtain ⟨written, hrender, hsame⟩ := quotedProperty_text hv hk hkey hname hvalue hquoted hline parent hown
  refine ⟨written, hrender.trans ?_, hsame, readQuoted_bare_iff k _, quoted_bare_iff k⟩
  simp only [String.append_assoc]
  rfl

/-- one entry with a key and a colour -/
def colourEntry (k : String) : Node :=
  ⟨.sassMapProperty, [("key", .node .identifier [("name", .string k)]),
    ("value", .node .sassColor [("value", .string "red")]), ("quoted", .bool true)]⟩

theorem colourEntry_main : (colourEntry "main").Valid ∧ render (colourEntry "main") none "  " = .ok "'main': red" := by
  let key : Node := ⟨.identifier, [("name", .string "main")]⟩
  let red : Node := ⟨.sassColor, [("value", .string "red")]⟩
  have hv : (colourEntry "main").Valid := Value.valid_of_isValid _ rfl
  have hkey : (colourEntry "main").get? "key" = some key.toValue := rfl
  have hvalue : (colourEntry "main").get? "value" = some red.toValue := rfl
  have hred : render red (some (colourEntry "main")) "  " = .ok "red" := rfl
  obtain ⟨written, hrender, hsame, -, -⟩ := quoted_keys hv rfl hkey rfl hvalue rfl (by decide) none hred
  obtain rfl := hsame (by decide)
  exact ⟨hv, hrender⟩

/-- a key with a quote ends where the quote stands -/
theorem colourEntry_cut :
    ¬ ∀ (n key value : Node) (k own : String), n.Valid → n.kind = .sassMapProperty →
      n.get? "key" = some key.toValue → key.get? "name" = some (.string k) → n.get? "value" = some value.toValue →
      n.get? "quoted" = some (.bool true) → '\n' ∉ k.toList → render value (some n) "  " = .ok own →
      ∃ lit : String, render n none "  " = .ok (lit ++ ": " ++ own) ∧ readQuoted lit.toList = some (k.toList, []) := by
  intro h
  obtain ⟨lit, hrender, hread⟩ := h (colourEntry "a'b") ⟨.identifier, [("name", .string "a'b")]⟩
    ⟨.sassColor, [("value", .string "red")]⟩ "a'b" "red" (Value.valid_of_isValid _ rfl) rfl rfl rfl rfl rfl
    (by decide) rfl
  have hwritten : "'a'b'" ++ ": " ++ "red" = lit ++ ": " ++ "red" := Except.ok.inj hrender
  rw [String.append_left_inj, String.append_left_inj] at hwritten
  subst hwritten
  revert hread
  decide

end StyleTree
