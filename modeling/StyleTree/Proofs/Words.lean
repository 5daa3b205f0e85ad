/-
Words that stand out. A reader who follows the structure of a text looks for a few characters only: brackets, dollar
signs. `special` says for which; a text without them is plain. `Woven words t` says that `t` is plain but for the given
words, which stand in it one after the other, and `Spells s words` that a script adds such a text to any printer.

- `step_plain`, `step_word`: an operation adds plain text if its own text is plain; if that has no line feed it is
  written in one piece, with plain layout around it;
- `Reading`: a way to read a trace off scripts, part by part; what a reading owes are facts about single instructions;
- `Reading.element`: a reading of the children of a valid node reads every element of its format, in all the styles that
  fields are written in.
-/
import StyleTree.Proofs.Body
import StyleTree.Proofs.Template

namespace StyleTree

open Emission Instr

/-! ## Plain texts -/

/-- the characters that a reading may look for -/
def specials : List Char := ['(', ')', '\x7b', '\x7d', '$']

/-- a text without special characters -/
def Plain (special : Char → Bool) (t : String) : Prop := ∀ c ∈ t.toList, special c = false

instance (special : Char → Bool) (t : String) : Decidable (Plain special t) :=
  List.decidableBAll (fun c => special c = false) t.toList

/-- a text that is plain in every reading -/
def Ordinary (t : String) : Prop := ∀ c ∈ t.toList, c ∉ specials

instance (t : String) : Decidable (Ordinary t) := List.decidableBAll (fun c => c ∉ specials) t.toList

section Plain

variable {special : Char → Bool}

theorem plain_append {s t : String} : Plain special (s ++ t) ↔ Plain special s ∧ Plain special t := by
  simp only [Plain, String.toList_append, List.mem_append, or_imp, forall_and]

theorem plain_ofList {l : List Char} : Plain special (String.ofList l) ↔ ∀ c ∈ l, special c = false := by
  rw [Plain, String.toList_ofList]

theorem plain_intercalate {sep : String} (hsep : Plain special sep) {ts : List String} (h : ∀ t ∈ ts, Plain special t) :
    Plain special (sep.intercalate ts) := by
  induction ts with
  | nil => intro c hc; simp at hc
  | cons t ts ih =>
    obtain ⟨ht, hts⟩ := List.forall_mem_cons.1 h
    by_cases h0 : ts = []
    · subst h0
      rwa [String.intercalate_singleton]
    · rw [String.intercalate_cons_of_ne_nil h0, plain_append, plain_append]
      exact ⟨⟨ht, hsep⟩, ih hts⟩

variable (hspecial : ∀ c, special c = true → c ∈ specials)

include hspecial

theorem special_eq_false {c : Char} (h : c ∉ specials) : special c = false := by
  cases hs : special c with
  | false => rfl
  | true => exact absurd (hspecial c hs) h

theorem plain_of_ordinary {t : String} (h : Ordinary t) : Plain special t :=
  fun c hc => special_eq_false hspecial (h c hc)

theorem plain_quoted {t : String} (h : Plain special t) : Plain special (Text.quoted t) := by
  have hmark : special Text.quoteMark = false := special_eq_false hspecial (by decide)
  have hslash : special '\\' = false := special_eq_false hspecial (by decide)
  rw [Text.quoted, plain_ofList, Text.quotedChars, Text.escaped]
  intro c hc
  simp only [List.mem_cons, List.mem_append, List.mem_flatMap, List.not_mem_nil, or_false] at hc
  rcases hc with rfl | ⟨d, hd, hc⟩ | rfl
  · exact hmark
  · unfold Text.escapeChar at hc
    split at hc
    · rcases List.mem_cons.1 hc with rfl | hc
      · exact hslash
      · rw [List.mem_singleton.1 hc]; exact h d hd
    · rw [List.mem_singleton.1 hc]; exact h d hd
  · exact hmark

theorem plain_boolText (b : Bool) : Plain special (boolText b) := by
  apply plain_of_ordinary hspecial
  cases b <;> decide

end Plain

/-! ## Texts of numbers -/

/-- a character that number texts are made of -/
def isNumeric (c : Char) : Bool := c.isDigit || ['-', '.', 'N', 'a', 'i', 'n', 'f'].contains c

/-- a text of such characters -/
def Numeric (l : List Char) : Prop := ∀ c ∈ l, isNumeric c = true

instance (l : List Char) : Decidable (Numeric l) := List.decidableBAll (fun c => isNumeric c = true) l

theorem Numeric.append {l l' : List Char} (h : Numeric l) (h' : Numeric l') : Numeric (l ++ l') := by
  intro c hc
  rcases List.mem_append.1 hc with hc | hc
  · exact h c hc
  · exact h' c hc

/-- no special character is numeric -/
theorem Numeric.ordinary {t : String} (h : Numeric t.toList) : Ordinary t := by
  intro c hc hs
  have hno : specials.all (fun d => !isNumeric d) = true := by decide
  have hc' := List.all_eq_true.1 hno c hs
  rw [h c hc] at hc'
  cases hc'

theorem figures_numeric (n : Nat) : Numeric (Decimal.figures n) := by
  intro c hc
  have hdigit : c.isDigit = true := Nat.isDigit_of_mem_toDigits (by decide) (by decide) hc
  rw [isNumeric, hdigit, Bool.true_or]

theorem zeros_numeric (k : Nat) : Numeric (List.replicate k '0') := by
  intro c hc
  rw [(List.mem_replicate.1 hc).2]
  decide

theorem pointed_numeric {ds : List Char} (h : Numeric ds) (places : Nat) : Numeric (Decimal.pointed ds places) := by
  have hpadded : Numeric (List.replicate (places + 1 - ds.length) '0' ++ ds) := (zeros_numeric _).append h
  intro c hc
  rw [Decimal.pointed, List.mem_append, List.mem_cons] at hc
  rcases hc with hc | rfl | hc
  · exact hpadded c (List.mem_of_mem_take hc)
  · decide
  · exact hpadded c (List.mem_of_mem_drop hc)

theorem decimal_numeric (d : Decimal) : Numeric d.text.toList := by
  rw [Decimal.text, String.toList_ofList, Decimal.chars]
  split
  · exact pointed_numeric (figures_numeric _) _
  · split
    · decide
    · exact (figures_numeric _).append (zeros_numeric _)

theorem signed_numeric {t : String} (h : Numeric t.toList) (negative : Bool) :
    Numeric (Double.signed negative t).toList := by
  unfold Double.signed
  split
  · have hsign : Numeric "-".toList := by decide
    rw [String.toList_append]
    exact hsign.append h
  · exact h

/-- a number is written in digits, with a sign and a point, or as one of three words -/
theorem cssText_numeric (x : Double) : Numeric x.cssText.toList := by
  unfold Double.cssText
  split
  · decide
  · split
    · exact signed_numeric (decimal_numeric _) _
    · unfold Double.display
      split
      · decide
      · split
        · exact signed_numeric (by decide) _
        · exact signed_numeric (decimal_numeric _) _

/-! ## Woven texts -/

/-- a text that is plain but for the given words, which stand in it one after the other -/
inductive Woven (special : Char → Bool) : List String → String → Prop
  | plain {t : String} (h : Plain special t) : Woven special [] t
  | word {before w rest : String} {ws : List String} (h : Plain special before) (hr : Woven special ws rest) :
      Woven special (w :: ws) (before ++ w ++ rest)

namespace Woven

variable {special : Char → Bool} {ws ws' : List String} {s t : String}

/-- one word, behind a plain text -/
theorem single (hs : Plain special s) (w : String) : Woven special [w] (s ++ w) := by
  have h := Woven.word (w := w) hs (.plain (t := "") (by simp [Plain]))
  rwa [String.append_empty] at h

theorem behind_plain (hs : Plain special s) (h : Woven special ws t) : Woven special ws (s ++ t) := by
  cases h with
  | plain ht => exact .plain (plain_append.2 ⟨hs, ht⟩)
  | word hb hr =>
    rw [← String.append_assoc, ← String.append_assoc]
    exact .word (plain_append.2 ⟨hs, hb⟩) hr

theorem append (h : Woven special ws s) (h' : Woven special ws' t) : Woven special (ws ++ ws') (s ++ t) := by
  induction h with
  | plain hs => exact h'.behind_plain hs
  | word hb _ ih =>
    rw [String.append_assoc, List.cons_append]
    exact .word hb ih

/-- the special characters of a text are those of the words in it -/
theorem filter_eq (h : Woven special ws t) :
    t.toList.filter special = ws.flatMap fun w => w.toList.filter special := by
  have hplain : ∀ u : String, Plain special u → u.toList.filter special = [] := by
    intro u hu
    apply List.filter_eq_nil_iff.2
    intro c hc
    simp [hu c hc]
  induction h with
  | plain ht => rw [hplain _ ht, List.flatMap_nil]
  | word hb _ ih =>
    rw [String.toList_append, String.toList_append, List.filter_append, List.filter_append, hplain _ hb, ih,
      List.flatMap_cons, List.nil_append]

end Woven

/-! ## What operations add -/

/-- the text that an operation asks for -/
def Printer.Op.text : Printer.Op → String
  | .token s | .openBlock s | .closeBlock s => s
  | .space | .newline | .maybeNewline => ""

/-- the printer `q` is `p` with a text added that is plain but for the words -/
structure Gains (special : Char → Bool) (p : Printer) (words : List String) (q : Printer) : Prop where
  indent : q.indent = p.indent
  text : ∃ added, Woven special words added ∧ q.text = p.text ++ added

namespace Gains

variable {special : Char → Bool} {p q r : Printer} {ws ws' : List String}

theorem of_plain {t : String} (ht : Plain special t) (hi : q.indent = p.indent) (h : q.text = p.text ++ t) :
    Gains special p [] q := ⟨hi, t, .plain ht, h⟩

theorem refl (p : Printer) : Gains special p [] p :=
  of_plain (t := "") (by simp [Plain]) rfl String.append_empty.symm

theorem trans (h : Gains special p ws q) (h' : Gains special q ws' r) : Gains special p (ws ++ ws') r := by
  obtain ⟨t, ht, hq⟩ := h.text
  obtain ⟨t', ht', hr⟩ := h'.text
  exact ⟨h'.indent.trans h.indent, t ++ t', ht.append ht', by rw [hr, hq, String.append_assoc]⟩

/-- the depth of a printer is no part of its text -/
theorem redeepen (h : Gains special p ws q) (d d' : Nat) :
    Gains special { p with depth := d } ws { q with depth := d' } := ⟨h.indent, h.text⟩

end Gains

section Steps

variable {special : Char → Bool} (hspecial : ∀ c, special c = true → c ∈ specials) (p : Printer)

/-- one character, behind the margin if it needs one -/
theorem put_text (c : Char) :
    (p.put c).text = p.text ++ String.ofList ((if c = '\n' then [] else p.margin) ++ [c]) := by
  rw [← String.toList_inj]
  unfold Printer.put
  by_cases hc : c = '\n'
  · simp [Printer.text, Printer.newline, hc]
  · cases hs : p.atLineStart <;> simp [Printer.text, Printer.margin, hc, hs]

theorem margin_plain (hi : Plain special p.indent) : ∀ c ∈ p.margin, special c = false := by
  intro c hc
  unfold Printer.margin at hc
  split at hc
  · obtain ⟨u, hu, hc⟩ := List.mem_flatMap.1 hc
    rw [(List.mem_replicate.1 hu).2] at hc
    exact hi c hc
  · cases hc

theorem put_gains (hi : Plain special p.indent) {c : Char} (hc : special c = false) : Gains special p [] (p.put c) := by
  apply Gains.of_plain ?_ (Printer.put_grows p c).indent (put_text p c)
  rw [plain_ofList]
  intro d hd
  rcases List.mem_append.1 hd with hd | hd
  · split at hd
    · cases hd
    · exact margin_plain p hi d hd
  · rw [List.mem_singleton.1 hd]; exact hc

theorem token_plain (hi : Plain special p.indent) {t : String} (ht : Plain special t) :
    Gains special p [] (p.token t) := by
  rw [Printer.token_eq_foldl]
  have hchars : ∀ c ∈ t.toList, special c = false := ht
  generalize t.toList = l at hchars
  induction l generalizing p with
  | nil => exact Gains.refl p
  | cons c l ih =>
    obtain ⟨hc, hl⟩ := List.forall_mem_cons.1 hchars
    have hput := put_gains p hi hc
    exact hput.trans (ih (p.put c) (by rw [hput.indent]; exact hi) hl)

/-- a text without a line feed is written in one piece -/
theorem token_word (hi : Plain special p.indent) {t : String} (ht : '\n' ∉ t.toList) :
    Gains special p [t] (p.token t) := by
  refine ⟨(Printer.token_grows p t).indent, ?_⟩
  cases hl : t.toList with
  | nil =>
    obtain rfl := String.toList_eq_nil_iff.1 hl
    exact ⟨"" ++ "", .single (by simp [Plain]) "", by simp [Printer.token]⟩
  | cons c l =>
    rw [hl, List.mem_cons, not_or] at ht
    have hc : c ≠ '\n' := fun h => ht.1 h.symm
    have hnext : (p.put c).atLineStart = false := by
      unfold Printer.put
      rw [if_neg hc]
      cases p.atLineStart <;> simp
    refine ⟨String.ofList p.margin ++ t, .single (plain_ofList.2 (margin_plain p hi)) t, ?_⟩
    have hput := put_text p c
    rw [if_neg hc] at hput
    rw [Printer.token_eq_foldl, hl, List.foldl_cons, Printer.foldl_put_inline hnext ht.2, ← String.toList_inj]
    rw [← String.toList_inj] at hput
    simp only [Printer.text, String.toList_ofList, String.toList_append, List.reverse_append, List.reverse_reverse,
      hl] at hput ⊢
    rw [hput]
    simp

include hspecial

theorem newline_gains : Gains special p [] p.newline :=
  .of_plain (plain_of_ordinary hspecial (t := "\n") (by decide)) rfl (Printer.text_newline p)

theorem maybeNewline_gains : Gains special p [] p.maybeNewline := by
  unfold Printer.maybeNewline
  split
  · exact Gains.refl p
  · exact newline_gains hspecial p

theorem space_gains : Gains special p [] p.space := by
  unfold Printer.space
  split
  · exact Gains.refl p
  · refine .of_plain (plain_of_ordinary hspecial (t := " ") (by decide)) rfl ?_
    simp [Printer.text]

/-- an operation that asks for `t` adds what a token `t` adds, and layout -/
theorem step_gains {op : Printer.Op} {ws : List String} (hi : Plain special p.indent)
    (h : ∀ q : Printer, Plain special q.indent → Gains special q ws (q.token op.text)) (hop : op.text = "" → ws = []) :
    Gains special p ws (p.step op) := by
  cases op with
  | token s => exact h p hi
  | space => rw [hop rfl]; exact space_gains hspecial p
  | newline => rw [hop rfl]; exact newline_gains hspecial p
  | maybeNewline => rw [hop rfl]; exact maybeNewline_gains hspecial p
  | openBlock m =>
    have hline := (h p hi).trans (newline_gains hspecial (p.token m))
    rw [List.append_nil] at hline
    exact ⟨hline.indent, hline.text⟩
  | closeBlock m =>
    have hline := maybeNewline_gains hspecial p
    have hmark := h { p.maybeNewline with depth := p.maybeNewline.depth - 1 } (by rw [hline.indent]; exact hi)
    exact (hline.redeepen p.depth (p.maybeNewline.depth - 1)).trans hmark

theorem step_plain {op : Printer.Op} (hi : Plain special p.indent) (h : Plain special op.text) :
    Gains special p [] (p.step op) :=
  step_gains hspecial p hi (fun q hq => token_plain q hq h) fun _ => rfl

theorem step_word {op : Printer.Op} (hi : Plain special p.indent) (hne : op.text ≠ "") (h : '\n' ∉ op.text.toList) :
    Gains special p [op.text] (p.step op) :=
  step_gains hspecial p hi (fun q hq => token_word q hq h) fun h0 => absurd h0 hne

end Steps

/-! ## What scripts spell -/

/-- a script that, if it runs through, adds a text that is plain but for the words -/
def Spells (special : Char → Bool) (s : Script) (words : List String) : Prop :=
  ∀ g : Generator, Plain special g.printer.indent → (Generator.run s g).2 = none →
    Gains special g.printer words (Generator.run s g).1.printer

namespace Spells

variable {special : Char → Bool} {s s' : Script} {ws ws' : List String}

theorem nil : Spells special [] [] := fun g _ _ => .refl g.printer

theorem append (h : Spells special s ws) (h' : Spells special s' ws') : Spells special (s ++ s') (ws ++ ws') := by
  intro g hi hr
  have hs := Generator.run_none_of_append hr
  rw [Generator.run_append_of_none hs] at hr ⊢
  have hgain := h g hi hs
  exact hgain.trans (h' _ (by rw [hgain.indent]; exact hi) hr)

theorem flatMap {α : Type} {l : List α} {f : α → Script} {t : α → List String}
    (h : ∀ a ∈ l, Spells special (f a) (t a)) : Spells special (l.flatMap f) (l.flatMap t) := by
  induction l with
  | nil => exact nil
  | cons a l ih =>
    rw [List.flatMap_cons, List.flatMap_cons]
    exact (h a List.mem_cons_self).append (ih fun b hb => h b (List.mem_cons_of_mem _ hb))

/-- a token is a word, if it has no line feed -/
theorem token {t : String} (h : '\n' ∉ t.toList) : Spells special [Instr.token t] [t] :=
  fun g hi _ => token_word g.printer hi h

/-- two tokens in a row can be one -/
theorem join {t t' : String} (h : Spells special (Instr.token (t ++ t') :: s) ws) :
    Spells special (Instr.token t :: Instr.token t' :: s) ws := by
  intro g hi hr
  have hone : Generator.run (Instr.token t :: Instr.token t' :: s) g = Generator.run (Instr.token (t ++ t') :: s) g := by
    change Generator.run s ((g.print (.token t)).print (.token t')) = Generator.run s (g.print (.token (t ++ t')))
    simp only [Generator.print, Printer.step, Printer.token_append]
  rw [hone] at hr ⊢
  exact h g hi hr

/-- a failure never runs through -/
theorem fail (f : Fault) (ws : List String) : Spells special [.fail f] ws := by
  intro g _ hr
  cases hr

/-- entering and leaving a node spells nothing -/
theorem node (k : Kind) (h : Spells special s ws) : Spells special ([.enter k] ++ s ++ [.leave]) ws := by
  intro g hi hr
  rw [List.append_assoc, run_enter] at hr ⊢
  have hs := Generator.run_none_of_append hr
  rw [Generator.run_append_of_none hs]
  exact h { g with path := g.path ++ [k] } hi hs

variable (hspecial : ∀ c, special c = true → c ∈ specials) {op : Printer.Op}

include hspecial

theorem plain (h : Plain special op.text) : Spells special [.print op] [] :=
  fun g hi _ => step_plain hspecial g.printer hi h

theorem word (hne : op.text ≠ "") (h : '\n' ∉ op.text.toList) : Spells special [.print op] [op.text] :=
  fun g hi _ => step_word hspecial g.printer hi hne h

end Spells

/-- a rendered text is what a run that got through has written -/
theorem run_of_render {n : Node} {parent : Option Node} {indent text : String}
    (h : render n parent indent = .ok text) :
    (Generator.run (n.script (parent.map Node.kind)) (.new indent)).2 = none ∧
      (Generator.run (n.script (parent.map Node.kind)) (.new indent)).1.text = text := by
  rw [render, Generator.write] at h
  split at h
  · rename_i g hrun
    rw [hrun]
    exact ⟨rfl, Except.ok.inj h⟩
  · cases h

/-- what the script of a node spells is what is rendered -/
theorem Spells.woven {special : Char → Bool} {n : Node} {parent : Option Node} {words : List String}
    (h : Spells special (n.script (parent.map Node.kind)) words) {indent text : String} (hi : Plain special indent)
    (hr : render n parent indent = .ok text) : Woven special words text := by
  obtain ⟨hrun, htext⟩ := run_of_render hr
  obtain ⟨added, hadded, hafter⟩ := (h (.new indent) hi hrun).text
  have hnew : (Generator.new indent).printer.text = "" := rfl
  rw [hnew, String.empty_append] at hafter
  rw [← htext, Generator.text, hafter]
  exact hadded

/-! ## Strings of a tree -/

mutual

/-- the strings in a value, first to last -/
def Value.strings : Value → List String
  | .null | .bool _ | .number _ => []
  | .string s => [s]
  | .node _ fields => fieldStrings fields
  | .list items => itemStrings items

def Value.itemStrings : List Value → List String
  | [] => []
  | v :: vs => v.strings ++ itemStrings vs

def Value.fieldStrings : List (String × Value) → List String
  | [] => []
  | (_, v) :: rest => v.strings ++ fieldStrings rest

end

/-- the strings in a tree, in stored order -/
def Node.strings (n : Node) : List String := n.toValue.strings

theorem Value.strings_string (t : String) : (Value.string t).strings = [t] := by rw [Value.strings]

theorem Value.strings_list (items : List Value) : (Value.list items).strings = items.flatMap Value.strings := by
  have h : ∀ vs, Value.itemStrings vs = vs.flatMap Value.strings := by
    intro vs
    induction vs with
    | nil => rfl
    | cons v vs ih => rw [Value.itemStrings, ih, List.flatMap_cons]
  rw [Value.strings, h]

theorem Node.strings_eq (n : Node) : n.strings = n.fields.flatMap fun e => e.2.strings := by
  have h : ∀ fs, Value.fieldStrings fs = fs.flatMap fun e => e.2.strings := by
    intro fs
    induction fs with
    | nil => rfl
    | cons e fs ih => obtain ⟨name, v⟩ := e; rw [Value.fieldStrings, ih, List.flatMap_cons]
  rw [Node.strings, Node.toValue, Value.strings, h]

/-- the strings of a topmost node are strings of the value -/
theorem strings_of_top (v : Value) : ∀ m ∈ v.top, ∀ t ∈ m.strings, t ∈ v.strings := by
  induction v using Value.induct with
  | node k fs _ =>
    intro m hm t ht
    rw [Value.top_node, List.mem_singleton] at hm
    subst hm
    exact ht
  | list items ih =>
    intro m hm t ht
    rw [Value.top_list, List.mem_flatMap] at hm
    obtain ⟨v, hv, hm⟩ := hm
    rw [Value.strings_list]
    exact List.mem_flatMap.2 ⟨v, hv, ih v hv m hm t ht⟩
  | _ => intro m hm; simp at hm

theorem strings_of_field {n : Node} {e : String × Value} (he : e ∈ n.fields) : ∀ t ∈ e.2.strings, t ∈ n.strings := by
  intro t ht
  rw [Node.strings_eq]
  exact List.mem_flatMap.2 ⟨e, he, ht⟩

theorem strings_of_child {n m : Node} (hm : m ∈ n.children) : ∀ t ∈ m.strings, t ∈ n.strings := by
  intro t ht
  obtain ⟨e, he, hm⟩ := List.mem_flatMap.1 hm
  exact strings_of_field he t (strings_of_top e.2 m hm t ht)

theorem mem_of_mem_lines {l line : List Char} (hl : line ∈ Text.lines l) {c : Char} (hc : c ∈ line) : c ∈ l := by
  induction l using Text.lines.induct generalizing line with
  | case1 => cases hl
  | case2 rest ih =>
    rw [Text.lines] at hl
    rcases List.mem_cons.1 hl with rfl | hl
    · cases hc
    · exact List.mem_cons_of_mem _ (ih hl hc)
  | case3 rest ih =>
    rw [Text.lines] at hl
    rcases List.mem_cons.1 hl with rfl | hl
    · cases hc
    · exact List.mem_cons_of_mem _ (List.mem_cons_of_mem _ (ih hl hc))
  | case4 d rest h1 h2 ih =>
    rw [Text.lines.eq_4 d rest h1 h2] at hl
    unfold Text.consLine at hl
    split at hl
    · rw [List.mem_singleton.1 hl, List.mem_singleton] at hc
      rw [hc]
      exact List.mem_cons_self
    · rename_i first more heq
      rcases List.mem_cons.1 hl with rfl | hl
      · rcases List.mem_cons.1 hc with rfl | hc
        · exact List.mem_cons_self
        · exact List.mem_cons_of_mem _ (ih (by rw [heq]; exact List.mem_cons_self) hc)
      · exact List.mem_cons_of_mem _ (ih (by rw [heq]; exact List.mem_cons_of_mem _ hl) hc)

/-! ## Readings -/

/-- an element that prints no special character of its own -/
def Emission.Element.isPlain (special : Char → Bool) (e : Element) : Bool :=
  match e.part with
  | .print op => decide (Plain special op.text)
  | .sigil => !special '$'
  | .keyword | .field _ _ => true

/-- a way to read a trace off scripts, part by part; `trace` says what is read off a node under a parent -/
structure Reading (special : Char → Bool) (reads : Script → List String → Prop)
    (trace : Option Kind → Node → List String) : Prop where
  among : ∀ c, special c = true → c ∈ specials
  nil : reads [] []
  append : ∀ {s s' l l'}, reads s l → reads s' l' → reads (s ++ s') (l ++ l')
  plain : ∀ {op : Printer.Op}, Plain special op.text → reads [.print op] []
  /-- what cannot be written reads as anything -/
  fail : ∀ f l, reads [.fail f] l
  unit : reads [token "()"] []
  round : ∀ {s l}, reads s l → reads ([openBlock "("] ++ s ++ [closeBlock ")"]) l
  curly : ∀ {s l}, reads s l → reads ([openBlock "\x7b"] ++ s ++ [closeBlock "\x7d"]) l
  /-- what a body may drop reads as nothing -/
  dropped : ∀ parent m, m.Valid → m.kind = .comment ∨ m.kind = .newline → trace parent m = []

namespace Reading

variable {special : Char → Bool} {reads : Script → List String → Prop} {trace : Option Kind → Node → List String}
  (R : Reading special reads trace)

include R

/-- plain operations in a row -/
theorem prints {s : Script} (h : ∀ i ∈ s, ∃ op : Printer.Op, i = .print op ∧ Plain special op.text) : reads s [] := by
  induction s with
  | nil => exact R.nil
  | cons i s ih =>
    obtain ⟨op, rfl, hop⟩ := h i List.mem_cons_self
    exact R.append (R.plain hop) (ih fun j hj => h j (List.mem_cons_of_mem _ hj))

/-- operations in a row that ask for ordinary characters only -/
theorem ordinary (ops : List Printer.Op) (h : ∀ op ∈ ops, Ordinary op.text) :
    reads (ops.map .print) [] := by
  apply R.prints
  intro i hi
  obtain ⟨op, hop, rfl⟩ := List.mem_map.1 hi
  exact ⟨op, rfl, plain_of_ordinary R.among (h op hop)⟩

/-- items in a row, if nothing is read between them -/
theorem joined {α : Type} {between : α → α → Script} (hb : ∀ a a', reads (between a a') []) {l : List α}
    {f : α → Script} {t : α → List String} (h : ∀ a ∈ l, reads (f a) (t a)) :
    reads (StyleTree.joined between f l) (l.flatMap t) := by
  induction l with
  | nil => exact R.nil
  | cons a l ih =>
    have ha := h a List.mem_cons_self
    have hl := ih fun b hb => h b (List.mem_cons_of_mem _ hb)
    cases l with
    | nil => simpa [StyleTree.joined] using ha
    | cons b l =>
      have hall := R.append ha (R.append (hb a b) hl)
      rwa [List.nil_append] at hall

theorem intercalate {α : Type} {sep : Script} (hsep : reads sep []) {l : List α} {f : α → Script}
    {t : α → List String} (h : ∀ a ∈ l, reads (f a) (t a)) :
    reads (List.intercalate sep (l.map f)) (l.flatMap t) := by
  rw [intercalate_eq_joined]
  exact R.joined (fun _ _ => hsep) h

/-- the comma between items -/
theorem comma : reads [token ",", Instr.space] [] := R.ordinary [.token ",", .space] (by decide)

theorem gap (item next : Rendered) : reads (Emission.gap item next) [] := by
  unfold Emission.gap
  split
  · exact R.ordinary [.maybeNewline, .newline] (by decide)
  · exact R.ordinary [.maybeNewline] (by decide)

/-- a value as it stands reads as its topmost nodes do -/
theorem raw (parent : Option Kind) (v : Value) : (∀ t ∈ v.strings, Plain special t) →
    (∀ m ∈ v.top, reads (m.script parent) (trace parent m)) →
      reads (Emission.raw (piece parent v)) (v.top.flatMap (trace parent)) := by
  induction v using Value.induct with
  | null => intro _ _; exact R.nil
  | bool b => intro _ _; exact R.plain (plain_boolText R.among b)
  | number x =>
    intro _ _
    exact R.plain (plain_of_ordinary R.among (cssText_numeric x).ordinary)
  | string t =>
    intro ht _
    rw [Value.strings_string, List.forall_mem_singleton] at ht
    exact R.plain ht
  | node k fs _ =>
    intro _ hm
    rw [Value.top_node, List.forall_mem_singleton] at hm
    rw [piece_node, raw_node, Value.top_node, List.flatMap_singleton]
    exact hm
  | list items ih =>
    intro ht hm
    rw [Value.strings_list] at ht
    rw [Value.top_list] at hm ⊢
    rw [piece_list, raw_list, List.map_map, List.flatMap_assoc]
    refine R.intercalate R.comma fun v hv => ih v hv (fun t h => ?_) fun m h => ?_
    · exact ht t (List.mem_flatMap.2 ⟨v, hv, h⟩)
    · exact hm m (List.mem_flatMap.2 ⟨v, hv, h⟩)

theorem commentLines {t : String} (ht : Plain special t) : reads (Emission.commentLines t) [] := by
  have hline : ∀ line ∈ Text.lines t.toList, reads (commentLine line) [] := by
    intro line hl
    have hplain : Plain special (String.ofList line) := plain_ofList.2 fun c hc => ht c (mem_of_mem_lines hl hc)
    have hmark : reads [token "//"] [] := R.ordinary [.token "//"] (by decide)
    unfold commentLine
    split
    · exact hmark
    · exact R.append hmark (R.append (R.ordinary [.space] (by decide)) (R.plain hplain))
  have hall := R.intercalate (R.ordinary [.newline] (by decide)) hline
  rwa [List.flatMap_eq_nil_iff.2 fun _ _ => rfl] at hall

/-- the statements of a body, those that are dropped included -/
theorem body (parent : Option Kind) (ns : List Node) (hv : ∀ m ∈ ns, m.Valid)
    (h : ∀ m ∈ ns, reads (m.script parent) (trace parent m)) :
    reads (Emission.body (ns.map (rendered parent))) (ns.flatMap (trace parent)) := by
  have hsilent : ∀ m ∈ ns, isSilent m.kind m.fields = true → trace parent m = [] := by
    intro m hm hs
    rw [isSilent, Bool.and_eq_true] at hs
    exact R.dropped parent m (hv m hm) (Or.inl (eq_of_beq hs.1))
  rw [Emission.body, visible_rendered, stacked_eq_joined,
    visibleNodes_flatMap hsilent fun m hm hk => R.dropped parent m (hv m hm) (Or.inr hk)]
  exact R.joined (fun _ _ => R.gap _ _) fun m hm => h m (mem_of_mem_visibleNodes hm)

theorem entries (parent : Option Kind) (ns : List Node) (h : ∀ m ∈ ns, reads (m.script parent) (trace parent m)) :
    reads (Emission.entries (ns.map (rendered parent))) (ns.flatMap (trace parent)) := by
  cases ns with
  | nil => exact R.unit
  | cons m ns =>
    have hsep : reads [token ",", Instr.newline] [] := R.ordinary [.token ",", .newline] (by decide)
    rw [Emission.entries, List.map_map]
    exact R.round (R.intercalate hsep h)

/-- a declared value is a value as it stands, or fails -/
theorem declared (parent : Option Kind) {v : Value} (ht : ∀ t ∈ v.strings, Plain special t)
    (h : ∀ m ∈ v.top, reads (m.script parent) (trace parent m)) :
    reads (declaredPiece (piece parent v)) (v.top.flatMap (trace parent)) := by
  have hraw := R.raw parent v ht h
  generalize piece parent v = p at hraw ⊢
  unfold declaredPiece
  split
  · exact hraw
  · split
    · exact hraw
    · exact R.fail _ _
  · exact R.fail _ _

/-- a field in any style reads as its topmost nodes do -/
theorem style {n : Node} (hv : n.Valid) (hs : ∀ t ∈ n.strings, Plain special t)
    (hm : ∀ m ∈ n.children, ∀ parent, reads (m.script parent) (trace parent m)) {e : Element} (he : e ∈ n.kind.format)
    {name : String} {style : Style} (hp : e.part = .field name style) {v : Value} (hg : n.get? name = some v)
    (parent : Option Kind) : reads (style.write (piece parent v)) (v.top.flatMap (trace parent)) := by
  have hmem : (name, v) ∈ n.fields := mem_of_lookup hg
  have ht : ∀ t ∈ v.strings, Plain special t := fun t h => hs t (strings_of_field hmem t h)
  have htop : ∀ m ∈ v.top, reads (m.script parent) (trace parent m) :=
    fun m h => hm m (List.mem_flatMap.2 ⟨_, hmem, h⟩) parent
  have hvalid : ∀ m ∈ v.top, m.Valid := (hv.of_field _ hmem).of_top
  have hfit := fits_of_valid hv he hp hg
  have hstring : ∀ t, v = .string t → Plain special t := by
    rintro t rfl
    exact ht t (by simp [Value.strings_string])
  cases style with
  | plain => exact R.raw parent v ht htop
  | text =>
    obtain ⟨t, rfl⟩ := hfit
    rw [piece_string, Value.top_string]
    exact R.plain (hstring t rfl)
  | literal =>
    obtain ⟨t, rfl⟩ := hfit
    rw [piece_string, Value.top_string]
    exact R.plain (plain_quoted R.among (hstring t rfl))
  | lines =>
    obtain ⟨t, rfl⟩ := hfit
    rw [piece_string, Value.top_string]
    exact R.commentLines (hstring t rfl)
  | selectors =>
    obtain ⟨ts, rfl⟩ := hfit
    rw [piece_texts, write_selectors, Value.top_texts]
    have hcomma : Plain special ", " := plain_of_ordinary R.among (by decide)
    refine R.plain (plain_intercalate hcomma fun t h => ht t ?_)
    rw [Value.strings_list, List.flatMap_map]
    exact List.mem_flatMap.2 ⟨t, h, by simp [Value.strings_string]⟩
  | body =>
    obtain ⟨ns, rfl⟩ := hfit
    rw [Value.top_nodes] at htop hvalid ⊢
    rw [piece_nodes, write_body]
    exact R.body parent ns hvalid htop
  | braced =>
    obtain ⟨ns, rfl⟩ := hfit
    rw [Value.top_nodes] at htop hvalid ⊢
    rw [piece_nodes, write_braced]
    exact R.curly (R.body parent ns hvalid htop)
  | entries =>
    obtain ⟨ns, rfl⟩ := hfit
    rw [Value.top_nodes] at htop ⊢
    rw [piece_nodes, write_entries]
    exact R.entries parent ns htop
  | declared =>
    rw [write_declared]
    exact R.declared parent ht htop

/-- **A reading of the children reads the elements.** What is read off an element of the format of a valid node is what
is read off the nodes in its field, if the element is plain itself. -/
theorem element {n : Node} (hv : n.Valid) (hs : ∀ t ∈ n.strings, Plain special t)
    (hm : ∀ m ∈ n.children, ∀ parent, reads (m.script parent) (trace parent m)) {e : Element} (he : e ∈ n.kind.format)
    (hplain : e.isPlain special = true) (parent : Option Kind) :
    reads (e.script parent n.site) (e.read n fun name v => v.top.flatMap (trace (contextIn n.kind name))) := by
  have hguard : ∀ s : Script, reads s [] → reads (optionally (e.guard.holds n.site) s) [] := by
    intro s h
    cases e.guard.holds n.site
    · exact R.nil
    · exact h
  cases hp : e.part with
  | print op =>
    simp only [Element.isPlain, hp, decide_eq_true_eq] at hplain
    simp only [Element.script, Element.read, Element.field?, hp]
    exact hguard _ (R.plain hplain)
  | sigil =>
    simp only [Element.isPlain, hp, Bool.not_eq_true'] at hplain
    simp only [Element.script, Element.read, Element.field?, hp, Part.script]
    apply hguard
    cases isVariableContext parent
    · exact R.nil
    · exact R.plain (by simpa [Plain, Printer.Op.text] using hplain)
  | keyword =>
    simp only [Element.script, Element.read, Element.field?, hp, Part.script]
    apply hguard
    split
    · exact R.ordinary [.token "if"] (by decide)
    · exact R.ordinary [.token "@if"] (by decide)
  | field name style =>
    rw [read_field n _ hp]
    simp only [Element.script, hp, Part.script, site_get?]
    cases hg : n.get? name with
    | none => exact hguard _ R.nil
    | some v =>
      cases hh : e.guard.holds n.site with
      | true => exact R.style hv hs hm he hp hg _
      | false =>
        rcases empty_of_guard hg (field_sound he hp).1 hh with rfl | rfl
        · simpa [optionally] using R.nil
        · simpa [optionally] using R.nil

end Reading

end StyleTree
