/-
Brackets and terminators. If no string of a tree has a bracket in it, and the indentation has none, the brackets of the
text are a properly nested word: every one of them is put there by a routine that also puts its partner.

- `Paired`, `format_paired`: in every format a parenthesis stands next but one to its partner, under the same guard;
- `script_bracketed`: so the brackets of a script are nested if those of the children are, in a reading of scripts that
  keeps nothing but that;
- `script_terminated`: whatever the strings, a statement that is no comment, no blank line and no at-rule without
  children ends in a semicolon or a brace, since the last thing it prints is one or is a block;
- `well_bracketed`: both, for rendered texts.
-/
import StyleTree.Proofs.Words

namespace StyleTree

open Emission Instr

/-! ## Nested words -/

def isBracket (c : Char) : Bool := ['(', ')', '\x7b', '\x7d'].contains c

/-- properly nested words over the two pairs of brackets -/
inductive Balanced : List Char → Prop
  | nil : Balanced []
  | round {l : List Char} (h : Balanced l) : Balanced ('(' :: (l ++ [')']))
  | curly {l : List Char} (h : Balanced l) : Balanced ('\x7b' :: (l ++ ['\x7d']))
  | append {l l' : List Char} (h : Balanced l) (h' : Balanced l') : Balanced (l ++ l')

theorem bracket_special (c : Char) (h : isBracket c = true) : c ∈ specials := by
  have hsub : ['(', ')', '\x7b', '\x7d'].all (specials.contains ·) = true := by decide
  exact List.contains_iff_mem.1 (List.all_eq_true.1 hsub c (List.contains_iff_mem.1 h))

/-! ## Scripts with nested brackets -/

/-- the brackets in a row of words -/
def brackets (words : List String) : List Char := words.flatMap fun w => w.toList.filter isBracket

/-- a script that adds nested brackets to a text, and no others -/
def Bracketed (s : Script) : Prop := ∃ words, Spells isBracket s words ∧ Balanced (brackets words)

/-- an opening mark and its closing one -/
def bracketPairs : List (String × String) := [("(", ")"), ("\x7b", "\x7d")]

namespace Bracketed

variable {s s' : Script}

theorem nil : Bracketed [] := ⟨[], .nil, .nil⟩

theorem append (h : Bracketed s) (h' : Bracketed s') : Bracketed (s ++ s') := by
  obtain ⟨ws, hs, hb⟩ := h
  obtain ⟨ws', hs', hb'⟩ := h'
  refine ⟨ws ++ ws', hs.append hs', ?_⟩
  rw [brackets, List.flatMap_append]
  exact .append hb hb'

theorem plain {op : Printer.Op} (h : Plain isBracket op.text) : Bracketed [.print op] :=
  ⟨[], .plain bracket_special h, .nil⟩

/-- a mark and its partner around nested brackets -/
theorem wrap {op op' : Printer.Op} (hp : (op.text, op'.text) ∈ bracketPairs) (h : Bracketed s) :
    Bracketed ([.print op] ++ s ++ [.print op']) := by
  obtain ⟨ws, hs, hb⟩ := h
  -- marks are single brackets, so they are written in one piece
  have hmark : ∀ m ∈ bracketPairs, (m.1 ≠ "" ∧ '\n' ∉ m.1.toList) ∧ m.2 ≠ "" ∧ '\n' ∉ m.2.toList := by decide
  obtain ⟨⟨hne, hline⟩, hne', hline'⟩ := hmark _ hp
  have hopen : Spells isBracket [.print op] [op.text] := .word bracket_special hne hline
  have hclose : Spells isBracket [.print op'] [op'.text] := .word bracket_special hne' hline'
  refine ⟨_, (hopen.append hs).append hclose, ?_⟩
  have hall : brackets ([op.text] ++ ws ++ [op'.text]) =
      op.text.toList.filter isBracket ++ (brackets ws ++ op'.text.toList.filter isBracket) := by
    simp [brackets]
  rw [hall]
  simp only [bracketPairs, List.mem_cons, List.not_mem_nil, or_false, Prod.mk.injEq] at hp
  rcases hp with ⟨ho, hc⟩ | ⟨ho, hc⟩
  · rw [ho, hc]
    exact .round hb
  · rw [ho, hc]
    exact .curly hb

end Bracketed

/-- a reading that keeps nothing but that brackets are nested -/
theorem bracket_reading : Reading isBracket (fun s _ => Bracketed s) fun _ _ => [] where
  among := bracket_special
  nil := .nil
  append := .append
  plain := .plain
  fail f _ := ⟨[], .fail f [], .nil⟩
  unit := ⟨["()"], .word bracket_special (by decide) (by decide), .round .nil⟩
  round h := .wrap (by decide) h
  curly h := .wrap (by decide) h
  dropped _ _ _ _ := rfl

/-! ## Formats -/

/-- elements in which every parenthesis stands next but one to its partner, under the same guard -/
inductive Paired : List Element → Prop
  | nil : Paired []
  | plain {e : Element} {es : List Element} (h : e.isPlain isBracket = true) (hs : Paired es) : Paired (e :: es)
  | round {guard : Guard} {e : Element} {es : List Element} (h : e.isPlain isBracket = true) (hs : Paired es) :
      Paired (⟨guard, .print (.token "(")⟩ :: e :: ⟨guard, .print (.token ")")⟩ :: es)

theorem format_paired (k : Kind) : Paired k.format := by
  cases k <;> repeat first | exact .nil | refine .plain (by decide) ?_ | refine .round (by decide) ?_

section Nodes

variable {n : Node} (hv : n.Valid) (hs : ∀ t ∈ n.strings, Plain isBracket t)
  (hm : ∀ m ∈ n.children, ∀ parent, Bracketed (m.script parent)) (parent : Option Kind)

include hv hs hm

theorem elements_bracketed {es : List Element} (hp : Paired es) (hes : ∀ e ∈ es, e ∈ n.kind.format) :
    Bracketed (es.flatMap (Element.script parent n.site)) := by
  have helement : ∀ e ∈ es, e.isPlain isBracket = true → Bracketed (e.script parent n.site) :=
    fun e he h => bracket_reading.element hv hs hm (hes e he) h parent
  induction hp with
  | nil => exact .nil
  | @plain e es h _ ih =>
    have hrest := ih (fun x hx => hes x (List.mem_cons_of_mem _ hx)) fun x hx => helement x (List.mem_cons_of_mem _ hx)
    rw [List.flatMap_cons]
    exact (helement e List.mem_cons_self h).append hrest
  | @round guard e es h _ ih =>
    have hin : ∀ x ∈ es, x ∈ Element.mk guard (.print (.token "(")) :: e ::
        Element.mk guard (.print (.token ")")) :: es := by
      intro x hx
      simp [hx]
    have hrest := ih (fun x hx => hes x (hin x hx)) fun x hx => helement x (hin x hx)
    have hinner := helement e (by simp) h
    have hmark : ∀ t, Element.script parent n.site ⟨guard, .print (.token t)⟩ =
        optionally (guard.holds n.site) [Instr.token t] := fun _ => rfl
    rw [List.flatMap_cons, List.flatMap_cons, List.flatMap_cons, hmark, hmark, ← List.append_assoc,
      ← List.append_assoc]
    refine .append ?_ hrest
    cases guard.holds n.site with
    | true => exact .wrap (by decide) hinner
    | false => simpa [optionally] using hinner

end Nodes

/-- **Scripts are well bracketed**, if the strings of the tree have no brackets. -/
theorem script_bracketed (n : Node) (hv : n.Valid) :
    (∀ t ∈ n.strings, Plain isBracket t) → ∀ parent, Bracketed (n.script parent) := by
  refine Node.Valid.induct (P := fun n => (∀ t ∈ n.strings, Plain isBracket t) → ∀ parent, Bracketed (n.script parent))
    ?_ n hv
  intro n hv ih hs parent
  have hm : ∀ m ∈ n.children, ∀ parent, Bracketed (m.script parent) :=
    fun m hm => ih m hm fun t ht => hs t (strings_of_child hm t ht)
  obtain ⟨ws, hspell, hb⟩ := elements_bracketed hv hs hm parent (format_paired n.kind) fun _ he => he
  rw [script_eq hv]
  exact ⟨ws, hspell.node n.kind, hb⟩

/-! ## Terminators -/

def isTerminator (c : Char) : Bool := c == ';' || c == '\x7d'

/-- a script that, if it runs through, leaves a terminator before the cursor -/
def Terminated (s : Script) : Prop :=
  ∀ g : Generator, (Generator.run s g).2 = none → ∃ c, isTerminator c = true ∧
    (Generator.run s g).1.printer.written.head? = some c

/-- the last character of a token is the last one written -/
theorem token_head (p : Printer) {t : String} {c : Char} (ht : t.toList.getLast? = some c) (hc : c ≠ '\n') :
    (p.token t).written.head? = some c := by
  obtain ⟨l, hl⟩ := List.getLast?_eq_some_iff.1 ht
  rw [Printer.token_eq_foldl, hl, List.foldl_append]
  simp only [List.foldl_cons, List.foldl_nil]
  generalize l.foldl Printer.put p = q
  unfold Printer.put
  rw [if_neg hc]
  split <;> rfl

namespace Terminated

variable {s s' : Script}

theorem token {t : String} (h : t.toList.getLast? = some ';') : Terminated [token t] :=
  fun g _ => ⟨';', rfl, token_head g.printer h (by decide)⟩

theorem closeBlock : Terminated [closeBlock "\x7d"] :=
  fun _ _ => ⟨'\x7d', rfl, token_head _ rfl (by decide)⟩

theorem behind (s : Script) (h : Terminated s') : Terminated (s ++ s') := by
  intro g hr
  have hs := Generator.run_none_of_append hr
  rw [Generator.run_append_of_none hs] at hr ⊢
  exact h _ hr

theorem node (k : Kind) (h : Terminated s) : Terminated ([.enter k] ++ s ++ [.leave]) := by
  intro g hr
  rw [List.append_assoc, run_enter] at hr ⊢
  have hs := Generator.run_none_of_append hr
  rw [Generator.run_append_of_none hs]
  exact h _ hs

theorem braced (rs : List Rendered) : Terminated (Emission.braced rs) := closeBlock.behind _

end Terminated

/-- a field that holds a node of one kind holds a child of that kind -/
theorem child_of_kind {n : Node} {name : String} {v : Value} (hg : n.get? name = some v) {k : Kind}
    (ha : (Shape.kind k).admits v = true) : ∃ m ∈ n.children, m.kind = k ∧ n.get? name = some m.toValue := by
  rw [Shape.admits_kind] at ha
  obtain ⟨k', fs, rfl⟩ := Shape.isNodeOf_node ha
  have hk : k' = k := by simpa [Shape.isNodeOf] using ha
  exact ⟨⟨k', fs⟩, List.mem_flatMap.2 ⟨_, mem_of_lookup hg, by simp⟩, hk, hg⟩

/-- an element that prints a semicolon last, in every node -/
def Emission.Element.isClosing (e : Element) : Bool :=
  e.guard == .always && match e.part with
    | .print (.token t) => t.toList.getLast? == some ';'
    | _ => false

section Endings

variable {n : Node} (hv : n.Valid) (parent : Option Kind)

include hv

/-- a node ends as the last element of its format does -/
theorem terminated_of_last {e : Element} (hl : n.kind.format.getLast? = some e)
    (he : Terminated (e.script parent n.site)) : Terminated (n.script parent) := by
  obtain ⟨es, hes⟩ := List.getLast?_eq_some_iff.1 hl
  rw [script_eq hv, formatted_of_kind rfl, hes, List.flatMap_append, List.flatMap_singleton]
  exact (he.behind _).node n.kind

theorem closing_terminated (h : n.kind.format.getLast?.any Element.isClosing = true) :
    Terminated (n.script parent) := by
  cases hl : n.kind.format.getLast? with
  | none => rw [hl] at h; cases h
  | some e =>
    rw [hl, Option.any_some, Element.isClosing, Bool.and_eq_true, beq_iff_eq] at h
    obtain ⟨hg, hp⟩ := h
    refine terminated_of_last hv parent hl ?_
    rw [Element.script, hg]
    split at hp
    · rename_i t ht
      rw [ht]
      exact .token (beq_iff_eq.1 hp)
    · cases hp

theorem block_terminated {field : String} (hf : n.kind.blockField? = some field) {cs : List Node}
    (hg : n.get? field = some (.list (cs.map Node.toValue))) (hne : n.kind = .atRule → cs ≠ []) :
    Terminated (n.script parent) := by
  have hrs := body_site (bodyField_of_blockField hf) hg
  rw [script_eq hv, block_formatted hv parent hf hrs fun hk => by simpa using hne hk]
  exact ((Terminated.braced _).behind _).node n.kind

/-- a block that cannot be omitted -/
theorem required_block_terminated {field : String} (hf : n.kind.blockField? = some field)
    (hs : Schema.required field Schema.statements ∈ n.kind.schema) (hk : n.kind ≠ .atRule) :
    Terminated (n.script parent) := by
  obtain ⟨v, hg, ha⟩ := required_get? hv rfl field hs
  obtain ⟨cs, rfl⟩ := (Shape.nodal_deferred _ _).list ha
  exact block_terminated hv parent hf hg fun h => absurd h hk

theorem blockStatement_terminated (hk : n.kind = .blockStatement) : Terminated (n.script parent) :=
  required_block_terminated hv parent (by rw [hk]; rfl) (by rw [hk]; exact .head _) (by rw [hk]; decide)

omit hv in
/-- a field with a node that ends in a terminator does so too -/
theorem field_terminated {name : String} {m : Node} (hg : n.get? name = some m.toValue)
    (hm : ∀ parent, Terminated (m.script parent)) : Terminated ((Element.field name).script parent n.site) := by
  have hsite : n.site.get? name = some (.node (rendered (contextIn n.kind name) m)) := by
    rw [site_get?, hg, Option.map_some, piece_toValue]
  rw [script_field _ _ _ hsite, write_plain, raw_node]
  exact hm _

theorem block_field_terminated {k : Kind} (hk : n.kind = k) (name : String)
    (hs : Schema.required name Schema.block ∈ k.schema) :
    Terminated ((Element.field name).script parent n.site) := by
  obtain ⟨v, hv', ha⟩ := required_get? hv hk name hs
  obtain ⟨m, hm, hkind, hg⟩ := child_of_kind hv' ha
  exact field_terminated parent hg fun p => blockStatement_terminated (hv.of_child m hm) p hkind

end Endings

/-- an `@if` ends with its last branch -/
theorem ifStatement_terminated (n : Node) (hv : n.Valid) :
    n.kind = .ifStatement → ∀ parent, Terminated (n.script parent) := by
  refine Node.Valid.induct (P := fun n => n.kind = .ifStatement → ∀ parent, Terminated (n.script parent)) ?_ n hv
  intro n hv ih hk parent
  have hformat : formatted parent n.site =
      ([Element.keyword, .space, .field "test", .space].flatMap (Element.script parent n.site) ++
        (Element.field "consequent").script parent n.site) ++
      optionally ((Guard.given "alternate").holds n.site)
        ([Instr.space, Instr.token "@else", Instr.space] ++ (Element.field "alternate").script parent n.site) := by
    rw [formatted_of_kind hk]
    simp [Kind.format]
  have hthen := block_field_terminated hv parent hk "consequent" (.tail _ (.head _))
  rw [script_eq hv, hformat]
  rcases optional_get? hv hk "alternate" (.tail _ (.tail _ (.head _))) with hg | ⟨v, hg, ha⟩
  · have hno : (Guard.given "alternate").holds n.site = false := by rw [holds_given, site_get?, hg]; rfl
    rw [hno, optionally, if_neg (by decide), List.append_nil]
    exact (hthen.behind _).node n.kind
  · have hyes : (Guard.given "alternate").holds n.site = true := by rw [holds_given, site_get?, hg]; rfl
    have helse : Terminated ((Element.field "alternate").script parent n.site) := by
      simp only [Shape.admits_oneOf, List.any_cons, List.any_nil, Bool.or_false, Bool.or_eq_true] at ha
      rcases ha with ha | ha
      · obtain ⟨m, hm, hkind, hg'⟩ := child_of_kind hg ha
        exact field_terminated parent hg' (ih m hm hkind)
      · obtain ⟨m, hm, hkind, hg'⟩ := child_of_kind hg ha
        exact field_terminated parent hg' fun p => blockStatement_terminated (hv.of_child m hm) p hkind
    rw [hyes, optionally, if_pos rfl]
    exact ((helse.behind _).behind _).node n.kind

/-- **Statements are terminated**, unless they are comments, blank lines or at-rules without children. -/
theorem script_terminated {n : Node} (hv : n.Valid) (hk : n.kind ∈ Family.statement.kinds) (hc : n.kind ≠ .comment)
    (hl : n.kind ≠ .newline)
    (ha : n.kind = .atRule → n.get? "children" ≠ none ∧ n.get? "children" ≠ some (.list [])) (parent : Option Kind) :
    Terminated (n.script parent) := by
  cases h : n.kind with
  | assignment => exact closing_terminated hv parent (by rw [h]; decide)
  | atContent => exact closing_terminated hv parent (by rw [h]; decide)
  | atReturn => exact closing_terminated hv parent (by rw [h]; decide)
  | declaration => exact closing_terminated hv parent (by rw [h]; decide)
  | sassImport => exact closing_terminated hv parent (by rw [h]; decide)
  | sassMixinCall => exact closing_terminated hv parent (by rw [h]; decide)
  | sassModule => exact closing_terminated hv parent (by rw [h]; decide)
  | sassFunction =>
    have hbody := block_field_terminated hv parent h "body" (.tail _ (.tail _ (.head _)))
    exact terminated_of_last hv parent (by rw [h]; rfl) hbody
  | sassMixin =>
    have hbody := block_field_terminated hv parent h "body" (.tail _ (.tail _ (.head _)))
    exact terminated_of_last hv parent (by rw [h]; rfl) hbody
  | ifStatement => exact ifStatement_terminated n hv h parent
  | rule =>
    exact required_block_terminated hv parent (by rw [h]; rfl) (by rw [h]; exact .tail _ (.head _)) (by rw [h]; decide)
  | atRule =>
    obtain ⟨hsome, hne⟩ := ha h
    rcases optional_get? hv h "children" (.tail _ (.tail _ (.head _))) with hg | ⟨v, hg, hv'⟩
    · exact absurd hg hsome
    · obtain ⟨cs, rfl⟩ := (Shape.nodal_deferred _ _).list hv'
      refine block_terminated hv parent (by rw [h]; rfl) hg fun _ h0 => hne ?_
      rw [hg, h0, List.map_nil]
  | comment => exact absurd h hc
  | newline => exact absurd h hl
  | _ => rw [h] at hk; exact absurd hk (by decide)

/-! ## Rendered texts -/

/-- **Brackets nest and statements end.** The brackets of a rendered text are properly nested, if neither the strings
of the valid tree nor the indentation have any of their own. And whatever its strings, a valid statement that is no
comment, no blank line and no at-rule without children is rendered with a semicolon or a closing brace at the end. -/
theorem well_bracketed :
    (∀ (n : Node) (parent : Option Node) (indent text : String), n.Valid → (∀ t ∈ n.strings, Plain isBracket t) →
      Plain isBracket indent → render n parent indent = .ok text → Balanced (text.toList.filter isBracket)) ∧
    ∀ (n : Node) (parent : Option Node) (indent text : String), n.Valid → n.kind ∈ Family.statement.kinds →
      n.kind ≠ .comment → n.kind ≠ .newline →
      (n.kind = .atRule → n.get? "children" ≠ none ∧ n.get? "children" ≠ some (.list [])) →
      render n parent indent = .ok text → text.toList.getLast? = some ';' ∨ text.toList.getLast? = some '\x7d' := by
  refine ⟨fun n parent indent text hv hs hi hr => ?_, fun n parent indent text hv hk hc hl ha hr => ?_⟩
  · obtain ⟨words, hspell, hb⟩ := script_bracketed n hv hs (parent.map Node.kind)
    rw [(hspell.woven hi hr).filter_eq]
    exact hb
  · obtain ⟨hrun, htext⟩ := run_of_render hr
    obtain ⟨c, hc, hlast⟩ := script_terminated hv hk hc hl ha (parent.map Node.kind) (.new indent) hrun
    have hend : text.toList.getLast? = some c := by
      rw [← htext, Generator.text, Printer.text, String.toList_ofList, List.getLast?_reverse, hlast]
    rw [isTerminator, Bool.or_eq_true, beq_iff_eq, beq_iff_eq] at hc
    rcases hc with rfl | rfl
    · exact Or.inl hend
    · exact Or.inr hend

/-- a mixin with a parameter, a call and a block -/
def tintMixin : Node :=
  ⟨.sassMixin, [("id", .node .identifier [("name", .string "tint")]),
    ("params", .list [.node .identifier [("name", .string "c")]]),
    ("body", .node .blockStatement [("body", .list
      [.node .declaration [("property", .string "color"),
        ("value", .node .callExpression [("callee", .node .identifier [("name", .string "mix")]),
          ("arguments", .list [.node .identifier [("name", .string "c")]])])]])])]⟩

/-- a map with a list in it, in which stands a call of an empty map; then a mixin -/
def paletteSheet : Node :=
  ⟨.styleSheet, [("children", .list
    [.node .assignment [("id", .node .identifier [("name", .string "palette")]),
       ("init", .node .sassMap [("properties", .list
         [.node .sassMapProperty [("key", .node .identifier [("name", .string "brand")]),
           ("value", .node .sassList [("elements", .list
             [.node .identifier [("name", .string "a")],
              .node .callExpression [("callee", .node .identifier [("name", .string "keys")]),
                ("arguments", .list [.node .sassMap [("properties", .list [])]])]])])]])])],
     tintMixin.toValue])]⟩

theorem tintMixin_valid : tintMixin.Valid := Value.valid_of_isValid _ rfl

theorem paletteSheet_valid : paletteSheet.Valid := Value.valid_of_isValid _ rfl

/-- the brackets of the sheet are nested, and its mixin ends in a brace -/
theorem paletteSheet_bracketed :
    render paletteSheet none "  " = .ok
      "$palette: (\n  brand: ($a, keys(()))\n);\n\n@mixin tint($c) \x7b\n  color: mix($c);\n\x7d" ∧
    Balanced ['(', '(', '(', '(', ')', ')', ')', ')', '(', ')', '\x7b', '(', ')', '\x7d'] ∧
    ∃ text, render tintMixin (some paletteSheet) "\t" = .ok text ∧
      (text.toList.getLast? = some ';' ∨ text.toList.getLast? = some '\x7d') := by
  refine ⟨rfl, ?_, _, rfl, ?_⟩
  · exact well_bracketed.1 paletteSheet none "  " _ paletteSheet_valid (by decide) (by decide) rfl
  · exact well_bracketed.2 tintMixin (some paletteSheet) "\t" _ tintMixin_valid (by decide) (by decide) (by decide)
      (fun hk => by cases hk) rfl

end StyleTree
