/-
Sigils. An identifier is written with a dollar sign exactly where it names a variable. Which positions these are is a
table of fields (`Kind.variableFields`); the routines decide otherwise, by the kind of the parent alone, and hide the
parent from names that are to be bare.

- `position_agrees`: both give the same answer for every field in which the schema lets an identifier stand;
- `script_mentions`: so a valid tree spells its identifiers in tree order, with sigils as the table says;
- `sigils_exact`: the dollar signs of a rendered text are those sigils, each in front of its name.
-/
import StyleTree.Proofs.NormalForm
import StyleTree.Proofs.Words

namespace StyleTree

open Emission Instr

/-! ## Identifiers of a tree -/

/-- the fields in which an identifier names a variable, itself or as an item -/
def Kind.variableFields : Kind → List String
  | .assignment => ["id", "init"]
  | .assignmentPattern | .logicalExpression => ["left", "right"]
  | .atReturn => ["argument"]
  | .ifStatement => ["test"]
  | .restPattern => ["id"]
  | .sassMapProperty => ["value"]
  | .callExpression => ["arguments"]
  | .sassList => ["elements"]
  | .sassFunction | .sassMixin | .sassFunctionCall | .sassMixinCall => ["params"]
  | _ => []

/-- an identifier in a tree: its name, and whether it stands in a variable position -/
structure Mention where
  sigil : Bool
  name : String
deriving DecidableEq, Repr

/-- an identifier as it is written -/
def Mention.text (m : Mention) : String := if m.sigil then "$" ++ m.name else m.name

/-- the name of a node that is an identifier -/
def Node.identifier? (n : Node) : Option String := if n.kind = .identifier then some (n.textOf "name") else none

mutual

/-- the identifiers of a value in preorder; those at its top name variables, if so -/
def Value.mentions (sigil : Bool) : Value → List Mention
  | .null | .bool _ | .number _ | .string _ => []
  | .node kind fields =>
    (Node.identifier? ⟨kind, fields⟩).toList.map (Mention.mk sigil) ++ fieldMentions kind fields
  | .list items => itemMentions sigil items

def Value.itemMentions (sigil : Bool) : List Value → List Mention
  | [] => []
  | v :: vs => v.mentions sigil ++ itemMentions sigil vs

def Value.fieldMentions (kind : Kind) : List (String × Value) → List Mention
  | [] => []
  | (name, v) :: rest => v.mentions (kind.variableFields.contains name) ++ fieldMentions kind rest

end

/-- the identifiers of a tree in preorder; the root names a variable, if so -/
def Node.mentions (n : Node) (sigil : Bool) : List Mention := n.toValue.mentions sigil

/-- the names of the variables among identifiers, first to last -/
def variableNames (ms : List Mention) : List String := (ms.filter Mention.sigil).map Mention.name

/-- the identifiers of a value are those of its topmost nodes -/
theorem mentions_eq_top (sigil : Bool) (v : Value) : v.mentions sigil = v.top.flatMap (Node.mentions · sigil) := by
  have hitems : ∀ vs, Value.itemMentions sigil vs = vs.flatMap (Value.mentions sigil) := by
    intro vs
    induction vs with
    | nil => rfl
    | cons v vs ih => rw [Value.itemMentions, ih, List.flatMap_cons]
  induction v using Value.induct with
  | node k fs _ => rw [Value.top_node, List.flatMap_singleton]; rfl
  | list items ih =>
    rw [Value.mentions, hitems, Value.top_list, List.flatMap_assoc]
    exact List.flatMap_congr ih
  | _ => rw [Value.mentions]; simp

/-- the identifiers of a tree: the root, if it is one, then those of its children in stored order -/
theorem Node.mentions_eq (n : Node) (sigil : Bool) :
    n.mentions sigil = n.identifier?.toList.map (Mention.mk sigil) ++
      n.fields.flatMap fun e => e.2.top.flatMap (Node.mentions · (n.kind.variableFields.contains e.1)) := by
  have hfields : ∀ fs, Value.fieldMentions n.kind fs =
      fs.flatMap fun e => e.2.top.flatMap (Node.mentions · (n.kind.variableFields.contains e.1)) := by
    intro fs
    induction fs with
    | nil => rfl
    | cons e fs ih =>
      obtain ⟨name, v⟩ := e
      rw [Value.fieldMentions, ih, List.flatMap_cons, mentions_eq_top]
  rw [Node.mentions, Node.toValue, Value.mentions, hfields]

theorem identifier?_eq_none {n : Node} (hk : n.kind ≠ .identifier) : n.identifier? = none := if_neg hk

/-- only for an identifier it matters where it stands -/
theorem mentions_irrelevant {n : Node} (hk : n.kind ≠ .identifier) (sigil sigil' : Bool) :
    n.mentions sigil = n.mentions sigil' := by
  rw [Node.mentions_eq, Node.mentions_eq, identifier?_eq_none hk]; rfl

/-- a node without children mentions itself at most -/
theorem mentions_of_children_nil {n : Node} (hc : n.children = []) (sigil : Bool) :
    n.mentions sigil = n.identifier?.toList.map (Mention.mk sigil) := by
  have hfields : (n.fields.flatMap fun e =>
      e.2.top.flatMap (Node.mentions · (n.kind.variableFields.contains e.1))) = [] := by
    rw [Node.children, List.flatMap_eq_nil_iff] at hc
    rw [List.flatMap_eq_nil_iff]
    intro e he
    rw [hc e he, List.flatMap_nil]
  rw [Node.mentions_eq, hfields, List.append_nil]

/-- the mentions of a tree are its identifiers, all of them and in preorder -/
theorem mentions_names (n : Node) : ∀ sigil, (n.mentions sigil).map Mention.name =
    n.occurrences.filterMap fun o => o.node.identifier? := by
  induction n using Node.induct with
  | step n ih =>
    intro sigil
    have hfields : (n.fields.flatMap fun e =>
        e.2.top.flatMap (Node.mentions · (n.kind.variableFields.contains e.1))).map Mention.name =
        (n.children.flatMap Node.occurrences).filterMap fun o => o.node.identifier? := by
      rw [Node.children, List.flatMap_assoc, List.map_flatMap, List.filterMap_flatMap]
      refine List.flatMap_congr fun e he => ?_
      rw [List.map_flatMap, List.filterMap_flatMap]
      exact List.flatMap_congr fun m hm => ih m (List.mem_flatMap.2 ⟨e, he, hm⟩) _
    have hroot : (n.identifier?.toList.map (Mention.mk sigil)).map Mention.name = n.identifier?.toList := by
      rw [List.map_map]
      exact List.map_id _
    rw [Node.mentions_eq, n.occurrences_eq, List.map_append, hroot, hfields, List.filterMap_cons, List.filterMap_map]
    cases n.identifier? <;> rfl

theorem textOf_mem (n : Node) (field : String) : n.textOf field = "" ∨ n.textOf field ∈ n.strings := by
  unfold Node.textOf
  cases hg : n.get? field with
  | none => exact Or.inl rfl
  | some v =>
    cases v with
    | string t => exact Or.inr (strings_of_field (mem_of_lookup hg) t (by simp [Value.strings_string]))
    | _ => exact Or.inl rfl

/-- the names of identifiers are among the strings of a tree, or empty -/
theorem mention_name {P : String → Prop} (h0 : P "") (n : Node) :
    (∀ t ∈ n.strings, P t) → ∀ sigil, ∀ m ∈ n.mentions sigil, P m.name := by
  induction n using Node.induct with
  | step n ih =>
    intro hs sigil m hm
    rw [Node.mentions_eq, List.mem_append] at hm
    rcases hm with hm | hm
    · obtain ⟨name, hname, rfl⟩ := List.mem_map.1 hm
      rw [Option.mem_toList, Node.identifier?] at hname
      split at hname
      · obtain rfl := Option.some.inj hname
        rcases textOf_mem n "name" with h | h
        · exact h.symm ▸ h0
        · exact hs _ h
      · cases hname
    · obtain ⟨e, he, hm⟩ := List.mem_flatMap.1 hm
      obtain ⟨c, hc, hm⟩ := List.mem_flatMap.1 hm
      have hchild : c ∈ n.children := List.mem_flatMap.2 ⟨e, he, hc⟩
      exact ih c hchild (fun t ht => hs t (strings_of_child hchild t ht)) _ m hm

/-! ## Where identifiers can stand -/

mutual

/-- nodes of this kind can stand at the top of what the shape accepts -/
def Shape.holds (k : Kind) : Shape → Bool
  | .any | .node => true
  | .primitive _ => false
  | .kind k' => k' == k
  | .oneOf alternatives => anyHolds k alternatives
  | .listOf item => item.holds k
  | .deferred _ f => f.kinds.contains k

def Shape.anyHolds (k : Kind) : List Shape → Bool
  | [] => false
  | s :: ss => s.holds k || anyHolds k ss

end

theorem Shape.anyHolds_eq (k : Kind) (ss : List Shape) : Shape.anyHolds k ss = ss.any (Shape.holds k) := by
  induction ss with
  | nil => rfl
  | cons s ss ih => rw [Shape.anyHolds, ih, List.any_cons]

/-- what stands at the top of a value that a shape accepts is of a kind that the shape holds -/
theorem holds_of_admits (s : Shape) : ∀ v, s.admits v = true → ∀ m ∈ v.top, s.holds m.kind = true := by
  have hnode : ∀ {kinds : List Kind} {v : Value}, Shape.isNodeOf kinds v = true → ∀ m ∈ v.top, m.kind ∈ kinds := by
    intro kinds v h m hm
    obtain ⟨k, fs, rfl⟩ := Shape.isNodeOf_node h
    rw [Value.top_node, List.mem_singleton] at hm
    rw [hm]
    exact List.contains_iff_mem.1 h
  induction s using Shape.induct with
  | any => intro v _ m _; rw [Shape.holds]
  | node => intro v _ m _; rw [Shape.holds]
  | primitive p =>
    intro v h m hm
    rw [Shape.admits_primitive] at h
    have htop : v.top = [] := by
      cases v with
      | node k fs => cases p <;> cases h
      | list items => cases p <;> cases h
      | _ => simp
    rw [htop] at hm
    cases hm
  | kind k =>
    intro v h m hm
    rw [Shape.admits_kind] at h
    rw [Shape.holds, beq_iff_eq, List.mem_singleton.1 (hnode h m hm)]
  | deferred label f =>
    intro v h m hm
    rw [Shape.admits_deferred] at h
    rw [Shape.holds, List.contains_iff_mem]
    exact hnode h m hm
  | oneOf ss ih =>
    intro v h m hm
    rw [Shape.admits_oneOf, List.any_eq_true] at h
    obtain ⟨s, hs, ha⟩ := h
    rw [Shape.holds, Shape.anyHolds_eq, List.any_eq_true]
    exact ⟨s, hs, ih s hs v ha m hm⟩
  | listOf item ih =>
    intro v h m hm
    obtain ⟨vs, rfl, hvs⟩ := Shape.admits_listOf h
    rw [Value.top_list, List.mem_flatMap] at hm
    obtain ⟨w, hw, hm⟩ := hm
    rw [Shape.holds]
    exact ih w (hvs w hw) m hm

/-- **One decision, two forms.** Where an identifier can stand, it sees a parent under which it names a variable exactly
if the field is one for variables. -/
theorem position_agrees (k : Kind) : ∀ spec ∈ k.schema, spec.shape.holds .identifier = true →
    isVariableContext (contextIn k spec.name) = k.variableFields.contains spec.name := by
  cases k <;> decide

/-- the mentions of a child under the parent that it sees are those of its position -/
theorem mentions_in_field {n : Node} (hv : n.Valid) {e : String × Value} (he : e ∈ n.fields) {m : Node}
    (hm : m ∈ e.2.top) :
    m.mentions (isVariableContext (contextIn n.kind e.1)) = m.mentions (n.kind.variableFields.contains e.1) := by
  by_cases hk : m.kind = .identifier
  · obtain ⟨spec, hs, hname, ha⟩ := hv.conforms.of_mem e he
    have hholds := holds_of_admits spec.shape e.2 ha m hm
    rw [hk] at hholds
    rw [← hname, position_agrees n.kind spec hs hholds]
  · exact mentions_irrelevant hk _ _

/-! ## What trees spell -/

def isDollar (c : Char) : Bool := c == '$'

theorem dollar_special (c : Char) (h : isDollar c = true) : c ∈ specials := by
  rw [isDollar, beq_iff_eq] at h
  rw [h]
  decide

/-- the identifiers of a node as they are written under a parent -/
def spelled (parent : Option Kind) (n : Node) : List String := (n.mentions (isVariableContext parent)).map Mention.text

/-- a script in plain marks spells what it spells without them -/
theorem Spells.between {op op' : Printer.Op} (h : Plain isDollar op.text) (h' : Plain isDollar op'.text) {s : Script}
    {ws : List String} (hs : Spells isDollar s ws) : Spells isDollar ([.print op] ++ s ++ [.print op']) ws := by
  have hall := ((Spells.plain dollar_special h).append hs).append (.plain dollar_special h')
  rwa [List.nil_append, List.append_nil] at hall

/-- scripts can be read for the identifiers that they spell -/
theorem mention_reading : Reading isDollar (Spells isDollar) spelled where
  among := dollar_special
  nil := .nil
  append := .append
  plain := .plain dollar_special
  fail := .fail
  unit := .plain dollar_special (by decide)
  round := .between (by decide) (by decide)
  curly := .between (by decide) (by decide)
  dropped parent m hv hk := by
    have hne : m.kind ≠ .identifier := by rcases hk with hk | hk <;> rw [hk] <;> decide
    rw [spelled, mentions_of_children_nil (children_of_drop hv hk), identifier?_eq_none hne]; rfl

/-- only identifiers have a sigil of their own -/
theorem format_dollar (k : Kind) (hk : k ≠ .identifier) : ∀ e ∈ k.format, e.isPlain isDollar = true := by
  cases k <;> first | exact absurd rfl hk | decide

/-- an identifier is one word, with its sigil -/
theorem identifier_spells {n : Node} (hv : n.Valid) (hk : n.kind = .identifier)
    (hs : ∀ t ∈ n.strings, '\n' ∉ t.toList) (parent : Option Kind) :
    Spells isDollar (n.script parent) (spelled parent n) := by
  obtain ⟨v, hg, ha⟩ := required_get? hv hk "name" (.head _)
  obtain ⟨t, rfl⟩ := Shape.textual_string v ha
  have hsite : n.site.get? "name" = some (.string t) := by rw [site_get?, hg, Option.map_some, piece_string]
  have hline : '\n' ∉ t.toList := hs t (strings_of_field (mem_of_lookup hg) t (by simp [Value.strings_string]))
  have hc : n.children = [] := by
    rw [children_eq hv, hk]
    simp [Kind.format, Element.read, Element.field?, Element.sigil, Element.field, hg]
  have hname : n.identifier? = some t := by simp [Node.identifier?, hk, Node.textOf, hg, Value.string?]
  rw [script_eq hv, formatted_of_kind hk, spelled, mentions_of_children_nil hc, hname]
  refine .node n.kind ?_
  cases hctx : isVariableContext parent with
  | true =>
    have hword : '\n' ∉ ("$" ++ t).toList := by simp [hline]
    simpa [Kind.format, script_field _ _ _ hsite, hctx, optionally, Mention.text] using (Spells.token hword).join
  | false =>
    simpa [Kind.format, script_field _ _ _ hsite, hctx, optionally, Mention.text] using Spells.token hline

/-- **Trees spell their identifiers**, in tree order and with sigils as their positions say. -/
theorem script_mentions (n : Node) (hv : n.Valid) :
    (∀ t ∈ n.strings, Plain isDollar t ∧ '\n' ∉ t.toList) →
      ∀ parent, Spells isDollar (n.script parent) (spelled parent n) := by
  refine Node.Valid.induct (P := fun n => (∀ t ∈ n.strings, Plain isDollar t ∧ '\n' ∉ t.toList) →
    ∀ parent, Spells isDollar (n.script parent) (spelled parent n)) ?_ n hv
  intro n hv ih hs parent
  by_cases hk : n.kind = .identifier
  · exact identifier_spells hv hk (fun t ht => (hs t ht).2) parent
  · have hm : ∀ m ∈ n.children, ∀ parent, Spells isDollar (m.script parent) (spelled parent m) :=
      fun m hm => ih m hm fun t ht => hs t (strings_of_child hm t ht)
    have helements := Spells.flatMap fun e he =>
      mention_reading.element hv (fun t ht => (hs t ht).1) hm he (format_dollar n.kind hk e he) parent
    have hwords : spelled parent n =
        n.kind.format.flatMap (Element.read n fun name v => v.top.flatMap (spelled (contextIn n.kind name))) := by
      rw [← fields_flatMap hv _ fun _ _ _ b => by rw [Value.top_bool, List.flatMap_nil], spelled, Node.mentions_eq,
        identifier?_eq_none hk, Option.toList_none, List.map_nil, List.nil_append, List.map_flatMap]
      refine List.flatMap_congr fun e he => ?_
      rw [List.map_flatMap]
      exact List.flatMap_congr fun m hm => by rw [spelled, mentions_in_field hv he hm]
    rw [script_eq hv, hwords]
    exact .node n.kind helements

/-! ## Dollar signs of a text -/

theorem plain_dollar {t : String} : Plain isDollar t ↔ '$' ∉ t.toList := by
  constructor
  · intro h hc
    have hsign := h '$' hc
    revert hsign
    decide
  · intro h c hc
    rw [isDollar, beq_eq_false_iff_ne]
    rintro rfl
    exact h hc

theorem variableNames_cons (m : Mention) (ms : List Mention) :
    variableNames (m :: ms) = if m.sigil then m.name :: variableNames ms else variableNames ms := by
  cases hs : m.sigil <;> simp [variableNames, hs]

namespace Mention

variable {m : Mention} (hm : '$' ∉ m.name.toList)

include hm

theorem count_text : m.text.toList.count '$' = if m.sigil then 1 else 0 := by
  have hname : m.name.toList.count '$' = 0 := List.count_eq_zero.2 hm
  cases hs : m.sigil <;> simp [Mention.text, hs, hname]

/-- the only dollar sign of an identifier is its sigil -/
theorem dollar_text {before after : List Char} (h : m.text.toList = before ++ '$' :: after) :
    m.sigil = true ∧ before = [] ∧ after = m.name.toList := by
  cases hs : m.sigil with
  | false =>
    have htext : m.text.toList = m.name.toList := by simp [Mention.text, hs]
    rw [← htext, h] at hm
    exact absurd (by simp) hm
  | true =>
    have htext : m.text.toList = '$' :: m.name.toList := by simp [Mention.text, hs]
    rw [htext] at h
    cases before with
    | nil => exact ⟨rfl, rfl, (List.cons.inj h).2.symm⟩
    | cons c before =>
      rw [(List.cons.inj h).2] at hm
      exact absurd (by simp) hm

end Mention

section Texts

variable {ms : List Mention} (hp : ∀ m ∈ ms, '$' ∉ m.name.toList) {t : String}
  (h : Woven isDollar (ms.map Mention.text) t)

include hp h

/-- a text has as many dollar signs as there are variables in it -/
theorem Woven.count_dollar : t.toList.count '$' = (variableNames ms).length := by
  induction ms generalizing t with
  | nil =>
    cases h with
    | plain hb => exact List.count_eq_zero.2 (plain_dollar.1 hb)
  | cons m ms ih =>
    obtain ⟨hm, hms⟩ := List.forall_mem_cons.1 hp
    rw [List.map_cons] at h
    cases h with
    | @word front w rest _ hfront hrest =>
      have hzero : front.toList.count '$' = 0 := List.count_eq_zero.2 (plain_dollar.1 hfront)
      rw [String.toList_append, String.toList_append, List.count_append, List.count_append, hzero,
        Mention.count_text hm, ih hms hrest, variableNames_cons]
      cases m.sigil <;> simp [Nat.add_comm]

/-- a dollar sign of a text stands in front of a variable: the one with as many before it as the sign has -/
theorem Woven.next_dollar {before after : List Char} (ht : t.toList = before ++ '$' :: after) :
    ∃ name, (variableNames ms)[before.count '$']? = some name ∧ name.toList <+: after := by
  induction ms generalizing t before with
  | nil =>
    cases h with
    | plain hb => exact absurd (by rw [ht]; simp) (plain_dollar.1 hb)
  | cons m ms ih =>
    obtain ⟨hm, hms⟩ := List.forall_mem_cons.1 hp
    rw [List.map_cons] at h
    cases h with
    | @word front w rest _ hfront hrest =>
      have hno := plain_dollar.1 hfront
      rw [String.toList_append, String.toList_append, List.append_assoc] at ht
      -- the sign stands before the first word, in it, or behind it, where the words that are left decide
      rcases Nested.split_append ht with ⟨u, hu⟩ | ⟨u, rfl, hu⟩
      · exact absurd (by rw [hu]; simp) hno
      · rw [List.count_append, List.count_eq_zero.2 hno, Nat.zero_add, variableNames_cons]
        rcases Nested.split_append hu with ⟨u', hword⟩ | ⟨u', rfl, hbehind⟩
        · obtain ⟨hs, rfl, rfl⟩ := Mention.dollar_text hm hword
          rw [hword, List.nil_append, List.nil_append, List.cons_append] at hu
          rw [hs, ← (List.cons.inj hu).2]
          exact ⟨m.name, rfl, List.prefix_append _ _⟩
        · obtain ⟨name, hget, hpre⟩ := ih hms hrest hbehind
          refine ⟨name, ?_, hpre⟩
          rw [List.count_append, Mention.count_text hm]
          cases m.sigil with
          | true => simpa [Nat.add_comm 1] using hget
          | false => simpa using hget

end Texts

/-! ## Rendered texts -/

/-- **Sigils are exactly right.** Let no string of a valid tree have a dollar sign or a line feed, and the indentation
no dollar sign. Then the text has one dollar sign for each identifier in a variable position, in tree order, and right
behind it the name of that identifier; the text holds all identifiers in that order, the others without a sign. -/
theorem sigils_exact (n : Node) (hv : n.Valid) (hs : ∀ t ∈ n.strings, '$' ∉ t.toList ∧ '\n' ∉ t.toList)
    (indent text : String) (hi : '$' ∉ indent.toList) (hr : render n none indent = .ok text) :
    text.toList.count '$' = (variableNames (n.mentions false)).length ∧
    (∀ before after, text.toList = before ++ '$' :: after →
      ∃ name, (variableNames (n.mentions false))[before.count '$']? = some name ∧ name.toList <+: after) ∧
    Woven isDollar ((n.mentions false).map Mention.text) text ∧
    (n.mentions false).map Mention.name = n.occurrences.filterMap fun o => o.node.identifier? := by
  have hspell : Spells isDollar (n.script (Option.map Node.kind none)) (spelled none n) :=
    script_mentions n hv (fun t ht => ⟨plain_dollar.2 (hs t ht).1, (hs t ht).2⟩) none
  have hwoven : Woven isDollar ((n.mentions false).map Mention.text) text := hspell.woven (plain_dollar.2 hi) hr
  have hnames : ∀ m ∈ n.mentions false, '$' ∉ m.name.toList :=
    mention_name (P := fun name => '$' ∉ name.toList) (by decide) n (fun t ht => (hs t ht).1) false
  exact ⟨hwoven.count_dollar hnames, fun _ _ ht => hwoven.next_dollar hnames ht, hwoven, mentions_names n false⟩

/-- a variable that is set to a call; among the arguments a bare value and a map -/
def mixture : Node :=
  ⟨.assignment, [("id", .node .identifier [("name", .string "tone")]),
    ("init", .node .callExpression [("callee", .node .identifier [("name", .string "mix")]),
      ("arguments", .list
        [.node .identifier [("name", .string "a")],
         .node .sassValue [("value", .node .identifier [("name", .string "b")])],
         .node .sassMap [("properties", .list
           [.node .sassMapProperty [("key", .node .identifier [("name", .string "k")]),
             ("value", .node .identifier [("name", .string "c")])]])]])])]⟩

theorem mixture_valid : mixture.Valid := Value.valid_of_isValid _ rfl

/-- of its six identifiers three name variables -/
theorem mixture_sigils :
    render mixture none "  " = .ok "$tone: mix($a, b, (\n  k: $c\n));" ∧
    variableNames (mixture.mentions false) = ["tone", "a", "c"] ∧
    "$tone: mix($a, b, (\n  k: $c\n));".toList.count '$' = 3 ∧
    Woven isDollar ["$tone", "mix", "$a", "b", "k", "$c"] "$tone: mix($a, b, (\n  k: $c\n));" := by
  obtain ⟨hcount, -, hwoven, -⟩ := sigils_exact mixture mixture_valid (by decide) "  " _ (by decide) rfl
  exact ⟨rfl, rfl, hcount, hwoven⟩

end StyleTree
