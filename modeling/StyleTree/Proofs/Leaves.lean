/-
Leaves come through as they are. All trees with one outline and clean leaves are written by one template, with their
leaves in the holes: nothing that writing looks at depends on a leaf, every leaf is written once, and in stored order.

`Patterned shape` says so for the outline of a node. It goes from the children to the node: each element of the format
of a kind is uniform over the trees of an outline (`element_uniform`), style by style, so the whole format is
(`patterned`).

- `leaves_woven`: for each outline, parent and indentation there are fixed strings, and every tree of that outline with
  clean leaves is rendered as those strings with its leaves between them.
-/
import Mathlib.Data.List.Forall2
import StyleTree.Proofs.Outline

namespace StyleTree

open Emission Instr

/-! ## Trees of an outline -/

/-- a valid value of the given outline, with clean leaves -/
structure Value.Matches (quotes spells : Bool) (shape v : Value) : Prop where
  valid : v.Valid
  outline : v.outline spells = shape
  clean : ∀ l ∈ v.leaves quotes spells, Clean l

/-- a valid tree of the given outline, with clean leaves -/
structure Node.Matches (shape n : Node) : Prop where
  valid : n.Valid
  outline : n.outline = shape
  clean : ∀ l ∈ n.leaves, Clean l

/-- the trees of an outline fill one template with their leaves, under each parent -/
def Patterned (shape : Node) : Prop :=
  ∀ parent, Uniform (Node.Matches shape) Node.leaves fun n => n.script parent

theorem Node.Matches.kind {shape n : Node} (h : Node.Matches shape n) : n.kind = shape.kind := by
  rw [← h.outline]; rfl

/-- items that match one by one -/
theorem matches_items {quotes spells : Bool} {items : List Value} {v : Value}
    (h : Value.Matches quotes spells (.list items) v) :
    ∃ vs, v = .list vs ∧ List.Forall₂ (Value.Matches quotes spells) items vs := by
  cases v with
  | list vs =>
    have hout := h.outline
    rw [Value.outline_list, Value.list.injEq] at hout
    refine ⟨vs, rfl, ?_⟩
    rw [← hout, List.forall₂_map_left_iff, List.forall₂_same]
    intro v hv
    refine ⟨h.valid.of_item v hv, rfl, fun l hl => h.clean l ?_⟩
    rw [Value.leaves_list]
    exact List.mem_flatMap.2 ⟨v, hv, hl⟩
  | _ => have hout := h.outline; simp [Node.toValue] at hout

theorem leaves_nodes (quotes spells : Bool) (ns : List Node) :
    (Value.list (ns.map Node.toValue)).leaves quotes spells = ns.flatMap Node.leaves := by
  rw [Value.leaves_list, List.flatMap_map]
  exact List.flatMap_congr fun n _ => Value.leaves_node quotes spells n.kind n.fields

/-- nodes that match one by one -/
theorem forall₂_matches {shapes ns : List Node} :
    List.Forall₂ Node.Matches shapes ns ↔
      ns.map Node.outline = shapes ∧ ∀ m ∈ ns, m.Valid ∧ ∀ l ∈ m.leaves, Clean l := by
  constructor
  · intro h
    induction h with
    | nil => exact ⟨rfl, by simp⟩
    | cons hm _ ih =>
      refine ⟨?_, List.forall_mem_cons.2 ⟨⟨hm.valid, hm.clean⟩, ih.2⟩⟩
      rw [List.map_cons, hm.outline, ih.1]
  · rintro ⟨rfl, h⟩
    rw [List.forall₂_map_left_iff, List.forall₂_same]
    intro m hm
    exact ⟨(h m hm).1, rfl, (h m hm).2⟩

/-- a list of nodes matches node by node -/
theorem matches_nodes {quotes spells : Bool} {shape : Value} {ns : List Node}
    (h : Value.Matches quotes spells shape (.list (ns.map Node.toValue))) :
    List.Forall₂ Node.Matches shape.top ns := by
  refine forall₂_matches.2 ⟨?_, fun n hn => ?_⟩
  · rw [← h.outline, top_outline, Value.top_nodes]
  · have hmem : n.toValue ∈ ns.map Node.toValue := List.mem_map_of_mem hn
    refine ⟨h.valid.of_item _ hmem, fun l hl => h.clean l ?_⟩
    rw [leaves_nodes]
    exact List.mem_flatMap.2 ⟨n, hn, hl⟩

/-! ## Sequences -/

/-- items in a row, with something between them that depends on their outlines only -/
theorem Uniform.joined {α β : Type} {member : β → α → Prop} {texts : α → List String} {script : α → Script}
    {shapes : List β} (h : ∀ b ∈ shapes, Uniform (member b) texts script) {between : α → α → Script}
    (link : β → β → Script) (hlink : ∀ b a c a', member b a → member c a' → between a a' = link b c) :
    Uniform (List.Forall₂ member shapes) (fun as => as.flatMap texts) (StyleTree.joined between script) := by
  induction shapes with
  | nil =>
    refine .of_fills [] fun as has => ?_
    cases has
    exact .nil
  | cons b shapes ih =>
    obtain ⟨slots, hb⟩ := h b List.mem_cons_self
    obtain ⟨rest, hrest⟩ := ih fun c hc => h c (List.mem_cons_of_mem _ hc)
    cases shapes with
    | nil =>
      refine .of_fills slots fun as has => ?_
      obtain ⟨a, _, ha, hnil, rfl⟩ := List.forall₂_cons_left_iff.1 has
      obtain rfl := List.forall₂_nil_left_iff.1 hnil
      simpa [StyleTree.joined] using hb a ha
    | cons c shapes =>
      refine .of_fills (slots ++ ((link b c).map .fixed ++ rest)) fun as has => ?_
      obtain ⟨a, tail, ha, htail, rfl⟩ := List.forall₂_cons_left_iff.1 has
      obtain ⟨a', as', ha', -, rfl⟩ := List.forall₂_cons_left_iff.1 htail
      rw [StyleTree.joined, hlink b a c a' ha ha']
      exact (hb a ha).append ((Fills.fixed _).append (hrest _ htail))

/-- items with a separator between them -/
theorem Uniform.intercalate {α β : Type} {member : β → α → Prop} {texts : α → List String} {script : α → Script}
    (sep : Script) {shapes : List β} (h : ∀ b ∈ shapes, Uniform (member b) texts script) :
    Uniform (List.Forall₂ member shapes) (fun as => as.flatMap texts)
      fun as => List.intercalate sep (as.map script) := by
  have hrow := Uniform.joined h (fun _ _ => sep) fun _ _ _ _ _ _ => rfl
  exact hrow.congr (fun _ _ => rfl) fun as _ => intercalate_eq_joined sep script as

/-- statements with the gaps of a body between them; a gap looks at kinds only -/
theorem stacked_uniform (parent : Option Kind) {shapes : List Node} (h : ∀ m ∈ shapes, Patterned m) :
    Uniform (List.Forall₂ Node.Matches shapes) (fun ns => ns.flatMap Node.leaves)
      fun ns => stacked (ns.map (rendered parent)) := by
  have hgap : ∀ b a c a', Node.Matches b a → Node.Matches c a' →
      gap (rendered parent a) (rendered parent a') = gap (rendered parent b) (rendered parent c) := by
    intro b a c a' ha ha'
    have hkind : (rendered parent a).kind = (rendered parent b).kind := ha.kind
    have hkind' : (rendered parent a').kind = (rendered parent c).kind := ha'.kind
    unfold gap
    rw [hkind, hkind']
  have hrow := Uniform.joined (fun m hm => h m hm parent) _ hgap
  exact hrow.congr (fun _ _ => rfl) fun ns _ => stacked_eq_joined parent ns

/-- texts joined by commas in one token -/
theorem selectors_uniform (k : Nat) :
    Uniform (fun ts : List String => ts.length = k) id fun ts => [token (", ".intercalate ts)] := by
  induction k with
  | zero =>
    refine .of_fills [.fixed (token "")] fun ts hts => ?_
    obtain rfl := List.length_eq_zero_iff.1 hts
    exact .fixed [token ""]
  | succ k ih =>
    obtain ⟨slots, hs⟩ := ih
    cases k with
    | zero =>
      refine .of_fills [.hole] fun ts hts => ?_
      obtain ⟨t, rfl⟩ := List.length_eq_one_iff.1 hts
      rw [String.intercalate_singleton]
      exact .hole t
    | succ k =>
      refine .of_fills ([.hole] ++ ([.fixed (token ", ")] ++ slots)) fun ts hts => ?_
      cases ts with
      | nil => cases hts
      | cons t ts =>
        have hlen : ts.length = k + 1 := Nat.succ.inj hts
        have hne : ts ≠ [] := by
          rintro rfl
          cases hlen
        have hall := (Fills.hole t).append ((Fills.fixed [token ", "]).append (hs ts hlen))
        rw [String.intercalate_cons_of_ne_nil hne]
        exact hall.join.join

/-- the statements of a body; what is dropped has no leaves, and is the same in all of them -/
theorem body_uniform (parent : Option Kind) {shapes : List Node} (h : ∀ m ∈ shapes, Patterned m) :
    Uniform (List.Forall₂ Node.Matches shapes) (fun ns => ns.flatMap Node.leaves)
      fun ns => body (ns.map (rendered parent)) := by
  have hvisible : ∀ m ∈ visibleNodes shapes, Patterned m := fun m hm => h m (mem_of_mem_visibleNodes hm)
  obtain ⟨slots, hs⟩ := stacked_uniform parent hvisible
  refine .of_fills slots fun ns hns => ?_
  obtain ⟨rfl, hall⟩ := forall₂_matches.1 hns
  have hmatch : List.Forall₂ Node.Matches (visibleNodes (ns.map Node.outline)) (visibleNodes ns) :=
    forall₂_matches.2 ⟨visibleNodes_outline fun m hm => (hall m hm).2, fun m hm => hall m (mem_of_mem_visibleNodes hm)⟩
  have hleaves := visibleNodes_leaves (fun m hm => (hall m hm).1) fun m hm => (hall m hm).2
  rw [hleaves, body, visible_rendered]
  exact hs _ hmatch

/-- the entries of a map -/
theorem entries_uniform (parent : Option Kind) {shapes : List Node} (h : ∀ m ∈ shapes, Patterned m) :
    Uniform (List.Forall₂ Node.Matches shapes) (fun ns => ns.flatMap Node.leaves)
      fun ns => entries (ns.map (rendered parent)) := by
  cases shapes with
  | nil =>
    refine (Uniform.fixed [token "()"]).congr (fun ns hns => ?_) fun ns hns => ?_
    · obtain rfl := List.forall₂_nil_left_iff.1 hns; rfl
    · obtain rfl := List.forall₂_nil_left_iff.1 hns; rfl
  | cons shape shapes =>
    have hrow := Uniform.intercalate [token ",", newline] fun m hm => h m hm parent
    refine (((Uniform.fixed [openBlock "("]).append hrow).append (Uniform.fixed [closeBlock ")"])).congr
      (fun ns hns => ?_) fun ns hns => ?_
    · simp
    · obtain ⟨n, ns, -, -, rfl⟩ := List.forall₂_cons_left_iff.1 hns
      rw [entries, List.map_map]; rfl

/-! ## Fields -/

/-- a value as it stands -/
theorem raw_uniform (parent : Option Kind) (spells : Bool) (shape : Value) :
    (∀ m ∈ shape.top, Patterned m) →
      Uniform (Value.Matches false spells shape) (Value.leaves false spells) fun v => raw (piece parent v) := by
  induction shape using Value.induct with
  | null =>
    intro _
    refine .of_fills [] fun v hv => ?_
    have hout := hv.outline
    cases v with
    | null => simpa [piece] using Fills.nil
    | _ => simp [Node.toValue] at hout
  | bool b =>
    intro _
    cases spells with
    | true =>
      refine .of_fills [.hole] fun v hv => ?_
      have hout := hv.outline
      cases v with
      | bool c => simpa [piece] using Fills.hole (boolText c)
      | _ => simp [Node.toValue] at hout
    | false =>
      refine .of_fills [.fixed (token (boolText b))] fun v hv => ?_
      have hout := hv.outline
      cases v with
      | bool c =>
        simp only [Value.outline_bool, Bool.or_false, Value.bool.injEq] at hout
        subst hout
        simpa [piece] using Fills.fixed [token (boolText c)]
      | _ => simp [Node.toValue] at hout
  | number x =>
    intro _
    refine .of_fills [.hole] fun v hv => ?_
    have hout := hv.outline
    cases v with
    | number y => simpa [piece] using Fills.hole y.cssText
    | _ => simp [Node.toValue] at hout
  | string t =>
    intro _
    refine .of_fills [.hole] fun v hv => ?_
    have hout := hv.outline
    cases v with
    | string u => simpa [piece] using Fills.hole u
    | _ => simp [Node.toValue] at hout
  | node k fs _ =>
    intro h
    obtain ⟨slots, hs⟩ := h ⟨k, fs⟩ (by simp) parent
    refine .of_fills slots fun v hv => ?_
    have hout := hv.outline
    cases v with
    | node l gs =>
      have hclean := hv.clean
      rw [Value.leaves_node] at hclean ⊢
      rw [piece_node]
      refine hs ⟨l, gs⟩ ⟨hv.valid, ?_, hclean⟩
      simpa [Node.toValue, Node.outline] using hout
    | _ => simp at hout
  | list items ih =>
    intro h
    have hitems : ∀ v ∈ items, Uniform (Value.Matches false spells v) (Value.leaves false spells)
        fun v => raw (piece parent v) := by
      intro v hv
      refine ih v hv fun m hm => h m ?_
      rw [Value.top_list]
      exact List.mem_flatMap.2 ⟨v, hv, hm⟩
    obtain ⟨slots, hs⟩ := Uniform.intercalate [token ",", Instr.space] hitems
    refine .of_fills slots fun v hv => ?_
    obtain ⟨vs, rfl, hvs⟩ := matches_items hv
    rw [Value.leaves_list, piece_list, raw_list, List.map_map]
    exact hs vs hvs

theorem lines_of_unbroken {l : List Char} (hne : l ≠ []) (hl : '\n' ∉ l) : Text.lines l = [l] := by
  induction l with
  | nil => exact absurd rfl hne
  | cons c l ih =>
    simp only [List.mem_cons, not_or] at hl
    have hcons : Text.lines (c :: l) = Text.consLine c (Text.lines l) := by
      rw [Text.lines]
      · exact fun h => hl.1 h.symm
      · rintro rest - rfl
        exact hl.2 List.mem_cons_self
    rw [hcons]
    by_cases h0 : l = []
    · subst h0; rfl
    · rw [ih h0 hl.2]; rfl

/-- a clean comment has one line -/
theorem commentLines_of_clean {t : String} (ht : Clean t) :
    commentLines t = [token "//", Instr.space, token t] := by
  have hne : t.toList ≠ [] := by
    rw [ne_eq, String.toList_eq_nil_iff]
    exact ht.nonempty
  have hempty : t.toList.isEmpty = false := by simpa using hne
  rw [commentLines, lines_of_unbroken hne ht.unbroken, List.map_singleton, List.intercalate_singleton, commentLine,
    hempty, String.ofList_toList]
  rfl

/-- a field in a style that does not ask for the rest of its node -/
theorem style_uniform {style : Style} (hd : style ≠ .declared) {quotes : Bool} (hq : quotes = true ↔ style = .literal)
    (spells : Bool) (parent : Option Kind) {shape : Value} (h : ∀ m ∈ shape.top, Patterned m) :
    Uniform (fun v => Value.Matches quotes spells shape v ∧ style.Fits v) (Value.leaves quotes spells)
      fun v => style.write (piece parent v) := by
  have hplain : style ≠ .literal → quotes = false := fun hne => by simpa using fun hq' => hne (hq.1 hq')
  cases style with
  | plain =>
    obtain rfl := hplain (by decide)
    obtain ⟨slots, hs⟩ := raw_uniform parent spells shape h
    exact ⟨slots, fun v hv => hs v hv.1⟩
  | text =>
    obtain rfl := hplain (by decide)
    refine .of_fills [.hole] ?_
    rintro v ⟨-, t, rfl⟩
    simpa [piece_string] using Fills.hole t
  | literal =>
    obtain rfl := hq.2 rfl
    refine .of_fills [.hole] ?_
    rintro v ⟨-, t, rfl⟩
    simpa [piece_string] using Fills.hole (Text.quoted t)
  | lines =>
    obtain rfl := hplain (by decide)
    refine .of_fills ([.fixed (token "//"), .fixed Instr.space] ++ [.hole]) ?_
    rintro v ⟨hv, t, rfl⟩
    have ht : Clean t := hv.clean t (by simp)
    have hfill := (Fills.fixed [token "//", Instr.space]).append (Fills.hole t)
    simpa [piece_string, commentLines_of_clean ht] using hfill
  | selectors =>
    obtain rfl := hplain (by decide)
    obtain ⟨slots, hs⟩ := selectors_uniform (shape.leaves false spells).length
    refine .of_fills slots ?_
    rintro v ⟨hv, ts, rfl⟩
    have hleaves : (Value.list (ts.map .string)).leaves false spells = ts := by
      rw [Value.leaves_list, List.flatMap_map]
      simp
    rw [hleaves, piece_texts, write_selectors]
    refine hs ts ?_
    rw [← hv.outline, leaves_length, hleaves]
  | body =>
    obtain ⟨slots, hs⟩ := body_uniform parent h
    refine .of_fills slots ?_
    rintro v ⟨hv, ns, rfl⟩
    rw [leaves_nodes, piece_nodes, write_body]
    exact hs ns (matches_nodes hv)
  | braced =>
    obtain ⟨slots, hs⟩ := ((Uniform.fixed [openBlock "\x7b"]).append (body_uniform parent h)).append
      (Uniform.fixed [closeBlock "\x7d"])
    refine .of_fills slots ?_
    rintro v ⟨hv, ns, rfl⟩
    rw [leaves_nodes, piece_nodes, write_braced, braced]
    simpa using hs ns (matches_nodes hv)
  | entries =>
    obtain ⟨slots, hs⟩ := entries_uniform parent h
    refine .of_fills slots ?_
    rintro v ⟨hv, ns, rfl⟩
    rw [leaves_nodes, piece_nodes, write_entries]
    exact hs ns (matches_nodes hv)
  | declared => exact absurd rfl hd

/-! ## Nodes -/

/-- a stored field of an outline is the outline of a stored field -/
theorem Node.Matches.field {shape n : Node} (h : Node.Matches shape n) {name : String} {w : Value}
    (hg : shape.get? name = some w) :
    ∃ v, n.get? name = some v ∧ Value.Matches (n.kind.quotes name) n.kind.spells w v := by
  rw [← h.outline, n.get?_outline, Option.map_eq_some_iff] at hg
  obtain ⟨v, hv, hw⟩ := hg
  exact ⟨v, hv, h.valid.of_field _ (mem_of_lookup hv), hw, fun l hl => h.clean l (mem_leaves hv hl)⟩

theorem Node.Matches.omitted {shape n : Node} (h : Node.Matches shape n) {name : String}
    (hg : shape.get? name = none) : n.get? name = none := by
  rw [← h.outline, n.get?_outline] at hg
  exact Option.map_eq_none_iff.1 hg

theorem Node.Matches.holds {shape n : Node} (h : Node.Matches shape n) {e : Element} (he : e ∈ shape.kind.format) :
    e.guard.holds n.site = e.guard.holds shape.site := by
  rw [← h.kind] at he
  rw [← holds_outline h.clean he, h.outline]

/-- a field that is stored, and that its guard lets through -/
theorem field_uniform {shape : Node} (hp : ∀ m ∈ shape.children, Patterned m) (ho : shape.offence? = none) {e : Element}
    (he : e ∈ shape.kind.format) {name : String} {style : Style} (hf : e.part = .field name style) {w : Value}
    (hg : shape.get? name = some w) (hh : e.guard.holds shape.site = true) (parent : Option Kind) :
    Uniform (Node.Matches shape) (fun n => e.read n n.kind.fieldLeaves) fun n => e.script parent n.site := by
  have htop : ∀ m ∈ w.top, Patterned m := fun m hm => hp m (List.mem_flatMap.2 ⟨_, mem_of_lookup hg, hm⟩)
  have hq := field_quotes he hf
  have hfield : ∀ n, Node.Matches shape n → ∃ v, n.get? name = some v ∧
      Value.Matches (shape.kind.quotes name) shape.kind.spells w v ∧ style.Fits v ∧
      e.read n n.kind.fieldLeaves = v.leaves (shape.kind.quotes name) shape.kind.spells ∧
      e.script parent n.site = style.write (piece (contextIn shape.kind name) v) := by
    intro n hn
    obtain ⟨v, hv, hm⟩ := hn.field hg
    rw [hn.kind] at hm
    refine ⟨v, hv, hm, fits_of_valid hn.valid (by rwa [hn.kind]) hf hv, ?_, ?_⟩
    · rw [read_field n _ hf, hv, hn.kind]; rfl
    · rw [Element.script, hn.holds he, hh, hf, Part.script, site_get?, hv, hn.kind]; rfl
  by_cases hd : style = .declared
  · subst hd
    -- only the value of a declaration is written in this style, and none of them offends
    obtain ⟨hk, rfl⟩ := (field_sound he hf).2.2.1 rfl
    have hplain : shape.kind.quotes "value" = false := by rw [hk]; rfl
    obtain ⟨slots, hs⟩ := raw_uniform (contextIn shape.kind "value") shape.kind.spells w htop
    refine .of_fills slots fun n hn => ?_
    obtain ⟨v, hv, hm, hfit, hread, hscript⟩ := hfield n hn
    have hon : n.offence? = none := by rw [← offence?_outline, hn.outline, ho]
    rw [hplain] at hm hread
    rw [hread, hscript, write_declared, declaredPiece_eq_raw (hn.kind.trans hk) hon hv hfit]
    exact hs v hm
  · obtain ⟨slots, hs⟩ := style_uniform hd hq shape.kind.spells (contextIn shape.kind name) htop
    refine .of_fills slots fun n hn => ?_
    obtain ⟨v, -, hm, hfit, hread, hscript⟩ := hfield n hn
    rw [hread, hscript]
    exact hs v ⟨hm, hfit⟩

/-- each element of a format is uniform over the trees of an outline -/
theorem element_uniform {shape : Node} (hp : ∀ m ∈ shape.children, Patterned m) (ho : shape.offence? = none)
    {e : Element} (he : e ∈ shape.kind.format) (parent : Option Kind) :
    Uniform (Node.Matches shape) (fun n => e.read n n.kind.fieldLeaves) fun n => e.script parent n.site := by
  have hfixed : e.field? = none → ∀ s : Script, (∀ n : Node, e.part.script parent n.site = s) →
      Uniform (Node.Matches shape) (fun n => e.read n n.kind.fieldLeaves) fun n => e.script parent n.site := by
    intro hnone s hs
    refine (Uniform.fixed (optionally (e.guard.holds shape.site) s)).congr (fun n _ => ?_) fun n hn => ?_
    · rw [Element.read, hnone]
    · rw [Element.script, hs, hn.holds he]
  cases hf : e.part with
  | print op => exact hfixed (by rw [Element.field?, hf]) [.print op] fun n => by rw [hf]; rfl
  | sigil =>
    exact hfixed (by rw [Element.field?, hf]) (optionally (isVariableContext parent) [token "$"])
      fun n => by rw [hf]; rfl
  | keyword =>
    exact hfixed (by rw [Element.field?, hf]) [token (if parent = some .ifStatement then "if" else "@if")]
      fun n => by rw [hf]; rfl
  | field name style =>
    cases hg : shape.get? name with
    | none =>
      refine .of_fills [] fun n hn => ?_
      have hnone := hn.omitted hg
      rw [read_field n _ hf, hnone, Element.script, hf, Part.script, site_get?, hnone]
      cases e.guard.holds n.site <;> exact .nil
    | some w =>
      cases hh : e.guard.holds shape.site with
      | true => exact field_uniform hp ho he hf hg hh parent
      | false =>
        refine .of_fills [] fun n hn => ?_
        obtain ⟨v, hv, hm⟩ := hn.field hg
        rw [read_field n _ hf, hv, Element.script, hn.holds he, hh]
        -- an outline has no empty text, so only an empty list is kept back
        rcases empty_of_guard hg (field_sound he hf).1 hh with rfl | rfl
        · have hout := hm.outline
          cases v <;> simp [Node.toValue] at hout
        · obtain ⟨vs, rfl, hvs⟩ := matches_items hm
          obtain rfl := List.forall₂_nil_left_iff.1 hvs
          simpa [Kind.fieldLeaves, optionally] using Fills.nil

/-- **One template for each outline.** The trees of an outline that can be written fill one template with their
leaves. -/
theorem patterned (shape : Node) : shape.halt? = none → Patterned shape := by
  induction shape using Node.induct with
  | step shape ih =>
    intro hh parent
    have ho : shape.offence? = none := by
      cases h : shape.offence? with
      | none => rfl
      | some k => rw [Node.halt?_of_offence h] at hh; cases hh
    have hchildren : ∀ m ∈ shape.children, Patterned m := by
      rw [Node.halt?_of_children ho, Option.map_eq_none_iff, List.findSome?_eq_none_iff] at hh
      exact fun m hm => ih m hm (hh m hm)
    have hformat := Uniform.flatMap shape.kind.format fun e he => element_uniform hchildren ho he parent
    refine (((Uniform.fixed [.enter shape.kind]).append hformat).append (Uniform.fixed [.leave])).congr
      (fun n hn => ?_) fun n hn => ?_
    · rw [leaves_eq hn.valid, hn.kind]; simp
    · rw [script_eq hn.valid, formatted_of_kind hn.kind, hn.kind]

/-! ## Rendering -/

/-- **Leaves come through as they are.** Whether a valid tree is rendered depends on its outline only. For each outline,
parent and indentation there are fixed strings, one more than there are leaves, and every valid tree of that outline
whose leaves are clean is rendered, if at all, as those strings with its leaves between them. -/
theorem leaves_woven (shape : Node) (parent : Option Node) (indent : String) :
    (∀ n n' : Node, n.Valid → n'.Valid → n.outline = shape → n'.outline = shape →
      ((∃ text, render n parent indent = .ok text) ↔ ∃ text, render n' parent indent = .ok text)) ∧
    ∃ gaps : List String, ∀ n : Node, n.Valid → n.outline = shape → (∀ l ∈ n.leaves, Clean l) →
      gaps.length = n.leaves.length + 1 ∧
      ∀ text, render n parent indent = .ok text → text = weave gaps n.leaves := by
  refine ⟨fun n n' hv hv' hn hn' => ?_, ?_⟩
  · rw [render_ok_iff hv, render_ok_iff hv', ← halt?_outline n, ← halt?_outline n', hn, hn']
  by_cases hh : shape.halt? = none
  · obtain ⟨slots, hs⟩ := patterned shape hh (parent.map Node.kind)
    refine ⟨gaps (Printer.new indent) slots, fun n hv hn hc => ?_⟩
    have hfill := hs n ⟨hv, hn, hc⟩
    have hnone : n.halt? = none := by rw [← halt?_outline, hn, hh]
    refine ⟨by rw [gaps_length, hfill.length], fun text htext => ?_⟩
    have hstart : Continues [] (Printer.new indent) (Generator.new indent).printer := ⟨rfl, fun _ _ => nofun⟩
    have hok : ((Generator.new indent).write n parent).2 = none := by
      rw [(write_ends hv parent _).error, hnone]; rfl
    rw [render_eq n hv, hnone, Except.ok.injEq] at htext
    rw [← htext]
    rw [Generator.write, hfill.run] at hok ⊢
    rw [run_fill slots hstart hfill.length hc hok]
    exact String.empty_append
  · refine ⟨List.replicate (shape.leaves.length + 1) "", fun n hv hn _ => ⟨?_, fun text htext => ?_⟩⟩
    · rw [List.length_replicate, ← hn, n.leaves_length]
    · have hnone := (render_ok_iff hv parent indent).1 ⟨text, htext⟩
      rw [← halt?_outline, hn] at hnone
      exact absurd hnone hh

/-- two rules of one outline, and the strings that both are written with -/
theorem plainRule_woven : ∃ gaps : List String, gaps.length = 4 ∧
    render (plainRule "a" "color" "red") none "  " = .ok (weave gaps ["a", "color", "red"]) ∧
    render (plainRule "ul > li" "margin" "0 auto") none "  " = .ok (weave gaps ["ul > li", "margin", "0 auto"]) := by
  obtain ⟨-, gaps, hgaps⟩ := leaves_woven (plainRule "_" "_" "_") none "  "
  have hrender : ∀ s p v : String, Clean s → Clean p → Clean v →
      gaps.length = 4 ∧ render (plainRule s p v) none "  " = .ok (weave gaps [s, p, v]) := by
    intro s p v hs hp hv
    have hvalid := plainRule_valid s p v
    have hleaves : (plainRule s p v).leaves = [s, p, v] := rfl
    have hwoven := hgaps (plainRule s p v) hvalid rfl (by simp [hleaves, hs, hp, hv])
    obtain ⟨text, htext⟩ := (render_ok_iff hvalid none "  ").2 rfl
    rw [hleaves] at hwoven
    refine ⟨hwoven.1, ?_⟩
    rw [htext, hwoven.2 text htext]
  have ha := hrender "a" "color" "red" ⟨by decide, by decide, by decide⟩ ⟨by decide, by decide, by decide⟩
    ⟨by decide, by decide, by decide⟩
  have hb := hrender "ul > li" "margin" "0 auto" ⟨by decide, by decide, by decide⟩ ⟨by decide, by decide, by decide⟩
    ⟨by decide, by decide, by decide⟩
  exact ⟨gaps, ha.1, ha.2, hb.2⟩

end StyleTree
