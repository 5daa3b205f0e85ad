/-
Equal trees. Equality of values compares numbers as numbers and fields by name, so equal trees need not be identical:
either zero may stand for the other, anywhere in a tree. Writing does not tell such trees apart.

A number is written by its text, and both zeros have one text. So a piece may be replaced by its canonical form, in
which every zero is the positive one, and no part of a format notices.

- `Double.canonical_of_same`, `cssText_canonical`: equal numbers have one canonical form, and are written as it is;
- `lookup_of_same`: equal nodes store the same names, with equal values;
- `script_of_alike`: a part of a format sees the canonical forms of fields only;
- `piece_of_same`: so equal valid values are written alike, node by node;
- `same_renders_alike`: equal trees render alike under equal parents.
-/
import StyleTree.Generator
import StyleTree.Proofs.Building
import StyleTree.Proofs.Routine

namespace StyleTree

open Emission

/-! ## Numbers -/

namespace Double

/-- the number itself, but the positive zero for either zero -/
def canonical (x : Double) : Double := if x.isZero then ⟨0⟩ else x

theorem canonical_of_same {x y : Double} (h : x.same y = true) : x.canonical = y.canonical := by
  simp only [same, Bool.and_eq_true, Bool.or_eq_true, beq_iff_eq] at h
  rcases h.2 with hbits | ⟨hx, hy⟩
  · have hxy : x = y := by rw [← Double.mk.injEq] at hbits; exact hbits
    rw [hxy]
  · rw [canonical, canonical, if_pos hx, if_pos hy]

theorem cssText_canonical (x : Double) : x.canonical.cssText = x.cssText := by
  unfold canonical
  split
  · rename_i hx
    have hzero : (⟨0⟩ : Double).isZero = true := by decide
    rw [cssText, cssText, if_pos hzero, if_pos hx]
  · rfl

end Double

/-! ## Pieces -/

mutual

/-- a piece with the canonical form of every number in it; nodes are ready as they are -/
def Piece.canonical : Piece → Piece
  | .null => .null
  | .bool b => .bool b
  | .number x => .number x.canonical
  | .string s => .string s
  | .node r => .node r
  | .list items => .list (canonicals items)

def Piece.canonicals : List Piece → List Piece
  | [] => []
  | p :: ps => p.canonical :: canonicals ps

end

theorem Piece.canonicals_eq (ps : List Piece) : Piece.canonicals ps = ps.map Piece.canonical := by
  induction ps with
  | nil => rfl
  | cons p ps ih => rw [Piece.canonicals, ih, List.map_cons]

theorem Piece.canonical_list (ps : List Piece) : (Piece.list ps).canonical = .list (ps.map Piece.canonical) := by
  rw [Piece.canonical, Piece.canonicals_eq]

/-- pieces with one canonical form are one piece, two numbers, or two lists that are both empty or both not -/
theorem Piece.canonical_cases {p q : Piece} (h : p.canonical = q.canonical) :
    p = q ∨ (∃ x y, p = .number x ∧ q = .number y) ∨
      ∃ ps qs, p = .list ps ∧ q = .list qs ∧ ps.isEmpty = qs.isEmpty := by
  cases p with
  | number x => cases q <;> simp_all [Piece.canonical]
  | list ps =>
    cases q with
    | list qs =>
      rw [Piece.canonical_list, Piece.canonical_list, Piece.list.injEq] at h
      have hempty := congrArg List.isEmpty h
      rw [List.isEmpty_map, List.isEmpty_map] at hempty
      exact Or.inr (Or.inr ⟨ps, qs, rfl, rfl, hempty⟩)
    | _ => simp [Piece.canonical] at h
  | _ => cases q <;> simp_all [Piece.canonical]

namespace Emission

mutual

theorem raw_canonical : ∀ p : Piece, raw p.canonical = raw p
  | .null | .bool _ | .string _ | .node _ => by rw [Piece.canonical]
  | .number x => by rw [Piece.canonical, raw_number, raw_number, Double.cssText_canonical]
  | .list ps => by rw [Piece.canonical, raw, raw, raws_canonicals ps]

theorem raws_canonicals : ∀ ps : List Piece, raws (Piece.canonicals ps) = raws ps
  | [] => rfl
  | p :: ps => by rw [Piece.canonicals, raws, raws, raw_canonical p, raws_canonicals ps]

end

theorem text?_canonical (p : Piece) : text? p.canonical = text? p := by
  cases p <;> rw [Piece.canonical] <;> rfl

theorem rendered?_canonical (p : Piece) : rendered? p.canonical = rendered? p := by
  cases p <;> rw [Piece.canonical] <;> rfl

/-- no style tells a piece from its canonical form -/
theorem write_canonical (style : Style) (p : Piece) : style.write p.canonical = style.write p := by
  have htexts : ∀ ps : List Piece, (ps.map Piece.canonical).filterMap text? = ps.filterMap text? := by
    intro ps
    rw [List.filterMap_map]
    exact List.filterMap_congr fun p _ => text?_canonical p
  have hnodes : ∀ ps : List Piece, (ps.map Piece.canonical).filterMap rendered? = ps.filterMap rendered? := by
    intro ps
    rw [List.filterMap_map]
    exact List.filterMap_congr fun p _ => rendered?_canonical p
  by_cases hplain : style = .plain
  · rw [hplain]
    exact raw_canonical p
  · cases p with
    | list ps =>
      rw [Piece.canonical_list]
      cases style <;> simp_all only [Style.write, declaredPiece, Piece.describe, not_true_eq_false]
    | number x =>
      rw [Piece.canonical]
      cases style <;> first | rfl | exact absurd rfl hplain
    | _ => rw [Piece.canonical]

/-! ## Parts of a format -/

section Alike

variable {s s' : Site} (h : ∀ name, (s.get? name).map Piece.canonical = (s'.get? name).map Piece.canonical)

include h

/-- fields with one canonical form are both omitted, or both stored -/
theorem get?_alike (name : String) : (s.get? name = none ∧ s'.get? name = none) ∨
    ∃ p q, s.get? name = some p ∧ s'.get? name = some q ∧ p.canonical = q.canonical := by
  have hn := h name
  cases hs : s.get? name with
  | none =>
    rw [hs, Option.map_none, eq_comm, Option.map_eq_none_iff] at hn
    exact Or.inl ⟨rfl, hn⟩
  | some p =>
    rw [hs, Option.map_some, eq_comm, Option.map_eq_some_iff] at hn
    obtain ⟨q, hq, hpq⟩ := hn
    exact Or.inr ⟨p, q, rfl, hq, hpq.symm⟩

theorem holds_alike (guard : Guard) : guard.holds s = guard.holds s' := by
  cases guard with
  | always => rfl
  | flag f =>
    rw [holds_flag, holds_flag, Site.flag, Site.flag]
    rcases get?_alike h f with ⟨hp, hq⟩ | ⟨p, q, hp, hq, hpq⟩
    · rw [hp, hq]
    · rw [hp, hq]
      rcases Piece.canonical_cases hpq with rfl | ⟨x, y, rfl, rfl⟩ | ⟨ps, qs, rfl, rfl, -⟩ <;> rfl
  | given f =>
    rw [holds_given, holds_given]
    rcases get?_alike h f with ⟨hp, hq⟩ | ⟨p, q, hp, hq, -⟩ <;> rw [hp, hq]
    rfl
  | filled f =>
    rw [Guard.holds, Guard.holds]
    rcases get?_alike h f with ⟨hp, hq⟩ | ⟨p, q, hp, hq, hpq⟩
    · rw [hp, hq]
    · rw [hp, hq]
      rcases Piece.canonical_cases hpq with rfl | ⟨x, y, rfl, rfl⟩ | ⟨ps, qs, rfl, rfl, hempty⟩
      · rfl
      · rfl
      · exact congrArg not hempty

/-- an element of a format writes the same from fields with the same canonical forms -/
theorem script_of_alike (parent : Option Kind) (e : Element) : e.script parent s = e.script parent s' := by
  rw [Element.script, Element.script, holds_alike h]
  cases e.part with
  | field name style =>
    rw [Part.script, Part.script]
    rcases get?_alike h name with ⟨hp, hq⟩ | ⟨p, q, hp, hq, hpq⟩
    · rw [hp, hq]
    · rw [hp, hq]
      dsimp only
      rw [← write_canonical style p, hpq, write_canonical style q]
  | _ => rfl

end Alike

end Emission

/-! ## Equal values -/

namespace Value

/-- lists are equal item by item -/
theorem sameItems_iff {vs ws : List Value} :
    sameItems vs ws = true ↔ List.Forall₂ (fun v w => v.same w = true) vs ws := by
  induction vs generalizing ws with
  | nil => cases ws <;> simp [sameItems]
  | cons v vs ih => cases ws <;> simp [sameItems, ih]

/-- fields are equal by name -/
theorem sameFields_iff {fs gs : List (String × Value)} :
    sameFields fs gs = true ↔ ∀ e ∈ fs, ∃ w, gs.lookup e.1 = some w ∧ e.2.same w = true := by
  induction fs with
  | nil => simp [sameFields]
  | cons e fs ih =>
    obtain ⟨name, v⟩ := e
    rw [sameFields, Bool.and_eq_true, ih, List.forall_mem_cons]
    cases gs.lookup name <;> simp

/-- what is equal to a node is a node of its kind with as many fields, equal by name -/
theorem same_node {k : Kind} {fs : List (String × Value)} {w : Value} (h : (Value.node k fs).same w = true) :
    ∃ gs, w = .node k gs ∧ fs.length = gs.length ∧ sameFields fs gs = true := by
  cases w with
  | node l gs =>
    rw [same, Bool.and_eq_true, Bool.and_eq_true, beq_iff_eq, beq_iff_eq] at h
    obtain ⟨⟨rfl, hl⟩, hs⟩ := h
    exact ⟨gs, rfl, hl, hs⟩
  | _ => simp [same] at h

end Value

/-- equal nodes store the same names, with equal values -/
theorem lookup_of_same {fs gs : List (String × Value)} (hd : (Assoc.names fs).Nodup) (hl : fs.length = gs.length)
    (hs : Value.sameFields fs gs = true) (name : String) :
    Option.Rel (fun v w => v.same w = true) (fs.lookup name) (gs.lookup name) := by
  rw [Value.sameFields_iff] at hs
  cases hf : fs.lookup name with
  | some v =>
    obtain ⟨w, hw, hsame⟩ := hs _ (mem_of_lookup hf)
    rw [hw]
    exact .some hsame
  | none =>
    -- as many names on the right, and all of the left ones among them: so no others
    have hsub : Assoc.names fs ⊆ Assoc.names gs := by
      intro n hn
      obtain ⟨e, he, rfl⟩ := List.mem_map.1 hn
      obtain ⟨w, hw, -⟩ := hs e he
      exact List.mem_map.2 ⟨(e.1, w), mem_of_lookup hw, rfl⟩
    have hlength : (Assoc.names gs).length ≤ (Assoc.names fs).length := by
      rw [Assoc.names, Assoc.names, List.length_map, List.length_map]
      omega
    have hperm := (List.subperm_of_subset hd hsub).perm_of_length_le hlength
    cases hg : gs.lookup name with
    | none => exact .none
    | some w =>
      have hmem : name ∈ Assoc.names fs := hperm.mem_iff.2 (List.mem_map.2 ⟨(name, w), mem_of_lookup hg, rfl⟩)
      obtain ⟨e, he, rfl⟩ := List.mem_map.1 hmem
      have hstored := (lookup_eq_some_iff hd).2 he
      rw [hf] at hstored
      cases hstored

namespace Emission

theorem isSilent_of_same {k : Kind} {fs gs : List (String × Value)}
    (h : Option.Rel (fun v w => v.same w = true) (fs.lookup "value") (gs.lookup "value")) :
    isSilent k fs = isSilent k gs := by
  rw [isSilent, isSilent]
  generalize fs.lookup "value" = o at h
  generalize gs.lookup "value" = o' at h
  rcases h with @⟨v, w, hvw⟩ | _
  · cases v <;> cases w <;> simp_all [Value.same]
  · rfl

/-- the fields of equal valid nodes have one canonical form, if equal values of theirs do -/
theorem site_of_same {a b : Node} (ha : a.Valid) (hb : b.Valid) (hk : a.kind = b.kind)
    (hlookup : ∀ name, Option.Rel (fun v w => v.same w = true) (a.get? name) (b.get? name))
    (ih : ∀ e ∈ a.fields, ∀ w, e.2.Valid → w.Valid → e.2.same w = true →
      ∀ parent, (piece parent e.2).canonical = (piece parent w).canonical) (name : String) :
    (a.site.get? name).map Piece.canonical = (b.site.get? name).map Piece.canonical := by
  have hname := hlookup name
  rw [site_get?, site_get?, hk]
  generalize hf : a.get? name = o at hname
  generalize hg : b.get? name = o' at hname
  rcases hname with @⟨v, w, hvw⟩ | _
  · have hv := ha.of_field _ (mem_of_lookup hf)
    have hw := hb.of_field _ (mem_of_lookup hg)
    exact congrArg some (ih _ (mem_of_lookup hf) w hv hw hvw (contextIn b.kind name))
  · rfl

/-- **Equal values are written alike.** The pieces of equal valid values have one canonical form, under every parent. -/
theorem piece_of_same (v : Value) : ∀ w, v.Valid → w.Valid → v.same w = true →
    ∀ parent, (piece parent v).canonical = (piece parent w).canonical := by
  induction v using Value.induct with
  | node k fs ih =>
    intro w hv hw h parent
    obtain ⟨gs, rfl, hl, hs⟩ := Value.same_node h
    let a : Node := ⟨k, fs⟩
    let b : Node := ⟨k, gs⟩
    have ha : a.Valid := hv
    have hb : b.Valid := hw
    have hlookup := lookup_of_same ha.conforms.names_nodup hl hs
    have hscript : a.script parent = b.script parent := by
      have hsite := site_of_same ha hb rfl hlookup ih
      have hformatted : formatted parent a.site = formatted parent b.site :=
        List.flatMap_congr fun e _ => script_of_alike hsite parent e
      rw [script_eq ha, script_eq hb, hformatted]
    have hsilent : isSilent k fs = isSilent k gs := isSilent_of_same (hlookup "value")
    have hrendered : rendered parent a = rendered parent b := by
      rw [rendered, rendered, hscript]
      exact congrArg (Rendered.mk k · _) hsilent
    rw [piece_node, piece_node, hrendered]
  | list vs ih =>
    intro w hv hw h parent
    cases w with
    | list ws =>
      rw [Value.same, Value.sameItems_iff] at h
      rw [piece_list, piece_list, Piece.canonical_list, Piece.canonical_list, List.map_map, List.map_map]
      have hvs := hv.of_item
      have hws := hw.of_item
      clear hv hw
      refine congrArg Piece.list ?_
      induction h with
      | nil => rfl
      | @cons v w vs ws hvw _ hrest =>
        rw [List.forall_mem_cons] at ih hvs hws
        rw [List.map_cons, List.map_cons, hrest ih.2 hvs.2 hws.2]
        exact congrArg (· :: _) (ih.1 w hvs.1 hws.1 hvw parent)
    | _ => simp [Value.same] at h
  | number x =>
    intro w _ _ h parent
    cases w with
    | number y =>
      rw [Value.same] at h
      rw [piece, piece, Piece.canonical, Piece.canonical, Double.canonical_of_same h]
    | _ => simp [Value.same] at h
  | _ =>
    intro w _ _ h parent
    cases w <;> simp_all [Value.same]

end Emission

/-! ## Equal trees -/

theorem kind_of_same {a b : Node} (h : a.same b = true) : a.kind = b.kind := by
  obtain ⟨gs, hb, -⟩ := Value.same_node h
  rw [Node.toValue, Value.node.injEq] at hb
  exact hb.1.symm

theorem script_of_same {a b : Node} (ha : a.Valid) (hb : b.Valid) (h : a.same b = true) (parent : Option Kind) :
    a.script parent = b.script parent := by
  have hpiece := piece_of_same a.toValue b.toValue ha hb h parent
  rw [piece_toValue, piece_toValue, Piece.canonical, Piece.canonical, Piece.node.injEq, rendered, rendered,
    Rendered.mk.injEq] at hpiece
  exact hpiece.2.2

/-- **Equal trees render alike.** Valid trees that are equal, under no parents or under equal ones, give the same text or
the same refusal, in every unit. -/
theorem same_renders_alike (a b : Node) (ha : a.Valid) (hb : b.Valid) (h : a.same b = true) (p q : Option Node)
    (hp : Option.Rel (fun m m' => m.same m' = true) p q) (indent : String) :
    render a p indent = render b q indent := by
  have hparent : p.map Node.kind = q.map Node.kind := by
    rcases hp with ⟨hsame⟩ | _
    · exact congrArg some (kind_of_same hsame)
    · rfl
  rw [render, render, Generator.write, Generator.write, hparent, script_of_same ha hb h]

/-- a list with two numbers in it, each of them twice and at different depths -/
def numberList (x y : Double) : Node :=
  ⟨.sassList, [("elements", .list
    [.node .sassNumber [("value", .number x)],
     .node .sassValue [("value", .list [.number y, .list [.string "a", .number x, .null]])]])]⟩

theorem numberList_valid (x y : Double) : (numberList x y).Valid := Value.valid_of_isValid _ rfl

/-- the list with its zeros exchanged is another list and an equal one, and each renders alike under itself -/
theorem numberList_alike :
    numberList ⟨0⟩ ⟨0x8000000000000000⟩ ≠ numberList ⟨0x8000000000000000⟩ ⟨0⟩ ∧
    (numberList ⟨0⟩ ⟨0x8000000000000000⟩).same (numberList ⟨0x8000000000000000⟩ ⟨0⟩) = true ∧
    render (numberList ⟨0x8000000000000000⟩ ⟨0⟩) (some (numberList ⟨0x8000000000000000⟩ ⟨0⟩)) "  " =
      .ok "(0, 0, a, 0, )" := by
  have hsame : (numberList ⟨0⟩ ⟨0x8000000000000000⟩).same (numberList ⟨0x8000000000000000⟩ ⟨0⟩) = true := by decide
  refine ⟨by simp [numberList], hsame, ?_⟩
  rw [← same_renders_alike _ _ (numberList_valid _ _) (numberList_valid _ _) hsame _ _ (.some hsame) "  "]
  rfl

end StyleTree
