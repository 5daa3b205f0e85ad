/-
Every routine keeps to the table. The fields of a valid node are what its routine asks for, so no accessor refuses one
and the routine goes through; what it then writes is the format of the kind, element by element.

- `routine_formatted`: on a valid node the routine of its kind writes what the format says, for all thirty kinds;
- `script_eq`: so the script of a valid node is its format, between the marks for entering and leaving it.
-/
import StyleTree.Proofs.Format

namespace StyleTree.Emission

open Instr Schema Shape

/-! ## Fields of a valid node, ready to be written -/

section Fields

variable {n : Node} (hv : n.Valid) {k : Kind} (hk : n.kind = k) (name : String) {shape : Shape}

include hv hk

theorem required_get? (hs : required name shape ∈ k.schema) :
    ∃ v, n.get? name = some v ∧ shape.admits v = true := by
  subst hk
  rcases hv.conforms.lookup (schema_names_nodup _) hs with ⟨ho, _⟩ | h
  · cases ho
  · exact h

theorem optional_get? (hs : optional name shape ∈ k.schema) :
    n.get? name = none ∨ ∃ v, n.get? name = some v ∧ shape.admits v = true := by
  subst hk
  rcases hv.conforms.lookup (schema_names_nodup _) hs with ⟨_, h⟩ | h
  · exact Or.inl h
  · exact Or.inr h

/-- a required node -/
theorem required_node (hs : required name shape ∈ k.schema) (hn : shape.Nodal) :
    ∃ r, n.site.get? name = some (.node r) := by
  obtain ⟨v, hg, ha⟩ := required_get? hv hk name hs
  obtain ⟨k, fs, rfl⟩ := hn v ha
  exact ⟨_, by rw [site_get?, hg, Option.map_some, piece_node]⟩

/-- a node that may be omitted -/
theorem optional_node (hs : optional name shape ∈ k.schema) (hn : shape.Nodal) :
    ∃ o : Option Rendered, n.site.get? name = o.map .node := by
  rcases optional_get? hv hk name hs with hg | ⟨v, hg, ha⟩
  · exact ⟨none, by rw [site_get?, hg]; rfl⟩
  · obtain ⟨k, fs, rfl⟩ := hn v ha
    exact ⟨some _, by rw [site_get?, hg, Option.map_some, piece_node]; rfl⟩

/-- a required list of nodes -/
theorem required_nodes (hs : required name (.listOf shape) ∈ k.schema) (hn : shape.Nodal) :
    ∃ rs : List Rendered, n.site.get? name = some (.list (rs.map .node)) := by
  obtain ⟨v, hg, ha⟩ := required_get? hv hk name hs
  obtain ⟨ns, rfl⟩ := hn.list ha
  exact ⟨_, by rw [site_get?, hg, Option.map_some, piece_nodes]⟩

/-- a list of nodes that may be omitted -/
theorem optional_nodes (hs : optional name (.listOf shape) ∈ k.schema) (hn : shape.Nodal) :
    ∃ o : Option (List Rendered), n.site.get? name = o.map fun rs => .list (rs.map .node) := by
  rcases optional_get? hv hk name hs with hg | ⟨v, hg, ha⟩
  · exact ⟨none, by rw [site_get?, hg]; rfl⟩
  · obtain ⟨ns, rfl⟩ := hn.list ha
    exact ⟨some _, by rw [site_get?, hg, Option.map_some, piece_nodes]; rfl⟩

/-- a required text -/
theorem required_text (hs : required name string ∈ k.schema) :
    ∃ t, n.site.get? name = some (.string t) := by
  obtain ⟨v, hg, ha⟩ := required_get? hv hk name hs
  obtain ⟨t, rfl⟩ := textual_string v ha
  exact ⟨t, by rw [site_get?, hg, Option.map_some, piece_string]⟩

/-- a text that may be omitted -/
theorem optional_text (hs : optional name string ∈ k.schema) :
    ∃ o : Option String, n.site.get? name = o.map .string := by
  rcases optional_get? hv hk name hs with hg | ⟨v, hg, ha⟩
  · exact ⟨none, by rw [site_get?, hg]; rfl⟩
  · obtain ⟨t, rfl⟩ := textual_string v ha
    exact ⟨some t, by rw [site_get?, hg, Option.map_some, piece_string]; rfl⟩

end Fields

section Accessors

variable {s : Site} {field : String}

theorem child_of_get? {r : Rendered} (h : s.get? field = some (.node r)) : s.child field = .ok r.script := by
  simp only [Site.child, Site.child?, h]

theorem child?_of_get? {o : Option Rendered} (h : s.get? field = o.map .node) :
    s.child? field = .ok (o.map Rendered.script) := by
  cases o <;> simp only [Site.child?, h] <;> rfl

theorem nodes_of_nodes (i : Nat) (rs : List Rendered) : s.nodes field i (rs.map .node) = .ok rs := by
  induction rs generalizing i with
  | nil => rfl
  | cons r rs ih => simp only [List.map_cons, Site.nodes, ih]

theorem children_of_get? {rs : List Rendered} (h : s.get? field = some (.list (rs.map .node))) :
    s.children field = .ok rs := by
  simp only [Site.children, h, nodes_of_nodes]

theorem children_of_get?_map {o : Option (List Rendered)}
    (h : s.get? field = o.map fun rs => .list (rs.map .node)) : s.children field = .ok (o.getD []) := by
  cases o <;> simp [Site.children, h, nodes_of_nodes]

theorem text_of_get? {t : String} (h : s.get? field = some (.string t)) : s.text field = .ok t := by
  simp only [Site.text, Site.text?, h]

theorem text?_of_get? {o : Option String} (h : s.get? field = o.map .string) : s.text? field = .ok o := by
  cases o <;> simp [Site.text?, h]

theorem strings_of_texts (ts : List String) : s.strings field (ts.map .string) = .ok ts := by
  induction ts with
  | nil => rfl
  | cons t ts ih => simp only [List.map_cons, Site.strings, ih]

end Accessors

/-! ## The routines -/

section Elements

variable (parent : Option Kind) (s : Site)

@[simp] theorem script_token (t : String) : (Element.token t).script parent s = [Instr.token t] := rfl

@[simp] theorem script_space : Element.space.script parent s = [Instr.space] := rfl

@[simp] theorem script_maybeNewline : Element.maybeNewline.script parent s = [Instr.maybeNewline] := rfl

@[simp] theorem script_sigil :
    Element.sigil.script parent s = optionally (isVariableContext parent) [Instr.token "$"] := rfl

@[simp] theorem script_keyword :
    Element.keyword.script parent s = [Instr.token (if parent = some .ifStatement then "if" else "@if")] := rfl

theorem script_field {name : String} {p : Piece} (style : Style) (h : s.get? name = some p) :
    (Element.field name style).script parent s = style.write p := by
  simp only [Element.field, Element.script, Part.script, Guard.holds, h]; rfl

theorem script_field_none {name : String} (style : Style) (h : s.get? name = none) :
    (Element.field name style).script parent s = [] := by
  simp only [Element.field, Element.script, Part.script, Guard.holds, h]; rfl

@[simp] theorem guard_token (t : String) : (Element.token t).guard = .always := rfl

@[simp] theorem guard_space : Element.space.guard = .always := rfl

@[simp] theorem guard_field (name : String) (style : Style) : (Element.field name style).guard = .always := rfl

/-- a guard in front of unguarded elements is one condition on all of them -/
@[simp] theorem script_only (guard : Guard) (elements : List Element) (h : ∀ e ∈ elements, e.guard = .always) :
    (Element.only guard elements).flatMap (Element.script parent s) =
      optionally (guard.holds s) (elements.flatMap (Element.script parent s)) := by
  induction elements with
  | nil => simp [Element.only, optionally]
  | cons e es ih =>
    have he : e.script parent s = e.part.script parent s := by
      simp only [Element.script, h e List.mem_cons_self]; rfl
    have ih := ih fun e' he' => h e' (List.mem_cons_of_mem _ he')
    simp only [Element.only, List.map_cons, List.flatMap_cons] at ih ⊢
    rw [ih, he, Element.script]
    cases guard.holds s <;> simp [optionally]

theorem ok_bind {α β : Type} (a : α) (f : α → Except Fault β) : (Except.ok a >>= f) = f a := rfl

theorem orFail_pure (script : Script) : orFail (pure script) = script := rfl

theorem orFail_refuse (field : String) (c : Complaint) :
    orFail (s.refuse field c) = [.fail (.malformed s.kind field c)] := rfl

end Elements

theorem formatted_of_kind {n : Node} {k : Kind} (hk : n.kind = k) (parent : Option Kind) :
    formatted parent n.site = k.format.flatMap (Element.script parent n.site) := by
  subst hk; rfl

section Routines

variable {n : Node} (hv : n.Valid) (parent : Option Kind)

include hv

theorem styleSheet_formatted (hk : n.kind = .styleSheet) :
    orFail (styleSheet n.site) = formatted parent n.site := by
  obtain ⟨rs, hrs⟩ := required_nodes hv hk "children" (.head _) (nodal_deferred _ _)
  simp only [styleSheet, children_of_get? hrs, ok_bind, orFail_pure, formatted_of_kind hk]
  simp [Kind.format, script_field _ _ _ hrs]

theorem blockStatement_formatted (hk : n.kind = .blockStatement) :
    orFail (blockStatement n.site) = formatted parent n.site := by
  obtain ⟨rs, hrs⟩ := required_nodes hv hk "body" (.head _) (nodal_deferred _ _)
  simp only [blockStatement, children_of_get? hrs, ok_bind, orFail_pure, formatted_of_kind hk]
  simp [Kind.format, script_field _ _ _ hrs]

theorem comment_formatted (hk : n.kind = .comment) : orFail (comment n.site) = formatted parent n.site := by
  obtain ⟨o, ho⟩ := optional_text hv hk "value" (.head _)
  simp only [comment, text?_of_get? ho, ok_bind, formatted_of_kind hk]
  cases o with
  | none => simp [Kind.format, script_field_none _ _ _ ho, orFail_pure]
  | some t => simp [Kind.format, script_field _ _ _ ho, commentLines, orFail_pure]

theorem rule_formatted (hk : n.kind = .rule) : orFail (rule n.site) = formatted parent n.site := by
  obtain ⟨v, hg, ha⟩ := required_get? hv hk "selectors" (.head _)
  obtain ⟨ts, rfl⟩ := textual_string.list ha
  have hts : n.site.get? "selectors" = some (.list (ts.map .string)) := by
    rw [site_get?, hg, Option.map_some, piece_texts]
  have hst : n.site.texts "selectors" = .ok ts := by simp only [Site.texts, hts, strings_of_texts]
  obtain ⟨rs, hrs⟩ := required_nodes hv hk "declarations" (.tail _ (.head _)) (nodal_deferred _ _)
  simp only [rule, hst, children_of_get? hrs, ok_bind, orFail_pure, formatted_of_kind hk]
  simp [Kind.format, script_field _ _ _ hts, script_field _ _ _ hrs]

theorem atRule_formatted (hk : n.kind = .atRule) : orFail (atRule n.site) = formatted parent n.site := by
  obtain ⟨name, hname⟩ := required_text hv hk "name" (.head _)
  obtain ⟨media, hmedia⟩ := optional_text hv hk "media" (.tail _ (.head _))
  obtain ⟨o, ho⟩ := optional_nodes hv hk "children" (.tail _ (.tail _ (.head _))) (nodal_deferred _ _)
  simp only [atRule, text_of_get? hname, text?_of_get? hmedia, children_of_get?_map ho, ok_bind, orFail_pure,
    formatted_of_kind hk]
  simp only [Kind.format, List.flatMap_append, List.flatMap_cons, List.flatMap_nil, script_token,
    script_field _ _ _ hname]
  cases media <;> cases o <;>
    simp [Guard.holds, hmedia, ho, script_field, optionally]

theorem declaration_formatted (hk : n.kind = .declaration) :
    orFail (declaration n.site) = formatted parent n.site := by
  obtain ⟨property, hp⟩ := required_text hv hk "property" (.head _)
  obtain ⟨v, hg, _⟩ := required_get? hv hk "value" (.tail _ (.head _))
  have hv : n.site.get? "value" = some (piece (contextIn n.kind "value") v) := by rw [site_get?, hg, Option.map_some]
  have hd : orFail (declared n.site) = declaredPiece (piece (contextIn n.kind "value") v) := by
    have hk' : n.site.kind = .declaration := hk
    simp only [declared, Site.value, hv, ok_bind]
    cases piece (contextIn n.kind "value") v with
    | string t => rfl
    | node r =>
      by_cases h : r.kind = .callExpression ∨ r.kind = .sassFunctionCall
      · simp [declaredPiece, h, isCall, orFail_pure]
      · simp [declaredPiece, h, isCall, orFail_refuse, hk', refusal]
    | _ => simp [declaredPiece, orFail_refuse, hk', refusal]
  simp only [declaration, text_of_get? hp, ok_bind, orFail_pure, formatted_of_kind hk, hd]
  simp [Kind.format, script_field _ _ _ hp, script_field _ _ _ hv]

theorem identifier_formatted (hk : n.kind = .identifier) :
    orFail (identifier parent n.site) = formatted parent n.site := by
  obtain ⟨name, hname⟩ := required_text hv hk "name" (.head _)
  simp only [identifier, text_of_get? hname, ok_bind, orFail_pure, formatted_of_kind hk]
  simp [Kind.format, script_field _ _ _ hname]

theorem assignment_formatted (hk : n.kind = .assignment) :
    orFail (assignment n.site) = formatted parent n.site := by
  obtain ⟨id, hid⟩ := required_node hv hk "id" (.head _) (nodal_kind _)
  obtain ⟨init, hinit⟩ := required_node hv hk "init" (.tail _ (.head _)) (nodal_family _)
  simp only [assignment, child_of_get? hid, child_of_get? hinit, ok_bind, orFail_pure, formatted_of_kind hk]
  simp [Kind.format, script_field _ _ _ hid, script_field _ _ _ hinit]

theorem assignmentPattern_formatted (hk : n.kind = .assignmentPattern) :
    orFail (assignmentPattern n.site) = formatted parent n.site := by
  obtain ⟨left, hl⟩ := required_node hv hk "left" (.head _) (nodal_kind _)
  obtain ⟨right, hr⟩ := required_node hv hk "right" (.tail _ (.head _)) (nodal_family _)
  simp only [assignmentPattern, child_of_get? hl, child_of_get? hr, ok_bind, orFail_pure, formatted_of_kind hk]
  simp [Kind.format, script_field _ _ _ hl, script_field _ _ _ hr]

theorem restPattern_formatted (hk : n.kind = .restPattern) :
    orFail (restPattern n.site) = formatted parent n.site := by
  obtain ⟨id, hid⟩ := required_node hv hk "id" (.head _) (nodal_kind _)
  simp only [restPattern, child_of_get? hid, ok_bind, orFail_pure, formatted_of_kind hk]
  simp [Kind.format, script_field _ _ _ hid]

theorem sassString_formatted (hk : n.kind = .sassString) :
    orFail (sassString n.site) = formatted parent n.site := by
  obtain ⟨t, ht⟩ := required_text hv hk "value" (.head _)
  simp only [sassString, text_of_get? ht, ok_bind, orFail_pure, formatted_of_kind hk]
  simp [Kind.format, script_field _ _ _ ht]

theorem sassNumber_formatted (hk : n.kind = .sassNumber) :
    orFail (sassNumber n.site) = formatted parent n.site := by
  obtain ⟨v, hg, ha⟩ := required_get? hv hk "value" (.head _)
  obtain ⟨x, rfl⟩ : ∃ x, v = .number x := by
    rw [admits_primitive] at ha
    cases v with
    | number x => exact ⟨x, rfl⟩
    | _ => simp [Primitive.admits] at ha
  have hx : n.site.get? "value" = some (.number x) := by rw [site_get?, hg, Option.map_some, piece]
  simp only [sassNumber, Site.value, hx, ok_bind, orFail_pure, formatted_of_kind hk]
  simp [Kind.format, script_field _ _ _ hx]

theorem sassBoolean_formatted (hk : n.kind = .sassBoolean) :
    orFail (sassBoolean n.site) = formatted parent n.site := by
  obtain ⟨v, hg, ha⟩ := required_get? hv hk "value" (.head _)
  obtain ⟨b, rfl⟩ : ∃ b, v = .bool b := by
    rw [boolean, admits_primitive] at ha
    cases v with
    | bool b => exact ⟨b, rfl⟩
    | _ => simp [Primitive.admits] at ha
  have hb : n.site.get? "value" = some (.bool b) := by rw [site_get?, hg, Option.map_some, piece]
  simp only [sassBoolean, Site.value, hb, ok_bind, orFail_pure, formatted_of_kind hk]
  simp [Kind.format, script_field _ _ _ hb]

theorem sassColor_formatted (hk : n.kind = .sassColor) : orFail (sassColor n.site) = formatted parent n.site := by
  obtain ⟨t, ht⟩ := required_text hv hk "value" (.head _)
  simp only [sassColor, text_of_get? ht, ok_bind, orFail_pure, formatted_of_kind hk]
  simp [Kind.format, script_field _ _ _ ht]

theorem sassValue_formatted (hk : n.kind = .sassValue) : orFail (sassValue n.site) = formatted parent n.site := by
  obtain ⟨v, hg, _⟩ := required_get? hv hk "value" (.head _)
  have hp : n.site.get? "value" = some (piece (contextIn n.kind "value") v) := by rw [site_get?, hg, Option.map_some]
  simp only [sassValue, Site.value, hp, ok_bind, orFail_pure, formatted_of_kind hk]
  simp [Kind.format, script_field _ _ _ hp]

theorem sassList_formatted (hk : n.kind = .sassList) : orFail (sassList n.site) = formatted parent n.site := by
  obtain ⟨rs, hrs⟩ := required_nodes hv hk "elements" (.head _) (nodal_deferred _ _)
  simp only [sassList, children_of_get? hrs, ok_bind, orFail_pure, formatted_of_kind hk]
  simp [Kind.format, script_field _ _ _ hrs, parenthesised]

theorem sassMap_formatted (hk : n.kind = .sassMap) : orFail (sassMap n.site) = formatted parent n.site := by
  obtain ⟨rs, hrs⟩ := required_nodes hv hk "properties" (.head _) (nodal_kind _)
  simp only [sassMap, children_of_get? hrs, ok_bind, formatted_of_kind hk]
  simp only [Kind.format, List.flatMap_cons, List.flatMap_nil, script_field _ _ _ hrs, write_entries, entries]
  cases rs.isEmpty <;> simp [orFail_pure]

theorem sassMapProperty_formatted (hk : n.kind = .sassMapProperty) :
    orFail (sassMapProperty n.site) = formatted parent n.site := by
  obtain ⟨key, hkey⟩ := required_node hv hk "key" (.head _) (nodal_kind _)
  obtain ⟨value, hvalue⟩ := required_node hv hk "value" (.tail _ (.head _)) (nodal_deferred _ _)
  simp only [sassMapProperty, child_of_get? hkey, child_of_get? hvalue, ok_bind, orFail_pure, formatted_of_kind hk]
  simp [Kind.format, script_field _ _ _ hkey, script_field _ _ _ hvalue]

theorem logicalExpression_formatted (hk : n.kind = .logicalExpression) :
    orFail (logicalExpression n.site) = formatted parent n.site := by
  obtain ⟨left, hl⟩ := required_node hv hk "left" (.head _) (nodal_deferred _ _)
  obtain ⟨operator, ho⟩ := required_text hv hk "operator" (.tail _ (.head _))
  obtain ⟨right, hr⟩ := required_node hv hk "right" (.tail _ (.tail _ (.head _))) (nodal_deferred _ _)
  simp only [logicalExpression, child_of_get? hl, text_of_get? ho, child_of_get? hr, ok_bind, orFail_pure,
    formatted_of_kind hk]
  simp [Kind.format, script_field _ _ _ hl, script_field _ _ _ ho, script_field _ _ _ hr]

/-- the two kinds of call, by the names of their fields -/
theorem call_formatted {name arguments : String} (hid : required name ident ∈ n.kind.schema)
    (hargs : optional arguments values ∈ n.kind.schema)
    (hf : n.kind.format = [.field name, .token "(", .field arguments, .token ")"]) :
    orFail (call name arguments n.site) = formatted parent n.site := by
  obtain ⟨callee, hc⟩ := required_node hv rfl name hid (nodal_kind _)
  obtain ⟨o, ho⟩ := optional_nodes hv rfl arguments hargs (nodal_deferred _ _)
  simp only [call, child_of_get? hc, children_of_get?_map ho, ok_bind, orFail_pure, formatted_of_kind rfl, hf]
  cases o with
  | none => simp [script_field _ _ _ hc, script_field_none _ _ _ ho, parenthesised, separated]
  | some rs =>
    simp [script_field _ _ _ hc, script_field _ _ _ ho, parenthesised]

theorem sassFunction_formatted (hk : n.kind = .sassFunction) :
    orFail (sassFunction n.site) = formatted parent n.site := by
  obtain ⟨id, hid⟩ := required_node hv hk "id" (.head _) (nodal_kind _)
  obtain ⟨o, ho⟩ := optional_nodes hv hk "params" (.tail _ (.head _)) (nodal_family _)
  obtain ⟨body, hb⟩ := required_node hv hk "body" (.tail _ (.tail _ (.head _))) (nodal_kind _)
  simp only [sassFunction, child_of_get? hid, children_of_get?_map ho, child_of_get? hb, ok_bind, orFail_pure,
    formatted_of_kind hk]
  simp only [Kind.format, List.flatMap_cons, List.flatMap_nil, script_token, script_space, script_field _ _ _ hid,
    script_field _ _ _ hb]
  cases o with
  | none => simp [script_field_none _ _ _ ho, parenthesised, separated]
  | some rs => simp [script_field _ _ _ ho, parenthesised]

omit hv in
/-- parameters that are written only if there are some -/
theorem params_formatted {o : Option (List Rendered)}
    (ho : n.site.get? "params" = o.map fun rs => .list (rs.map .node)) :
    optionally (!(o.getD []).isEmpty) (parenthesised (o.getD [])) =
      optionally ((Guard.filled "params").holds n.site) ([Instr.token "("] ++
        (Element.field "params").script parent n.site ++ [Instr.token ")"]) := by
  cases o with
  | none => simp [Guard.holds, ho, optionally]
  | some rs => simp [Guard.holds, ho, script_field _ _ _ ho, parenthesised]

theorem sassMixin_formatted (hk : n.kind = .sassMixin) : orFail (sassMixin n.site) = formatted parent n.site := by
  obtain ⟨id, hid⟩ := required_node hv hk "id" (.head _) (nodal_kind _)
  obtain ⟨o, ho⟩ := optional_nodes hv hk "params" (.tail _ (.head _)) (nodal_family _)
  obtain ⟨body, hb⟩ := required_node hv hk "body" (.tail _ (.tail _ (.head _))) (nodal_kind _)
  simp only [sassMixin, child_of_get? hid, children_of_get?_map ho, child_of_get? hb, ok_bind, orFail_pure,
    params_formatted parent ho, formatted_of_kind hk]
  simp [Kind.format, script_field _ _ _ hid, script_field _ _ _ hb]

theorem sassMixinCall_formatted (hk : n.kind = .sassMixinCall) :
    orFail (sassMixinCall n.site) = formatted parent n.site := by
  obtain ⟨id, hid⟩ := required_node hv hk "id" (.head _) (nodal_kind _)
  obtain ⟨o, ho⟩ := optional_nodes hv hk "params" (.tail _ (.head _)) (nodal_deferred _ _)
  obtain ⟨body, hb⟩ := optional_node hv hk "body" (.tail _ (.tail _ (.head _))) (nodal_kind _)
  simp only [sassMixinCall, child_of_get? hid, children_of_get?_map ho, child?_of_get? hb, ok_bind, orFail_pure,
    params_formatted parent ho, formatted_of_kind hk]
  cases body with
  | none => simp [Kind.format, script_field _ _ _ hid, hb, optionally]
  | some r =>
    simp [Kind.format, script_field _ _ _ hid, script_field _ _ _ hb, hb, optionally]

theorem atReturn_formatted (hk : n.kind = .atReturn) : orFail (atReturn n.site) = formatted parent n.site := by
  obtain ⟨argument, ha⟩ := required_node hv hk "argument" (.head _) (nodal_family _)
  simp only [atReturn, child_of_get? ha, ok_bind, orFail_pure, formatted_of_kind hk]
  simp [Kind.format, script_field _ _ _ ha]

theorem ifStatement_formatted (hk : n.kind = .ifStatement) :
    orFail (ifStatement parent n.site) = formatted parent n.site := by
  obtain ⟨test, ht⟩ := required_node hv hk "test" (.head _) (nodal_family _)
  obtain ⟨consequent, hc⟩ := required_node hv hk "consequent" (.tail _ (.head _)) (nodal_kind _)
  have hshape : (Shape.oneOf [.kind .ifStatement, block]).Nodal := nodal_oneOf (by simp [nodal_kind, block])
  obtain ⟨alternate, ha⟩ := optional_node hv hk "alternate" (.tail _ (.tail _ (.head _))) hshape
  simp only [ifStatement, child_of_get? ht, child_of_get? hc, child?_of_get? ha, ok_bind, orFail_pure,
    formatted_of_kind hk]
  cases alternate with
  | none => simp [Kind.format, script_field _ _ _ ht, script_field _ _ _ hc, ha, optionally]
  | some r =>
    simp [Kind.format, script_field _ _ _ ht, script_field _ _ _ hc, script_field _ _ _ ha, ha,
      optionally]

theorem sassImport_formatted (hk : n.kind = .sassImport) :
    orFail (sassImport n.site) = formatted parent n.site := by
  obtain ⟨path, hp⟩ := required_text hv hk "path" (.head _)
  simp only [sassImport, text_of_get? hp, ok_bind, orFail_pure, formatted_of_kind hk]
  simp [Kind.format, script_field _ _ _ hp]

theorem sassModule_formatted (hk : n.kind = .sassModule) :
    orFail (sassModule n.site) = formatted parent n.site := by
  obtain ⟨path, hp⟩ := required_text hv hk "path" (.head _)
  obtain ⟨name, hn⟩ := optional_text hv hk "namespace" (.tail _ (.head _))
  simp only [sassModule, text_of_get? hp, text?_of_get? hn, ok_bind, orFail_pure, formatted_of_kind hk]
  cases name with
  | none => simp [Kind.format, script_field _ _ _ hp, hn, optionally]
  | some t =>
    simp [Kind.format, script_field _ _ _ hp, script_field _ _ _ hn, hn, optionally]

/-- **The table is right.** On a valid node the routine of its kind writes what the format of the kind says. -/
theorem routine_formatted : orFail (routine n.kind parent n.site) = formatted parent n.site := by
  unfold routine
  cases hk : n.kind with
  | styleSheet => exact styleSheet_formatted hv parent hk
  | comment => exact comment_formatted hv parent hk
  | newline => rw [formatted_of_kind hk]; rfl
  | identifier => exact identifier_formatted hv parent hk
  | sassString => exact sassString_formatted hv parent hk
  | sassNumber => exact sassNumber_formatted hv parent hk
  | sassBoolean => exact sassBoolean_formatted hv parent hk
  | sassColor => exact sassColor_formatted hv parent hk
  | sassValue => exact sassValue_formatted hv parent hk
  | sassList => exact sassList_formatted hv parent hk
  | sassMap => exact sassMap_formatted hv parent hk
  | sassMapProperty => exact sassMapProperty_formatted hv parent hk
  | assignment => exact assignment_formatted hv parent hk
  | assignmentPattern => exact assignmentPattern_formatted hv parent hk
  | restPattern => exact restPattern_formatted hv parent hk
  | declaration => exact declaration_formatted hv parent hk
  | rule => exact rule_formatted hv parent hk
  | atRule => exact atRule_formatted hv parent hk
  | blockStatement => exact blockStatement_formatted hv parent hk
  | callExpression =>
    exact call_formatted hv parent (by rw [hk]; exact .head _) (by rw [hk]; exact .tail _ (.head _)) (by rw [hk]; rfl)
  | sassFunctionCall =>
    exact call_formatted hv parent (by rw [hk]; exact .head _) (by rw [hk]; exact .tail _ (.head _)) (by rw [hk]; rfl)
  | sassFunction => exact sassFunction_formatted hv parent hk
  | sassMixin => exact sassMixin_formatted hv parent hk
  | sassMixinCall => exact sassMixinCall_formatted hv parent hk
  | atContent => rw [formatted_of_kind hk]; rfl
  | atReturn => exact atReturn_formatted hv parent hk
  | ifStatement => exact ifStatement_formatted hv parent hk
  | logicalExpression => exact logicalExpression_formatted hv parent hk
  | sassImport => exact sassImport_formatted hv parent hk
  | sassModule => exact sassModule_formatted hv parent hk

/-- the script of a valid node: its format between the marks for entering and leaving it -/
theorem script_eq : n.script parent = [.enter n.kind] ++ formatted parent n.site ++ [.leave] := by
  rw [← routine_formatted hv parent]
  exact scriptOf_eq parent n.site

end Routines

end StyleTree.Emission
