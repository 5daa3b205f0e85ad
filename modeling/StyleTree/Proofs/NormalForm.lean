/-
Normal forms. A tree can store what says nothing: a flag that is off, an empty list or query that may be left out,
silent comments and trailing blank lines in a body. `Node.normal` is the tree without all that, at every node.

Each routine treats what is left out and what says nothing alike, and the table of formats shows why: a default is
either a flag, or kept back by a guard of its own, or a list that is written as nothing (`format_indifferent`).

- `normal_terse`: a normal form has nothing left to drop;
- `Tidied`: what can become of a field, as the routines see it;
- `script_tidied`: none of it changes what an element of the format writes;
- `normal_sound`: so normal forms are valid and are written by the same script;
- `normal_renders_alike`: the same text or the same refusal, under every parent and in every unit.
-/
import StyleTree.Proofs.Body
import StyleTree.Proofs.Building

namespace StyleTree

open Emission

/-! ## Leaving out what says nothing -/

/-- the optional fields of a kind that can be stored and say nothing, with the value that does so -/
def Kind.defaults : Kind → List (String × Value)
  | .assignment => [("default", .bool false), ("global", .bool false)]
  | .declaration => [("important", .bool false)]
  | .sassMapProperty => [("quoted", .bool false)]
  | .callExpression => [("arguments", .list [])]
  | .sassFunctionCall | .sassFunction | .sassMixin | .sassMixinCall => [("params", .list [])]
  | .atRule => [("media", .string ""), ("children", .list [])]
  | _ => []

/-- the statements of a body that are written: no silent comments, no blank lines at the end -/
def shown (items : List Value) : List Value :=
  (items.filter fun v => !v.node?.any fun m => isSilent m.kind m.fields).rdropWhile fun v =>
    v.node?.any fun m => m.kind == .newline

/-- the items that a list field keeps: in a body the statements that are written, but an at-rule that has statements
and writes none of them keeps them, since its braces are written all the same -/
def Kind.kept (k : Kind) (name : String) (items : List Value) : List Value :=
  if k.bodyField? = some name ∧ (k = .atRule → shown items ≠ []) then shown items else items

/-- what is left of a field; nothing, if it is a default -/
def Kind.tidy (k : Kind) (name : String) (v : Value) : Option Value :=
  if (k.defaults.lookup name).any v.same then none
  else
    match v with
    | .list items => some (.list (k.kept name items))
    | v => some v

mutual

/-- a value without what says nothing in it -/
def Value.normal : Value → Value
  | .null => .null
  | .bool b => .bool b
  | .number x => .number x
  | .string s => .string s
  | .node kind fields => .node kind (normalFields kind fields)
  | .list items => .list (normalItems items)

def Value.normalItems : List Value → List Value
  | [] => []
  | v :: vs => v.normal :: normalItems vs

def Value.normalFields (kind : Kind) : List (String × Value) → List (String × Value)
  | [] => []
  | (name, v) :: rest =>
    match kind.tidy name v.normal with
    | none => normalFields kind rest
    | some w => (name, w) :: normalFields kind rest

end

/-- a node without what says nothing in it -/
def Node.normal (n : Node) : Node := ⟨n.kind, Value.normalFields n.kind n.fields⟩

theorem normal_node (n : Node) : n.toValue.normal = n.normal.toValue := by
  rw [Node.toValue, Value.normal]; rfl

theorem normal_list (items : List Value) : (Value.list items).normal = .list (items.map Value.normal) := by
  have h : Value.normalItems items = items.map Value.normal := by
    induction items with
    | nil => rfl
    | cons v vs ih => rw [Value.normalItems, ih]; rfl
  rw [Value.normal, h]

theorem normal_isNull (v : Value) : v.normal.isNull = v.isNull := by
  cases v <;> rw [Value.normal] <;> rfl

/-! ## What becomes of a field -/

theorem shown_sublist (items : List Value) : (shown items).Sublist items :=
  (List.rdropWhile_prefix _ _).sublist.trans List.filter_sublist

/-- dropping elements everywhere and then others at the end leaves nothing to drop -/
theorem filter_rdropWhile_twice {α : Type} (p q : α → Bool) (l : List α) :
    (((l.filter p).rdropWhile q).filter p).rdropWhile q = (l.filter p).rdropWhile q := by
  have hall : ∀ a ∈ (l.filter p).rdropWhile q, p a = true := fun a ha =>
    (List.mem_filter.1 ((List.rdropWhile_prefix _ _).subset ha)).2
  rw [List.filter_eq_self.2 hall]
  exact List.rdropWhile_idempotent _ _

theorem shown_shown (items : List Value) : shown (shown items) = shown items := filter_rdropWhile_twice _ _ items

/-- of nodes, those are shown that the routine writes -/
theorem shown_nodes (ns : List Node) : shown (ns.map Node.toValue) = (visibleNodes ns).map Node.toValue := by
  rw [shown, visibleNodes, List.rdropWhile, List.rdropWhile, List.filter_map, ← List.map_reverse, List.dropWhile_map,
    ← List.map_reverse]
  rfl

/-- every default is off or empty -/
theorem default_cases {k : Kind} {name : String} {d : Value} (h : k.defaults.lookup name = some d) :
    d = .bool false ∨ d = .string "" ∨ d = .list [] := by
  have hm := mem_of_lookup h
  cases k <;> simp only [Kind.defaults, List.mem_cons, Prod.mk.injEq, List.not_mem_nil, or_false] at hm <;> grind

/-- being the same as a default is being that default -/
theorem eq_of_same_default {k : Kind} {name : String} {d v : Value} (h : k.defaults.lookup name = some d)
    (hs : v.same d = true) : v = d := by
  rcases default_cases h with rfl | rfl | rfl
  · cases v with
    | bool b => rw [Value.same] at hs; rw [eq_of_beq hs]
    | _ => simp [Value.same] at hs
  · cases v with
    | string s => rw [Value.same] at hs; rw [eq_of_beq hs]
    | _ => simp [Value.same] at hs
  · cases v with
    | list items =>
      cases items with
      | nil => rfl
      | cons w ws => simp [Value.same, Value.sameItems] at hs
    | _ => simp [Value.same] at hs

/-- only defaults are dropped -/
theorem tidy_eq_none {k : Kind} {name : String} {v : Value} (h : k.tidy name v = none) :
    k.defaults.lookup name = some v := by
  unfold Kind.tidy at h
  split at h
  · rename_i hd
    obtain ⟨d, hd, hs⟩ := (Option.any_eq_true _ _).1 hd
    rw [hd, eq_of_same_default hd hs]
  · split at h <;> cases h

/-- what is kept is kept whole, but for the statements of a body that are not written; an at-rule keeps those too if it
writes no others -/
theorem tidy_eq_some {k : Kind} {name : String} {v w : Value} (h : k.tidy name v = some w) :
    (w = v ∧ ∀ items, v = .list items → k.bodyField? = some name → k = .atRule ∧ shown items = []) ∨
      ∃ items, v = .list items ∧ w = .list (shown items) ∧ k.bodyField? = some name ∧
        (k = .atRule → shown items ≠ []) := by
  unfold Kind.tidy at h
  split at h
  · cases h
  · cases v with
    | list items =>
      cases h
      unfold Kind.kept
      split
      · rename_i hb
        exact Or.inr ⟨items, rfl, rfl, hb⟩
      · rename_i hb
        refine Or.inl ⟨rfl, ?_⟩
        rintro _ ⟨⟩ hf
        simpa [hf] using hb
    | _ => cases h; exact Or.inl ⟨rfl, nofun⟩

/-- what is true of a field is true of what is left of it, if it stays true of lists when they lose items -/
theorem tidy_inherits {P : Value → Prop}
    (hP : ∀ {vs ws : List Value}, ws.Sublist vs → P (.list vs) → P (.list ws)) {k : Kind} {name : String} {v w : Value}
    (h : k.tidy name v = some w) (hv : P v) : P w := by
  rcases tidy_eq_some h with ⟨rfl, -⟩ | ⟨items, rfl, rfl, -⟩
  · exact hv
  · exact hP (shown_sublist items) hv

/-- a body that has a default is that of an at-rule -/
theorem default_body {k : Kind} {name : String} {d : Value} (hf : k.bodyField? = some name)
    (hd : k.defaults.lookup name = some d) : k = .atRule := by
  cases k <;> cases hf <;> first | rfl | cases hd

/-- a field that says something: it is not the default, and of its statements all are written, or none of an at-rule -/
def Kind.Telling (k : Kind) (e : String × Value) : Prop :=
  k.defaults.lookup e.1 ≠ some e.2 ∧ ∀ items, k.bodyField? = some e.1 → e.2 = .list items →
    shown items = items ∨ (k = .atRule ∧ shown items = [])

/-- what is left of a field says something -/
theorem tidy_telling {k : Kind} {name : String} {v w : Value} (h : k.tidy name v = some w) : k.Telling (name, w) := by
  have hnot : k.defaults.lookup name ≠ some v := by
    intro hd
    have hsame : v.same v = true := by
      rcases default_cases hd with rfl | rfl | rfl <;> simp [Value.same, Value.sameItems]
    have hnone : k.tidy name v = none := if_pos (by rw [hd, Option.any_some, hsame])
    rw [hnone] at h
    cases h
  rcases tidy_eq_some h with ⟨rfl, hwhole⟩ | ⟨items, rfl, rfl, hf, hne⟩
  · exact ⟨hnot, fun items hf hw => Or.inr (hwhole items hw hf)⟩
  · refine ⟨fun hd => ?_, ?_⟩
    · have hempty : shown items = [] := by
        rcases default_cases hd with h0 | h0 | h0
        · cases h0
        · cases h0
        · exact Value.list.inj h0
      exact hne (default_body hf hd) hempty
    · rintro _ - ⟨⟩
      exact Or.inl (shown_shown items)

section Fields

variable {kind : Kind} {name : String} {v : Value} (rest : List (String × Value))

theorem normalFields_dropped (h : kind.tidy name v.normal = none) :
    Value.normalFields kind ((name, v) :: rest) = Value.normalFields kind rest := by
  simp only [Value.normalFields, h]

theorem normalFields_stored {w : Value} (h : kind.tidy name v.normal = some w) :
    Value.normalFields kind ((name, v) :: rest) = (name, w) :: Value.normalFields kind rest := by
  simp only [Value.normalFields, h]

end Fields

theorem mem_normalFields {kind : Kind} {fields : List (String × Value)} {e : String × Value}
    (h : e ∈ Value.normalFields kind fields) : ∃ v, (e.1, v) ∈ fields ∧ kind.tidy e.1 v.normal = some e.2 := by
  induction fields with
  | nil => cases h
  | cons f rest ih =>
    obtain ⟨name, v⟩ := f
    cases ht : kind.tidy name v.normal with
    | none =>
      rw [normalFields_dropped rest ht] at h
      obtain ⟨u, hu, htu⟩ := ih h
      exact ⟨u, List.mem_cons_of_mem _ hu, htu⟩
    | some w =>
      rw [normalFields_stored rest ht, List.mem_cons] at h
      rcases h with rfl | h
      · exact ⟨v, List.mem_cons_self, ht⟩
      · obtain ⟨u, hu, htu⟩ := ih h
        exact ⟨u, List.mem_cons_of_mem _ hu, htu⟩

theorem normalFields_lookup (kind : Kind) {fields : List (String × Value)} (hd : (Assoc.names fields).Nodup)
    (name : String) :
    (Value.normalFields kind fields).lookup name = (fields.lookup name).bind fun v => kind.tidy name v.normal := by
  induction fields with
  | nil => rfl
  | cons f rest ih =>
    obtain ⟨field, v⟩ := f
    obtain ⟨hnot, hd⟩ := List.nodup_cons.1 hd
    have ih := ih hd
    rw [List.lookup_cons]
    by_cases he : name = field
    · subst he
      have hrest : rest.lookup name = none := by
        cases h : rest.lookup name with
        | none => rfl
        | some w => exact absurd (List.mem_map_of_mem (mem_of_lookup h)) hnot
      rw [hrest] at ih
      cases ht : kind.tidy name v.normal with
      | none => simp [normalFields_dropped rest ht, ih, ht]
      | some w => simp [normalFields_stored rest ht, ht]
    · rw [beq_eq_false_iff_ne.2 he]
      cases ht : kind.tidy field v.normal with
      | none => rw [normalFields_dropped rest ht, ih]
      | some w => rw [normalFields_stored rest ht, List.lookup_cons, beq_eq_false_iff_ne.2 he, ih]

/-- nothing in the value says nothing -/
inductive Value.Terse : Value → Prop
  | null : Terse .null
  | bool (b : Bool) : Terse (.bool b)
  | number (x : Double) : Terse (.number x)
  | string (s : String) : Terse (.string s)
  | node {kind : Kind} {fields : List (String × Value)} (ht : ∀ e ∈ fields, kind.Telling e)
      (h : ∀ e ∈ fields, Terse e.2) : Terse (.node kind fields)
  | list {items : List Value} (h : ∀ v ∈ items, Terse v) : Terse (.list items)

theorem Value.Terse.sublist {vs ws : List Value} (hs : ws.Sublist vs) (h : (Value.list vs).Terse) :
    (Value.list ws).Terse := by
  cases h with
  | list hvs => exact .list fun w hw => hvs w (hs.subset hw)

/-- **Normal forms have nothing left to drop**, at any depth. -/
theorem normal_terse (v : Value) : v.normal.Terse := by
  induction v using Value.induct with
  | node k fs ih =>
    rw [Value.normal]
    refine .node (fun e he => ?_) fun e he => ?_
    · obtain ⟨u, -, ht⟩ := mem_normalFields he
      exact tidy_telling ht
    · obtain ⟨u, hu, ht⟩ := mem_normalFields he
      exact tidy_inherits Value.Terse.sublist ht (ih _ hu)
  | list items ih =>
    rw [normal_list]
    refine .list fun w hw => ?_
    obtain ⟨v, hv, rfl⟩ := List.mem_map.1 hw
    exact ih v hv
  | null => rw [Value.normal]; exact .null
  | bool b => rw [Value.normal]; exact .bool b
  | number x => rw [Value.normal]; exact .number x
  | string s => rw [Value.normal]; exact .string s

theorem normal_get? {n : Node} (hv : n.Valid) (name : String) :
    n.normal.get? name = (n.get? name).bind fun v => n.kind.tidy name v.normal :=
  normalFields_lookup n.kind hv.conforms.names_nodup name

/-- comments stay as they are, and with them what is silent -/
theorem normal_isSilent {n : Node} (hv : n.Valid) :
    isSilent n.normal.kind n.normal.fields = isSilent n.kind n.fields := by
  change isSilent n.kind n.normal.fields = _
  by_cases hk : n.kind = .comment
  · have hlookup : n.normal.fields.lookup "value" = n.fields.lookup "value" := by
      refine (normal_get? hv "value").trans ?_
      rcases optional_get? hv hk "value" (.head _) with hg | ⟨v, hg, ha⟩
      · rw [hg]; exact hg.symm
      · obtain ⟨t, rfl⟩ := Shape.textual_string v ha
        rw [hg, hk, Option.bind_some, Value.normal]
        exact hg.symm
    rw [isSilent, isSilent, hlookup]
  · rw [isSilent, isSilent, beq_eq_false_iff_ne.2 hk]; rfl

/-! ## Normal forms are valid -/

namespace Shape

/-- induction over a shape: through alternatives and items -/
theorem induct {P : Shape → Prop} (any : P .any) (primitive : ∀ p, P (.primitive p)) (kind : ∀ k, P (.kind k))
    (node : P .node) (oneOf : ∀ ss, (∀ s ∈ ss, P s) → P (.oneOf ss)) (listOf : ∀ item, P item → P (.listOf item))
    (deferred : ∀ label f, P (.deferred label f)) (s : Shape) : P s :=
  @Shape.rec P (fun ss => ∀ s ∈ ss, P s) any primitive kind node oneOf listOf deferred (by simp)
    (fun _ _ hs hss => List.forall_mem_cons.2 ⟨hs, hss⟩) s

theorem admits_any (v : Value) : any.admits v = true := rfl

theorem admits_list (item : Shape) (vs : List Value) :
    (listOf item).admits (.list vs) = vs.all fun v => item.admits v := by
  simp only [admits, check, checkItems_isOk]

/-- no shape counts the items of a list -/
theorem admits_sublist (s : Shape) {vs ws : List Value} (h : ws.Sublist vs) :
    s.admits (.list vs) = true → s.admits (.list ws) = true := by
  induction s using Shape.induct with
  | any => exact fun _ => admits_any _
  | primitive p => rw [admits_primitive]; cases p <;> nofun
  | kind k => rw [admits_kind]; nofun
  | node => rw [admits_node]; nofun
  | deferred label f => rw [admits_deferred]; nofun
  | oneOf ss ih =>
    rw [admits_oneOf, admits_oneOf, List.any_eq_true, List.any_eq_true]
    rintro ⟨s, hs, ha⟩
    exact ⟨s, hs, ih s hs ha⟩
  | listOf item _ =>
    rw [admits_list, admits_list, List.all_eq_true, List.all_eq_true]
    exact fun ha v hv => ha v (h.subset hv)

theorem isNodeOf_normal (kinds : List Kind) (v : Value) : isNodeOf kinds v.normal = isNodeOf kinds v := by
  cases v <;> rw [Value.normal] <;> rfl

/-- shapes look at kinds, not at fields, so what they accept they accept in normal form -/
theorem admits_normal (s : Shape) : ∀ v, s.admits v = true → s.admits v.normal = true := by
  induction s using Shape.induct with
  | any => exact fun _ _ => admits_any _
  | primitive p =>
    intro v h
    have hp : p.admits v.normal = p.admits v := by cases v <;> rw [Value.normal] <;> cases p <;> rfl
    rwa [admits_primitive, hp, ← admits_primitive]
  | kind k => intro v h; rwa [admits_kind, isNodeOf_normal, ← admits_kind]
  | node =>
    intro v h
    have hn : v.normal.node?.isSome = v.node?.isSome := by cases v <;> rw [Value.normal] <;> rfl
    rwa [admits_node, hn, ← admits_node]
  | deferred label f => intro v h; rwa [admits_deferred, isNodeOf_normal, ← admits_deferred label]
  | oneOf ss ih =>
    intro v h
    rw [admits_oneOf, List.any_eq_true] at h ⊢
    obtain ⟨s, hs, ha⟩ := h
    exact ⟨s, hs, ih s hs v ha⟩
  | listOf item ih =>
    intro v h
    obtain ⟨vs, rfl, hvs⟩ := admits_listOf h
    rw [normal_list, admits_list, List.all_eq_true]
    intro w hw
    obtain ⟨v, hv, rfl⟩ := List.mem_map.1 hw
    exact ih v (hvs v hv)

end Shape

/-- only what may be left out has a default -/
theorem default_optional (k : Kind) : ∀ spec ∈ k.schema, (k.defaults.lookup spec.name).isSome = true →
    spec.optional = true := by
  cases k <;> decide

theorem Conforms.normal {k : Kind} {specs : List FieldSpec} {fields : List (String × Value)}
    (h : Conforms specs fields) (hs : ∀ spec ∈ specs, spec ∈ k.schema) :
    Conforms specs (Value.normalFields k fields) := by
  induction h with
  | nil => exact .nil
  | omitted ho _ ih => exact .omitted ho (ih fun s hm => hs s (List.mem_cons_of_mem _ hm))
  | @stored spec specs v fields hn ha _ ih =>
    have ih := ih fun s hm => hs s (List.mem_cons_of_mem _ hm)
    cases ht : k.tidy spec.name v.normal with
    | none =>
      rw [normalFields_dropped fields ht]
      refine .omitted (default_optional k spec (hs spec List.mem_cons_self) ?_) ih
      rw [tidy_eq_none ht]; rfl
    | some w =>
      rw [normalFields_stored fields ht]
      have hnull : w.isNull = false :=
        tidy_inherits (P := fun u => u.isNull = false) (fun _ _ => rfl) ht (by rw [normal_isNull, hn])
      have hadmits : spec.shape.admits w = true :=
        tidy_inherits (P := fun u => spec.shape.admits u = true) (Shape.admits_sublist _) ht
          (Shape.admits_normal _ v ha)
      exact .stored hnull hadmits ih

theorem normal_valid {n : Node} (hv : n.Valid) (ih : ∀ e ∈ n.fields, e.2.normal.Valid) : n.normal.Valid := by
  refine (Node.valid_iff _).2 ⟨hv.conforms.normal fun _ h => h, fun e he => ?_⟩
  obtain ⟨v, hm, ht⟩ := mem_normalFields he
  exact tidy_inherits (fun hs hvs => .list fun u hu => hvs.of_item u (hs.subset hu)) ht (ih _ hm)

/-! ## Normal forms are written alike -/

namespace Emission

/-- a field of a kind before and after: as it was, a default that was dropped, or a body without the statements that are
not written -/
inductive Tidied (k : Kind) (name : String) (before after : Option Piece) : Prop
  | same (h : after = before)
  | dropped {d : Value} {parent : Option Kind} (hd : k.defaults.lookup name = some d)
      (hb : before = some (piece parent d)) (ha : after = none)
  | trimmed {rs : List Rendered} (hf : k.bodyField? = some name) (hne : k = .atRule → visible rs ≠ [])
      (hb : before = some (.list (rs.map .node))) (ha : after = some (.list ((visible rs).map .node)))

/-- what an element of a format must be for defaults and bodies to make no difference: no guard asks whether a default
is stored; a default is written under a guard of its own, unless it is an empty list and written as it stands; and a
body is written as a body, under a guard only in an at-rule -/
def Element.isIndifferent (k : Kind) (e : Element) : Bool :=
  (match e.guard with
    | .always | .flag _ => true
    | .given f => (k.defaults.lookup f).isNone
    | .filled f =>
      (match k.defaults.lookup f with
        | some (.bool _) => false
        | _ => true) && (k.bodyField? != some f || k == .atRule)) &&
  match e.part with
  | .field f style =>
    (match k.defaults.lookup f with
      | none => true
      | some (.list _) => e.guard == .filled f || style == .plain
      | some _ => e.guard == .filled f) && (k.bodyField? != some f || style == .body || style == .braced)
  | _ => true

theorem format_indifferent (k : Kind) : ∀ e ∈ k.format, e.isIndifferent k = true := by
  rw [← List.all_eq_true]
  cases k <;> rfl

theorem visible_visible (rs : List Rendered) : visible (visible rs) = visible rs := filter_rdropWhile_twice _ _ rs

section Tidied

variable {k : Kind} {e : Element} (he : e ∈ k.format) {s s' : Site}
  (h : ∀ name, Tidied k name (s.get? name) (s'.get? name))

include he h

/-- no guard tells a field from what became of it -/
theorem holds_tidied : e.guard.holds s' = e.guard.holds s := by
  have hi := format_indifferent k e he
  rw [Element.isIndifferent, Bool.and_eq_true] at hi
  replace hi := hi.1
  cases hg : e.guard with
  | always => rfl
  | flag f =>
    rw [holds_flag, holds_flag, Site.flag, Site.flag]
    cases h f with
    | same hs => rw [hs]
    | dropped hd hb ha => rcases default_cases hd with rfl | rfl | rfl <;> rw [ha, hb, piece]
    | trimmed hf hne hb ha => rw [ha, hb]
  | given f =>
    rw [holds_given, holds_given]
    rw [hg] at hi
    cases h f with
    | same hs => rw [hs]
    | dropped hd hb ha => simp [hd] at hi
    | trimmed hf hne hb ha => rw [ha, hb]; rfl
  | filled f =>
    rw [hg, Bool.and_eq_true] at hi
    rw [Guard.holds, Guard.holds]
    cases h f with
    | same hs => rw [hs]
    | dropped hd hb ha =>
      rcases default_cases hd with rfl | rfl | rfl
      · simp [hd] at hi
      · rw [ha, hb, piece]; rfl
      · rw [ha, hb, piece]; rfl
    | @trimmed rs hf hne hb ha =>
      have hk : k = .atRule := by simpa [hf] using hi.2
      have hvisible : visible rs ≠ [] := hne hk
      have hrs : rs ≠ [] := by
        rintro rfl
        exact hvisible rfl
      simp [ha, hb, List.isEmpty_eq_false_iff.2 hvisible, List.isEmpty_eq_false_iff.2 hrs]

/-- an element writes a field as what became of it -/
theorem script_tidied (parent : Option Kind) : e.script parent s' = e.script parent s := by
  have hi := format_indifferent k e he
  rw [Element.isIndifferent, Bool.and_eq_true] at hi
  replace hi := hi.2
  rw [Element.script, Element.script, holds_tidied he h]
  cases hp : e.part with
  | print op => rfl
  | sigil => rfl
  | keyword => rfl
  | field f style =>
    rw [hp, Bool.and_eq_true] at hi
    rw [Part.script, Part.script]
    cases h f with
    | same hs => rw [hs]
    | trimmed hf hne hb ha =>
      have hstyle : style = .body ∨ style = .braced := by simpa [hf] using hi.2
      rw [ha, hb]
      rcases hstyle with rfl | rfl
      · simp [body, visible_visible]
      · simp [braced, body, visible_visible]
    | @dropped d ctx hd hb ha =>
      have hstyle : e.guard = .filled f ∨ (d = .list [] ∧ style = .plain) := by
        rcases default_cases hd with rfl | rfl | rfl
        · exact Or.inl (by simpa [hd] using hi.1)
        · exact Or.inl (by simpa [hd] using hi.1)
        · simpa [hd] using hi.1
      rcases hstyle with hg | ⟨rfl, rfl⟩
      · -- the guard keeps the default back before, as its absence does after
        have hfalse : e.guard.holds s' = false := by rw [hg, Guard.holds, ha]
        rw [← holds_tidied he h, hfalse]; rfl
      · rw [ha, hb, piece_list]; rfl

end Tidied

/-- what normalising does to a field is one of the ways that make no difference -/
theorem site_tidied {n : Node} (hv : n.Valid)
    (ih : ∀ e ∈ n.fields, ∀ parent, piece parent e.2.normal = piece parent e.2) (name : String) :
    Tidied n.kind name (n.site.get? name) (n.normal.site.get? name) := by
  rw [site_get?, site_get?, normal_get? hv]
  change Tidied n.kind name ((n.get? name).map _) (((n.get? name).bind _).map (piece (contextIn n.kind name)))
  cases hg : n.get? name with
  | none => exact .same rfl
  | some v =>
    have hpiece := ih _ (mem_of_lookup hg) (contextIn n.kind name)
    rw [Option.bind_some, Option.map_some, ← hpiece]
    cases ht : n.kind.tidy name v.normal with
    | none => exact .dropped (tidy_eq_none ht) rfl rfl
    | some w =>
      rcases tidy_eq_some ht with ⟨rfl, -⟩ | ⟨items, hitems, rfl, hf, hne⟩
      · exact .same rfl
      · obtain ⟨ns, rfl⟩ : ∃ ns : List Node, items = ns.map Node.toValue := by
          have hadmits := Shape.admits_normal _ v (body_admits hv hf hg)
          rw [hitems] at hadmits
          obtain ⟨ns, hns⟩ := (Shape.nodal_deferred _ _).list hadmits
          exact ⟨ns, Value.list.inj hns⟩
        rw [shown_nodes] at hne ⊢
        rw [hitems, Option.map_some, piece_nodes, piece_nodes, ← visible_rendered]
        refine .trimmed hf (fun hk => ?_) rfl rfl
        rw [visible_rendered]
        simpa using hne hk

/-- **Normal forms** of valid values are valid, and are written as the values are. -/
theorem normal_sound (v : Value) (hv : v.Valid) :
    v.normal.Valid ∧ ∀ parent, piece parent v.normal = piece parent v := by
  induction v using Value.induct with
  | node k fs ih =>
    let n : Node := ⟨k, fs⟩
    have hn : n.Valid := hv
    have hfields : ∀ e ∈ n.fields, e.2.normal.Valid ∧ ∀ parent, piece parent e.2.normal = piece parent e.2 :=
      fun e he => ih e he (hn.of_field e he)
    have hvalid : n.normal.Valid := normal_valid hn fun e he => (hfields e he).1
    have hscript : ∀ parent, n.normal.script parent = n.script parent := by
      intro parent
      have hsite := site_tidied hn fun e he => (hfields e he).2
      rw [script_eq hvalid, script_eq hn]
      have hformatted : formatted parent n.normal.site = formatted parent n.site :=
        List.flatMap_congr fun e he => script_tidied he hsite parent
      rw [hformatted]; rfl
    have hnormal : (Value.node k fs).normal = n.normal.toValue := normal_node n
    rw [hnormal]
    refine ⟨hvalid, fun parent => ?_⟩
    rw [piece_toValue, piece_node, rendered, rendered, hscript, normal_isSilent hn]; rfl
  | list items ih =>
    rw [normal_list]
    refine ⟨.list fun w hw => ?_, fun parent => ?_⟩
    · obtain ⟨v, hm, rfl⟩ := List.mem_map.1 hw
      exact (ih v hm (hv.of_item v hm)).1
    · rw [piece_list, piece_list, List.map_map]
      exact congrArg Piece.list (List.map_congr_left fun v hm => (ih v hm (hv.of_item v hm)).2 parent)
  | _ => rw [Value.normal]; exact ⟨hv, fun _ => rfl⟩

end Emission

/-- **What says nothing makes no difference.** The normal form of a valid tree is valid, has nothing in it that says
nothing, and renders alike, under every parent and in every unit: the same text, or the same refusal on the same path.
And among statements only silent comments render to the empty text. -/
theorem normal_renders_alike (t : Node) (hv : t.Valid) :
    t.normal.Valid ∧ t.normal.toValue.Terse ∧
    (∀ (parent : Option Node) (indent : String), render t.normal parent indent = render t parent indent) ∧
    (t.kind ∈ Family.statement.kinds → ∀ (parent : Option Node) (indent : String),
      render t parent indent = .ok "" ↔ isSilent t.kind t.fields = true) := by
  obtain ⟨hvalid, hpiece⟩ := normal_sound t.toValue hv
  rw [normal_node] at hvalid hpiece
  have hterse := normal_terse t.toValue
  rw [normal_node] at hterse
  refine ⟨hvalid, hterse, fun parent indent => ?_, fun hk parent indent => statement_silent_iff hv hk parent indent⟩
  have hrendered := hpiece (parent.map Node.kind)
  rw [piece_toValue, piece_toValue, Piece.node.injEq, rendered, rendered, Rendered.mk.injEq] at hrendered
  rw [render, render, Generator.write, Generator.write, hrendered.2.2]

/-- a sheet with a flag that is off, an empty list, an empty query, silent comments and blank lines -/
def idleSheet : Node :=
  ⟨.styleSheet, [("children", .list
    [.node .comment [],
     .node .assignment [("id", .node .identifier [("name", .string "tone")]),
       ("init", .node .sassFunctionCall [("id", .node .identifier [("name", .string "pick")]), ("params", .list [])]),
       ("default", .bool false), ("global", .bool true)],
     .node .comment [("value", .string "")],
     .node .atRule [("name", .string "layer"), ("media", .string ""), ("children", .list [.node .newline []])],
     .node .newline [],
     .node .comment []])]⟩

/-- the sheet without all that; the at-rule keeps its blank line, and so its braces -/
def bareSheet : Node :=
  ⟨.styleSheet, [("children", .list
    [.node .assignment [("id", .node .identifier [("name", .string "tone")]),
       ("init", .node .sassFunctionCall [("id", .node .identifier [("name", .string "pick")])]),
       ("global", .bool true)],
     .node .atRule [("name", .string "layer"), ("children", .list [.node .newline []])]])]⟩

theorem idleSheet_valid : idleSheet.Valid := Value.valid_of_isValid _ rfl

/-- both sheets render alike, and an empty comment to nothing -/
theorem idleSheet_alike :
    idleSheet.Valid ∧ idleSheet.normal = bareSheet ∧ bareSheet.Valid ∧
      render bareSheet none "  " = .ok "$tone: pick() !global;\n\n@layer \x7b\n\x7d" ∧
      ∀ (parent : Option Node) (indent : String), render bareSheet parent indent = render idleSheet parent indent ∧
        render ⟨.comment, []⟩ parent indent = .ok "" := by
  have hnormal : idleSheet.normal = bareSheet := rfl
  obtain ⟨hvalid, -, halike, -⟩ := normal_renders_alike idleSheet idleSheet_valid
  rw [hnormal] at hvalid halike
  have hcomment : (⟨.comment, []⟩ : Node).Valid := Value.valid_of_isValid _ rfl
  refine ⟨idleSheet_valid, hnormal, hvalid, (halike none "  ").trans rfl, fun parent indent => ?_⟩
  refine ⟨halike parent indent, ?_⟩
  exact ((normal_renders_alike ⟨.comment, []⟩ hcomment).2.2.2 (by decide) parent indent).2 rfl

end StyleTree
