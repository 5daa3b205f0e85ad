/-
Valid trees. A value is valid when every node in it was made by `build` from supplied values that are valid themselves;
the schema is checked one level deep, so deep validity comes from how a tree came to exist.

What validity gives, and all that the other proofs use of it:
- `Valid.conforms`: the stored fields of a valid node conform to its schema: declared fields in schema order, none
  twice, none null, no required one missing, each accepted by its shape;
- `Valid.of_field`, `Valid.of_item`: fields and items of a valid value are valid;
- `Valid.induct`: a property that passes from the children of a valid node to the node holds of every valid node.
`children` are the nodes that stand in the fields of a node, through lists of any depth, in stored order.
-/
import Mathlib.Tactic.Common
import StyleTree.Schema

namespace StyleTree

/-! ## What shapes accept -/

namespace Shape

theorem require_isOk (test : Bool) (d : String) : (require test d).isOk = test := by
  cases test <;> rfl

theorem admits_primitive (p : Primitive) (v : Value) : (primitive p).admits v = p.admits v := by
  simp only [admits, check, require_isOk]

theorem admits_kind (k : Kind) (v : Value) : (kind k).admits v = isNodeOf [k] v := by
  simp only [admits, check, require_isOk]

theorem admits_node (v : Value) : node.admits v = v.node?.isSome := by
  simp only [admits, check, require_isOk]

theorem admits_deferred (label : String) (f : Family) (v : Value) :
    (deferred label f).admits v = isNodeOf f.kinds v := by
  simp only [admits, check, require_isOk]

theorem admitsAny_eq (alternatives : List Shape) (v : Value) :
    admitsAny alternatives v = alternatives.any fun s => s.admits v := by
  induction alternatives with
  | nil => rfl
  | cons s ss ih => simp only [admitsAny, ih, List.any_cons, admits]

theorem admits_oneOf (alternatives : List Shape) (v : Value) :
    (oneOf alternatives).admits v = alternatives.any fun s => s.admits v := by
  rw [← admitsAny_eq]; simp only [admits, check, require_isOk]

theorem checkItems_isOk (check : Value → Except Mismatch Unit) (i : Nat) (vs : List Value) :
    (checkItems check i vs).isOk = vs.all fun v => (check v).isOk := by
  induction vs generalizing i with
  | nil => rfl
  | cons v vs ih =>
    simp only [checkItems, List.all_cons]
    cases h : check v with
    | error m => rfl
    | ok u => simp only [ih]; rfl

/-- a list shape accepts the lists all of whose items its item shape accepts -/
theorem admits_listOf {item : Shape} {v : Value} (h : (listOf item).admits v = true) :
    ∃ vs, v = .list vs ∧ ∀ w ∈ vs, item.admits w = true := by
  cases v with
  | list vs =>
    simp only [admits, check, checkItems_isOk, List.all_eq_true] at h
    exact ⟨vs, rfl, h⟩
  | _ => simp only [admits, check, Except.isOk, Except.toBool] at h; exact absurd h (by decide)

theorem check_of_admits {s : Shape} {v : Value} (h : s.admits v = true) : s.check v = .ok () := by
  unfold admits at h
  cases hc : s.check v with
  | ok u => rfl
  | error m => rw [hc] at h; cases h

/-- accepts texts only -/
def Textual (s : Shape) : Prop := ∀ v, s.admits v = true → ∃ t, v = .string t

/-- accepts nodes only -/
def Nodal (s : Shape) : Prop := ∀ v, s.admits v = true → ∃ k fs, v = .node k fs

theorem textual_string : (primitive .string).Textual := by
  intro v h
  rw [admits_primitive] at h
  cases v with
  | string t => exact ⟨t, rfl⟩
  | _ => simp [Primitive.admits] at h

theorem isNodeOf_node {kinds : List Kind} {v : Value} (h : isNodeOf kinds v = true) : ∃ k fs, v = .node k fs := by
  cases v with
  | node k fs => exact ⟨k, fs, rfl⟩
  | _ => simp [isNodeOf] at h

theorem nodal_kind (k : Kind) : (kind k).Nodal := fun v h => isNodeOf_node (by rwa [admits_kind] at h)

theorem nodal_deferred (label : String) (f : Family) : (deferred label f).Nodal :=
  fun v h => isNodeOf_node (by rwa [admits_deferred] at h)

theorem nodal_node : node.Nodal := by
  intro v h
  rw [admits_node] at h
  cases v with
  | node k fs => exact ⟨k, fs, rfl⟩
  | _ => simp [Value.node?] at h

theorem nodal_oneOf {alternatives : List Shape} (h : ∀ s ∈ alternatives, s.Nodal) : (oneOf alternatives).Nodal := by
  intro v hv
  rw [admits_oneOf, List.any_eq_true] at hv
  obtain ⟨s, hs, hv⟩ := hv
  exact h s hs v hv

theorem nodal_family (f : Family) : f.shape.Nodal := by
  refine nodal_oneOf fun s hs => ?_
  obtain ⟨k, _, rfl⟩ := List.mem_map.1 hs
  exact nodal_kind k

/-- what a list of nodes looks like -/
theorem Nodal.list {item : Shape} (hi : item.Nodal) {v : Value} (h : (listOf item).admits v = true) :
    ∃ ns : List Node, v = .list (ns.map Node.toValue) := by
  obtain ⟨vs, rfl, hvs⟩ := admits_listOf h
  clear h
  induction vs with
  | nil => exact ⟨[], rfl⟩
  | cons w ws ih =>
    obtain ⟨k, fs, rfl⟩ := hi w (hvs w List.mem_cons_self)
    obtain ⟨ns, hns⟩ := ih fun x hx => hvs x (List.mem_cons_of_mem _ hx)
    exact ⟨⟨k, fs⟩ :: ns, by simp only [Value.list.injEq] at hns; simp [hns, Node.toValue]⟩

/-- what a list of texts looks like -/
theorem Textual.list {item : Shape} (hi : item.Textual) {v : Value} (h : (listOf item).admits v = true) :
    ∃ ts : List String, v = .list (ts.map .string) := by
  obtain ⟨vs, rfl, hvs⟩ := admits_listOf h
  clear h
  induction vs with
  | nil => exact ⟨[], rfl⟩
  | cons w ws ih =>
    obtain ⟨t, rfl⟩ := hi w (hvs w List.mem_cons_self)
    obtain ⟨ts, hts⟩ := ih fun x hx => hvs x (List.mem_cons_of_mem _ hx)
    exact ⟨t :: ts, by simp only [Value.list.injEq] at hts; simp [hts]⟩

end Shape

/-! ## Conforming fields -/

/-- stored fields that keep to a list of declared ones: in its order, required ones there, none null, all accepted -/
inductive Conforms : List FieldSpec → List (String × Value) → Prop
  | nil : Conforms [] []
  | omitted {spec : FieldSpec} {specs : List FieldSpec} {fields : List (String × Value)}
      (ho : spec.optional = true) (h : Conforms specs fields) : Conforms (spec :: specs) fields
  | stored {spec : FieldSpec} {specs : List FieldSpec} {v : Value} {fields : List (String × Value)}
      (hn : v.isNull = false) (ha : spec.shape.admits v = true) (h : Conforms specs fields) :
      Conforms (spec :: specs) ((spec.name, v) :: fields)

namespace Conforms

variable {specs : List FieldSpec} {fields : List (String × Value)}

theorem lookup_eq_none (h : Conforms specs fields) {name : String} (hn : name ∉ specs.map FieldSpec.name) :
    fields.lookup name = none := by
  induction h with
  | nil => rfl
  | omitted _ _ ih => exact ih fun hm => hn (List.mem_cons_of_mem _ hm)
  | @stored spec _ _ _ _ _ _ ih =>
    simp only [List.map_cons, List.mem_cons, not_or] at hn
    rw [List.lookup_cons, beq_eq_false_iff_ne.2 hn.1]
    exact ih hn.2

/-- a declared field is stored with a value that its shape accepts, or was left out as it may be -/
theorem lookup (h : Conforms specs fields) (hd : (specs.map FieldSpec.name).Nodup) {spec : FieldSpec}
    (hs : spec ∈ specs) : (spec.optional = true ∧ fields.lookup spec.name = none) ∨
      ∃ v, fields.lookup spec.name = some v ∧ spec.shape.admits v = true := by
  induction h with
  | nil => simp at hs
  | omitted ho h ih =>
    simp only [List.map_cons, List.nodup_cons] at hd
    rcases List.mem_cons.1 hs with rfl | hs
    · exact Or.inl ⟨ho, h.lookup_eq_none hd.1⟩
    · exact ih hd.2 hs
  | @stored first _ _ _ _ ha _ ih =>
    simp only [List.map_cons, List.nodup_cons] at hd
    rcases List.mem_cons.1 hs with rfl | hs
    · exact Or.inr ⟨_, List.lookup_cons_self, ha⟩
    · have hne : spec.name ≠ first.name := fun e => hd.1 (e ▸ List.mem_map_of_mem hs)
      rw [List.lookup_cons, beq_eq_false_iff_ne.2 hne]
      exact ih hd.2 hs

end Conforms

theorem schema_names_nodup (k : Kind) : (k.schema.map FieldSpec.name).Nodup := by
  cases k <;> decide

/-- what `stored` keeps was supplied, is not null and is accepted; what it passes over may be omitted -/
theorem stored_ok {kind : Kind} {spec : FieldSpec} {o r : Option Value} (h : spec.stored kind o = .ok r) :
    (r = none ∧ spec.optional = true) ∨
      ∃ v, r = some v ∧ o = some v ∧ v.isNull = false ∧ spec.shape.admits v = true := by
  unfold FieldSpec.stored at h
  split at h
  · split at h <;> cases h
    exact Or.inl ⟨rfl, by assumption⟩
  · split at h <;> cases h
    exact Or.inl ⟨rfl, by assumption⟩
  · rename_i v hv
    split at h
    · rename_i hc
      cases h
      refine Or.inr ⟨v, rfl, rfl, ?_, by simp only [Shape.admits, hc]; rfl⟩
      cases v with
      | null => exact absurd rfl hv
      | _ => rfl
    · cases h

theorem store_conforms {kind : Kind} {supplied : Fields} {specs : List FieldSpec} {fields : List (String × Value)}
    (h : store kind supplied specs = .ok fields) : Conforms specs fields := by
  induction specs generalizing fields with
  | nil => cases h; exact .nil
  | cons spec specs ih =>
    simp only [store] at h
    split at h
    · cases h
    · rename_i hs
      obtain ⟨_, ho⟩ | ⟨_, hr, _⟩ := stored_ok hs
      · exact .omitted ho (ih h)
      · cases hr
    · rename_i v hs
      obtain ⟨hr, _⟩ | ⟨_, hr, _, hn, ha⟩ := stored_ok hs <;> cases hr
      split at h
      · cases h
      · rename_i rest hr
        cases h
        exact .stored hn ha (ih hr)

theorem mem_of_lookup {α : Type} {l : List (String × α)} {name : String} {a : α} (h : l.lookup name = some a) :
    (name, a) ∈ l := by
  induction l with
  | nil => cases h
  | cons e l ih =>
    rw [List.lookup_cons] at h
    split at h
    · rename_i he
      rw [eq_of_beq he, ← Option.some.inj h]
      exact List.mem_cons_self
    · exact List.mem_cons_of_mem _ (ih h)

/-- every stored field was supplied -/
theorem store_mem {kind : Kind} {supplied : Fields} {specs : List FieldSpec} {fields : List (String × Value)}
    (h : store kind supplied specs = .ok fields) : ∀ e ∈ fields, e ∈ supplied.entries := by
  induction specs generalizing fields with
  | nil => cases h; simp
  | cons spec specs ih =>
    simp only [store] at h
    split at h
    · cases h
    · exact ih h
    · rename_i v hs
      obtain ⟨hr, _⟩ | ⟨_, hr, hv, _⟩ := stored_ok hs <;> cases hr
      split at h
      · cases h
      · rename_i rest hr
        cases h
        intro e he
        rcases List.mem_cons.1 he with rfl | he
        · exact mem_of_lookup hv
        · exact ih hr e he

theorem build_ok {kind : Kind} {supplied : Fields} {n : Node} (h : build kind supplied = .ok n) :
    n.kind = kind ∧ store kind supplied kind.schema = .ok n.fields := by
  unfold build at h
  split at h
  · cases h
  · rename_i fields hf
    split at h
    · cases h
    · cases h; exact ⟨rfl, hf⟩

/-! ## Building again -/

theorem Conforms.names_sublist {specs : List FieldSpec} {fields : List (String × Value)} (h : Conforms specs fields) :
    (Assoc.names fields).Sublist (specs.map FieldSpec.name) := by
  induction h with
  | nil => exact .slnil
  | omitted _ _ ih => exact .cons _ ih
  | stored _ _ _ ih => exact .cons_cons _ ih

theorem stored_of_admits {kind : Kind} {spec : FieldSpec} {v : Value} (hn : v.isNull = false)
    (ha : spec.shape.admits v = true) : spec.stored kind (some v) = .ok (some v) := by
  have hc := Shape.check_of_admits ha
  cases v with
  | null => cases hn
  | _ => simp only [FieldSpec.stored, hc]

/-- fields that conform are stored as they are -/
theorem store_of_conforms {kind : Kind} {supplied : Fields} {specs : List FieldSpec} {fields : List (String × Value)}
    (h : Conforms specs fields) (hd : (specs.map FieldSpec.name).Nodup)
    (hs : ∀ spec ∈ specs, supplied.get? spec.name = fields.lookup spec.name) :
    store kind supplied specs = .ok fields := by
  induction h with
  | nil => rfl
  | @omitted spec specs fields ho h ih =>
    simp only [List.map_cons, List.nodup_cons] at hd
    have hnone : supplied.get? spec.name = none := (hs spec List.mem_cons_self).trans (h.lookup_eq_none hd.1)
    have ih := ih hd.2 fun s hm => hs s (List.mem_cons_of_mem _ hm)
    simp only [store, hnone, FieldSpec.stored, ho, if_true, ih]
  | @stored spec specs v fields hn ha h ih =>
    simp only [List.map_cons, List.nodup_cons] at hd
    have hsome : supplied.get? spec.name = some v := (hs spec List.mem_cons_self).trans List.lookup_cons_self
    have ih := ih hd.2 fun s hm => by
      have hne : s.name ≠ spec.name := fun e => hd.1 (e ▸ List.mem_map_of_mem hm)
      rw [hs s (List.mem_cons_of_mem _ hm), List.lookup_cons, beq_eq_false_iff_ne.2 hne]
    simp only [store, hsome, stored_of_admits hn ha, ih]

/-- **Building again changes nothing.** Fields that conform to a schema build the node that stores them. -/
theorem build_of_conforms {kind : Kind} {fields : List (String × Value)} (h : Conforms kind.schema fields)
    (hd : (Assoc.names fields).Nodup) : build kind ⟨fields, hd⟩ = .ok ⟨kind, fields⟩ := by
  have hstore : store kind ⟨fields, hd⟩ kind.schema = .ok fields :=
    store_of_conforms h (schema_names_nodup kind) fun _ _ => rfl
  have hnone : kind.undeclared? ⟨fields, hd⟩ = none := by
    refine List.find?_eq_none.2 fun e he => ?_
    have hm : e.1 ∈ kind.schema.map FieldSpec.name := h.names_sublist.subset (List.mem_map_of_mem he)
    obtain ⟨spec, hs, hn⟩ := List.mem_map.1 hm
    simp only [Bool.not_eq_true', Bool.not_eq_false, List.any_eq_true]
    exact ⟨spec, hs, by rw [hn]; exact beq_self_eq_true _⟩
  simp only [build, hstore, hnone]

/-! ## Valid values -/

/-- a value all of whose nodes were built from valid values -/
inductive Value.Valid : Value → Prop
  | null : Valid .null
  | bool (b : Bool) : Valid (.bool b)
  | number (x : Double) : Valid (.number x)
  | string (s : String) : Valid (.string s)
  | node {kind : Kind} {supplied : Fields} {fields : List (String × Value)}
      (hs : ∀ e ∈ supplied.entries, Valid e.2) (hb : build kind supplied = .ok ⟨kind, fields⟩) :
      Valid (.node kind fields)
  | list {items : List Value} (h : ∀ v ∈ items, Valid v) : Valid (.list items)

/-- a node built from valid values -/
def Node.Valid (n : Node) : Prop := n.toValue.Valid

theorem Value.Valid.of_item {items : List Value} (h : (Value.list items).Valid) : ∀ v ∈ items, v.Valid := by
  cases h; assumption

/-! ## Children -/

/-- induction over a value: through the items of lists and the fields of nodes -/
theorem Value.induct {P : Value → Prop} (null : P .null) (bool : ∀ b, P (.bool b)) (number : ∀ x, P (.number x))
    (string : ∀ s, P (.string s)) (node : ∀ k fs, (∀ e ∈ fs, P e.2) → P (.node k fs))
    (list : ∀ items, (∀ v ∈ items, P v) → P (.list items)) (v : Value) : P v :=
  @Value.rec P (fun fs => ∀ e ∈ fs, P e.2) (fun items => ∀ v ∈ items, P v) (fun e => P e.2)
    null bool number string node list (by simp) (fun _ _ he hfs => List.forall_mem_cons.2 ⟨he, hfs⟩)
    (by simp) (fun _ _ hv hvs => List.forall_mem_cons.2 ⟨hv, hvs⟩) (fun _ _ hv => hv) v

mutual

/-- the nodes of a value that stand in no other node of it, first to last -/
def Value.top : Value → List Node
  | .null | .bool _ | .number _ | .string _ => []
  | .node kind fields => [⟨kind, fields⟩]
  | .list items => topOfItems items

def Value.topOfItems : List Value → List Node
  | [] => []
  | v :: vs => v.top ++ topOfItems vs

end

/-- the nodes in the fields of a node, in stored order -/
def Node.children (n : Node) : List Node := n.fields.flatMap fun e => e.2.top

theorem Value.topOfItems_eq (items : List Value) : Value.topOfItems items = items.flatMap Value.top := by
  induction items with
  | nil => rfl
  | cons v vs ih => simp only [Value.topOfItems, ih, List.flatMap_cons]

@[simp] theorem Value.top_list (items : List Value) : (Value.list items).top = items.flatMap Value.top := by
  rw [Value.top, Value.topOfItems_eq]

@[simp] theorem Value.top_string (s : String) : (Value.string s).top = [] := by rw [Value.top]

@[simp] theorem Value.top_bool (b : Bool) : (Value.bool b).top = [] := by rw [Value.top]

@[simp] theorem Value.top_number (x : Double) : (Value.number x).top = [] := by rw [Value.top]

@[simp] theorem Value.top_null : Value.null.top = [] := by rw [Value.top]

@[simp] theorem Value.top_node (k : Kind) (fs : List (String × Value)) : (Value.node k fs).top = [⟨k, fs⟩] := by
  rw [Value.top]

@[simp] theorem Node.top_toValue (n : Node) : n.toValue.top = [n] := Value.top_node n.kind n.fields

@[simp] theorem Value.top_nodes (ns : List Node) : (Value.list (ns.map Node.toValue)).top = ns := by
  rw [Value.top_list, List.flatMap_map]
  induction ns with
  | nil => rfl
  | cons n ns ih => rw [List.flatMap_cons, ih, Node.top_toValue]; rfl

@[simp] theorem Value.top_texts (ts : List String) : (Value.list (ts.map Value.string)).top = [] := by
  simp [List.flatMap_map]

/-! ## Validity, node by node -/

namespace Node.Valid

variable {n : Node}

theorem conforms (h : n.Valid) : Conforms n.kind.schema n.fields := by
  cases h with
  | node _ hb => exact store_conforms (build_ok hb).2

theorem of_field (h : n.Valid) : ∀ e ∈ n.fields, e.2.Valid := by
  cases h with
  | node hs hb => exact fun e he => hs e (store_mem (build_ok hb).2 e he)

end Node.Valid

/-- a node is valid exactly if its fields conform to its schema and are valid -/
theorem Node.valid_iff (n : Node) :
    n.Valid ↔ Conforms n.kind.schema n.fields ∧ ∀ e ∈ n.fields, e.2.Valid := by
  constructor
  · intro h
    exact ⟨h.conforms, h.of_field⟩
  · rintro ⟨hc, hf⟩
    exact .node hf (build_of_conforms hc (hc.names_sublist.nodup (schema_names_nodup _)))

theorem Value.Valid.of_top {v : Value} (h : v.Valid) : ∀ m ∈ v.top, m.Valid := by
  induction h with
  | node hs hb _ =>
    intro m hm
    rw [Value.top_node, List.mem_singleton] at hm
    subst hm
    exact .node hs hb
  | list _ ih =>
    intro m hm
    rw [Value.top_list, List.mem_flatMap] at hm
    obtain ⟨v, hv, hm⟩ := hm
    exact ih v hv m hm
  | _ => intro m hm; simp at hm

theorem Node.Valid.of_child {n : Node} (h : n.Valid) : ∀ m ∈ n.children, m.Valid := by
  intro m hm
  obtain ⟨e, he, hm⟩ := List.mem_flatMap.1 hm
  exact (h.of_field e he).of_top m hm

/-- **Induction over trees.** What passes from the children of a node to the node holds of all nodes. -/
theorem Node.induct {P : Node → Prop} (step : ∀ n : Node, (∀ m ∈ n.children, P m) → P n) (n : Node) : P n := by
  have all : ∀ v : Value, ∀ m ∈ v.top, P m := by
    intro v
    induction v using Value.induct with
    | node k fs ih =>
      intro m hm
      rw [Value.top_node, List.mem_singleton] at hm
      subst hm
      refine step _ fun m hm => ?_
      obtain ⟨e, he, hm⟩ := List.mem_flatMap.1 hm
      exact ih e he m hm
    | list items ih =>
      intro m hm
      rw [Value.top_list, List.mem_flatMap] at hm
      obtain ⟨v, hv, hm⟩ := hm
      exact ih v hv m hm
    | _ => intro m hm; simp at hm
  exact all n.toValue n (by simp)

/-- the same over valid trees -/
theorem Node.Valid.induct {P : Node → Prop} (step : ∀ n : Node, n.Valid → (∀ m ∈ n.children, P m) → P n) (n : Node)
    (h : n.Valid) : P n := by
  revert h
  refine Node.induct (P := fun n => n.Valid → P n) (fun n ih h => ?_) n
  exact step n h fun m hm => ih m hm (h.of_child m hm)

/-! ## Deciding validity -/

/-- stored fields conform to declared ones, as a test -/
def conformsTo : List FieldSpec → List (String × Value) → Bool
  | [], fields => fields.isEmpty
  | spec :: specs, [] => spec.optional && conformsTo specs []
  | spec :: specs, (name, v) :: rest =>
    if spec.name = name then !v.isNull && spec.shape.admits v && conformsTo specs rest
    else spec.optional && conformsTo specs ((name, v) :: rest)

theorem conforms_of_conformsTo {specs : List FieldSpec} {fields : List (String × Value)}
    (h : conformsTo specs fields = true) : Conforms specs fields := by
  fun_induction conformsTo specs fields with
  | case1 fields => rw [List.isEmpty_iff] at h; subst h; exact .nil
  | case2 spec specs ih =>
    rw [Bool.and_eq_true] at h
    exact .omitted h.1 (ih h.2)
  | case3 spec specs v rest ih =>
    simp only [Bool.and_eq_true, Bool.not_eq_true'] at h
    exact .stored h.1.1 h.1.2 (ih h.2)
  | case4 spec specs name v rest hne ih =>
    rw [Bool.and_eq_true] at h
    exact .omitted h.1 (ih h.2)

mutual

/-- every node in a value conforms to its schema -/
def Value.isValid : Value → Bool
  | .null | .bool _ | .number _ | .string _ => true
  | .node kind fields => conformsTo kind.schema fields && fieldsValid fields
  | .list items => itemsValid items

def Value.itemsValid : List Value → Bool
  | [] => true
  | v :: vs => v.isValid && itemsValid vs

def Value.fieldsValid : List (String × Value) → Bool
  | [] => true
  | (_, v) :: rest => v.isValid && fieldsValid rest

end

theorem Value.itemsValid_iff (vs : List Value) : Value.itemsValid vs = true ↔ ∀ v ∈ vs, v.isValid = true := by
  induction vs with
  | nil => simp [Value.itemsValid]
  | cons v vs ih => simp [Value.itemsValid, ih]

theorem Value.fieldsValid_iff (fs : List (String × Value)) :
    Value.fieldsValid fs = true ↔ ∀ e ∈ fs, e.2.isValid = true := by
  induction fs with
  | nil => simp [Value.fieldsValid]
  | cons e fs ih => obtain ⟨name, v⟩ := e; simp only [Value.fieldsValid, Bool.and_eq_true, ih, List.forall_mem_cons]

/-- a value that passes the test is valid -/
theorem Value.valid_of_isValid (v : Value) : v.isValid = true → v.Valid := by
  induction v using Value.induct with
  | null => intro _; exact .null
  | bool b => intro _; exact .bool b
  | number x => intro _; exact .number x
  | string s => intro _; exact .string s
  | node k fs ih =>
    intro h
    rw [Value.isValid, Bool.and_eq_true, Value.fieldsValid_iff] at h
    exact (Node.valid_iff ⟨k, fs⟩).2 ⟨conforms_of_conformsTo h.1, fun e he => ih e he (h.2 e he)⟩
  | list items ih =>
    intro h
    rw [Value.isValid, Value.itemsValid_iff] at h
    exact .list fun v hv => ih v hv (h v hv)

end StyleTree
