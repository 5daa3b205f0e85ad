/-
Construction histories. Nodes come from five entry points: building by kind, by constructor or by node type, decoding a
JSON value, and reading a text. Building looks at the supplied values one level deep only, and the schema lets any node
into some fields. What makes a tree sound at every depth is where its parts come from: a call can draw on nothing but
nodes that were obtained before, whole or in parts.

- `call_valid`: a call that draws on valid nodes gives a valid node;
- `history_valid`: so every node of a history is valid;
- `histories_sound`: and every node in it, at whatever depth, meets its schema and is what building it again gives.
-/
import StyleTree.NodeType
import StyleTree.Proofs.Faithful
import StyleTree.Proofs.Offence

namespace StyleTree

/-! ## Histories -/

/-- one call of an entry point -/
inductive Call where
  | build (kind : Kind) (supplied : Fields)
  | construct (name : String) (supplied : Fields)
  | typed (name : String) (supplied : Fields)
  | decode (j : Json)
  | read (text : String)

namespace Call

/-- the node that a call gives, if it gives one -/
def result : Call → Option Node
  | .build kind supplied => (StyleTree.build kind supplied).toOption
  | .construct name supplied => (constructor name).toOption.bind fun make => (make supplied).toOption
  | .typed name supplied => (NodeType.find name).toOption.bind fun t => (t.build supplied).toOption
  | .decode j => (Json.decode j).toOption
  | .read text => (Json.readTree text).toOption

/-- the values that a call is given; a description in JSON has none -/
def values : Call → List Value
  | .build _ supplied | .construct _ supplied | .typed _ supplied => supplied.entries.map Prod.snd
  | .decode _ | .read _ => []

/-- every node in the values of a call is part of one that was obtained before -/
def DrawsOn (pool : List Node) (c : Call) : Prop :=
  ∀ v ∈ c.values, ∀ m ∈ v.top, ∃ n ∈ pool, ∃ o ∈ n.occurrences, o.node = m

end Call

/-- the nodes that calls gave one after the other, the latest first -/
inductive History : List Node → Prop
  | start : History []
  | call {pool : List Node} (h : History pool) (c : Call) (hd : c.DrawsOn pool) {n : Node}
      (hr : c.result = some n) : History (n :: pool)

/-! ## What a call gives -/

theorem eq_ok_of_toOption {ε α : Type} {r : Except ε α} {a : α} (h : r.toOption = some a) : r = .ok a := by
  cases r with
  | ok b => cases h; rfl
  | error e => cases h

/-- every constructor builds nodes of one kind -/
theorem constructor_eq_build {name : String} {make : Constructor} (h : constructor name = .ok make) :
    ∃ kind, make = build kind := by
  unfold constructor at h
  split at h
  · rename_i found hfound
    cases h
    obtain ⟨kind, -, hkind⟩ := List.mem_map.1 (mem_of_lookup hfound)
    exact ⟨kind, (Prod.mk.inj hkind).2.symm⟩
  · cases h

/-- nodes that stand in no other node of a value decide whether it is valid -/
theorem Value.valid_of_top (v : Value) : (∀ m ∈ v.top, m.Valid) → v.Valid := by
  induction v using Value.induct with
  | null => intro _; exact .null
  | bool b => intro _; exact .bool b
  | number x => intro _; exact .number x
  | string s => intro _; exact .string s
  | node k fs _ =>
    intro h
    exact h ⟨k, fs⟩ (by simp)
  | list items ih =>
    intro h
    refine .list fun v hv => ih v hv fun m hm => h m ?_
    rw [Value.top_list]
    exact List.mem_flatMap.2 ⟨v, hv, hm⟩

/-- every node in a valid tree is valid -/
theorem occurrence_valid (n : Node) (hv : n.Valid) : ∀ o ∈ n.occurrences, o.node.Valid := by
  refine Node.Valid.induct (P := fun n => ∀ o ∈ n.occurrences, o.node.Valid) ?_ n hv
  intro n hv ih o ho
  rw [n.occurrences_eq] at ho
  rcases List.mem_cons.1 ho with rfl | ho
  · exact hv
  · obtain ⟨o', ho', rfl⟩ := List.mem_map.1 ho
    obtain ⟨m, hm, ho'⟩ := List.mem_flatMap.1 ho'
    exact ih m hm o' ho'

namespace Json

/-- members that decode to valid values give a valid node -/
theorem assemble_valid {members : List (String × Json)} {n : Node}
    (hm : ∀ m ∈ members, ∀ v, decodeValue m.2 = .ok v → v.Valid)
    (h : assemble members (decodeMembers members) = .ok n) : n.Valid := by
  obtain ⟨-, fields, hfields, hb⟩ := assemble_eq_ok.1 h
  rw [decodeMembers_eq_ok] at hfields
  have hvalid : ∀ f ∈ fields, f.2.Valid :=
    forall_mem_right hfields fun m hmem f hf => hm m (fieldMembers_subset hmem) f.2 hf.2
  exact .node (fun e he => hvalid e (mem_ofList he)) hb

/-- **What decodes is valid**, whatever the description. -/
theorem decodeValue_valid (j : Json) : ∀ v, decodeValue j = .ok v → v.Valid := by
  induction j using Json.induct with
  | array items ih =>
    intro v h
    obtain ⟨vs, hvs, rfl⟩ := decodeValue_array_eq_ok.1 h
    exact .list (forall_mem_right hvs ih)
  | object members ih =>
    intro v h
    obtain ⟨n, hn, rfl⟩ := decodeValue_object_eq_ok.1 h
    exact assemble_valid ih hn
  | _ =>
    intro v h
    rw [decodeValue] at h
    cases h
    constructor

theorem decode_valid {j : Json} {n : Node} (h : decode j = .ok n) : n.Valid := by
  unfold decode at h
  split at h
  · exact assemble_valid (fun m _ => decodeValue_valid m.2) h
  · cases h

theorem readTree_valid {text : String} {n : Node} (h : readTree text = .ok n) : n.Valid := by
  unfold readTree at h
  split at h
  · cases h
  · split at h
    · rename_i hd
      cases h
      exact decode_valid hd
    · cases h

end Json

/-- **One call.** A call that draws on valid nodes gives a valid node. -/
theorem call_valid {pool : List Node} (hp : ∀ n ∈ pool, n.Valid) {c : Call} (hd : c.DrawsOn pool) {n : Node}
    (hr : c.result = some n) : n.Valid := by
  -- all ways to build come down to one, and what they are given is valid, part by part
  have hvalues : ∀ v ∈ c.values, v.Valid := by
    intro v hv
    apply Value.valid_of_top
    intro m hm
    obtain ⟨n, hn, o, ho, rfl⟩ := hd v hv m hm
    exact occurrence_valid n (hp n hn) o ho
  have hbuild : ∀ (kind : Kind) (supplied : Fields), c.values = supplied.entries.map Prod.snd →
      build kind supplied = .ok n → n.Valid := by
    intro kind supplied hsame hb
    have hentries : ∀ e ∈ supplied.entries, e.2.Valid := by
      intro e he
      apply hvalues
      rw [hsame]
      exact List.mem_map_of_mem he
    obtain rfl := (build_ok hb).1
    exact .node hentries hb
  cases c with
  | build kind supplied => exact hbuild kind supplied rfl (eq_ok_of_toOption hr)
  | construct name supplied =>
    obtain ⟨make, hmake, hr⟩ := Option.bind_eq_some_iff.1 hr
    obtain ⟨kind, rfl⟩ := constructor_eq_build (eq_ok_of_toOption hmake)
    exact hbuild kind supplied rfl (eq_ok_of_toOption hr)
  | typed name supplied =>
    obtain ⟨t, -, hr⟩ := Option.bind_eq_some_iff.1 hr
    exact hbuild t.kind supplied rfl (eq_ok_of_toOption hr)
  | decode j => exact Json.decode_valid (eq_ok_of_toOption hr)
  | read text => exact Json.readTree_valid (eq_ok_of_toOption hr)

/-- **Whole histories.** Every node that was obtained is valid. -/
theorem history_valid {pool : List Node} (h : History pool) : ∀ n ∈ pool, n.Valid := by
  induction h with
  | start => nofun
  | call _ c hd hr ih =>
    intro n hn
    rcases List.mem_cons.1 hn with rfl | hn
    · exact call_valid ih hd hr
    · exact ih n hn

/-! ## Meeting the schema -/

/-- what the schema of its kind asks of a node -/
structure Node.MeetsSchema (n : Node) : Prop where
  /-- stored fields are declared ones, in schema order -/
  ordered : (Assoc.names n.fields).Sublist (n.kind.schema.map FieldSpec.name)
  once : (Assoc.names n.fields).Nodup
  required : ∀ spec ∈ n.kind.schema, spec.optional = false → spec.name ∈ Assoc.names n.fields
  not_null : ∀ e ∈ n.fields, e.2 ≠ .null
  accepted : ∀ e ∈ n.fields, ∀ spec ∈ n.kind.schema, spec.name = e.1 → spec.shape.check e.2 = .ok ()

/-- the fields of a valid node are what its schema asks for -/
theorem meets_of_valid {n : Node} (hv : n.Valid) : n.MeetsSchema := by
  have hc := hv.conforms
  refine ⟨hc.names_sublist, hc.names_nodup, fun spec hs ho => ?_, hc.not_null, fun e he spec hs hname => ?_⟩
  · rcases hc.lookup (schema_names_nodup _) hs with ⟨ho', -⟩ | ⟨v, hv, -⟩
    · rw [ho] at ho'
      cases ho'
    · exact List.mem_map_of_mem (mem_of_lookup hv)
  · have hstored : n.fields.lookup spec.name = some e.2 := by
      rw [hname]
      exact (lookup_eq_some_iff hc.names_nodup).2 he
    rcases hc.lookup (schema_names_nodup _) hs with ⟨-, hnone⟩ | ⟨v, hv, ha⟩
    · rw [hnone] at hstored
      cases hstored
    · rw [hv, Option.some.injEq] at hstored
      rw [← hstored]
      exact Shape.check_of_admits ha

/-- building a valid node again from its own fields gives the node -/
theorem rebuild_of_valid {n : Node} (hv : n.Valid) : build n.kind (Fields.ofList n.fields) = .ok n := by
  have hc := hv.conforms
  refine build_eq_ok_iff.2 ⟨hc, [], ?_, nofun⟩
  rw [entries_ofList hc.names_nodup, List.append_nil]

/-- **Soundness at every depth.** Whatever calls obtained, each on nodes obtained before: every node that occurs in what
they gave meets its schema, and building it again from its own fields gives that node. -/
theorem histories_sound {pool : List Node} (h : History pool) (n : Node) (hn : n ∈ pool) (o : Occurrence)
    (ho : o ∈ n.occurrences) :
    o.node.MeetsSchema ∧ build o.node.kind (Fields.ofList o.node.fields) = .ok o.node := by
  have hv := occurrence_valid n (history_valid h n hn) o ho
  exact ⟨meets_of_valid hv, rebuild_of_valid hv⟩

/-- a call may take nodes whole -/
theorem drawsOn_of_whole {c : Call} {pool : List Node} (h : ∀ v ∈ c.values, ∀ m ∈ v.top, m ∈ pool) :
    c.DrawsOn pool := by
  intro v hv m hm
  refine ⟨m, h v hv m hm, ⟨[m.kind], m⟩, ?_, rfl⟩
  rw [m.occurrences_eq]
  exact List.mem_cons_self

/-- a name -/
def gridName : Node := ⟨.identifier, [("name", .string "grid")]⟩

/-- a colour -/
def gridColor : Node := ⟨.sassColor, [("value", .string "teal")]⟩

/-- both of them, in lists in a value -/
def gridValue : Node := ⟨.sassValue, [("value", .list [.list [gridName.toValue, gridName.toValue], gridColor.toValue])]⟩

/-- a list with that value in it -/
def gridList : Node := ⟨.sassList, [("elements", .list [gridValue.toValue, gridColor.toValue])]⟩

/-- four calls through four entry points -/
theorem gridList_history : History [gridList, gridValue, gridColor, gridName] := by
  have hname : History [gridName] :=
    .call .start (.construct "Identifier" (.ofList [("name", .string "grid")])) (drawsOn_of_whole (by
      change ∀ v ∈ [Value.string "grid"], _
      simp)) rfl
  have hcolor : History [gridColor, gridName] :=
    .call hname (.decode (.object [("value", .string "teal"), ("kind", .string "SassColor")])) nofun rfl
  have hvalue : History [gridValue, gridColor, gridName] :=
    .call hcolor (.build .sassValue (.ofList gridValue.fields)) (drawsOn_of_whole (by
      change ∀ v ∈ [Value.list [.list [gridName.toValue, gridName.toValue], gridColor.toValue]], _
      simp)) rfl
  exact .call hvalue (.typed "SassList" (.ofList gridList.fields)) (drawsOn_of_whole (by
    change ∀ v ∈ [Value.list [gridValue.toValue, gridColor.toValue]], _
    simp)) rfl

/-- the name in the lists in the value in the list is one of six nodes, and all of them are sound -/
theorem gridList_sound :
    gridList.occurrences.length = 6 ∧ ⟨[.sassList, .sassValue, .identifier], gridName⟩ ∈ gridList.occurrences ∧
    ∀ o ∈ gridList.occurrences,
      o.node.MeetsSchema ∧ build o.node.kind (Fields.ofList o.node.fields) = .ok o.node := by
  refine ⟨rfl, .tail _ (.tail _ (.head _)), ?_⟩
  exact histories_sound gridList_history gridList List.mem_cons_self

end StyleTree
