/-
Trees and their descriptions. A tree that is encoded and decoded comes back as it was, and a description that decodes
is, apart from two liberties, the encoding of its tree: the members of an object may stand in any order, and a field
that may be omitted may be given as null. `Pares j k` says that `j` becomes `k` when those liberties are taken out of
it; nulls in lists are none of them.

- `parse?_distinct`: a value that was read from a text has no member name twice in an object;
- `decodeValue_eq_ok`: a value without such repetitions decodes to exactly the valid values whose encodings it pares
  down to.
-/
import StyleTree.Proofs.Building
import StyleTree.Proofs.Decoding

namespace StyleTree.Json

/-! ## Members without repetition -/

/-- no object in the value has a member name twice -/
inductive Distinct : Json → Prop
  | null : Distinct .null
  | bool (b : Bool) : Distinct (.bool b)
  | number (x : Double) : Distinct (.number x)
  | string (s : String) : Distinct (.string s)
  | array {items : List Json} (h : ∀ j ∈ items, Distinct j) : Distinct (.array items)
  | object {members : List (String × Json)} (hd : (Assoc.names members).Nodup) (h : ∀ m ∈ members, Distinct m.2) :
      Distinct (.object members)

/-- an open array or object with nothing repeated in it so far -/
def Frame.Distinct : Frame → Prop
  | .array items => ∀ j ∈ items, j.Distinct
  | .object members | .member members _ => (Assoc.names members).Nodup ∧ ∀ m ∈ members, m.2.Distinct

/-- a reader with nothing repeated in what it holds -/
structure Reader.Distinct (r : Reader) : Prop where
  stack : ∀ f ∈ r.stack, f.Distinct
  value : ∀ v, r.expect = .finish v → v.Distinct

namespace Reader

variable {stack : List Frame} {r r' : Reader}

theorem place?_distinct (hs : ∀ f ∈ stack, f.Distinct) {v : Json} (hv : v.Distinct) (h : place? stack v = some r) :
    r.Distinct := by
  unfold place? at h
  split at h <;> cases h
  · exact ⟨nofun, fun w hw => by cases hw; exact hv⟩
  · obtain ⟨hitems, hbelow⟩ := List.forall_mem_cons.1 hs
    exact ⟨List.forall_mem_cons.2 ⟨List.forall_mem_cons.2 ⟨hv, hitems⟩, hbelow⟩, nofun⟩
  · obtain ⟨hmembers, hbelow⟩ := List.forall_mem_cons.1 hs
    refine ⟨List.forall_mem_cons.2 ⟨⟨Assoc.nodup_put hmembers.1, fun m hm => ?_⟩, hbelow⟩, nofun⟩
    rcases Assoc.mem_put hm with rfl | hm
    · exact hv
    · exact hmembers.2 m hm

theorem open?_distinct (hs : ∀ f ∈ stack, f.Distinct) {frame : Frame} {expect : Expect} (hf : frame.Distinct)
    (he : ∀ v, expect ≠ .finish v) (h : open? stack frame expect = some r) : r.Distinct := by
  unfold open? at h
  split at h <;> cases h
  exact ⟨List.forall_mem_cons.2 ⟨hf, hs⟩, fun v hv => absurd hv (he v)⟩

theorem value?_distinct (hs : ∀ f ∈ stack, f.Distinct) {t : Token} (h : value? stack t = some r) : r.Distinct := by
  cases t with
  | null => exact place?_distinct hs .null h
  | bool b => exact place?_distinct hs (.bool b) h
  | number x => exact place?_distinct hs (.number x) h
  | string s => exact place?_distinct hs (.string s) h
  | openArray =>
    have hempty : (Frame.array []).Distinct := by simp [Frame.Distinct]
    exact open?_distinct hs hempty (fun v => by simp) h
  | openObject =>
    have hempty : (Frame.object []).Distinct := by simp [Frame.Distinct, Assoc.names]
    exact open?_distinct hs hempty (fun v => by simp) h
  | _ => cases h

theorem name?_distinct (hs : ∀ f ∈ stack, f.Distinct) {t : Token} (h : name? stack t = some r) : r.Distinct := by
  unfold name? at h
  split at h
  · split at h <;> cases h
    obtain ⟨hmembers, hbelow⟩ := List.forall_mem_cons.1 hs
    exact ⟨List.forall_mem_cons.2 ⟨hmembers, hbelow⟩, nofun⟩
  · cases h

theorem closeArray?_distinct (hs : ∀ f ∈ stack, f.Distinct) (h : closeArray? stack = some r) : r.Distinct := by
  unfold closeArray? at h
  split at h
  · obtain ⟨hitems, hbelow⟩ := List.forall_mem_cons.1 hs
    exact place?_distinct hbelow (.array fun j hj => hitems j (List.mem_reverse.1 hj)) h
  · cases h

theorem closeObject?_distinct (hs : ∀ f ∈ stack, f.Distinct) (h : closeObject? stack = some r) : r.Distinct := by
  unfold closeObject? at h
  split at h
  · obtain ⟨hmembers, hbelow⟩ := List.forall_mem_cons.1 hs
    exact place?_distinct hbelow (.object hmembers.1 hmembers.2) h
  · cases h

theorem separator?_distinct (hs : ∀ f ∈ stack, f.Distinct) {t : Token} (h : separator? stack t = some r) :
    r.Distinct := by
  unfold separator? at h
  split at h
  · split at h <;> cases h
    · exact ⟨hs, nofun⟩
    · exact ⟨hs, nofun⟩
  · exact closeArray?_distinct hs h
  · exact closeObject?_distinct hs h
  · cases h

/-- reading a token repeats nothing -/
theorem step?_distinct (hr : r.Distinct) {t : Token} (h : r.step? t = some r') : r'.Distinct := by
  unfold step? at h
  split at h
  · exact value?_distinct hr.stack h
  · split at h
    · exact closeArray?_distinct hr.stack h
    · exact value?_distinct hr.stack h
  · split at h
    · exact closeObject?_distinct hr.stack h
    · exact name?_distinct hr.stack h
  · exact name?_distinct hr.stack h
  · split at h <;> cases h
    exact ⟨hr.stack, nofun⟩
  · exact separator?_distinct hr.stack h
  · cases h

theorem foldlM_distinct (tokens : List Token) (hr : r.Distinct) (h : tokens.foldlM step? r = some r') :
    r'.Distinct := by
  induction tokens generalizing r with
  | nil => cases h; exact hr
  | cons t tokens ih =>
    rw [List.foldlM_cons] at h
    obtain ⟨next, hnext, hrest⟩ := Option.bind_eq_some_iff.1 h
    exact ih (step?_distinct hr hnext) hrest

end Reader

/-- **What is read repeats nothing.** -/
theorem parse?_distinct {text : String} {j : Json} (h : parse? text = some j) : j.Distinct := by
  obtain ⟨tokens, -, h⟩ := Option.bind_eq_some_iff.1 h
  obtain ⟨r, hr, h⟩ := Option.bind_eq_some_iff.1 h
  have hstart : Reader.Distinct ⟨[], .value⟩ := ⟨by simp, by simp⟩
  have hd := Reader.foldlM_distinct tokens hstart hr
  unfold Reader.result? at h
  split at h <;> cases h
  exact hd.value _ (by assumption)

/-! ## Paring down -/

/-- the second value is the first one with the members of its objects put in some order, and nulls left out that are
given for fields that may be omitted -/
inductive Pares : Json → Json → Prop
  | null : Pares .null .null
  | bool (b : Bool) : Pares (.bool b) (.bool b)
  | number (x : Double) : Pares (.number x) (.number x)
  | string (s : String) : Pares (.string s) (.string s)
  | array {items items' : List Json} (h : List.Forall₂ Pares items items') : Pares (.array items) (.array items')
  /-- each member is kept under its name and pared down, or is dropped -/
  | object {kind : Kind} {members kept dropped members' : List (String × Json)}
      (hk : members.lookup "kind" = some (.string kind.name)) (hp : members.Perm (kept ++ dropped))
      (hd : ∀ m ∈ dropped, m.2 = .null ∧ ∃ spec ∈ kind.schema, spec.name = m.1 ∧ spec.optional = true)
      (hn : Assoc.names kept = Assoc.names members')
      (hv : List.Forall₂ Pares (kept.map Prod.snd) (members'.map Prod.snd)) :
      Pares (.object members) (.object members')

theorem encodeItems_eq (vs : List Value) : encodeItems vs = vs.map encodeValue := by
  induction vs with
  | nil => rfl
  | cons v vs ih => rw [encodeItems, ih, List.map_cons]

theorem encodeFields_eq (fields : List (String × Value)) :
    encodeFields fields = fields.map fun f => (f.1, encodeValue f.2) := by
  induction fields with
  | nil => rfl
  | cons f fields ih => obtain ⟨name, v⟩ := f; rw [encodeFields, ih, List.map_cons]

/-- the kind first, then the fields -/
theorem encodeValue_node (k : Kind) (fields : List (String × Value)) :
    encodeValue (.node k fields) =
      .object (("kind", .string k.name) :: fields.map fun f => (f.1, encodeValue f.2)) := by
  rw [encodeValue, encodeFields_eq]

theorem encodeValue_list (vs : List Value) : encodeValue (.list vs) = .array (vs.map encodeValue) := by
  rw [encodeValue, encodeItems_eq]

/-- `kind` is the name of no field -/
theorem kind_not_field (k : Kind) : "kind" ∉ k.schema.map FieldSpec.name := by
  cases k <;> decide

/-- an object is its kind and its fields -/
theorem perm_kind {members : List (String × Json)} (hd : (Assoc.names members).Nodup) {j : Json}
    (hk : members.lookup "kind" = some j) : members.Perm (("kind", j) :: fieldMembers members) := by
  induction members with
  | nil => cases hk
  | cons m rest ih =>
    obtain ⟨name, i⟩ := m
    simp only [Assoc.names, List.map_cons, List.nodup_cons] at hd
    by_cases hn : name = "kind"
    · subst hn
      rw [List.lookup_cons_self, Option.some.injEq] at hk
      subst hk
      have hrest : fieldMembers rest = rest := by
        refine List.filter_eq_self.2 fun m hm => ?_
        have hne : m.1 ≠ "kind" := fun he => hd.1 (he ▸ List.mem_map_of_mem hm)
        simpa using hne
      have hcons : fieldMembers (("kind", i) :: rest) = fieldMembers rest := by simp [fieldMembers]
      rw [hcons, hrest]
    · have hne : "kind" ≠ name := fun he => hn he.symm
      rw [List.lookup_cons, beq_eq_false_iff_ne.2 hne] at hk
      have hcons : fieldMembers ((name, i) :: rest) = (name, i) :: fieldMembers rest := by simp [fieldMembers, hn]
      rw [hcons]
      exact ((ih hd.2 hk).cons _).trans (.swap _ _ _)

theorem fieldMembers_subset {members : List (String × Json)} : fieldMembers members ⊆ members :=
  List.filter_subset_self _

/-- fields have the names of the members that they are decoded from -/
theorem names_eq_of_fieldOf {members : List (String × Json)} {fields : List (String × Value)}
    (h : List.Forall₂ FieldOf members fields) : Assoc.names fields = Assoc.names members := by
  induction h with
  | nil => rfl
  | cons hf _ ih => simp only [Assoc.names, List.map_cons, hf.1] at ih ⊢; rw [ih]

/-- only null decodes to null -/
theorem eq_null_of_decodeValue {j : Json} (h : decodeValue j = .ok .null) : j = .null := by
  cases j with
  | null => rfl
  | array items => rw [decodeValue] at h; split at h <;> cases h
  | object members =>
    rw [decodeValue] at h
    split at h
    · cases h
    · cases h
  | _ => rw [decodeValue] at h; cases h

theorem decodeValue_object_eq_ok {members : List (String × Json)} {v : Value} :
    decodeValue (.object members) = .ok v ↔
      ∃ n : Node, assemble members (decodeMembers members) = .ok n ∧ v = n.toValue := by
  rw [decodeValue]
  cases assemble members (decodeMembers members) with
  | error e => simp
  | ok n => simp [eq_comm]

theorem decodeValue_array_eq_ok {items : List Json} {v : Value} :
    decodeValue (.array items) = .ok v ↔
      ∃ vs, List.Forall₂ (fun j v => decodeValue j = .ok v) items vs ∧ v = .list vs := by
  simp only [← decodeItems_eq_ok 0]
  rw [decodeValue]
  cases decodeItems 0 items with
  | error e => simp
  | ok vs => simp [eq_comm]

/-! ## From descriptions to trees -/

/-- a row of pairs whose right halves are two rows is two rows of pairs -/
theorem forall₂_append_right {α β : Type} {R : α → β → Prop} {l : List α} {m m' : List β}
    (h : List.Forall₂ R l (m ++ m')) : ∃ k k', l = k ++ k' ∧ List.Forall₂ R k m ∧ List.Forall₂ R k' m' :=
  ⟨l.take m.length, l.drop m.length, (List.take_append_drop _ _).symm, List.forall₂_take_append _ _ _ h,
    List.forall₂_drop_append _ _ _ h⟩

/-- a row of pairs, with what is known of their left halves and of their right halves -/
theorem forall₂_with {α β : Type} {R : α → β → Prop} {P : α → Prop} {Q : β → Prop} {l : List α} {m : List β}
    (hl : ∀ a ∈ l, P a) (hm : ∀ b ∈ m, Q b) (h : List.Forall₂ R l m) :
    List.Forall₂ (fun a b => P a ∧ Q b ∧ R a b) l m := by
  induction h with
  | nil => exact .nil
  | cons hab _ ih =>
    obtain ⟨ha, hl⟩ := List.forall_mem_cons.1 hl
    obtain ⟨hb, hm⟩ := List.forall_mem_cons.1 hm
    exact .cons ⟨ha, hb, hab⟩ (ih hl hm)

theorem forall_mem_right {α β : Type} {R : α → β → Prop} {Q : β → Prop} {l : List α} {m : List β}
    (h : List.Forall₂ R l m) (hR : ∀ a ∈ l, ∀ b, R a b → Q b) : ∀ b ∈ m, Q b := by
  induction h with
  | nil => nofun
  | cons hab _ ih =>
    obtain ⟨ha, hl⟩ := List.forall_mem_cons.1 hR
    exact List.forall_mem_cons.2 ⟨ha _ hab, ih hl⟩

/-- rows of named things with the same names -/
theorem forall₂_named {α β : Type} {R : α → β → Prop} {l : List (String × α)} {m : List (String × β)} :
    (Assoc.names l = Assoc.names m ∧ List.Forall₂ R (l.map Prod.snd) (m.map Prod.snd)) ↔
      List.Forall₂ (fun a b => b.1 = a.1 ∧ R a.2 b.2) l m := by
  induction l generalizing m with
  | nil => cases m <;> simp [Assoc.names]
  | cons a l ih =>
    cases m with
    | nil => simp [Assoc.names]
    | cons b m =>
      simp only [Assoc.names] at ih
      simp only [Assoc.names, List.map_cons, List.cons.injEq, List.forall₂_cons, ← ih]
      constructor
      · rintro ⟨⟨hn, hns⟩, hr, hrs⟩
        exact ⟨⟨hn.symm, hr⟩, hns, hrs⟩
      · rintro ⟨⟨hn, hr⟩, hns, hrs⟩
        exact ⟨⟨hn.symm, hns⟩, hr, hrs⟩

/-- a value decodes to what is valid and has an encoding that it pares down to -/
def Described (j : Json) : Prop := ∀ v, decodeValue j = .ok v → v.Valid ∧ Pares j (encodeValue v)

theorem array_described {items : List Json} (h : ∀ j ∈ items, Described j) : Described (.array items) := by
  intro v hv
  obtain ⟨vs, hvs, rfl⟩ := decodeValue_array_eq_ok.1 hv
  refine ⟨.list (forall_mem_right hvs fun j hj v hv => (h j hj v hv).1), ?_⟩
  rw [encodeValue_list]
  refine .array (List.forall₂_map_right_iff.2 ?_)
  exact (forall₂_with h (fun _ _ => trivial) hvs).imp fun j v hjv => (hjv.1 v hjv.2.2).2

theorem object_described {members : List (String × Json)} (hd : (Assoc.names members).Nodup)
    (h : ∀ m ∈ members, Described m.2) : Described (.object members) := by
  intro v hv
  obtain ⟨n, hn, rfl⟩ := decodeValue_object_eq_ok.1 hv
  obtain ⟨hk, fields, hf, hb⟩ := assemble_eq_ok.1 hn
  rw [decodeMembers_eq_ok] at hf
  have hentries : (Fields.ofList fields).entries = fields := by
    refine entries_ofList ?_
    rw [names_eq_of_fieldOf hf]
    exact (List.filter_sublist.map Prod.fst).nodup hd
  obtain ⟨nulls, hp, hspare⟩ := perm_of_build hb
  rw [hentries] at hp
  -- the members in the order in which the node stores them, the nulls that it drops behind
  obtain ⟨ms, hms, hrow⟩ : ∃ ms, (fieldMembers members).Perm ms ∧ List.Forall₂ FieldOf ms (n.fields ++ nulls) := by
    have hcomp : Relation.Comp (List.Forall₂ FieldOf) List.Perm (fieldMembers members) (n.fields ++ nulls) :=
      ⟨fields, hf, hp⟩
    rwa [List.forall₂_comp_perm_eq_perm_comp_forall₂] at hcomp
  obtain ⟨kept, dropped, rfl, hkept, hdropped⟩ := forall₂_append_right hrow
  have hdesc : ∀ m ∈ kept, Described m.2 := fun m hm =>
    h m (fieldMembers_subset (hms.mem_iff.2 (List.mem_append_left _ hm)))
  have hvalid : ∀ f ∈ n.fields, f.2.Valid := forall_mem_right hkept fun m hm f hf => (hdesc m hm f.2 hf.2).1
  refine ⟨(Node.valid_iff n).2 ⟨store_conforms (build_ok hb).2, hvalid⟩, ?_⟩
  have hperm : members.Perm ((("kind", .string n.kind.name) :: kept) ++ dropped) := (perm_kind hd hk).trans (hms.cons _)
  have hdrop : ∀ m ∈ dropped, m.2 = .null ∧ ∃ spec ∈ n.kind.schema, spec.name = m.1 ∧ spec.optional = true := by
    refine forall_mem_right hdropped.flip fun f hf m hm => ?_
    obtain ⟨hnull, hspec⟩ := hspare f hf
    obtain ⟨hname, hdec⟩ := hm
    rw [hnull] at hdec
    exact ⟨eq_null_of_decodeValue hdec, by rw [← hname]; exact hspec⟩
  have hrows : List.Forall₂ (fun m k => k.1 = m.1 ∧ Pares m.2 k.2) (("kind", .string n.kind.name) :: kept)
      (("kind", .string n.kind.name) :: n.fields.map fun f => (f.1, encodeValue f.2)) := by
    refine .cons ⟨rfl, .string _⟩ (List.forall₂_map_right_iff.2 ?_)
    exact (forall₂_with hdesc (fun _ _ => trivial) hkept).imp fun m f hmf => ⟨hmf.2.2.1, (hmf.1 f.2 hmf.2.2.2).2⟩
  obtain ⟨hnames, hvalues⟩ := forall₂_named.2 hrows
  rw [Node.toValue, encodeValue_node]
  exact .object hk hperm hdrop hnames hvalues

/-- **What decodes is an encoding**, up to the order of members and the nulls of optional fields. -/
theorem described_of_distinct (j : Json) (hj : j.Distinct) : Described j := by
  induction hj with
  | array _ ih => exact array_described ih
  | object hd _ ih => exact object_described hd ih
  | null => intro v hv; rw [decodeValue] at hv; cases hv; exact ⟨.null, .null⟩
  | bool b => intro v hv; rw [decodeValue] at hv; cases hv; exact ⟨.bool b, .bool b⟩
  | number x => intro v hv; rw [decodeValue] at hv; cases hv; exact ⟨.number x, .number x⟩
  | string s => intro v hv; rw [decodeValue] at hv; cases hv; exact ⟨.string s, .string s⟩

/-! ## From trees to descriptions -/

/-- what pares down to the encoding of a value decodes to it -/
def Recovered (v : Value) : Prop := ∀ j : Json, j.Distinct → Pares j (encodeValue v) → decodeValue j = .ok v

theorem list_recovered {vs : List Value} (h : ∀ v ∈ vs, Recovered v) : Recovered (.list vs) := by
  intro j hj hp
  rw [encodeValue_list] at hp
  cases hp with
  | @array items _ hitems =>
    cases hj with
    | array hd =>
      rw [List.forall₂_map_right_iff] at hitems
      refine decodeValue_array_eq_ok.2 ⟨vs, ?_, rfl⟩
      exact (forall₂_with hd h hitems).imp fun j v hjv => hjv.2.1 j hjv.1 hjv.2.2

theorem node_recovered {k : Kind} {fields : List (String × Value)} (hc : Conforms k.schema fields)
    (h : ∀ f ∈ fields, Recovered f.2) : Recovered (.node k fields) := by
  intro j hj hp
  rw [encodeValue_node] at hp
  cases hp with
  | @object kind members kept dropped _ hk hp hd hn hv =>
    cases hj with
    | object hnodup hdistinct =>
      have hrows := forall₂_named.1 ⟨hn, hv⟩
      rw [List.forall₂_cons_right_iff] at hrows
      obtain ⟨⟨name, j⟩, kept, ⟨hname, hj⟩, hrest, rfl⟩ := hrows
      rw [List.forall₂_map_right_iff] at hrest
      dsimp only at hname hj
      subst hname
      cases hj
      have hlookup : members.lookup "kind" = some (.string k.name) :=
        (lookup_eq_some_iff hnodup).2 (hp.mem_iff.2 List.mem_cons_self)
      obtain rfl : kind = k := by
        rw [hk, Option.some.injEq, Json.string.injEq] at hlookup
        exact Kind.name_injective hlookup
      have hfields : (fieldMembers members).Perm (kept ++ dropped) := ((perm_kind hnodup hk).symm.trans hp).cons_inv
      have hmem : ∀ m ∈ kept, m.2.Distinct := fun m hm =>
        hdistinct m (hp.mem_iff.2 (List.mem_append_left _ (List.mem_cons_of_mem _ hm)))
      have hkept : List.Forall₂ FieldOf kept fields :=
        (forall₂_with hmem h hrest).imp fun m f hmf => ⟨hmf.2.2.1, hmf.2.1 m.2 hmf.1 hmf.2.2.2⟩
      have hdropped : List.Forall₂ FieldOf dropped (dropped.map fun m => (m.1, .null)) := by
        rw [List.forall₂_map_right_iff, List.forall₂_same]
        intro m hm
        exact ⟨rfl, by rw [(hd m hm).1, decodeValue]⟩
      obtain ⟨supplied, hsupplied, hperm⟩ := List.perm_comp_forall₂ hfields (List.rel_append hkept hdropped)
      have hentries : (Fields.ofList supplied).entries = supplied := by
        refine entries_ofList ?_
        rw [names_eq_of_fieldOf hsupplied]
        exact (List.filter_sublist.map Prod.fst).nodup hnodup
      have hspare : ∀ e ∈ dropped.map fun m => (m.1, Value.null), kind.Spare e := by
        intro e he
        obtain ⟨m, hm, rfl⟩ := List.mem_map.1 he
        exact ⟨rfl, (hd m hm).2⟩
      have hbuild : build kind (Fields.ofList supplied) = .ok ⟨kind, fields⟩ :=
        build_eq_ok_iff.2 ⟨hc, _, by rw [hentries]; exact hperm, hspare⟩
      refine decodeValue_object_eq_ok.2 ⟨⟨kind, fields⟩, assemble_eq_ok.2 ⟨hk, supplied, ?_, hbuild⟩, rfl⟩
      exact decodeMembers_eq_ok.2 hsupplied

theorem recovered_of_valid (v : Value) : v.Valid → Recovered v := by
  induction v using Value.induct with
  | list vs ih => exact fun hv => list_recovered fun v hm => ih v hm (hv.of_item v hm)
  | node k fields ih =>
    intro hv
    obtain ⟨hc, hf⟩ := (Node.valid_iff ⟨k, fields⟩).1 hv
    exact node_recovered hc fun f hm => ih f hm (hf f hm)
  | _ =>
    intro _ j _ hp
    rw [encodeValue] at hp
    cases hp
    rw [decodeValue]

/-- **Descriptions and trees.** Without a member name twice in an object, a JSON value decodes to exactly the valid
values whose encodings it pares down to. -/
theorem decodeValue_eq_ok {j : Json} (hj : j.Distinct) {v : Value} :
    decodeValue j = .ok v ↔ v.Valid ∧ Pares j (encodeValue v) :=
  ⟨described_of_distinct j hj v, fun h => recovered_of_valid v h.1 j hj h.2⟩

/-- an encoding repeats nothing, and is pared down already -/
theorem encodeValue_distinct (v : Value) :
    v.Valid → (encodeValue v).Distinct ∧ Pares (encodeValue v) (encodeValue v) := by
  induction v using Value.induct with
  | null => exact fun _ => ⟨.null, .null⟩
  | bool b => exact fun _ => ⟨.bool b, .bool b⟩
  | number x => exact fun _ => ⟨.number x, .number x⟩
  | string s => exact fun _ => ⟨.string s, .string s⟩
  | list vs ih =>
    intro hv
    have hall : ∀ v ∈ vs, (encodeValue v).Distinct ∧ Pares (encodeValue v) (encodeValue v) :=
      fun v hm => ih v hm (hv.of_item v hm)
    rw [encodeValue_list]
    refine ⟨.array ?_, .array ?_⟩
    · simpa using fun v hm => (hall v hm).1
    · simpa [List.forall₂_same] using fun v hm => (hall v hm).2
  | node k fields ih =>
    intro hv
    obtain ⟨hc, hf⟩ := (Node.valid_iff ⟨k, fields⟩).1 hv
    have hall : ∀ f ∈ fields, (encodeValue f.2).Distinct ∧ Pares (encodeValue f.2) (encodeValue f.2) :=
      fun f hm => ih f hm (hf f hm)
    rw [encodeValue_node]
    refine ⟨.object ?_ ?_, .object List.lookup_cons_self (.of_eq (List.append_nil _).symm) nofun rfl ?_⟩
    · simp only [Assoc.names, List.map_cons, List.map_map, List.nodup_cons]
      exact ⟨fun hm => kind_not_field k (hc.names_sublist.subset hm), hc.names_nodup⟩
    · simp only [List.forall_mem_cons, List.mem_map]
      refine ⟨.string _, ?_⟩
      rintro m ⟨f, hm, rfl⟩
      exact (hall f hm).1
    · rw [List.forall₂_same]
      simp only [List.map_cons, List.map_map, List.forall_mem_cons, List.mem_map]
      refine ⟨.string _, ?_⟩
      rintro j ⟨f, hm, rfl⟩
      exact (hall f hm).2

/-! ## Trees -/

/-- the same of whole trees, whose description is an object -/
theorem decode_eq_ok_iff {j : Json} (hj : j.Distinct) {n : Node} :
    decode j = .ok n ↔ n.Valid ∧ Pares j (encode n) := by
  rw [Node.Valid, encode, ← decodeValue_eq_ok hj]
  cases j with
  | object members =>
    rw [decodeValue_object_eq_ok, decode]
    constructor
    · exact fun h => ⟨n, h, rfl⟩
    · rintro ⟨m, hm, he⟩
      obtain ⟨hk, hf⟩ := Value.node.inj he
      obtain rfl : n = m := by cases n; cases m; cases hk; cases hf; rfl
      exact hm
  | array items =>
    rw [decodeValue_array_eq_ok]
    simp [decode, Node.toValue]
  | _ => simp [decode, decodeValue, Node.toValue]

/-- **Decoding is faithful.** A valid tree is read back from its encoding. Conversely a JSON value in whose objects no
name stands twice decodes only to a valid tree, whose encoding is that value but for the order of members and for nulls
given for fields that may be omitted; and every value that was read from a text is of that sort. -/
theorem decode_faithful :
    (∀ n : Node, n.Valid → decode (encode n) = .ok n) ∧
    (∀ (j : Json) (n : Node), j.Distinct → decode j = .ok n → n.Valid ∧ Pares j (encode n)) ∧
    ∀ (text : String) (n : Node), readTree text = .ok n →
      ∃ j, parse? text = some j ∧ j.Distinct ∧ n.Valid ∧ Pares j (encode n) := by
  refine ⟨fun n hv => ?_, fun j n hj h => (decode_eq_ok_iff hj).1 h, fun text n h => ?_⟩
  · obtain ⟨hd, hp⟩ := encodeValue_distinct n.toValue hv
    exact (decode_eq_ok_iff hd).2 ⟨hv, hp⟩
  · unfold readTree at h
    split at h
    · cases h
    · rename_i j hj
      split at h <;> cases h
      rename_i hdecode
      have hd := parse?_distinct hj
      exact ⟨j, hj, hd, (decode_eq_ok_iff hd).1 hdecode⟩

/-- an assignment described out of order, with a null for a flag and a null in a list -/
def looseAssignment : Json :=
  .object [("init", .object [("value", .array [.null, .bool true]), ("kind", .string "SassValue")]),
    ("default", .null), ("id", .object [("name", .string "a"), ("kind", .string "Identifier")]),
    ("kind", .string "Assignment")]

/-- the assignment itself -/
def plainAssignment : Node :=
  ⟨.assignment, [("id", .node .identifier [("name", .string "a")]),
    ("init", .node .sassValue [("value", .list [.null, .bool true])])]⟩

/-- the description decodes to the assignment, and so does the encoding; so does a text with a null for the value of a
comment -/
theorem looseAssignment_faithful :
    (looseAssignment.Distinct ∧ decode looseAssignment = .ok plainAssignment) ∧
    (plainAssignment.Valid ∧ Pares looseAssignment (encode plainAssignment)) ∧
    decode (encode plainAssignment) = .ok plainAssignment ∧
    ∃ j, parse? "\x7b\"value\":null,\"kind\":\"Comment\"\x7d" = some j ∧ Pares j (encode ⟨.comment, []⟩) := by
  have hdistinct : looseAssignment.Distinct := by
    unfold looseAssignment
    refine .object (by decide) ?_
    simp only [List.forall_mem_cons, List.not_mem_nil, false_imp_iff, implies_true, and_true]
    refine ⟨.object (by decide) ?_, .null, .object (by decide) ?_, .string _⟩
    · simp only [List.forall_mem_cons, List.not_mem_nil, false_imp_iff, implies_true, and_true]
      refine ⟨.array ?_, .string _⟩
      simpa using ⟨Distinct.null, Distinct.bool true⟩
    · simpa using ⟨Distinct.string "a", Distinct.string "Identifier"⟩
  have hdecode : decode looseAssignment = .ok plainAssignment := rfl
  have hfaithful := decode_faithful.2.1 looseAssignment plainAssignment hdistinct hdecode
  have hread : readTree "\x7b\"value\":null,\"kind\":\"Comment\"\x7d" = .ok ⟨.comment, []⟩ := rfl
  obtain ⟨j, hj, -, -, hpares⟩ := decode_faithful.2.2 _ _ hread
  exact ⟨⟨hdistinct, hdecode⟩, hfaithful, decode_faithful.1 plainAssignment hfaithful.1, j, hj, hpares⟩

end StyleTree.Json
