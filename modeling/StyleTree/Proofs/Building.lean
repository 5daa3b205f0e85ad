/-
What building does. A node is built from supplied fields exactly if these are, in any order, fields that conform to the
schema and nulls for fields that may be omitted; the node stores the former in schema order and drops the latter.
-/
import Mathlib.Data.List.Nodup
import Mathlib.Data.List.Perm.Basic
import StyleTree.Proofs.Validity

namespace StyleTree

/-! ## Lookups -/

theorem lookup_eq_some_iff {α : Type} {l : List (String × α)} (hd : (Assoc.names l).Nodup) {name : String} {a : α} :
    l.lookup name = some a ↔ (name, a) ∈ l := by
  refine ⟨mem_of_lookup, fun h => ?_⟩
  induction l with
  | nil => cases h
  | cons e l ih =>
    obtain ⟨n, b⟩ := e
    simp only [Assoc.names, List.map_cons, List.nodup_cons] at hd
    rcases List.mem_cons.1 h with he | hm
    · cases he
      exact List.lookup_cons_self
    · have hne : name ≠ n := by
        rintro rfl
        exact hd.1 (List.mem_map_of_mem hm)
      rw [List.lookup_cons, beq_eq_false_iff_ne.2 hne]
      exact ih hd.2 hm

/-- a new name goes to the end -/
theorem Assoc.put_of_not_mem {α : Type} {l : List (String × α)} {name : String} (h : name ∉ Assoc.names l) (a : α) :
    Assoc.put name a l = l ++ [(name, a)] := by
  induction l with
  | nil => rfl
  | cons e l ih =>
    obtain ⟨n, b⟩ := e
    simp only [Assoc.names, List.map_cons, List.mem_cons, not_or] at h
    rw [Assoc.put, if_neg fun he => h.1 he.symm, ih h.2, List.cons_append]

/-- what stands in a list after `put` stood there before, or was put -/
theorem Assoc.mem_put {α : Type} {name : String} {a : α} {l : List (String × α)} {e : String × α}
    (h : e ∈ Assoc.put name a l) : e = (name, a) ∨ e ∈ l := by
  induction l with
  | nil => exact Or.inl (List.mem_singleton.1 h)
  | cons first rest ih =>
    obtain ⟨n, b⟩ := first
    rw [Assoc.put] at h
    split at h
    · rcases List.mem_cons.1 h with h | h
      · exact Or.inl h
      · exact Or.inr (List.mem_cons_of_mem _ h)
    · rcases List.mem_cons.1 h with h | h
      · exact Or.inr (h ▸ List.mem_cons_self)
      · exact (ih h).imp_right (List.mem_cons_of_mem _)

/-- fields supplied by a list are among it -/
theorem mem_ofList {l : List (String × Value)} {e : String × Value} (h : e ∈ (Fields.ofList l).entries) : e ∈ l := by
  have hfold : ∀ (l : List (String × Value)) (fs : Fields),
      e ∈ (l.foldl (fun fs (x : String × Value) => fs.insert x.1 x.2) fs).entries → e ∈ fs.entries ∨ e ∈ l := by
    intro l
    induction l with
    | nil => intro fs h; exact Or.inl h
    | cons x l ih =>
      intro fs h
      rcases ih _ h with h | h
      · rcases Assoc.mem_put h with h | h
        · exact Or.inr (h ▸ List.mem_cons_self)
        · exact Or.inl h
      · exact Or.inr (List.mem_cons_of_mem _ h)
  rcases hfold l Fields.empty h with h | h
  · cases h
  · exact h

/-- fields supplied by a list that has no name twice are that list -/
theorem entries_ofList {l : List (String × Value)} (hd : (Assoc.names l).Nodup) : (Fields.ofList l).entries = l := by
  have h : ∀ (l : List (String × Value)) (fs : Fields), (Assoc.names (fs.entries ++ l)).Nodup →
      (l.foldl (fun fs (e : String × Value) => fs.insert e.1 e.2) fs).entries = fs.entries ++ l := by
    intro l
    induction l with
    | nil => intro fs _; simp
    | cons e l ih =>
      intro fs hd
      have hnew : e.1 ∉ Assoc.names fs.entries := by
        simp only [Assoc.names, List.map_append, List.map_cons] at hd
        exact fun hm => (List.nodup_append.1 hd).2.2 _ hm _ List.mem_cons_self rfl
      have hput : (fs.insert e.1 e.2).entries = fs.entries ++ [e] := Assoc.put_of_not_mem hnew e.2
      have hsplit : fs.entries ++ e :: l = (fs.insert e.1 e.2).entries ++ l := by simp [hput]
      rw [hsplit] at hd ⊢
      exact ih _ hd
  exact h l Fields.empty hd

/-! ## Storing -/

/-- storing asks of the supplied fields only what each declared one makes of them -/
theorem store_congr {kind : Kind} {a b : Fields} {specs : List FieldSpec}
    (h : ∀ spec ∈ specs, spec.stored kind (a.get? spec.name) = spec.stored kind (b.get? spec.name)) :
    store kind a specs = store kind b specs := by
  induction specs with
  | nil => rfl
  | cons spec specs ih =>
    rw [store, store, h spec List.mem_cons_self, ih fun s hs => h s (List.mem_cons_of_mem _ hs)]

/-- a supplied value of a declared field is stored, unless it is a null that may be omitted -/
theorem store_covers {kind : Kind} {supplied : Fields} {specs : List FieldSpec} {fields : List (String × Value)}
    (h : store kind supplied specs = .ok fields) {spec : FieldSpec} (hs : spec ∈ specs) {v : Value}
    (hv : supplied.get? spec.name = some v) : (v = .null ∧ spec.optional = true) ∨ (spec.name, v) ∈ fields := by
  induction specs generalizing fields with
  | nil => cases hs
  | cons first specs ih =>
    rw [store] at h
    split at h
    · cases h
    · rename_i hfirst
      rcases List.mem_cons.1 hs with rfl | hs
      · obtain ⟨-, ho⟩ | ⟨w, hw, -⟩ := stored_ok hfirst
        · rw [hv] at hfirst
          cases v with
          | null => exact Or.inl ⟨rfl, ho⟩
          | _ => simp only [FieldSpec.stored] at hfirst; split at hfirst <;> cases hfirst
        · cases hw
      · exact ih h hs
    · rename_i w hfirst
      split at h
      · cases h
      · rename_i rest hrest
        cases h
        rcases List.mem_cons.1 hs with rfl | hs
        · obtain ⟨hw, -⟩ | ⟨w', hw, hg, -⟩ := stored_ok hfirst
          · cases hw
          · rw [hv] at hg
            cases hw; cases hg
            exact Or.inr List.mem_cons_self
        · exact (ih hrest hs).imp_right (List.mem_cons_of_mem _)

theorem undeclared?_eq_none {kind : Kind} {supplied : Fields} :
    kind.undeclared? supplied = none ↔ ∀ e ∈ supplied.entries, ∃ spec ∈ kind.schema, spec.name = e.1 := by
  rw [Kind.undeclared?, List.find?_eq_none]
  refine forall₂_congr fun e _ => ?_
  simp only [Bool.not_eq_true', Bool.not_eq_false, List.any_eq_true, beq_iff_eq]

/-! ## Building -/

/-- a null for a field that may be omitted -/
def Kind.Spare (kind : Kind) (e : String × Value) : Prop :=
  e.2 = .null ∧ ∃ spec ∈ kind.schema, spec.name = e.1 ∧ spec.optional = true

theorem Conforms.not_null {specs : List FieldSpec} {fields : List (String × Value)} (h : Conforms specs fields) :
    ∀ e ∈ fields, e.2 ≠ .null := by
  induction h with
  | nil => nofun
  | omitted _ _ ih => exact ih
  | stored hn _ _ ih =>
    refine List.forall_mem_cons.2 ⟨?_, ih⟩
    rintro rfl
    cases hn

/-- a stored field is declared, and accepted by its shape -/
theorem Conforms.of_mem {specs : List FieldSpec} {fields : List (String × Value)} (h : Conforms specs fields) :
    ∀ e ∈ fields, ∃ spec ∈ specs, spec.name = e.1 ∧ spec.shape.admits e.2 = true := by
  induction h with
  | nil => nofun
  | omitted _ _ ih =>
    intro e he
    obtain ⟨spec, hs, hspec⟩ := ih e he
    exact ⟨spec, List.mem_cons_of_mem _ hs, hspec⟩
  | @stored first specs v fields _ ha _ ih =>
    refine List.forall_mem_cons.2 ⟨⟨first, List.mem_cons_self, rfl, ha⟩, fun e he => ?_⟩
    obtain ⟨spec, hs, hspec⟩ := ih e he
    exact ⟨spec, List.mem_cons_of_mem _ hs, hspec⟩

theorem Conforms.names_nodup {kind : Kind} {fields : List (String × Value)} (h : Conforms kind.schema fields) :
    (Assoc.names fields).Nodup := h.names_sublist.nodup (schema_names_nodup kind)

/-- what is supplied beside the stored fields are nulls that may be omitted -/
theorem perm_of_build {kind : Kind} {supplied : Fields} {n : Node} (h : build kind supplied = .ok n) :
    ∃ nulls, supplied.entries.Perm (n.fields ++ nulls) ∧ ∀ e ∈ nulls, kind.Spare e := by
  have hs := (build_ok h).2
  have hc := store_conforms hs
  have hdeclared : kind.undeclared? supplied = none := by
    rw [build, hs] at h
    revert h
    cases kind.undeclared? supplied with
    | none => exact fun _ => rfl
    | some e => intro h; cases h
  rw [undeclared?_eq_none] at hdeclared
  have hcover : ∀ e ∈ supplied.entries, e ∈ n.fields ∨ kind.Spare e := by
    rintro ⟨name, v⟩ he
    obtain ⟨spec, hspec, rfl⟩ := hdeclared _ he
    rcases store_covers hs hspec ((lookup_eq_some_iff supplied.nodup).2 he) with ⟨hnull, ho⟩ | hm
    · exact Or.inr ⟨hnull, spec, hspec, rfl, ho⟩
    · exact Or.inl hm
  refine ⟨supplied.entries.filter fun e => e.2.isNull, ?_, fun e he => ?_⟩
  · have hentries : supplied.entries.Nodup := List.Nodup.of_map _ supplied.nodup
    have hfields : n.fields.Nodup := List.Nodup.of_map _ hc.names_nodup
    have hnulls := List.Nodup.filter (fun e => e.2.isNull) hentries
    refine (List.perm_ext_iff_of_nodup hentries (List.Nodup.append hfields hnulls ?_)).2 fun e => ?_
    · intro e he hf
      rw [List.mem_filter] at hf
      refine hc.not_null e he ?_
      revert hf
      cases e.2 <;> simp [Value.isNull]
    · rw [List.mem_append, List.mem_filter]
      refine ⟨fun he => (hcover e he).imp_right fun hspare => ⟨he, by rw [hspare.1]; rfl⟩, ?_⟩
      rintro (he | ⟨he, -⟩)
      · exact store_mem hs e he
      · exact he
  · rw [List.mem_filter] at he
    rcases hcover e he.1 with hm | hspare
    · have hnull := hc.not_null e hm
      revert he hnull
      cases e.2 <;> simp [Value.isNull]
    · exact hspare

/-- **What building does.** A node is built exactly from the fields that it stores, which conform to its schema, and
nulls for fields that may be omitted, in any order. -/
theorem build_eq_ok_iff {kind : Kind} {supplied : Fields} {fields : List (String × Value)} :
    build kind supplied = .ok ⟨kind, fields⟩ ↔ Conforms kind.schema fields ∧
      ∃ nulls, supplied.entries.Perm (fields ++ nulls) ∧ ∀ e ∈ nulls, kind.Spare e := by
  refine ⟨fun h => ⟨store_conforms (build_ok h).2, perm_of_build h⟩, ?_⟩
  rintro ⟨hc, nulls, hp, hn⟩
  have hget : ∀ spec ∈ kind.schema, spec.stored kind (supplied.get? spec.name) =
      spec.stored kind (fields.lookup spec.name) := by
    intro spec _
    cases hf : fields.lookup spec.name with
    | some v =>
      have hm := hp.mem_iff.2 (List.mem_append_left _ (mem_of_lookup hf))
      rw [Fields.get?, (lookup_eq_some_iff supplied.nodup).2 hm]
    | none =>
      cases hs : supplied.get? spec.name with
      | none => rfl
      | some v =>
        rcases List.mem_append.1 (hp.mem_iff.1 (mem_of_lookup hs)) with hm | hm
        · rw [(lookup_eq_some_iff hc.names_nodup).2 hm] at hf
          cases hf
        · have hnull : v = .null := (hn _ hm).1
          subst hnull; rfl
  have hstore : store kind supplied kind.schema = .ok fields := by
    have hself := build_of_conforms hc hc.names_nodup
    rw [store_congr (show ∀ spec ∈ kind.schema, spec.stored kind (supplied.get? spec.name) =
      spec.stored kind (Fields.get? ⟨fields, hc.names_nodup⟩ spec.name) from hget)]
    exact (build_ok hself).2
  have hdeclared : kind.undeclared? supplied = none := by
    rw [undeclared?_eq_none]
    intro e he
    rcases List.mem_append.1 (hp.mem_iff.1 he) with hm | hm
    · exact List.mem_map.1 (hc.names_sublist.subset (List.mem_map_of_mem hm))
    · obtain ⟨-, spec, hs, hname, -⟩ := hn e hm
      exact ⟨spec, hs, hname⟩
  simp only [build, hstore, hdeclared]

end StyleTree
