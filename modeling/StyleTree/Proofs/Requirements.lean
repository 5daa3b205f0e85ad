/-
What a schema requires. Building goes through the declared fields in order and stops at the first that is missing or
refused; it looks for undeclared names only when all declared fields are in order. This module says the same without
the order of work: `Kind.Takes` is what supplied fields have to be, `Kind.Blames` is the fault that is told otherwise.

- `met_or_failed`, `met_or_first_failure`, `takes_or_blames`: for one field, for a list of them and for a kind, either
  all is in order or there is a first fault;
- `stored_of_met`, `store_of_met`, `build_of_takes`: what is in order is stored, without nulls and in schema order;
- `stored_of_failed`, `store_of_failed`, `build_of_blames`: the first fault is the one that is told;
- `constructor_eq`, `find_eq`: constructors and node types are found by the same names as kinds;
- `build_follows_schema`: so building is the schema, in any order of supply and by any of the three ways.
-/
import StyleTree.NodeType
import StyleTree.Proofs.Building
import StyleTree.Proofs.Decoding

namespace StyleTree

/-! ## One declared field -/

namespace FieldSpec

/-- what was supplied is in order: a value that is accepted, or nothing where the field may be omitted -/
def MetBy (spec : FieldSpec) (supplied : Fields) : Prop :=
  (∃ v, supplied.get? spec.name = some v ∧ v ≠ .null ∧ spec.shape.check v = .ok ()) ∨
    (spec.optional = true ∧ (supplied.get? spec.name = none ∨ supplied.get? spec.name = some .null))

/-- what was supplied is not in order: the value that is told, and what is wrong with it -/
inductive FailedBy (spec : FieldSpec) (supplied : Fields) : Value → FieldFault → Prop
  | missing (hr : spec.optional = false)
      (hn : supplied.get? spec.name = none ∨ supplied.get? spec.name = some .null) : FailedBy spec supplied .null .missing
  | refused {v : Value} {m : Mismatch} (hv : supplied.get? spec.name = some v) (hn : v ≠ .null)
      (hm : spec.shape.check v = .error m) : FailedBy spec supplied v (.mismatch m)

end FieldSpec

/-- what is stored of a supplied field: its value, unless that is null -/
def Fields.kept (supplied : Fields) (name : String) : Option Value := (supplied.get? name).filter fun v => !v.isNull

section Field

variable {spec : FieldSpec} {supplied : Fields}

theorem met_or_failed (spec : FieldSpec) (supplied : Fields) :
    spec.MetBy supplied ∨ ∃ got fault, spec.FailedBy supplied got fault := by
  by_cases hn : supplied.get? spec.name = none ∨ supplied.get? spec.name = some .null
  · cases ho : spec.optional with
    | true => exact Or.inl (Or.inr ⟨ho, hn⟩)
    | false => exact Or.inr ⟨_, _, .missing ho hn⟩
  · rw [not_or] at hn
    obtain ⟨v, hv⟩ := Option.ne_none_iff_exists'.1 hn.1
    have hnull : v ≠ .null := by
      rintro rfl
      exact hn.2 hv
    cases hc : spec.shape.check v with
    | ok u => exact Or.inl (Or.inl ⟨v, hv, hnull, hc⟩)
    | error m => exact Or.inr ⟨_, _, .refused hv hnull hc⟩

theorem kept_of_ne_null {name : String} {v : Value} (hv : supplied.get? name = some v) (hn : v ≠ .null) :
    supplied.kept name = some v := by
  rw [Fields.kept, hv]
  cases v with
  | null => exact absurd rfl hn
  | _ => rfl

theorem kept_of_omitted {name : String} (h : supplied.get? name = none ∨ supplied.get? name = some .null) :
    supplied.kept name = none := by
  rcases h with h | h <;> rw [Fields.kept, h] <;> rfl

theorem stored_of_met (kind : Kind) (h : spec.MetBy supplied) :
    spec.stored kind (supplied.get? spec.name) = .ok (supplied.kept spec.name) := by
  rcases h with ⟨v, hv, hn, hc⟩ | ⟨ho, hn⟩
  · rw [kept_of_ne_null hv hn, hv]
    cases v with
    | null => exact absurd rfl hn
    | _ => simp only [FieldSpec.stored, hc]
  · rw [kept_of_omitted hn]
    rcases hn with hn | hn <;> rw [hn] <;> exact if_pos ho

theorem stored_of_failed (kind : Kind) {got : Value} {fault : FieldFault} (h : spec.FailedBy supplied got fault) :
    spec.stored kind (supplied.get? spec.name) = .error ⟨kind, spec.name, got, fault⟩ := by
  cases h with
  | missing hr hn =>
    have hnot : ¬spec.optional = true := by rw [hr]; exact Bool.false_ne_true
    rcases hn with hn | hn <;> rw [hn] <;> exact if_neg hnot
  | refused hv hn hm =>
    rw [hv]
    cases got with
    | null => exact absurd rfl hn
    | _ => simp only [FieldSpec.stored, hm]

end Field

/-! ## A list of declared fields -/

/-- the fields that are stored of a list of declared ones -/
def Fields.stored (supplied : Fields) (specs : List FieldSpec) : List (String × Value) :=
  specs.filterMap fun spec => (supplied.kept spec.name).map fun v => (spec.name, v)

/-- either all are in order, or there is a first one that is not -/
theorem met_or_first_failure (specs : List FieldSpec) (supplied : Fields) :
    (∀ spec ∈ specs, spec.MetBy supplied) ∨
      ∃ before spec after got fault, specs = before ++ spec :: after ∧ (∀ s ∈ before, s.MetBy supplied) ∧
        spec.FailedBy supplied got fault := by
  induction specs with
  | nil => exact Or.inl nofun
  | cons spec specs ih =>
    rcases met_or_failed spec supplied with hmet | ⟨got, fault, hfail⟩
    · rcases ih with hall | ⟨before, s, after, got, fault, rfl, hb, hf⟩
      · exact Or.inl (List.forall_mem_cons.2 ⟨hmet, hall⟩)
      · exact Or.inr ⟨spec :: before, s, after, got, fault, rfl, List.forall_mem_cons.2 ⟨hmet, hb⟩, hf⟩
    · exact Or.inr ⟨[], spec, specs, got, fault, rfl, nofun, hfail⟩

section Store

variable {kind : Kind} {supplied : Fields}

theorem store_of_met {specs : List FieldSpec} (h : ∀ spec ∈ specs, spec.MetBy supplied) :
    store kind supplied specs = .ok (supplied.stored specs) := by
  induction specs with
  | nil => rfl
  | cons spec specs ih =>
    rw [List.forall_mem_cons] at h
    rw [store, stored_of_met kind h.1, ih h.2]
    cases hk : supplied.kept spec.name <;> simp [Fields.stored, hk]

/-- fields that are in order do not keep a fault behind them from being told -/
theorem store_of_failed {before : List FieldSpec} {spec : FieldSpec} (after : List FieldSpec) {got : Value}
    {fault : FieldFault} (hb : ∀ s ∈ before, s.MetBy supplied) (hf : spec.FailedBy supplied got fault) :
    store kind supplied (before ++ spec :: after) = .error ⟨kind, spec.name, got, fault⟩ := by
  induction before with
  | nil => rw [List.nil_append, store, stored_of_failed kind hf]
  | cons s before ih =>
    rw [List.forall_mem_cons] at hb
    rw [List.cons_append, store, stored_of_met kind hb.1, ih hb.2]
    cases supplied.kept s.name <;> rfl

end Store

/-! ## Building -/

namespace Kind

/-- the schema has a field of the name -/
def Declares (kind : Kind) (name : String) : Prop := ∃ spec ∈ kind.schema, spec.name = name

/-- what fields have to be for a node of the kind to be built from them -/
structure Takes (kind : Kind) (supplied : Fields) : Prop where
  /-- a name has to be declared even if its value is null -/
  declared : ∀ e ∈ supplied.entries, kind.Declares e.1
  required : ∀ spec ∈ kind.schema, spec.optional = false →
    ∃ v, supplied.get? spec.name = some v ∧ v ≠ .null ∧ spec.shape.check v = .ok ()
  optional : ∀ spec ∈ kind.schema, spec.optional = true →
    supplied.get? spec.name = none ∨ supplied.get? spec.name = some .null ∨
      ∃ v, supplied.get? spec.name = some v ∧ spec.shape.check v = .ok ()

/-- the fault that is told of fields from which no node of the kind can be built: that of the first declared field that
is not in order, and if there is none, the first undeclared name -/
inductive Blames (kind : Kind) (supplied : Fields) : SchemaError → Prop
  | field {before after : List FieldSpec} {spec : FieldSpec} {got : Value} {fault : FieldFault}
      (hs : kind.schema = before ++ spec :: after) (hb : ∀ s ∈ before, s.MetBy supplied)
      (hf : spec.FailedBy supplied got fault) : Blames kind supplied ⟨kind, spec.name, got, fault⟩
  | undeclared {before after : List (String × Value)} {name : String} {v : Value}
      (hm : ∀ spec ∈ kind.schema, spec.MetBy supplied) (he : supplied.entries = before ++ (name, v) :: after)
      (hb : ∀ e ∈ before, kind.Declares e.1) (hn : ¬kind.Declares name) :
      Blames kind supplied ⟨kind, name, v, .undeclared⟩

end Kind

section Build

variable {kind : Kind} {supplied : Fields}

/-- fields are taken if all declared ones are in order and there are no others -/
theorem takes_iff : kind.Takes supplied ↔
    (∀ spec ∈ kind.schema, spec.MetBy supplied) ∧ ∀ e ∈ supplied.entries, kind.Declares e.1 := by
  constructor
  · intro h
    refine ⟨fun spec hs => ?_, h.declared⟩
    cases ho : spec.optional with
    | false => exact Or.inl (h.required spec hs ho)
    | true =>
      rcases h.optional spec hs ho with hnone | hnull | ⟨v, hv, hc⟩
      · exact Or.inr ⟨ho, Or.inl hnone⟩
      · exact Or.inr ⟨ho, Or.inr hnull⟩
      · by_cases hn : v = .null
        · subst hn
          exact Or.inr ⟨ho, Or.inr hv⟩
        · exact Or.inl ⟨v, hv, hn, hc⟩
  · rintro ⟨hmet, hdeclared⟩
    refine ⟨hdeclared, fun spec hs ho => ?_, fun spec hs _ => ?_⟩
    · rcases hmet spec hs with hv | ⟨ho', -⟩
      · exact hv
      · rw [ho] at ho'
        cases ho'
    · rcases hmet spec hs with ⟨v, hv, -, hc⟩ | ⟨-, hnone | hnull⟩
      · exact Or.inr (Or.inr ⟨v, hv, hc⟩)
      · exact Or.inl hnone
      · exact Or.inr (Or.inl hnull)

theorem undeclared?_eq_some {name : String} {v : Value} :
    kind.undeclared? supplied = some (name, v) ↔ ∃ before after, supplied.entries = before ++ (name, v) :: after ∧
      (∀ e ∈ before, kind.Declares e.1) ∧ ¬kind.Declares name := by
  have htest : ∀ n, (kind.schema.any fun spec => spec.name == n) = true ↔ kind.Declares n := by
    intro n
    rw [List.any_eq_true]
    simp only [beq_iff_eq, Kind.Declares]
  rw [Kind.undeclared?, List.find?_eq_some_iff_append]
  simp only [Bool.not_eq_true', ← Bool.not_eq_true, htest]
  constructor
  · rintro ⟨hn, before, after, he, hb⟩
    exact ⟨before, after, he, fun e hm => by simpa using hb e hm, hn⟩
  · rintro ⟨before, after, he, hb, hn⟩
    exact ⟨hn, before, after, he, fun e hm => by simpa using hb e hm⟩

theorem takes_or_blames (kind : Kind) (supplied : Fields) :
    kind.Takes supplied ∨ ∃ e, kind.Blames supplied e := by
  rcases met_or_first_failure kind.schema supplied with hmet | ⟨before, spec, after, got, fault, hs, hb, hf⟩
  · cases hu : kind.undeclared? supplied with
    | none => exact Or.inl (takes_iff.2 ⟨hmet, undeclared?_eq_none.1 hu⟩)
    | some e =>
      obtain ⟨before, after, he, hb, hn⟩ := undeclared?_eq_some.1 hu
      exact Or.inr ⟨_, .undeclared hmet he hb hn⟩
  · exact Or.inr ⟨_, .field hs hb hf⟩

theorem build_of_takes (h : kind.Takes supplied) : build kind supplied = .ok ⟨kind, supplied.stored kind.schema⟩ := by
  obtain ⟨hmet, hdeclared⟩ := takes_iff.1 h
  have hu : kind.undeclared? supplied = none := undeclared?_eq_none.2 hdeclared
  simp only [build, store_of_met hmet, hu]

theorem build_of_blames {e : SchemaError} (h : kind.Blames supplied e) : build kind supplied = .error e := by
  cases h with
  | @field before after spec got fault hs hb hf => simp only [build, hs, store_of_failed after hb hf]
  | @undeclared before after name v hm he hb hn =>
    have hu : kind.undeclared? supplied = some (name, v) := undeclared?_eq_some.2 ⟨before, after, he, hb, hn⟩
    simp only [build, store_of_met hm, hu]

theorem build_ok_iff_takes {n : Node} :
    build kind supplied = .ok n ↔ kind.Takes supplied ∧ n = ⟨kind, supplied.stored kind.schema⟩ := by
  constructor
  · intro h
    rcases takes_or_blames kind supplied with ht | ⟨e, he⟩
    · rw [build_of_takes ht, Except.ok.injEq] at h
      exact ⟨ht, h.symm⟩
    · rw [build_of_blames he] at h
      cases h
  · rintro ⟨ht, rfl⟩
    exact build_of_takes ht

theorem build_error_iff_blames {e : SchemaError} : build kind supplied = .error e ↔ kind.Blames supplied e := by
  refine ⟨fun h => ?_, build_of_blames⟩
  rcases takes_or_blames kind supplied with ht | ⟨e', he⟩
  · rw [build_of_takes ht] at h
    cases h
  · rw [build_of_blames he, Except.error.injEq] at h
    rwa [← h]

end Build

/-- the order in which fields are supplied does not matter to what is built -/
theorem build_of_perm {kind : Kind} {supplied supplied' : Fields} (hp : supplied.entries.Perm supplied'.entries)
    {n : Node} (h : build kind supplied = .ok n) : build kind supplied' = .ok n := by
  obtain ⟨rfl, -⟩ := build_ok h
  obtain ⟨hc, nulls, hn, hspare⟩ := build_eq_ok_iff.1 h
  exact build_eq_ok_iff.2 ⟨hc, nulls, hp.symm.trans hn, hspare⟩

/-! ## The three ways to build -/

theorem constructors_lookup (name : String) : constructors.lookup name = (Kind.ofName? name).map build := by
  have h : ∀ l : List Kind, (l.map fun k => (k.name, build k)).lookup name =
      (l.find? fun k => k.name == name).map build := by
    intro l
    induction l with
    | nil => rfl
    | cons k l ih =>
      rw [List.map_cons, List.lookup_cons, List.find?_cons, ih]
      by_cases hk : k.name = name
      · rw [hk, beq_self_eq_true]; rfl
      · rw [beq_eq_false_iff_ne.2 hk, beq_eq_false_iff_ne.2 (Ne.symm hk)]
  exact h Kind.all

theorem table_find? (name : String) :
    (NodeType.table.find? fun t => t.name == name) = (Kind.ofName? name).map NodeType.ofKind :=
  List.find?_map

/-- a constructor is building nodes of the kind of its name -/
theorem constructor_eq (name : String) : constructor name = (Kind.ofName name).map build := by
  rw [constructor, constructors_lookup, Kind.ofName]
  cases Kind.ofName? name <;> rfl

/-- building through the node type of a name is building nodes of its kind -/
theorem find_eq (name : String) : (NodeType.find name).map NodeType.build = (Kind.ofName name).map build := by
  rw [NodeType.find, table_find?, Kind.ofName]
  cases Kind.ofName? name <;> rfl

/-- **Building is the schema.** A node is built exactly from fields that the schema of its kind takes, and stores those
that are not null, in schema order. Otherwise the first declared field that is missing or refused is told, and only if
there is none, the first undeclared name. The order of supply matters to neither success nor the node; and by name, the
kind, the constructor and the node type all build alike, or are all unknown. -/
theorem build_follows_schema :
    (∀ (kind : Kind) (supplied : Fields),
      (∀ n, build kind supplied = .ok n ↔ kind.Takes supplied ∧ n = ⟨kind, supplied.stored kind.schema⟩) ∧
      (∀ e, build kind supplied = .error e ↔ kind.Blames supplied e) ∧
      ∀ supplied' : Fields, supplied.entries.Perm supplied'.entries →
        ∀ n, build kind supplied = .ok n ↔ build kind supplied' = .ok n) ∧
    (FieldFault.message .missing = "required field is missing" ∧ Value.display .null = "null" ∧
      (∀ m, FieldFault.message (.mismatch m) = "expected " ++ m.text) ∧
      FieldFault.message .undeclared = "unknown field") ∧
    ∀ name : String, constructor name = (Kind.ofName name).map build ∧
      (NodeType.find name).map NodeType.build = (Kind.ofName name).map build := by
  refine ⟨fun kind supplied => ?_, ⟨rfl, rfl, fun _ => rfl, rfl⟩, fun name => ⟨constructor_eq name, find_eq name⟩⟩
  refine ⟨fun n => build_ok_iff_takes, fun e => build_error_iff_blames, fun supplied' hp n => ?_⟩
  exact ⟨build_of_perm hp, build_of_perm hp.symm⟩

/-- fields of an assignment, first to last or last to first, with a null for a flag -/
def toneFields (back : Bool) : List (String × Value) :=
  let fields := [("id", .node .identifier [("name", .string "tone")]), ("global", .null),
    ("init", .node .sassColor [("value", .string "teal")])]
  if back then fields.reverse else fields

/-- both orders give one node, without the null; a name that is not declared is told only if nothing else is wrong -/
theorem toneFields_built :
    ((Fields.ofList (toneFields false)).entries.Perm (Fields.ofList (toneFields true)).entries ∧
      build .assignment (.ofList (toneFields true)) =
        .ok ⟨.assignment, [("id", .node .identifier [("name", .string "tone")]),
          ("init", .node .sassColor [("value", .string "teal")])]⟩) ∧
    build .assignment (.ofList (("tint", .null) :: toneFields true)) = .error ⟨.assignment, "tint", .null, .undeclared⟩ ∧
    build .assignment (.ofList [("tint", .null), ("id", .string "tone")]) =
      .error ⟨.assignment, "id", .string "tone", .mismatch (.expected "Identifier")⟩ := by
  have hperm : (Fields.ofList (toneFields false)).entries.Perm (Fields.ofList (toneFields true)).entries :=
    (List.reverse_perm _).symm
  have hbuilt := ((build_follows_schema.1 .assignment (.ofList (toneFields false))).2.2 _ hperm _).1 rfl
  exact ⟨⟨hperm, hbuilt⟩, rfl, rfl⟩

end StyleTree
