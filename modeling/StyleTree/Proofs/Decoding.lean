/-
Where decoding fails. A kind is looked at on the way into an object and a schema on the way out, so the fault that is
reported is neither the outermost nor the innermost one: it is the first that decoding comes to.

`Leads j path target` says that a path leads from `j` to `target` without meeting a fault before it: every object that
it leaves has a kind that is known, and whatever stands in front of it, at every level, decodes. `OwnFault` is what can
be wrong with an object itself: it has no kind, a kind that is unknown, or members that decode and build no node.

- `decodeItems_eq_ok`, `decodeMembers_eq_ok`, `assemble_eq_ok`: arrays and objects decode part by part;
- `decodeValue_eq_error`: a value fails exactly if a path leads to an object with a fault of its own, and the error is
  that path and that fault;
- `Leads.unique`: there is at most one such path.
-/
import Mathlib.Data.List.Forall2
import StyleTree.Json.Tree
import StyleTree.Proofs.Validity

namespace StyleTree

/-! ## Names of kinds -/

theorem Kind.ofName_name (k : Kind) : Kind.ofName k.name = .ok k := by
  cases k <;> rfl

theorem Kind.ofName_eq_ok {name : String} {k : Kind} : Kind.ofName name = .ok k ↔ name = k.name := by
  constructor
  · intro h
    unfold Kind.ofName at h
    split at h
    · rename_i k' hk
      cases h
      have hname := List.find?_some hk
      exact (eq_of_beq hname).symm
    · cases h
  · rintro rfl
    exact Kind.ofName_name k

theorem Kind.name_injective {k l : Kind} (h : k.name = l.name) : k = l := by
  have hk := Kind.ofName_name k
  rw [h, Kind.ofName_name l] at hk
  cases hk; rfl

theorem Kind.ofName_eq_error {name : String} {e : UnknownKind} :
    Kind.ofName name = .error e ↔ e = ⟨name⟩ ∧ ∀ k : Kind, k.name ≠ name := by
  constructor
  · intro h
    refine ⟨?_, fun k hk => ?_⟩
    · unfold Kind.ofName at h
      split at h <;> cases h
      rfl
    · rw [← hk, Kind.ofName_name] at h
      cases h
  · rintro ⟨rfl, hk⟩
    cases h : Kind.ofName name with
    | ok k => exact absurd (Kind.ofName_eq_ok.1 h).symm (hk k)
    | error e =>
      unfold Kind.ofName at h
      split at h <;> cases h
      rfl

namespace Json

/-- induction over a JSON value: through the items of arrays and the members of objects -/
theorem induct {P : Json → Prop} (null : P .null) (bool : ∀ b, P (.bool b)) (number : ∀ x, P (.number x))
    (string : ∀ s, P (.string s)) (array : ∀ items, (∀ j ∈ items, P j) → P (.array items))
    (object : ∀ members, (∀ m ∈ members, P m.2) → P (.object members)) (j : Json) : P j :=
  @Json.rec P (fun items => ∀ j ∈ items, P j) (fun members => ∀ m ∈ members, P m.2) (fun m => P m.2)
    null bool number string array object (by simp) (fun _ _ hj hjs => List.forall_mem_cons.2 ⟨hj, hjs⟩)
    (by simp) (fun _ _ hm hms => List.forall_mem_cons.2 ⟨hm, hms⟩) (fun _ _ hj => hj) j

/-! ## What decodes -/

/-- the value decodes to something -/
def Decodes (j : Json) : Prop := ∃ v, decodeValue j = .ok v

/-- the members of an object that are fields -/
def fieldMembers (members : List (String × Json)) : List (String × Json) := members.filter fun m => m.1 ≠ "kind"

/-- a member decodes to a field: the same name, and the value it describes -/
def FieldOf (m : String × Json) (f : String × Value) : Prop := f.1 = m.1 ∧ decodeValue m.2 = .ok f.2

/-- **Arrays decode item by item.** -/
theorem decodeItems_eq_ok {js : List Json} {vs : List Value} (i : Nat) :
    decodeItems i js = .ok vs ↔ List.Forall₂ (fun j v => decodeValue j = .ok v) js vs := by
  induction js generalizing i vs with
  | nil =>
    rw [decodeItems, List.forall₂_nil_left_iff, Except.ok.injEq]
    exact eq_comm
  | cons j js ih =>
    rw [decodeItems, List.forall₂_cons_left_iff]
    cases hj : decodeValue j with
    | error e => simp [under]
    | ok v =>
      simp only [under]
      cases hjs : decodeItems (i + 1) js with
      | error e =>
        simp only [reduceCtorEq, false_iff, not_exists, not_and]
        intro w ws _ hws
        rw [(ih (i + 1)).2 hws] at hjs
        cases hjs
      | ok vs' =>
        rw [Except.ok.injEq]
        constructor
        · rintro rfl
          exact ⟨v, vs', rfl, (ih (i + 1)).1 hjs, rfl⟩
        · rintro ⟨w, ws, hw, hws, rfl⟩
          rw [(ih (i + 1)).2 hws] at hjs
          cases hw; cases hjs; rfl

/-- **Objects decode member by member.** -/
theorem decodeMembers_eq_ok {members : List (String × Json)} {fields : List (String × Value)} :
    decodeMembers members = .ok fields ↔ List.Forall₂ FieldOf (fieldMembers members) fields := by
  induction members generalizing fields with
  | nil =>
    rw [decodeMembers, fieldMembers, List.filter_nil, List.forall₂_nil_left_iff, Except.ok.injEq]
    exact eq_comm
  | cons m rest ih =>
    obtain ⟨name, j⟩ := m
    rw [decodeMembers]
    by_cases hn : name = "kind"
    · rw [if_pos hn, ih]
      simp [fieldMembers, hn]
    · have hcons : fieldMembers ((name, j) :: rest) = (name, j) :: fieldMembers rest := by simp [fieldMembers, hn]
      rw [if_neg hn, hcons, List.forall₂_cons_left_iff]
      cases hj : decodeValue j with
      | error e => simp [under, FieldOf, hj]
      | ok v =>
        simp only [under]
        cases hr : decodeMembers rest with
        | error e =>
          simp only [reduceCtorEq, false_iff, not_exists, not_and]
          intro f fs _ hfs
          rw [ih.2 hfs] at hr
          cases hr
        | ok fields' =>
          rw [Except.ok.injEq]
          constructor
          · rintro rfl
            exact ⟨(name, v), fields', ⟨rfl, hj⟩, ih.1 hr, rfl⟩
          · rintro ⟨⟨name', w⟩, fs, ⟨hname, hw⟩, hfs, rfl⟩
            rw [ih.2 hfs] at hr
            rw [hj] at hw
            cases hname; cases hw; cases hr; rfl

/-- a node comes from an object whose kind is known and whose fields build it -/
theorem assemble_eq_ok {members : List (String × Json)} {decoded : Except TreeError (List (String × Value))}
    {n : Node} : assemble members decoded = .ok n ↔
      members.lookup "kind" = some (.string n.kind.name) ∧
        ∃ fields, decoded = .ok fields ∧ build n.kind (Fields.ofList fields) = .ok n := by
  constructor
  · intro h
    unfold assemble at h
    split at h
    · rename_i name hname
      split at h
      · cases h
      · rename_i kind hkind
        split at h
        · cases h
        · rename_i fields
          split at h
          · cases h
          · rename_i m hb
            cases h
            obtain rfl := (build_ok hb).1
            rw [Kind.ofName_eq_ok] at hkind
            exact ⟨by rw [hname, hkind], fields, rfl, hb⟩
    · cases h
  · rintro ⟨hname, fields, rfl, hb⟩
    simp only [assemble, hname, Kind.ofName_name, hb]

/-! ## Faults -/

/-- what is wrong with an object itself -/
inductive OwnFault (members : List (String × Json)) : TreeFault → Prop
  /-- it has no kind, or one that is not a text -/
  | noKind (h : ∀ name, members.lookup "kind" ≠ some (.string name)) : OwnFault members .noKind
  /-- its kind is the name of none -/
  | unknownKind {name : String} (h : members.lookup "kind" = some (.string name))
      (hk : ∀ k : Kind, k.name ≠ name) : OwnFault members (.unknownKind ⟨name⟩)
  /-- its kind is known and all its fields decode, but they build no node -/
  | schema {kind : Kind} {fields : List (String × Value)} {e : SchemaError}
      (h : members.lookup "kind" = some (.string kind.name))
      (hf : List.Forall₂ FieldOf (fieldMembers members) fields)
      (hb : build kind (Fields.ofList fields) = .error e) : OwnFault members (.schema e)

/-- the path leads from the first value to the second, and nothing in front of it is at fault -/
inductive Leads : Json → List Step → Json → Prop
  | here (j : Json) : Leads j [] j
  /-- out of an object of a known kind, by a field; the fields before it decode -/
  | member {kind : Kind} {before after : List (String × Json)} {name : String} {j target : Json} {path : List Step}
      (hk : (before ++ (name, j) :: after).lookup "kind" = some (.string kind.name)) (hn : name ≠ "kind")
      (hb : ∀ m ∈ before, m.1 ≠ "kind" → Decodes m.2) (h : Leads j path target) :
      Leads (.object (before ++ (name, j) :: after)) (.member name :: path) target
  /-- out of an array, by an item; the items before it decode -/
  | item {before after : List Json} {j target : Json} {path : List Step}
      (hb : ∀ b ∈ before, Decodes b) (h : Leads j path target) :
      Leads (.array (before ++ j :: after)) (.index before.length :: path) target

/-- the error that a part is told of, seen from the whole -/
def TreeError.at (step : Step) (e : TreeError) : TreeError := ⟨step :: e.path, e.fault⟩

/-- an array fails at its first item that does not decode -/
theorem decodeItems_eq_error {js : List Json} {e : TreeError} (i : Nat) :
    decodeItems i js = .error e ↔ ∃ before j after e', js = before ++ j :: after ∧ (∀ b ∈ before, Decodes b) ∧
      decodeValue j = .error e' ∧ e = e'.at (.index (i + before.length)) := by
  induction js generalizing i with
  | nil => simp [decodeItems]
  | cons j js ih =>
    rw [decodeItems]
    constructor
    · intro h
      cases hj : decodeValue j with
      | error e' =>
        simp only [hj, under, Except.error.injEq] at h
        exact ⟨[], j, js, e', rfl, by simp, hj, h.symm⟩
      | ok v =>
        simp only [hj, under] at h
        cases hjs : decodeItems (i + 1) js with
        | ok vs => simp [hjs] at h
        | error e'' =>
          simp only [hjs, Except.error.injEq] at h
          subst h
          obtain ⟨before, j', after, e', rfl, hb, he, rfl⟩ := (ih (i + 1)).1 hjs
          refine ⟨j :: before, j', after, e', rfl, List.forall_mem_cons.2 ⟨⟨v, hj⟩, hb⟩, he, ?_⟩
          rw [List.length_cons, Nat.add_assoc, Nat.add_comm 1]
    · rintro ⟨before, j', after, e', hjs, hb, he, rfl⟩
      cases before with
      | nil =>
        obtain ⟨rfl, rfl⟩ := List.cons.inj hjs
        simp [he, under, TreeError.at]
      | cons b before =>
        obtain ⟨rfl, rfl⟩ := List.cons.inj hjs
        obtain ⟨⟨v, hv⟩, hb⟩ := List.forall_mem_cons.1 hb
        have hi : i + (j :: before).length = i + 1 + before.length := by rw [List.length_cons]; omega
        have hrest := (ih (i + 1)).2 ⟨before, j', after, e', rfl, hb, he, by rw [hi]⟩
        simp only [hv, under, hrest]

/-- the members of an object fail at the first field that does not decode -/
theorem decodeMembers_eq_error {members : List (String × Json)} {e : TreeError} :
    decodeMembers members = .error e ↔ ∃ before name j after e', members = before ++ (name, j) :: after ∧
      name ≠ "kind" ∧ (∀ m ∈ before, m.1 ≠ "kind" → Decodes m.2) ∧ decodeValue j = .error e' ∧
      e = e'.at (.member name) := by
  induction members with
  | nil => simp [decodeMembers]
  | cons m rest ih =>
    obtain ⟨name, j⟩ := m
    rw [decodeMembers]
    constructor
    · intro h
      by_cases hn : name = "kind"
      · rw [if_pos hn] at h
        obtain ⟨before, name', j', after, e', rfl, hn', hb, he, rfl⟩ := ih.1 h
        exact ⟨(name, j) :: before, name', j', after, e', rfl, hn',
          List.forall_mem_cons.2 ⟨fun hne => absurd hn hne, hb⟩, he, rfl⟩
      · rw [if_neg hn] at h
        cases hj : decodeValue j with
        | error e' =>
          simp only [hj, under, Except.error.injEq] at h
          exact ⟨[], name, j, rest, e', rfl, hn, by simp, hj, h.symm⟩
        | ok v =>
          simp only [hj, under] at h
          cases hr : decodeMembers rest with
          | ok fields => simp [hr] at h
          | error e'' =>
            simp only [hr, Except.error.injEq] at h
            subst h
            obtain ⟨before, name', j', after, e', rfl, hn', hb, he, rfl⟩ := ih.1 hr
            exact ⟨(name, j) :: before, name', j', after, e', rfl, hn',
              List.forall_mem_cons.2 ⟨fun _ => ⟨v, hj⟩, hb⟩, he, rfl⟩
    · rintro ⟨before, name', j', after, e', hm, hn', hb, he, rfl⟩
      cases before with
      | nil =>
        obtain ⟨hfirst, rfl⟩ := List.cons.inj hm
        cases hfirst
        simp [hn', he, under, TreeError.at]
      | cons b before =>
        obtain ⟨rfl, rfl⟩ := List.cons.inj hm
        obtain ⟨hfirst, hb⟩ := List.forall_mem_cons.1 hb
        have hrest := ih.2 ⟨before, name', j', after, e', rfl, hn', hb, he, rfl⟩
        by_cases hn : name = "kind"
        · rw [if_pos hn, hrest]
        · obtain ⟨v, hv⟩ := hfirst hn
          simp only [if_neg hn, hv, under, hrest]

/-- an object fails by a fault of its own, or, if its kind is known, with its members -/
theorem assemble_eq_error {members : List (String × Json)} {e : TreeError} :
    assemble members (decodeMembers members) = .error e ↔
      (e.path = [] ∧ OwnFault members e.fault) ∨
        ∃ kind : Kind, members.lookup "kind" = some (.string kind.name) ∧ decodeMembers members = .error e := by
  constructor
  · intro h
    unfold assemble at h
    split at h
    · rename_i name hname
      split at h
      · rename_i u hu
        cases h
        obtain ⟨rfl, hk⟩ := Kind.ofName_eq_error.1 hu
        exact Or.inl ⟨rfl, .unknownKind hname hk⟩
      · rename_i kind hkind
        rw [Kind.ofName_eq_ok.1 hkind] at hname
        split at h
        · rename_i e' he
          cases h
          exact Or.inr ⟨kind, hname, he⟩
        · rename_i fields hf
          split at h
          · rename_i s hb
            cases h
            exact Or.inl ⟨rfl, .schema hname (decodeMembers_eq_ok.1 hf) hb⟩
          · cases h
    · rename_i hno
      cases h
      exact Or.inl ⟨rfl, .noKind hno⟩
  · obtain ⟨path, fault⟩ := e
    rintro (⟨rfl, hown⟩ | ⟨kind, hname, he⟩)
    · cases hown with
      | noKind h =>
        unfold assemble
        split
        · rename_i name hname
          exact absurd hname (h name)
        · rfl
      | @unknownKind name h hk => simp only [assemble, h, Kind.ofName_eq_error.2 ⟨rfl, hk⟩]
      | schema h hf hb => simp only [assemble, h, Kind.ofName_name, decodeMembers_eq_ok.2 hf, hb]
    · simp only [assemble, hname, Kind.ofName_name, he]

theorem decodeValue_object_eq_error {members : List (String × Json)} {e : TreeError} :
    decodeValue (.object members) = .error e ↔ assemble members (decodeMembers members) = .error e := by
  rw [decodeValue]
  cases assemble members (decodeMembers members) <;> simp

theorem decodeValue_array_eq_error {items : List Json} {e : TreeError} :
    decodeValue (.array items) = .error e ↔ decodeItems 0 items = .error e := by
  rw [decodeValue]
  cases decodeItems 0 items <;> simp

/-- **The fault that is reported.** A value fails exactly if a path leads to an object with a fault of its own. -/
theorem decodeValue_eq_error (j : Json) (e : TreeError) :
    decodeValue j = .error e ↔ ∃ members, Leads j e.path (.object members) ∧ OwnFault members e.fault := by
  constructor
  · -- by induction on the value: an array or object passes on the error of one of its parts
    induction j using Json.induct generalizing e with
    | array items ih =>
      intro h
      rw [decodeValue_array_eq_error, decodeItems_eq_error] at h
      obtain ⟨before, j, after, e', rfl, hb, he, rfl⟩ := h
      obtain ⟨members, hl, ho⟩ := ih j (by simp) e' he
      refine ⟨members, ?_, ho⟩
      rw [Nat.zero_add]
      exact .item hb hl
    | object members ih =>
      intro h
      rw [decodeValue_object_eq_error, assemble_eq_error] at h
      rcases h with ⟨hpath, hown⟩ | ⟨kind, hk, he⟩
      · exact ⟨members, by rw [hpath]; exact .here _, hown⟩
      · obtain ⟨before, name, j, after, e', rfl, hn, hb, hj, rfl⟩ := decodeMembers_eq_error.1 he
        obtain ⟨inner, hl, ho⟩ := ih (name, j) (by simp) e' hj
        exact ⟨inner, .member hk hn hb hl, ho⟩
    | _ => intro h; rw [decodeValue] at h; cases h
  · rintro ⟨members, hl, ho⟩
    -- by induction on the path: each step hands the error on and puts itself in front
    obtain ⟨path, fault⟩ := e
    dsimp only at hl ho
    generalize htarget : Json.object members = target at hl
    induction hl with
    | here j =>
      subst htarget
      rw [decodeValue_object_eq_error, assemble_eq_error]
      exact Or.inl ⟨rfl, ho⟩
    | @member kind before after name j target path hk hn hb _ ih =>
      rw [decodeValue_object_eq_error, assemble_eq_error]
      exact Or.inr ⟨kind, hk, decodeMembers_eq_error.2 ⟨before, name, j, after, _, rfl, hn, hb, ih htarget, rfl⟩⟩
    | @item before after j target path hb _ ih =>
      rw [decodeValue_array_eq_error, decodeItems_eq_error]
      refine ⟨before, j, after, _, rfl, hb, ih htarget, ?_⟩
      rw [Nat.zero_add]; rfl

/-- two cuts of a list at the first element that fails a test are the same cut -/
theorem first_split_unique {α : Type} {Q : α → Prop} {before before' after after' : List α} {x x' : α}
    (h : before ++ x :: after = before' ++ x' :: after') (hb : ∀ b ∈ before, Q b) (hx : ¬ Q x)
    (hb' : ∀ b ∈ before', Q b) (hx' : ¬ Q x') : before = before' ∧ x = x' ∧ after = after' := by
  induction before generalizing before' with
  | nil =>
    cases before' with
    | nil =>
      obtain ⟨rfl, rfl⟩ := List.cons.inj h
      exact ⟨rfl, rfl, rfl⟩
    | cons b before' =>
      obtain ⟨rfl, -⟩ := List.cons.inj h
      exact absurd (hb' x List.mem_cons_self) hx
  | cons b before ih =>
    cases before' with
    | nil =>
      obtain ⟨rfl, -⟩ := List.cons.inj h
      exact absurd (hb b List.mem_cons_self) hx'
    | cons b' before' =>
      obtain ⟨rfl, htail⟩ := List.cons.inj h
      obtain ⟨rfl, rest⟩ := ih htail (fun c hc => hb c (List.mem_cons_of_mem _ hc))
        (fun c hc => hb' c (List.mem_cons_of_mem _ hc))
      exact ⟨rfl, rest⟩

/-- a path to a fault starts at a value that does not decode -/
theorem Leads.not_decodes {j : Json} {path : List Step} {members : List (String × Json)} {fault : TreeFault}
    (h : Leads j path (.object members)) (ho : OwnFault members fault) : ¬ Decodes j := by
  rintro ⟨v, hv⟩
  rw [(decodeValue_eq_error j ⟨path, fault⟩).2 ⟨members, h, ho⟩] at hv
  cases hv

/-- the object at the end of a path to a fault -/
theorem Leads.target_unique {j : Json} {path : List Step} {members members' : List (String × Json)}
    {fault fault' : TreeFault} (h : Leads j path (.object members)) (ho : OwnFault members fault)
    (h' : Leads j path (.object members')) (ho' : OwnFault members' fault') : members = members' := by
  generalize htarget : Json.object members = target at h
  induction h with
  | here j =>
    subst htarget
    cases h'
    rfl
  | @member kind before after name j target path hk hn hb h ih =>
    subst htarget
    generalize hj : Json.object (before ++ (name, j) :: after) = whole at h'
    cases h' with
    | @member kind' before' after' _ j' _ _ hk' hn' hb' h' =>
      obtain ⟨-, hj, -⟩ := first_split_unique (Json.object.inj hj) hb (fun hq => h.not_decodes ho (hq hn)) hb'
        fun hq => h'.not_decodes ho' (hq hn)
      cases hj
      exact ih h' rfl
  | @item before after j target path hb h ih =>
    subst htarget
    generalize hj : Json.array (before ++ j :: after) = whole at h'
    generalize hi : before.length = i at h'
    cases h' with
    | @item before' after' j' _ _ hb' h' =>
      obtain ⟨-, rfl, -⟩ := first_split_unique (Json.array.inj hj) hb (h.not_decodes ho) hb' (h'.not_decodes ho')
      exact ih h' rfl

/-- **One path to the fault.** Two paths that lead to a fault are the same, and so are their ends and the faults. -/
theorem Leads.unique {j : Json} {path path' : List Step} {members members' : List (String × Json)}
    {fault fault' : TreeFault} (h : Leads j path (.object members)) (ho : OwnFault members fault)
    (h' : Leads j path' (.object members')) (ho' : OwnFault members' fault') :
    path = path' ∧ members = members' ∧ fault = fault' := by
  have he := (decodeValue_eq_error j ⟨path, fault⟩).2 ⟨members, h, ho⟩
  rw [(decodeValue_eq_error j ⟨path', fault'⟩).2 ⟨members', h', ho'⟩] at he
  cases he
  exact ⟨rfl, h.target_unique ho h' ho', rfl⟩

/-! ## Trees -/

theorem decode_object_eq_error {members : List (String × Json)} {e : TreeError} :
    decode (.object members) = .error e ↔ decodeValue (.object members) = .error e := by
  rw [decode, decodeValue_object_eq_error]

/-- **Errors point at the first fault.** An object fails to decode exactly if a path leads from it, past members and
items that all decode and out of objects whose kinds are known, to an object that has no kind, an unknown one, or
members that build no node; that fault and that path are the error, and there is only one such path. The path is shown
from the root, a name behind a point and a position in brackets. Anything but an object fails at the root. -/
theorem decode_first_fault :
    (∀ (members : List (String × Json)) (e : TreeError), decode (.object members) = .error e ↔
      ∃ inner, Leads (.object members) e.path (.object inner) ∧ OwnFault inner e.fault) ∧
    (∀ (members : List (String × Json)) (path path' : List Step) (inner inner' : List (String × Json))
      (fault fault' : TreeFault), Leads (.object members) path (.object inner) → OwnFault inner fault →
      Leads (.object members) path' (.object inner') → OwnFault inner' fault' →
      path = path' ∧ inner = inner' ∧ fault = fault') ∧
    (∀ path : List Step, pathText path = "$" ++ String.join (path.map fun
      | .member name => "." ++ name
      | .index i => "[" ++ Nat.repr i ++ "]")) ∧
    ∀ j : Json, (∀ members, j ≠ .object members) → decode j = .error ⟨[], .rootNotNode⟩ := by
  refine ⟨fun members e => ?_, fun members path path' inner inner' fault fault' h ho h' ho' => h.unique ho h' ho',
    fun path => ?_, fun j hj => ?_⟩
  · rw [decode_object_eq_error, decodeValue_eq_error]
  · have hstep : Step.text = fun
        | .member name => "." ++ name
        | .index i => "[" ++ Nat.repr i ++ "]" := by
      funext step
      cases step <;> rfl
    rw [pathText, hstep]
  · cases j with
    | object members => exact absurd rfl (hj members)
    | _ => rfl

/-- a rule with a member that no rule has, holding a node of a kind that does not exist -/
def oddRule : List (String × Json) :=
  [("kind", .string "Rule"), ("odd", .object [("kind", .string "Nope")]), ("selectors", .number ⟨0⟩)]

/-- a sheet with a blank line and the rule -/
def oddSheet : List (String × Json) :=
  [("children", .array [.object [("kind", .string "Newline")], .object oddRule]), ("kind", .string "StyleSheet")]

/-- the unknown kind is reported, although the rule has a member too many and bad selectors; no other path leads to a
fault -/
theorem oddSheet_fault :
    decode (.object oddSheet) =
      .error ⟨[.member "children", .index 1, .member "odd"], .unknownKind ⟨"Nope"⟩⟩ ∧
    ∀ path inner fault, Leads (.object oddSheet) path (.object inner) → OwnFault inner fault →
      path = [.member "children", .index 1, .member "odd"] := by
  have hodd : Leads (.object oddRule) [.member "odd"] (.object [("kind", .string "Nope")]) :=
    @Leads.member .rule [("kind", .string "Rule")] [("selectors", .number ⟨0⟩)] "odd" _ _ _ rfl (by decide)
      (fun m hm hn => absurd (congrArg Prod.fst (List.mem_singleton.1 hm)) hn) (.here _)
  have hitem : Leads (.array [.object [("kind", .string "Newline")], .object oddRule])
      [.index 1, .member "odd"] (.object [("kind", .string "Nope")]) :=
    @Leads.item [.object [("kind", .string "Newline")]] [] _ _ _
      (fun b hb => by rw [List.mem_singleton.1 hb]; exact ⟨_, rfl⟩) hodd
  have hlead : Leads (.object oddSheet) [.member "children", .index 1, .member "odd"]
      (.object [("kind", .string "Nope")]) :=
    @Leads.member .styleSheet [] [("kind", .string "StyleSheet")] "children" _ _ _ rfl (by decide) nofun hitem
  have hown : OwnFault [("kind", .string "Nope")] (.unknownKind ⟨"Nope"⟩) :=
    .unknownKind rfl fun k => by cases k <;> decide
  refine ⟨(decode_first_fault.1 oddSheet _).2 ⟨_, hlead, hown⟩, fun path inner fault h ho => ?_⟩
  exact (decode_first_fault.2.1 oddSheet _ _ _ _ _ _ h ho hlead hown).1

end Json

end StyleTree
