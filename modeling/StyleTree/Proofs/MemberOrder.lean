/-
The order of members. Two JSON values that differ in the order of members only, at whatever depth, describe the same
tree or none. Decoding goes through members in their order and stops at the first fault, so which fault is told does
depend on the order; but whether there is one does not, and building puts the fields of every node in schema order.

A value decodes to the valid trees whose encodings it pares down to, so it is enough that paring down does not see the
order (`Reordered.pares`). It was never asked to keep it.

- `Reordered.symm`, `Reordered.distinct`: being equal up to order goes both ways, and keeps names apart;
- `member_order_irrelevant`: the same tree, hence the same text; and an example of two different faults.
-/
import StyleTree.Generator
import StyleTree.Proofs.Faithful

namespace StyleTree.Json

/-! ## Equal up to the order of members -/

/-- the same value, but for the order of members in its objects -/
inductive Reordered : Json → Json → Prop
  | null : Reordered .null .null
  | bool (b : Bool) : Reordered (.bool b) (.bool b)
  | number (x : Double) : Reordered (.number x) (.number x)
  | string (s : String) : Reordered (.string s) (.string s)
  | array {items items' : List Json} (h : List.Forall₂ Reordered items items') :
      Reordered (.array items) (.array items')
  /-- the members are moved first, then each of them is reordered in its place -/
  | object {members moved members' : List (String × Json)} (hp : members.Perm moved)
      (hn : Assoc.names moved = Assoc.names members')
      (hv : List.Forall₂ Reordered (moved.map Prod.snd) (members'.map Prod.snd)) :
      Reordered (.object members) (.object members')

/-- members of the same name whose values are equal up to order -/
def Moved (m m' : String × Json) : Prop := m'.1 = m.1 ∧ Reordered m.2 m'.2

theorem reordered_object {members members' : List (String × Json)} :
    Reordered (.object members) (.object members') ↔
      ∃ moved, members.Perm moved ∧ List.Forall₂ Moved moved members' := by
  constructor
  · intro h
    cases h with
    | object hp hn hv => exact ⟨_, hp, forall₂_named.1 ⟨hn, hv⟩⟩
  · rintro ⟨moved, hp, hrow⟩
    obtain ⟨hn, hv⟩ := forall₂_named.2 hrow
    exact .object hp hn hv

/-- rows that go with one row, item by item, go with each other -/
theorem forall₂_through {α β γ : Type} {R : α → β → Prop} {S : α → γ → Prop} {T : β → γ → Prop} {l : List α}
    {m : List β} {n : List γ} (h : ∀ a ∈ l, ∀ b c, R a b → S a c → T b c) (hm : List.Forall₂ R l m)
    (hn : List.Forall₂ S l n) : List.Forall₂ T m n := by
  induction hm generalizing n with
  | nil =>
    cases hn
    exact .nil
  | cons hab _ ih =>
    cases hn with
    | cons hac htail =>
      obtain ⟨ha, hl⟩ := List.forall_mem_cons.1 h
      exact .cons (ha _ _ hab hac) (ih hl htail)

theorem Reordered.symm (j : Json) : ∀ {j'}, Reordered j j' → Reordered j' j := by
  induction j using Json.induct with
  | array items ih =>
    intro j' h
    cases h with
    | array h =>
      have hback := (forall₂_with ih (fun _ _ => trivial) h).imp fun j k hjk => hjk.1 hjk.2.2
      exact .array hback.flip
  | object members ih =>
    intro j' h
    cases j' with
    | object members' =>
      obtain ⟨moved, hp, hrow⟩ := reordered_object.1 h
      obtain ⟨w, hw, hwp⟩ := List.perm_comp_forall₂ hp hrow
      have hback : List.Forall₂ (flip Moved) members w :=
        (forall₂_with ih (fun _ _ => trivial) hw).imp fun m m' hmm => ⟨hmm.2.2.1.symm, hmm.1 hmm.2.2.2⟩
      exact reordered_object.2 ⟨w, hwp.symm, hback.flip⟩
    | _ => cases h
  | _ =>
    intro j' h
    cases h
    constructor

/-- moving members keeps names apart -/
theorem Reordered.distinct {j : Json} (hj : j.Distinct) : ∀ {j'}, Reordered j j' → j'.Distinct := by
  induction hj with
  | array _ ih =>
    intro j' h
    cases h with
    | array h => exact .array (forall_mem_right h fun j hj k hk => ih j hj hk)
  | @object members hd _ ih =>
    intro j' h
    cases j' with
    | object members' =>
      obtain ⟨moved, hp, hrow⟩ := reordered_object.1 h
      obtain ⟨hn, -⟩ := forall₂_named.2 hrow
      refine .object ?_ (forall_mem_right hrow fun m hm k hk => ih m (hp.mem_iff.2 hm) hk.2)
      rw [← hn]
      exact (hp.map Prod.fst).nodup hd
    | _ => cases h
  | _ =>
    intro j' h
    cases h
    constructor

/-! ## Paring down does not see the order -/

/-- the kind of an object is told wherever it stands -/
theorem kind_moved {moved members' : List (String × Json)} (hrow : List.Forall₂ Moved moved members')
    (hd : (Assoc.names members').Nodup) {name : String} (hk : ("kind", .string name) ∈ moved) :
    members'.lookup "kind" = some (.string name) := by
  have hpartner := forall_mem_right (forall₂_with (fun _ _ => trivial) (fun _ h => h) hrow).flip
    (Q := fun m => ∃ m' ∈ members', Moved m m') fun m' _ m hm => ⟨m', hm.2.1, hm.2.2⟩
  obtain ⟨⟨n, v⟩, hm', hname, hvalue⟩ := hpartner _ hk
  cases hname
  cases hvalue
  exact (lookup_eq_some_iff hd).2 hm'

/-- an object whose members do not see the order does not see it either -/
theorem object_pares {members moved members' : List (String × Json)} (hmove : members.Perm moved)
    (hrow : List.Forall₂ Moved moved members') (hd : (Assoc.names members').Nodup)
    (ih : ∀ m ∈ members, ∀ j' k, Reordered m.2 j' → Pares m.2 k → Pares j' k) {k : Json}
    (h : Pares (.object members) k) : Pares (.object members') k := by
  cases h with
  | @object kind _ kept dropped ks hk hp hdrop hn hv =>
    -- the members of the second object, in the order in which those of the first are kept and dropped
    obtain ⟨w, hw, hwp⟩ := List.perm_comp_forall₂ (hp.symm.trans hmove) hrow
    obtain ⟨kept', dropped', rfl, hkept, hdropped⟩ := forall₂_append_right (R := flip Moved) hw.flip
    have hdrop' : ∀ m ∈ dropped', m.2 = .null ∧ ∃ spec ∈ kind.schema, spec.name = m.1 ∧ spec.optional = true := by
      refine forall_mem_right hdropped.flip fun d hmem m hm => ?_
      obtain ⟨hnull, hspec⟩ := hdrop d hmem
      obtain ⟨name, v⟩ := m
      obtain ⟨hname, hvalue⟩ := hm
      rw [hnull] at hvalue
      cases hname
      cases hvalue
      exact ⟨rfl, hspec⟩
    have hpared : List.Forall₂ (fun m k => k.1 = m.1 ∧ Pares m.2 k.2) kept' ks := by
      refine forall₂_through (fun m hmem m' k hm hk => ?_) hkept.flip (forall₂_named.1 ⟨hn, hv⟩)
      have hin : m ∈ members := hp.mem_iff.2 (List.mem_append_left _ hmem)
      exact ⟨hk.1.trans hm.1.symm, ih m hin m'.2 k.2 hm.2 hk.2⟩
    obtain ⟨hnames, hvalues⟩ := forall₂_named.2 hpared
    have hkind := kind_moved hrow hd (hmove.mem_iff.1 (mem_of_lookup hk))
    exact .object hkind hwp.symm hdrop' hnames hvalues

/-- **The order of members is not seen.** What one of two reordered values pares down to, the other does too. -/
theorem Reordered.pares {j : Json} (hj : j.Distinct) : ∀ j' k, Reordered j j' → Pares j k → Pares j' k := by
  induction hj with
  | array _ ih =>
    intro j' k h hp
    cases h with
    | array h =>
      cases hp with
      | array hp => exact .array (forall₂_through ih h hp)
  | object hd hm ih =>
    intro j' k h hp
    have hj' := Reordered.distinct (.object hd hm) h
    cases hj' with
    | object hd' _ =>
      obtain ⟨moved, hmove, hrow⟩ := reordered_object.1 h
      exact object_pares hmove hrow hd' ih hp
    | _ => cases h
  | _ =>
    intro j' k h hp
    cases h
    exact hp

/-! ## Decoding -/

theorem decode_reordered {j j' : Json} (hj : j.Distinct) (h : Reordered j j') {n : Node} (hn : decode j = .ok n) :
    decode j' = .ok n := by
  obtain ⟨hv, hp⟩ := (decode_eq_ok_iff hj).1 hn
  exact (decode_eq_ok_iff (h.distinct hj)).2 ⟨hv, h.pares hj j' _ hp⟩

/-- an object with two members that describe no node -/
def twoFaults (first second : String) : Json :=
  .object [(first, .object []), (second, .object []), ("kind", .string "StyleSheet")]

theorem twoFaults_reordered (first second : String) : Reordered (twoFaults first second) (twoFaults second first) := by
  have hempty : Reordered (.object []) (.object []) := .object .nil rfl .nil
  exact .object (.swap _ _ _) rfl (.cons hempty (.cons hempty (.cons (.string _) .nil)))

/-- **The order of members is irrelevant.** Of two JSON values that are equal up to the order of members, and in whose
objects no name stands twice, either both decode or none does; then they decode to the same tree, and rendering gives
the same in every unit. What may depend on the order is which fault is told. -/
theorem member_order_irrelevant :
    (∀ j j' : Json, j.Distinct → Reordered j j' →
      (∀ n, decode j = .ok n ↔ decode j' = .ok n) ∧
      ∀ (parent : Option Node) (indent : String) (r : Except RenderError String),
        (∃ n, decode j = .ok n ∧ render n parent indent = r) ↔ ∃ n, decode j' = .ok n ∧ render n parent indent = r) ∧
    ∃ j j' e e', j.Distinct ∧ Reordered j j' ∧ decode j = .error e ∧ decode j' = .error e' ∧ e ≠ e' := by
  refine ⟨fun j j' hj h => ?_, ?_⟩
  · have hsame : ∀ n, decode j = .ok n ↔ decode j' = .ok n :=
      fun n => ⟨decode_reordered hj h, decode_reordered (h.distinct hj) h.symm⟩
    exact ⟨hsame, fun parent indent r => exists_congr fun n => and_congr_left' (hsame n)⟩
  · have hdistinct : (twoFaults "a" "b").Distinct := by
      refine .object (by decide) ?_
      simpa using ⟨Distinct.object List.nodup_nil nofun, Distinct.string "StyleSheet"⟩
    exact ⟨twoFaults "a" "b", twoFaults "b" "a", ⟨[.member "a"], .noKind⟩, ⟨[.member "b"], .noKind⟩, hdistinct,
      twoFaults_reordered "a" "b", rfl, rfl, by simp⟩

/-- a list of one name, kinds first -/
def nameList : Json :=
  .object [("kind", .string "SassList"),
    ("elements", .array [.object [("kind", .string "Identifier"), ("name", .string "a")]])]

/-- the same list, kinds last -/
def nameListBack : Json :=
  .object [("elements", .array [.object [("name", .string "a"), ("kind", .string "Identifier")]]),
    ("kind", .string "SassList")]

/-- both describe one tree -/
theorem nameList_order :
    nameList.Distinct ∧ Reordered nameList nameListBack ∧
    decode nameListBack = .ok ⟨.sassList, [("elements", .list [.node .identifier [("name", .string "a")]])]⟩ := by
  have hdistinct : nameList.Distinct := by
    have hname : Distinct (.object [("kind", .string "Identifier"), ("name", .string "a")]) :=
      .object (by decide) (by simpa using ⟨Distinct.string "Identifier", Distinct.string "a"⟩)
    refine .object (by decide) ?_
    simpa using ⟨Distinct.string "SassList", Distinct.array (by simpa using hname)⟩
  have hmoved : Reordered nameList nameListBack := by
    have hname : Reordered (.object [("kind", .string "Identifier"), ("name", .string "a")])
        (.object [("name", .string "a"), ("kind", .string "Identifier")]) :=
      .object (.swap _ _ _) rfl (.cons (.string _) (.cons (.string _) .nil))
    exact .object (.swap _ _ _) rfl (.cons (.array (.cons hname .nil)) (.cons (.string _) .nil))
  exact ⟨hdistinct, hmoved, ((member_order_irrelevant.1 nameList nameListBack hdistinct hmoved).1 _).1 rfl⟩

end StyleTree.Json
