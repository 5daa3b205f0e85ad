/-
What shapes accept, and what they say when they refuse. A shape accepts a value by its own structure: a union if one of
its alternatives does, a list shape a list of items that its item shape accepts, a deferred shape what its family does.
So it makes no difference how the alternatives of a union are arranged, at any depth of a shape (`Rearranged`).

A refusal tells where the fault is. `Blames s v path t w` says that from the shape `s` and the value `v` the positions of
`path` lead to a shape `t` which refuses the value `w` itself, and not one of its elements. The way goes through lists
and deferred shapes and always to the first element that is refused, but never into a union: whatever the alternatives
of a union have to complain about, it is the union that refuses.

- `check_of_blames`: along such a way, the complaint of the shape at its end is passed up with the positions;
- `blames_of_refused`: for every value that is refused there is such a way;
- `Blames.unique`: and only one;
- `refusals_blame_first_fault`: acceptance by structure, and the text of every refusal.
-/
import StyleTree.Proofs.Decoding
import StyleTree.Proofs.NormalForm

namespace StyleTree.Shape

/-! ## Acceptance -/

theorem admitsAny_kinds (kinds : List Kind) (v : Value) : admitsAny (kinds.map .kind) v = isNodeOf kinds v := by
  induction kinds with
  | nil => cases v <;> rfl
  | cons k kinds ih =>
    have hfirst : ((kind k).check v).isOk = isNodeOf [k] v := admits_kind k v
    rw [List.map_cons, admitsAny, ih, hfirst]
    cases v with
    | node l fs => simp [isNodeOf]
    | _ => rfl

/-- a deferred shape answers for its family -/
theorem check_deferred (label : String) (f : Family) (v : Value) : (deferred label f).check v = f.shape.check v := by
  rw [check, Family.shape, check, admitsAny_kinds]

theorem check_eq_ok_iff {s : Shape} {v : Value} : s.check v = .ok () ↔ s.admits v = true := by
  refine ⟨fun h => ?_, check_of_admits⟩
  rw [admits, h]
  rfl

theorem admits_oneOf_iff {alternatives : List Shape} {v : Value} :
    (oneOf alternatives).admits v = true ↔ ∃ s ∈ alternatives, s.admits v = true := by
  rw [admits_oneOf, List.any_eq_true]

theorem admits_listOf_iff {item : Shape} {v : Value} :
    (listOf item).admits v = true ↔ ∃ vs, v = .list vs ∧ ∀ w ∈ vs, item.admits w = true := by
  refine ⟨admits_listOf, ?_⟩
  rintro ⟨vs, rfl, hvs⟩
  rw [admits_list, List.all_eq_true]
  exact hvs

/-! ## Rearranged unions -/

/-- the shapes are the same but for their unions, anywhere in them: alternatives may stand in another order and more than
once, and a union among them may be replaced by its own alternatives -/
inductive Rearranged : Shape → Shape → Prop
  | refl (s : Shape) : Rearranged s s
  | symm {s t : Shape} (h : Rearranged s t) : Rearranged t s
  | trans {s t u : Shape} (h : Rearranged s t) (h' : Rearranged t u) : Rearranged s u
  | members {ss ts : List Shape} (h : ∀ s, s ∈ ss ↔ s ∈ ts) : Rearranged (.oneOf ss) (.oneOf ts)
  | dissolved (before inner after : List Shape) :
      Rearranged (.oneOf (before ++ .oneOf inner :: after)) (.oneOf (before ++ inner ++ after))
  | alternative {s t : Shape} (before after : List Shape) (h : Rearranged s t) :
      Rearranged (.oneOf (before ++ s :: after)) (.oneOf (before ++ t :: after))
  | item {s t : Shape} (h : Rearranged s t) : Rearranged (.listOf s) (.listOf t)

/-- **Arrangement does not matter.** -/
theorem Rearranged.admits_iff {s t : Shape} (h : Rearranged s t) (v : Value) :
    s.admits v = true ↔ t.admits v = true := by
  induction h generalizing v with
  | refl s => exact Iff.rfl
  | symm _ ih => exact (ih v).symm
  | trans _ _ ih ih' => exact (ih v).trans (ih' v)
  | members h =>
    rw [admits_oneOf_iff, admits_oneOf_iff]
    exact exists_congr fun s => and_congr_left fun _ => h s
  | dissolved before inner after =>
    simp only [admits_oneOf_iff, List.mem_append, List.mem_cons, or_and_right, exists_or, exists_eq_left, or_assoc]
  | alternative before after _ ih =>
    simp only [admits_oneOf_iff, List.mem_append, List.mem_cons, or_and_right, exists_or, exists_eq_left, ih v]
  | item _ ih =>
    rw [admits_listOf_iff, admits_listOf_iff]
    exact exists_congr fun vs => and_congr_right fun _ => forall₂_congr fun w _ => ih w

/-! ## Refusals -/

/-- the shape refuses the value itself, and not because of an element; what is deferred is settled first -/
structure Refuses (s : Shape) (v : Value) : Prop where
  refused : s.admits v = false
  settled : ∀ label f, s ≠ .deferred label f
  whole : ∀ item vs, s = .listOf item → v ≠ .list vs

/-- the way from a shape and a value to the fault: at each list to its first element that is refused -/
inductive Blames : Shape → Value → List Nat → Shape → Value → Prop
  | here {s : Shape} {v : Value} (h : Refuses s v) : Blames s v [] s v
  | family {label : String} {f : Family} {v w : Value} {path : List Nat} {t : Shape}
      (h : Blames f.shape v path t w) : Blames (.deferred label f) v path t w
  | element {item t : Shape} {before after : List Value} {v w : Value} {path : List Nat}
      (hb : ∀ u ∈ before, item.admits u = true) (h : Blames item v path t w) :
      Blames (.listOf item) (.list (before ++ v :: after)) (before.length :: path) t w

/-- the complaint of a shape, with the positions on the way to it -/
def complaint (path : List Nat) (t : Shape) : Mismatch := path.foldr .element (.expected t.describe)

theorem complaint_text (path : List Nat) (t : Shape) :
    (complaint path t).text =
      String.join (path.map fun i => "element " ++ Nat.repr i ++ " to be ") ++ t.describe := by
  induction path with
  | nil => exact String.empty_append.symm
  | cons i path ih =>
    have htext : (complaint (i :: path) t).text = "element " ++ Nat.repr i ++ " to be " ++ (complaint path t).text := rfl
    rw [htext, ih, List.map_cons, String.join_cons]
    simp only [String.append_assoc]

/-- a list is refused for its first element that is -/
theorem checkItems_eq_error {check : Value → Except Mismatch Unit} {vs : List Value} {m : Mismatch} (i : Nat) :
    checkItems check i vs = .error m ↔ ∃ before v after m', vs = before ++ v :: after ∧
      (∀ u ∈ before, check u = .ok ()) ∧ check v = .error m' ∧ m = .element (i + before.length) m' := by
  induction vs generalizing i with
  | nil => simp [checkItems]
  | cons v vs ih =>
    rw [checkItems]
    constructor
    · intro h
      cases hv : check v with
      | error m' =>
        simp only [hv, Except.error.injEq] at h
        exact ⟨[], v, vs, m', rfl, by simp, hv, h.symm⟩
      | ok u =>
        simp only [hv] at h
        obtain ⟨before, w, after, m', rfl, hb, hw, rfl⟩ := (ih (i + 1)).1 h
        refine ⟨v :: before, w, after, m', rfl, List.forall_mem_cons.2 ⟨hv, hb⟩, hw, ?_⟩
        rw [List.length_cons, Nat.add_assoc, Nat.add_comm 1]
    · rintro ⟨before, w, after, m', hvs, hb, hw, rfl⟩
      cases before with
      | nil =>
        obtain ⟨rfl, rfl⟩ := List.cons.inj hvs
        simp [hw]
      | cons u before =>
        obtain ⟨rfl, rfl⟩ := List.cons.inj hvs
        obtain ⟨hv, hb⟩ := List.forall_mem_cons.1 hb
        have hi : i + (v :: before).length = i + 1 + before.length := by rw [List.length_cons]; omega
        rw [hv]
        exact (ih (i + 1)).2 ⟨before, w, after, m', rfl, hb, hw, by rw [hi]⟩

/-- a shape that refuses a value itself asks for what it describes -/
theorem check_of_refuses {s : Shape} {v : Value} (h : Refuses s v) : s.check v = .error (.expected s.describe) := by
  have hrequire : ∀ (test : Bool) (d : String), (require test d).isOk = false →
      require test d = .error (.expected d) := by
    intro test d hd
    rw [require_isOk] at hd
    rw [require, hd]
    rfl
  have hrefused := h.refused
  cases s with
  | any => cases hrefused
  | primitive p => exact hrequire _ _ hrefused
  | kind k => exact hrequire _ _ hrefused
  | node => exact hrequire _ _ hrefused
  | oneOf ss => exact hrequire _ _ hrefused
  | listOf item =>
    cases v with
    | list vs => exact absurd rfl (h.whole item vs rfl)
    | _ => rfl
  | deferred label f => exact absurd rfl (h.settled label f)

/-- **The complaint comes from the end of the way.** -/
theorem check_of_blames {s t : Shape} {v w : Value} {path : List Nat} (h : Blames s v path t w) :
    s.check v = .error (complaint path t) := by
  induction h with
  | here h => exact check_of_refuses h
  | family _ ih => rw [check_deferred, ih]
  | @element item t before after v w path hb _ ih =>
    rw [check, checkItems_eq_error]
    exact ⟨before, v, after, _, rfl, fun u hu => check_of_admits (hb u hu), ih, by rw [Nat.zero_add]; rfl⟩

/-- **Every refusal has its fault.** -/
theorem blames_of_refused (s : Shape) : ∀ v, s.admits v = false → ∃ path t w, Blames s v path t w := by
  induction s using Shape.induct with
  | listOf item ih =>
    intro v h
    by_cases hlist : ∃ vs, v = .list vs
    · obtain ⟨vs, rfl⟩ := hlist
      rw [admits, check] at h
      cases hc : checkItems (fun v => item.check v) 0 vs with
      | ok u =>
        rw [hc] at h
        cases h
      | error m =>
        obtain ⟨before, v, after, m', rfl, hb, hv, -⟩ := (checkItems_eq_error 0).1 hc
        have hrefused : item.admits v = false := by rw [admits, hv]; rfl
        obtain ⟨path, t, w, hblames⟩ := ih v hrefused
        exact ⟨_, t, w, .element (fun u hu => check_eq_ok_iff.1 (hb u hu)) hblames⟩
    · refine ⟨[], _, v, .here ⟨h, fun label f hs => ?_, fun item' vs _ hv => hlist ⟨vs, hv⟩⟩⟩
      cases hs
  | deferred label f =>
    intro v h
    rw [admits, check_deferred] at h
    refine ⟨[], f.shape, v, .family (.here ⟨h, fun label f' hs => ?_, fun item vs hs => ?_⟩)⟩
    · cases hs
    · cases hs
  | _ =>
    intro v h
    refine ⟨[], _, v, .here ⟨h, fun label f hs => ?_, fun item vs hs => ?_⟩⟩
    · cases hs
    · cases hs

theorem Blames.refused {s t : Shape} {v w : Value} {path : List Nat} (h : Blames s v path t w) :
    s.admits v = false := by
  rw [admits, check_of_blames h]
  rfl

/-- **There is one fault.** -/
theorem Blames.unique {s t t' : Shape} {v w w' : Value} {path path' : List Nat} (h : Blames s v path t w)
    (h' : Blames s v path' t' w') : path' = path ∧ t' = t ∧ w' = w := by
  induction h generalizing path' with
  | here h =>
    cases h' with
    | here _ => exact ⟨rfl, rfl, rfl⟩
    | family _ => exact absurd rfl (h.settled _ _)
    | element _ _ => exact absurd rfl (h.whole _ _ rfl)
  | family _ ih =>
    cases h' with
    | here h' => exact absurd rfl (h'.settled _ _)
    | family h' => exact ih h'
  | @element item t before after v w path hb h ih =>
    generalize hv : Value.list (before ++ v :: after) = whole at h'
    cases h' with
    | here h' => exact absurd hv.symm (h'.whole _ _ rfl)
    | element hb' h' =>
      have hrefused := h.refused
      have hrefused' := h'.refused
      obtain ⟨rfl, rfl, -⟩ := Json.first_split_unique (Value.list.inj hv) hb (by simp [hrefused]) hb'
        (by simp [hrefused'])
      obtain ⟨rfl, rfl, rfl⟩ := ih h'
      exact ⟨rfl, rfl, rfl⟩

/-- **Shapes accept by structure and blame the first fault.** A union accepts what some alternative accepts, so shapes
that differ only in the arrangement of unions accept the same values; a list shape accepts the lists of what its item
shape accepts; a deferred shape accepts what its family does. A value is refused just if there is a way to a fault in
it. Then there is only one, and the message has the positions on the way, each as an element that should be something
else, and what the shape at the end of it describes. -/
theorem refusals_blame_first_fault (s : Shape) (v : Value) :
    (∀ alternatives, (oneOf alternatives).admits v = true ↔ ∃ a ∈ alternatives, a.admits v = true) ∧
    (∀ t, Rearranged s t → (t.admits v = true ↔ s.admits v = true)) ∧
    ((listOf s).admits v = true ↔ ∃ vs, v = .list vs ∧ ∀ w ∈ vs, s.admits w = true) ∧
    (∀ label f, (deferred label f).admits v = true ↔ f.shape.admits v = true) ∧
    (s.admits v = true ↔ s.check v = .ok ()) ∧
    (s.admits v = false ↔ ∃ path t w, Blames s v path t w) ∧
    (∀ path t w, Blames s v path t w →
      (∃ m, s.check v = .error m ∧
        m.text = String.join (path.map fun i => "element " ++ Nat.repr i ++ " to be ") ++ t.describe) ∧
      ∀ path' t' w', Blames s v path' t' w' → path' = path ∧ t' = t ∧ w' = w) := by
  refine ⟨fun _ => admits_oneOf_iff, fun t h => (h.admits_iff v).symm, admits_listOf_iff, fun label f => ?_,
    check_eq_ok_iff.symm, ⟨blames_of_refused s v, ?_⟩, fun path t w h => ⟨⟨_, check_of_blames h, ?_⟩, ?_⟩⟩
  · rw [admits, admits, check_deferred]
  · rintro ⟨path, t, w, h⟩
    exact h.refused
  · exact complaint_text path t
  · intro path' t' w' h'
    exact h.unique h'

/-- lists of lists of parameters -/
def paramLists : Shape := .listOf (.listOf (.deferred "parameter" .param))

/-- two lists of parameters, of which the second ends in a text -/
def paramNames : Value :=
  .list [.list [.node .identifier []], .list [.node .restPattern [], .string "b"], .string "c"]

/-- the text is blamed, by its positions and with the kinds that it could have; the string after its list is not -/
theorem paramNames_blamed :
    Blames paramLists paramNames [1, 1] Family.param.shape (.string "b") ∧
    (∃ m, paramLists.check paramNames = .error m ∧
      m.text = "element 1 to be element 1 to be Identifier | AssignmentPattern | RestPattern") ∧
    Rearranged (.oneOf [.oneOf [.node, .any], .node]) (.oneOf [.any, .node]) ∧
    ((oneOf [.any, .node]).admits paramNames = true ↔
      (oneOf [.oneOf [.node, .any], .node]).admits paramNames = true) := by
  have hfault : Refuses Family.param.shape (.string "b") := ⟨by decide, nofun, nofun⟩
  have hinner : Blames (.listOf (.deferred "parameter" .param)) (.list [.node .restPattern [], .string "b"]) [1]
      Family.param.shape (.string "b") :=
    @Blames.element _ _ [.node .restPattern []] [] _ _ _ (by decide) (.family (.here hfault))
  have hway : Blames paramLists paramNames [1, 1] Family.param.shape (.string "b") :=
    @Blames.element _ _ [.list [.node .identifier []]] [.string "c"] _ _ _ (by decide) hinner
  have hunions : Rearranged (.oneOf [.oneOf [.node, .any], .node]) (.oneOf [.any, .node]) :=
    .trans (.dissolved [] [.node, .any] [.node]) (.members (by simp))
  obtain ⟨-, -, -, -, -, -, hmessage⟩ := refusals_blame_first_fault paramLists paramNames
  obtain ⟨-, hsame, -⟩ := refusals_blame_first_fault (.oneOf [.oneOf [.node, .any], .node]) paramNames
  exact ⟨hway, (hmessage _ _ _ hway).1, hunions, hsame _ hunions⟩

end StyleTree.Shape
