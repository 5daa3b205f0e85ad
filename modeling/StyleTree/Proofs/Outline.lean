/-
Leaves and outlines. The leaves of a tree are the texts in it that come from outside, as they are written: names,
numbers, selectors, operators, comments, quoted literals in their quotes, and booleans where they are spelled out. The
outline is the rest: kinds, stored fields, flags, list lengths, and which sort of scalar stands where. Every tree is
its outline and its leaves.

- `leaves_length`: how many leaves a tree has is part of its outline;
- `halt?_outline`: so is whether it can be written, and where it stops;
- `holds_outline`, `visibleNodes_outline`: with leaves that are clean, so is every condition that writing looks at.
-/
import StyleTree.Proofs.Offence
import StyleTree.Proofs.Template

namespace StyleTree

open Emission

/-! ## Leaves -/

/-- the kinds that write their booleans as words -/
def Kind.spells : Kind → Bool
  | .sassBoolean | .sassValue => true
  | _ => false

/-- the fields that are written as quoted literals -/
def Kind.quotes : Kind → String → Bool
  | .sassString, field => field == "value"
  | .sassImport, field | .sassModule, field => field == "path"
  | _, _ => false

mutual

/-- the texts in a value as they are written, first to last; its own texts in quotes, or its booleans as words, if so -/
def Value.leaves (quotes spells : Bool) : Value → List String
  | .null => []
  | .bool b => if spells then [boolText b] else []
  | .number x => [x.cssText]
  | .string s => [if quotes then Text.quoted s else s]
  | .node kind fields => fieldLeaves kind fields
  | .list items => itemLeaves quotes spells items

def Value.itemLeaves (quotes spells : Bool) : List Value → List String
  | [] => []
  | v :: vs => v.leaves quotes spells ++ itemLeaves quotes spells vs

def Value.fieldLeaves (kind : Kind) : List (String × Value) → List String
  | [] => []
  | (name, v) :: rest => v.leaves (kind.quotes name) kind.spells ++ fieldLeaves kind rest

end

/-- the leaves of a field -/
def Kind.fieldLeaves (kind : Kind) (name : String) (v : Value) : List String := v.leaves (kind.quotes name) kind.spells

/-- the leaves of a tree, in stored order -/
def Node.leaves (n : Node) : List String := n.fields.flatMap fun e => n.kind.fieldLeaves e.1 e.2

/-- what stands for a text in an outline is clean -/
theorem clean_placeholder : Clean "_" := ⟨by decide, by decide, by decide⟩

/-! ## Outlines -/

mutual

/-- a value with a placeholder for each of its leaves -/
def Value.outline (spells : Bool) : Value → Value
  | .null => .null
  | .bool b => .bool (b || spells)
  | .number _ => .number ⟨0⟩
  | .string _ => .string "_"
  | .node kind fields => .node kind (fieldOutlines kind.spells fields)
  | .list items => .list (itemOutlines spells items)

def Value.itemOutlines (spells : Bool) : List Value → List Value
  | [] => []
  | v :: vs => v.outline spells :: itemOutlines spells vs

def Value.fieldOutlines (spells : Bool) : List (String × Value) → List (String × Value)
  | [] => []
  | (name, v) :: rest => (name, v.outline spells) :: fieldOutlines spells rest

end

/-- a tree with a placeholder for each of its leaves -/
def Node.outline (n : Node) : Node := ⟨n.kind, n.fields.map fun e => (e.1, e.2.outline n.kind.spells)⟩

/-! ## Leaves and outlines, constructor by constructor -/

namespace Value

variable (quotes spells : Bool)

@[simp] theorem leaves_null : Value.null.leaves quotes spells = [] := by rw [leaves]

@[simp] theorem leaves_bool (b : Bool) : (Value.bool b).leaves quotes spells = if spells then [boolText b] else [] := by
  rw [leaves]

@[simp] theorem leaves_number (x : Double) : (Value.number x).leaves quotes spells = [x.cssText] := by rw [leaves]

@[simp] theorem leaves_string (t : String) :
    (Value.string t).leaves quotes spells = [if quotes then Text.quoted t else t] := by rw [leaves]

@[simp] theorem leaves_list (items : List Value) :
    (Value.list items).leaves quotes spells = items.flatMap (leaves quotes spells) := by
  have h : ∀ vs, itemLeaves quotes spells vs = vs.flatMap (leaves quotes spells) := by
    intro vs
    induction vs with
    | nil => rfl
    | cons v vs ih => rw [itemLeaves, ih, List.flatMap_cons]
  rw [leaves, h]

@[simp] theorem leaves_node (k : Kind) (fs : List (String × Value)) :
    (Value.node k fs).leaves quotes spells = Node.leaves ⟨k, fs⟩ := by
  have h : ∀ gs, fieldLeaves k gs = gs.flatMap fun e => k.fieldLeaves e.1 e.2 := by
    intro gs
    induction gs with
    | nil => rfl
    | cons e gs ih => obtain ⟨name, v⟩ := e; rw [fieldLeaves, ih, List.flatMap_cons]; rfl
  rw [leaves, h]; rfl

@[simp] theorem outline_null : Value.null.outline spells = .null := by rw [outline]

@[simp] theorem outline_bool (b : Bool) : (Value.bool b).outline spells = .bool (b || spells) := by rw [outline]

@[simp] theorem outline_number (x : Double) : (Value.number x).outline spells = .number ⟨0⟩ := by rw [outline]

@[simp] theorem outline_string (t : String) : (Value.string t).outline spells = .string "_" := by rw [outline]

@[simp] theorem outline_list (items : List Value) :
    (Value.list items).outline spells = .list (items.map (outline spells)) := by
  have h : ∀ vs, itemOutlines spells vs = vs.map (outline spells) := by
    intro vs
    induction vs with
    | nil => rfl
    | cons v vs ih => rw [itemOutlines, ih, List.map_cons]
  rw [outline, h]

@[simp] theorem outline_node (k : Kind) (fs : List (String × Value)) :
    (Value.node k fs).outline spells = (Node.outline ⟨k, fs⟩).toValue := by
  have h : ∀ gs, fieldOutlines k.spells gs = gs.map fun e => (e.1, e.2.outline k.spells) := by
    intro gs
    induction gs with
    | nil => rfl
    | cons e gs ih => obtain ⟨name, v⟩ := e; rw [fieldOutlines, ih, List.map_cons]
  rw [outline, h]; rfl

end Value

@[simp] theorem Node.outline_kind (n : Node) : n.outline.kind = n.kind := rfl

theorem Node.get?_outline (n : Node) (name : String) :
    n.outline.get? name = (n.get? name).map (Value.outline n.kind.spells) := by
  unfold Node.get? Node.outline
  induction n.fields with
  | nil => rfl
  | cons e fs ih =>
    obtain ⟨field, v⟩ := e
    simp only [List.map_cons, List.lookup_cons]
    cases name == field with
    | true => rfl
    | false => exact ih

/-- how many leaves there are is part of the outline -/
theorem leaves_length (v : Value) :
    ∀ quotes spells, ((v.outline spells).leaves quotes spells).length = (v.leaves quotes spells).length := by
  induction v using Value.induct with
  | node k fs ih =>
    intro quotes spells
    simp only [Value.outline_node, Node.toValue, Value.leaves_node, Node.leaves, Node.outline, List.flatMap_map,
      List.length_flatMap]
    exact congrArg List.sum (List.map_congr_left fun e he => ih e he (k.quotes e.1) k.spells)
  | list items ih =>
    intro quotes spells
    simp only [Value.outline_list, Value.leaves_list, List.flatMap_map, List.length_flatMap]
    exact congrArg List.sum (List.map_congr_left fun v hv => ih v hv quotes spells)
  | bool b => intro quotes spells; cases spells <;> simp
  | _ => intro quotes spells; simp

theorem Node.leaves_length (n : Node) : n.outline.leaves.length = n.leaves.length := by
  have h := StyleTree.leaves_length n.toValue false false
  rwa [Node.toValue, Value.outline_node, Node.toValue, Value.leaves_node, Value.leaves_node] at h

/-! ## Stops of an outline -/

theorem top_outline (v : Value) : ∀ spells, (v.outline spells).top = v.top.map Node.outline := by
  induction v using Value.induct with
  | list items ih =>
    intro spells
    simp only [Value.outline_list, Value.top_list, List.flatMap_map, List.map_flatMap]
    exact List.flatMap_congr fun v hv => ih v hv spells
  | _ => intro spells; simp

theorem children_outline (n : Node) : n.outline.children = n.children.map Node.outline := by
  simp only [Node.children, Node.outline, List.flatMap_map, List.map_flatMap]
  exact List.flatMap_congr fun e _ => top_outline e.2 n.kind.spells

theorem offence?_outline (n : Node) : n.outline.offence? = n.offence? := by
  unfold Node.offence?
  rw [n.get?_outline, n.outline_kind]
  cases n.get? "value" with
  | none => rfl
  | some v => cases v <;> simp [Node.toValue]

/-- whether and where writing stops is part of the outline -/
theorem halt?_outline (n : Node) : n.outline.halt? = n.halt? := by
  induction n using Node.induct with
  | step n ih =>
    have ho := offence?_outline n
    cases h : n.offence? with
    | none =>
      rw [h] at ho
      have hc : n.children.findSome? (Node.halt? ∘ Node.outline) = n.children.findSome? Node.halt? := by
        rw [← List.head?_filterMap, ← List.head?_filterMap]
        exact congrArg List.head? (List.filterMap_congr ih)
      rw [Node.halt?_of_children ho, Node.halt?_of_children h, children_outline, List.findSome?_map, hc]; rfl
    | some k =>
      rw [h] at ho
      rw [Node.halt?_of_offence ho, Node.halt?_of_offence h]; rfl

/-! ## Conditions of writing -/

/-- literals are what is quoted; a flag is not spelled, and a text that may be left out for being empty is not quoted -/
def Emission.Element.keepsLeaves (k : Kind) (e : Element) : Bool :=
  (match e.part with
    | .field name style => (style == .literal) == k.quotes name
    | _ => true) &&
  match e.guard with
    | .flag _ => !k.spells
    | .filled name => !k.quotes name
    | _ => true

theorem format_keepsLeaves (k : Kind) : ∀ e ∈ k.format, e.keepsLeaves k = true := by
  rw [← List.all_eq_true]
  cases k <;> rfl

theorem field_quotes {k : Kind} {e : Element} (he : e ∈ k.format) {name : String} {style : Style}
    (hp : e.part = .field name style) : k.quotes name = true ↔ style = .literal := by
  have h := format_keepsLeaves k e he
  simp only [Element.keepsLeaves, hp, Bool.and_eq_true, beq_iff_eq] at h
  rw [← h.1, beq_iff_eq]

/-- the leaves of a stored field are leaves of the node -/
theorem mem_leaves {n : Node} {name : String} {v : Value} (hg : n.get? name = some v) {l : String}
    (hl : l ∈ n.kind.fieldLeaves name v) : l ∈ n.leaves :=
  List.mem_flatMap.2 ⟨(name, v), mem_of_lookup hg, hl⟩

/-- a text that is written unquoted is a leaf -/
theorem clean_text {n : Node} (hc : ∀ l ∈ n.leaves, Clean l) {name : String} {t : String}
    (hg : n.get? name = some (.string t)) (hq : n.kind.quotes name = false) : Clean t := by
  refine hc t (mem_leaves hg ?_)
  simp [Kind.fieldLeaves, hq]

/-- a guard reads the outline -/
theorem holds_outline {n : Node} (hc : ∀ l ∈ n.leaves, Clean l) {e : Element} (he : e ∈ n.kind.format) :
    e.guard.holds n.outline.site = e.guard.holds n.site := by
  have hk := format_keepsLeaves n.kind e he
  rw [Element.keepsLeaves, Bool.and_eq_true] at hk
  replace hk := hk.2
  have hget : ∀ name, n.outline.site.get? name =
      (n.get? name).map fun v => piece (contextIn n.kind name) (v.outline n.kind.spells) := by
    intro name
    rw [site_get?, n.get?_outline, Option.map_map]; rfl
  cases hg : e.guard with
  | always => rfl
  | flag f =>
    rw [hg] at hk
    have hs : n.kind.spells = false := by simpa using hk
    rw [holds_flag, holds_flag, Site.flag, Site.flag, hget, site_get?]
    cases n.get? f with
    | none => rfl
    | some v =>
      cases v with
      | bool b => simp [piece, hs]
      | node k fs => simp [Node.toValue, piece]
      | _ => simp [piece]
  | given f =>
    rw [holds_given, holds_given, hget, site_get?]
    cases n.get? f <;> rfl
  | filled f =>
    rw [hg] at hk
    have hq : n.kind.quotes f = false := by simpa using hk
    rw [Guard.holds, Guard.holds, hget, site_get?]
    cases hv : n.get? f with
    | none => rfl
    | some v =>
      cases v with
      | string t =>
        have ht : t.isEmpty = false := (clean_text hc hv hq).isEmpty
        simp [piece_string, ht, clean_placeholder.isEmpty]
      | list items => simp [piece_list]
      | node k fs => simp [Node.toValue, piece]
      | _ => simp [piece]

theorem isSilent_outline {n : Node} (hc : ∀ l ∈ n.leaves, Clean l) :
    isSilent n.outline.kind n.outline.fields = isSilent n.kind n.fields := by
  by_cases hk : n.kind = .comment
  · have hget : n.outline.fields.lookup "value" = (n.fields.lookup "value").map (Value.outline n.kind.spells) :=
      n.get?_outline "value"
    rw [isSilent, isSilent, hget, n.outline_kind]
    cases hv : n.fields.lookup "value" with
    | none => rfl
    | some v =>
      cases v with
      | string t =>
        have ht : t.isEmpty = false := (clean_text hc hv (by rw [hk]; rfl)).isEmpty
        simp [ht, clean_placeholder.isEmpty]
      | node k fs => simp [Node.toValue]
      | _ => simp
  · have hne : (n.kind == .comment) = false := by simpa using hk
    rw [isSilent, isSilent, n.outline_kind, hne]; rfl

/-- which statements of a body are written is part of the outline -/
theorem visibleNodes_outline {ns : List Node} (hc : ∀ m ∈ ns, ∀ l ∈ m.leaves, Clean l) :
    (visibleNodes ns).map Node.outline = visibleNodes (ns.map Node.outline) := by
  have hfilter : (ns.map Node.outline).filter (fun m => !isSilent m.kind m.fields) =
      (ns.filter fun m => !isSilent m.kind m.fields).map Node.outline := by
    rw [List.filter_map]
    refine congrArg (List.map Node.outline) (List.filter_congr fun m hm => ?_)
    rw [Function.comp_apply, isSilent_outline (hc m hm)]
  rw [visibleNodes, visibleNodes, hfilter, List.rdropWhile, List.rdropWhile, ← List.map_reverse, List.dropWhile_map,
    ← List.map_reverse]
  rfl

/-- a flag is no leaf -/
theorem flag_leaves {k : Kind} {spec : FieldSpec} (hs : spec ∈ k.schema) (hf : spec.isFlag = true) (b : Bool) :
    k.fieldLeaves spec.name (.bool b) = [] := by
  have hall : ∀ k : Kind, k.schema.all (fun spec => !spec.isFlag || !k.spells) = true := by
    intro k
    cases k <;> rfl
  have h := List.all_eq_true.1 (hall k) spec hs
  rw [hf, Bool.not_true, Bool.false_or, Bool.not_eq_true'] at h
  rw [Kind.fieldLeaves, Value.leaves_bool, h]; rfl

/-- the leaves of a valid node, element by element -/
theorem leaves_eq {n : Node} (hv : n.Valid) :
    n.leaves = n.kind.format.flatMap (Element.read n n.kind.fieldLeaves) :=
  fields_flatMap hv n.kind.fieldLeaves fun _ hs hf b => flag_leaves hs hf b

/-- a silent comment has no leaves -/
theorem leaves_of_silent {n : Node} (hv : n.Valid) (hc : ∀ l ∈ n.leaves, Clean l)
    (hs : isSilent n.kind n.fields = true) : n.leaves = [] := by
  rw [isSilent, Bool.and_eq_true] at hs
  obtain ⟨hk, hs⟩ := hs
  replace hk : n.kind = .comment := eq_of_beq hk
  have he : Element.field "value" .lines ∈ n.kind.format := by rw [hk]; exact .head _
  cases hg : n.get? "value" with
  | none => rw [leaves_eq hv, hk]; simp [Kind.format, Element.read, Element.field?, Element.field, hg]
  | some v =>
    obtain ⟨t, rfl⟩ := fits_of_valid hv he rfl hg
    have ht := (clean_text hc hg (by rw [hk]; rfl)).isEmpty
    rw [Node.get?] at hg
    rw [hg] at hs
    exact absurd (ht.symm.trans hs) (by decide)

theorem leaves_of_newline {n : Node} (hv : n.Valid) (hk : n.kind = .newline) : n.leaves = [] := by
  rw [leaves_eq hv, hk]; rfl

/-- what is dropped from a body has no leaves -/
theorem visibleNodes_leaves {ns : List Node} (hv : ∀ m ∈ ns, m.Valid) (hc : ∀ m ∈ ns, ∀ l ∈ m.leaves, Clean l) :
    ns.flatMap Node.leaves = (visibleNodes ns).flatMap Node.leaves :=
  visibleNodes_flatMap (fun m hm hs => leaves_of_silent (hv m hm) (hc m hm) hs)
    fun m hm hk => leaves_of_newline (hv m hm) hk

end StyleTree
