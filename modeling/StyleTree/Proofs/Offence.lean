/-
What cannot be written. The schema lets a declaration have any node as its value, but only calls can be written there.
Of everything in a valid tree this is the only thing that writing refuses, and it refuses the first such declaration.

`Node.occurrences` lists the nodes of a tree in preorder, children in stored order, each with the kinds on the way
down to it. `Node.halt?` is the first of them that offends, as the stop of a run.

- `script_nested`: the script of a valid node is nested and stops exactly at its first offence;
- `render_eq`: so a valid tree is rendered, or refused with that offence and the path down to it, whatever the parent
  and the indentation.
-/
import StyleTree.Proofs.Nesting
import StyleTree.Proofs.Routine

namespace StyleTree

open Emission

/-! ## Occurrences -/

/-- a node in a tree, with the kinds from the root down to it -/
structure Occurrence where
  path : List Kind
  node : Node
deriving Repr

mutual

/-- the nodes of a value in preorder, below the given kinds -/
def Value.occurrences (above : List Kind) : Value → List Occurrence
  | .null | .bool _ | .number _ | .string _ => []
  | .node kind fields => ⟨above ++ [kind], ⟨kind, fields⟩⟩ :: fieldOccurrences (above ++ [kind]) fields
  | .list items => itemOccurrences above items

def Value.itemOccurrences (above : List Kind) : List Value → List Occurrence
  | [] => []
  | v :: vs => v.occurrences above ++ itemOccurrences above vs

def Value.fieldOccurrences (above : List Kind) : List (String × Value) → List Occurrence
  | [] => []
  | (_, v) :: rest => v.occurrences above ++ fieldOccurrences above rest

end

/-- the nodes of a tree in preorder, the root first -/
def Node.occurrences (n : Node) : List Occurrence := n.toValue.occurrences []

/-- a declaration offends by a value that is a node and no call; the kind of that value -/
def Node.offence? (n : Node) : Option Kind :=
  if n.kind = .declaration then
    match n.get? "value" with
    | some (.node k _) => if isCall k then none else some k
    | _ => none
  else none

/-- where and why a run stops at an occurrence that offends -/
def Occurrence.halt? (o : Occurrence) : Option Halt :=
  o.node.offence?.map fun k => ⟨o.path, o.path.countP Kind.opensBlock, refusal (k.name ++ " node")⟩

/-- where and why writing a tree stops, if it does -/
def Node.halt? (n : Node) : Option Halt := n.occurrences.findSome? Occurrence.halt?

/-! ## Offences of a node and of its children -/

theorem Node.offence?_eq_some {n : Node} {k : Kind} :
    n.offence? = some k ↔
      n.kind = .declaration ∧ ∃ fs, n.get? "value" = some (.node k fs) ∧ isCall k = false := by
  unfold Node.offence?
  constructor
  · intro h
    split at h
    · rename_i hk
      split at h
      · rename_i k' fs hg
        split at h
        · cases h
        · rename_i hc
          cases h
          exact ⟨hk, fs, hg, by simpa using hc⟩
      · cases h
    · cases h
  · rintro ⟨hk, fs, hg, hc⟩
    simp [hk, hg, hc]

/-- an occurrence seen from further up -/
def Occurrence.below (above : List Kind) (o : Occurrence) : Occurrence := { o with path := above ++ o.path }

/-- a stop seen from further up -/
def Halt.below (above : List Kind) (h : Halt) : Halt :=
  ⟨above ++ h.path, above.countP Kind.opensBlock + h.depth, h.fault⟩

theorem halt?_below (above : List Kind) (o : Occurrence) : (o.below above).halt? = o.halt?.map (Halt.below above) := by
  simp only [Occurrence.halt?, Occurrence.below]
  cases o.node.offence? <;> simp [Halt.below]

theorem itemOccurrences_eq (above : List Kind) (vs : List Value) :
    Value.itemOccurrences above vs = vs.flatMap (Value.occurrences above) := by
  induction vs with
  | nil => rfl
  | cons v vs ih => rw [Value.itemOccurrences, ih, List.flatMap_cons]

theorem fieldOccurrences_eq (above : List Kind) (fs : List (String × Value)) :
    Value.fieldOccurrences above fs = fs.flatMap fun e => e.2.occurrences above := by
  induction fs with
  | nil => rfl
  | cons e fs ih => obtain ⟨name, v⟩ := e; rw [Value.fieldOccurrences, ih, List.flatMap_cons]

theorem below_append (above : List Kind) (k : Kind) (l : List Occurrence) :
    l.map (Occurrence.below (above ++ [k])) = (l.map (Occurrence.below [k])).map (Occurrence.below above) := by
  simp [Occurrence.below, Function.comp_def]

theorem occurrences_node (above : List Kind) (k : Kind) (fs : List (String × Value)) :
    (Value.node k fs).occurrences above =
      ⟨above ++ [k], ⟨k, fs⟩⟩ :: fs.flatMap fun e => e.2.occurrences (above ++ [k]) := by
  rw [Value.occurrences, fieldOccurrences_eq]

/-- the nodes of a value are those of its topmost nodes, seen from above -/
theorem occurrences_eq_top (v : Value) :
    ∀ above, v.occurrences above = (v.top.flatMap Node.occurrences).map (Occurrence.below above) := by
  induction v using Value.induct with
  | node k fs ih =>
    intro above
    rw [Value.top_node, List.flatMap_singleton, Node.occurrences, Node.toValue, occurrences_node, occurrences_node,
      List.map_cons, List.nil_append, List.map_flatMap]
    refine congrArg (_ :: ·) (List.flatMap_congr fun e he => ?_)
    rw [ih e he, ih e he, below_append]
  | list items ih =>
    intro above
    rw [Value.occurrences, itemOccurrences_eq, Value.top_list, List.flatMap_assoc, List.map_flatMap]
    exact List.flatMap_congr fun v hv => ih v hv above
  | _ => intro above; simp [Value.occurrences]

/-- the nodes of a tree: the root, then those of its children in stored order -/
theorem Node.occurrences_eq (n : Node) :
    n.occurrences =
      ⟨[n.kind], n⟩ :: (n.children.flatMap Node.occurrences).map (Occurrence.below [n.kind]) := by
  rw [Node.occurrences, Node.toValue, occurrences_node, List.nil_append, Node.children, List.flatMap_assoc,
    List.map_flatMap]
  exact congrArg (_ :: ·) (List.flatMap_congr fun e _ => occurrences_eq_top e.2 [n.kind])

/-- a stop seen from outside the block of a kind that opens one -/
def Halt.inside (k : Kind) (h : Halt) : Halt := if k.opensBlock then h.deeper else h

theorem Halt.below_singleton (k : Kind) (h : Halt) : h.below [k] = (h.inside k).within k := by
  cases hk : k.opensBlock <;> simp [Halt.below, Halt.within, Halt.inside, Halt.deeper, hk, Nat.add_comm]

theorem findSome?_flatMap {α β γ : Type} (l : List α) (f : α → List β) (g : β → Option γ) :
    (l.flatMap f).findSome? g = l.findSome? fun a => (f a).findSome? g := by
  simp only [← List.head?_filterMap, List.filterMap_flatMap, List.head?_flatMap]

/-- a node that does not offend itself stops where the first of its children does -/
theorem Node.halt?_of_children {n : Node} (h : n.offence? = none) :
    n.halt? = (n.children.findSome? Node.halt?).map (Halt.below [n.kind]) := by
  have hroot : Occurrence.halt? ⟨[n.kind], n⟩ = none := by simp [Occurrence.halt?, h]
  have hsome : ∀ l : List Occurrence, (l.map (Occurrence.below [n.kind])).findSome? Occurrence.halt? =
      (l.findSome? Occurrence.halt?).map (Halt.below [n.kind]) := by
    intro l
    induction l with
    | nil => rfl
    | cons o l ih =>
      rw [List.map_cons, List.findSome?_cons, List.findSome?_cons, halt?_below, ih]
      cases o.halt? <;> rfl
  rw [Node.halt?, n.occurrences_eq, List.findSome?_cons, hroot, hsome]
  exact congrArg (Option.map (Halt.below [n.kind])) (findSome?_flatMap _ _ _)

theorem Node.halt?_of_offence {n : Node} {k : Kind} (h : n.offence? = some k) :
    n.halt? = some ⟨[n.kind], [n.kind].countP Kind.opensBlock, refusal (k.name ++ " node")⟩ := by
  rw [Node.halt?, n.occurrences_eq, List.findSome?_cons]
  simp [Occurrence.halt?, h]

/-! ## Scripts of valid nodes -/

/-- the scripts of these nodes stop where the nodes do -/
def Settled (ms : List Node) : Prop := ∀ m ∈ ms, ∀ parent, Nested (m.script parent) m.halt?

/-- a value written as it stands stops where the first of its nodes does -/
theorem raw_nested (parent : Option Kind) (v : Value) :
    Settled v.top → Nested (raw (piece parent v)) (v.top.findSome? Node.halt?) := by
  induction v using Value.induct with
  | null => intro _; exact .nil
  | node k fs _ =>
    intro h
    have hn := h ⟨k, fs⟩ (by simp) parent
    rw [piece_node, raw_node, Value.top_node]
    cases hh : Node.halt? ⟨k, fs⟩ <;> simpa [rendered, hh] using hn
  | list items ih =>
    intro h
    rw [piece_list, raw_list, List.map_map, Value.top_list, findSome?_flatMap]
    refine .intercalate (.prints (by simp [Instr.token, Instr.space, Printer.Op.isFlat])) fun v hv => ?_
    refine ih v hv fun m hm => h m ?_
    rw [Value.top_list]
    exact List.mem_flatMap.2 ⟨v, hv, hm⟩
  | _ => intro _; exact .print rfl

/-- the statements of a body are a row -/
theorem stacked_eq_joined (parent : Option Kind) (ms : List Node) :
    stacked (ms.map (rendered parent)) =
      joined (fun m m' => gap (rendered parent m) (rendered parent m')) (fun m => m.script parent) ms := by
  induction ms with
  | nil => rfl
  | cons m ms ih =>
    cases ms with
    | nil => rfl
    | cons x ms =>
      rw [joined, ← ih, ← List.append_assoc]; rfl

theorem gap_nested (item next : Rendered) : Nested (gap item next) none := by
  refine .prints fun i hi => ?_
  unfold gap at hi
  split at hi <;> simp only [List.mem_cons, List.not_mem_nil, or_false] at hi
  · rcases hi with rfl | rfl
    · exact ⟨_, rfl, rfl⟩
    · exact ⟨_, rfl, rfl⟩
  · subst hi; exact ⟨_, rfl, rfl⟩

theorem halt?_of_children_nil {n : Node} (ho : n.offence? = none) (hc : n.children = []) : n.halt? = none := by
  rw [Node.halt?_of_children ho, hc]; rfl

/-- the statements of a body stop where the first of them does; those that are dropped stop nowhere -/
theorem body_nested (parent : Option Kind) (ns : List Node) (hv : ∀ m ∈ ns, m.Valid) (h : Settled ns) :
    Nested (body (ns.map (rendered parent))) (ns.findSome? Node.halt?) := by
  have hdrop : ∀ m ∈ ns, m.kind = .comment ∨ m.kind = .newline → m.halt? = none := by
    intro m hm hk
    refine halt?_of_children_nil ?_ (children_of_drop (hv m hm) hk)
    rcases hk with hk | hk <;> simp [Node.offence?, hk]
  rw [body, visible_rendered, visibleNodes_findSome? hdrop, stacked_eq_joined]
  exact .joined (fun _ _ => gap_nested _ _) fun m hm => h m (mem_of_mem_visibleNodes hm) parent

theorem commentLines_nested (t : String) : Nested (commentLines t) none := by
  have hline : ∀ line ∈ Text.lines t.toList, Nested (commentLine line) none := by
    intro line _
    unfold commentLine
    split
    · exact .print rfl
    · exact .prints (by simp [Instr.token, Instr.space, Printer.Op.isFlat])
  have hall : Nested (commentLines t) ((Text.lines t.toList).findSome? fun _ => none) :=
    .intercalate (.print rfl) hline
  rwa [List.findSome?_eq_none_iff.2 fun _ _ => rfl] at hall

theorem entries_nested (parent : Option Kind) (ms : List Node) (h : Settled ms) :
    Nested (entries (ms.map (rendered parent))) ((ms.findSome? Node.halt?).map Halt.deeper) := by
  cases ms with
  | nil => exact .print rfl
  | cons m ms =>
    have hsep : Nested [Instr.token ",", Instr.newline] none :=
      .prints (by simp [Instr.token, Instr.newline, Printer.Op.isFlat])
    rw [entries, List.map_map]
    exact .block "(" ")" (.intercalate hsep fun x hx => h x hx parent)

/-- a declaration that does not offend writes its value as it stands -/
theorem declaredPiece_eq_raw {n : Node} (hk : n.kind = .declaration) (ho : n.offence? = none) {v : Value}
    (hg : n.get? "value" = some v) (hfit : Style.declared.Fits v) (parent : Option Kind) :
    declaredPiece (piece parent v) = raw (piece parent v) := by
  rcases hfit with ⟨t, rfl⟩ | ⟨k, fs, rfl⟩
  · rw [piece_string]; rfl
  · have hc : isCall k = true := by
      simp only [Node.offence?, hk, hg, if_true] at ho
      by_contra hne
      simp [hne] at ho
    rw [piece_node, raw_node, declaredPiece, rendered, hc]; rfl

/-- the stops of the nodes that an element writes -/
theorem style_nested {n : Node} (hv : n.Valid) (hn : Settled n.children) (ho : n.offence? = none) {e : Element}
    (he : e ∈ n.kind.format) {name : String} {style : Style} (hp : e.part = .field name style) {v : Value}
    (hg : n.get? name = some v) :
    Nested (style.write (piece (contextIn n.kind name) v)) ((v.top.findSome? Node.halt?).map (Halt.inside n.kind)) := by
  have hmem : (name, v) ∈ n.fields := mem_of_lookup hg
  have htop : Settled v.top := fun m hm => hn m (List.mem_flatMap.2 ⟨_, hmem, hm⟩)
  have hvalid : ∀ m ∈ v.top, m.Valid := (hv.of_field _ hmem).of_top
  have hfit := fits_of_valid hv he hp hg
  obtain ⟨-, hblock, hdecl, -⟩ := field_sound he hp
  have hout : style.inBlock? = some false → ∀ r : Option Halt, r.map (Halt.inside n.kind) = r := by
    intro hi r
    cases r <;> simp [Halt.inside, hblock _ hi]
  have hin : style.inBlock? = some true → ∀ r : Option Halt, r.map (Halt.inside n.kind) = r.map Halt.deeper := by
    intro hi r
    cases r <;> simp [Halt.inside, hblock _ hi]
  cases style with
  | plain => rw [hout rfl, write_plain]; exact raw_nested _ v htop
  | text => obtain ⟨t, rfl⟩ := hfit; rw [piece_string]; exact .print rfl
  | literal => obtain ⟨t, rfl⟩ := hfit; rw [piece_string]; exact .print rfl
  | lines => obtain ⟨t, rfl⟩ := hfit; rw [piece_string]; exact commentLines_nested t
  | selectors => obtain ⟨ts, rfl⟩ := hfit; rw [piece_texts, write_selectors, Value.top_texts]; exact .print rfl
  | body =>
    obtain ⟨ns, rfl⟩ := hfit
    rw [Value.top_nodes] at htop hvalid ⊢
    rw [hout rfl, piece_nodes, write_body]
    exact body_nested _ ns hvalid htop
  | braced =>
    obtain ⟨ns, rfl⟩ := hfit
    rw [Value.top_nodes] at htop hvalid ⊢
    rw [hin rfl, piece_nodes, write_braced]
    exact .block _ _ (body_nested _ ns hvalid htop)
  | entries =>
    obtain ⟨ns, rfl⟩ := hfit
    rw [Value.top_nodes] at htop ⊢
    rw [hin rfl, piece_nodes, write_entries]
    exact entries_nested _ ns htop
  | declared =>
    obtain ⟨hk, rfl⟩ := hdecl rfl
    rw [hout rfl, write_declared, declaredPiece_eq_raw hk ho hg hfit]
    exact raw_nested _ v htop

/-- an element of the format of a node that does not offend stops where the first of the nodes it writes does -/
theorem element_nested {n : Node} (hv : n.Valid) (hn : Settled n.children) (ho : n.offence? = none) {e : Element}
    (he : e ∈ n.kind.format) (parent : Option Kind) :
    Nested (e.script parent n.site)
      (((e.read n fun _ v => v.top).findSome? Node.halt?).map (Halt.inside n.kind)) := by
  have hflat : ∀ s : Script, Nested s none → Nested (optionally (e.guard.holds n.site) s) none := by
    intro s hs
    cases e.guard.holds n.site
    · exact .nil
    · exact hs
  cases hp : e.part with
  | print op =>
    have hop := format_sound n.kind e he
    simp only [Element.isSound, hp] at hop
    simp only [Element.script, Element.read, Element.field?, hp]
    exact hflat _ (.print hop)
  | sigil =>
    simp only [Element.script, Element.read, Element.field?, hp, Part.script]
    refine hflat _ ?_
    cases isVariableContext parent
    · exact .nil
    · exact .print rfl
  | keyword =>
    simp only [Element.script, Element.read, Element.field?, hp]
    exact hflat _ (.print rfl)
  | field name style =>
    rw [read_field n _ hp]
    simp only [Element.script, hp, Part.script, site_get?]
    cases hg : n.get? name with
    | none => exact hflat _ .nil
    | some v =>
      cases hh : e.guard.holds n.site with
      | true => exact style_nested hv hn ho he hp hg
      | false =>
        rcases empty_of_guard hg (field_sound he hp).1 hh with rfl | rfl <;> exact .nil

/-- a declaration that offends stops at its value -/
theorem offending_nested {n : Node} (hv : n.Valid) (hk : n.kind = .declaration) {k : Kind}
    {fs : List (String × Value)} (hg : n.get? "value" = some (.node k fs)) (hc : isCall k = false)
    (parent : Option Kind) : Nested (formatted parent n.site) (some ⟨[], 0, refusal (k.name ++ " node")⟩) := by
  obtain ⟨t, ht⟩ := required_text hv hk "property" (.head _)
  have hval : n.site.get? "value" = some (.node (rendered (contextIn n.kind "value") ⟨k, fs⟩)) := by
    rw [site_get?, hg, Option.map_some, piece_node]
  have hfail : declaredPiece (.node (rendered (contextIn n.kind "value") ⟨k, fs⟩)) =
      [.fail (refusal (k.name ++ " node"))] := by
    rw [declaredPiece, rendered, hc]; rfl
  have hpre : Nested [Instr.token t, Instr.token ":", Instr.space] none :=
    .prints (by simp [Instr.token, Instr.space, Printer.Op.isFlat])
  have hpost : Nested
      (optionally (n.site.flag "important") [Instr.space, Instr.token "!important"] ++ [Instr.token ";"]) none := by
    refine .prints ?_
    cases n.site.flag "important" <;> simp [optionally, Instr.token, Instr.space, Printer.Op.isFlat]
  have h := Nested.append hpre (Nested.append (Nested.fail (refusal (k.name ++ " node"))) hpost)
  rw [formatted_of_kind hk]
  simpa [Kind.format, script_field _ _ _ ht, script_field _ _ _ hval, hfail] using h

/-- **Where a script stops.** The script of a valid node is nested, whatever its parent, and stops at the first
declaration in it that offends. -/
theorem script_nested (n : Node) (hv : n.Valid) : ∀ parent, Nested (n.script parent) n.halt? := by
  refine Node.Valid.induct (P := fun n => ∀ parent, Nested (n.script parent) n.halt?) ?_ n hv
  intro n hv hn parent
  rw [script_eq hv]
  cases ho : n.offence? with
  | none =>
    have h := Nested.node n.kind (Nested.flatMap fun e he => element_nested hv hn ho he parent)
    have hbelow : Option.map (Halt.below [n.kind]) =
        Option.map (Halt.within n.kind) ∘ Option.map (Halt.inside n.kind) := by
      funext r
      cases r <;> simp [Halt.below_singleton]
    rw [Node.halt?_of_children ho, children_eq hv, findSome?_flatMap, hbelow, Function.comp_apply, List.map_findSome?]
    exact h
  | some k =>
    obtain ⟨hk, fs, hg, hc⟩ := Node.offence?_eq_some.1 ho
    rw [Node.halt?_of_offence ho, hk]
    exact .node .declaration (offending_nested hv hk hg hc parent)

/-! ## Rendering -/

theorem write_ends {n : Node} (hv : n.Valid) (parent : Option Node) (g : Generator) :
    Ends g n.halt? (g.write n parent) := (script_nested n hv _).run g

/-- a fresh generator gives the text of a tree that stops nowhere, and the stop of any other -/
theorem render_eq (n : Node) (hv : n.Valid) (parent : Option Node) (indent : String) :
    render n parent indent = match n.halt? with
      | none => .ok ((Generator.new indent).write n parent).1.text
      | some h => .error ⟨h.fault, h.path⟩ := by
  have h := (write_ends hv parent (Generator.new indent)).error
  unfold render
  generalize (Generator.new indent).write n parent = out at h ⊢
  obtain ⟨g, e⟩ := out
  cases hn : n.halt? with
  | none => rw [hn] at h; cases h; rfl
  | some x => rw [hn] at h; cases h; rfl

theorem render_ok_iff {n : Node} (hv : n.Valid) (parent : Option Node) (indent : String) :
    (∃ text, render n parent indent = .ok text) ↔ n.halt? = none := by
  rw [render_eq n hv]
  cases n.halt? <;> simp

/-- the first occurrence that offends is where writing stops -/
theorem halt?_eq_some {n : Node} {h : Halt} :
    n.halt? = some h ↔ ∃ before o after k, n.occurrences = before ++ o :: after ∧
      (∀ b ∈ before, b.node.offence? = none) ∧ o.node.offence? = some k ∧
      h = ⟨o.path, o.path.countP Kind.opensBlock, refusal (k.name ++ " node")⟩ := by
  rw [Node.halt?, List.findSome?_eq_some_iff]
  constructor
  · rintro ⟨before, o, after, hocc, ho, hb⟩
    obtain ⟨k, hk, rfl⟩ := Option.map_eq_some_iff.1 ho
    exact ⟨before, o, after, k, hocc, fun b hb' => Option.map_eq_none_iff.1 (hb b hb'), hk, rfl⟩
  · rintro ⟨before, o, after, k, hocc, hb, ho, rfl⟩
    exact ⟨before, o, after, hocc, Option.map_eq_some_iff.2 ⟨k, ho, rfl⟩,
      fun b hb' => Option.map_eq_none_iff.2 (hb b hb')⟩

theorem refusal_message (k : Kind) (path : List Kind) :
    RenderError.message ⟨refusal (k.name ++ " node"), path⟩ =
      "malformed `Declaration.value` at " ++ " > ".intercalate (path.map Kind.name) ++
        ": expected a string or call expression, found " ++ k.name ++ " node" := by
  have hfront : "malformed `" ++ "Declaration" ++ "." ++ "value" ++ "` at " = "malformed `Declaration.value` at " := by
    simp only [String.reduceAppend]
  have hback : ": " ++ "expected a string or call expression, found " =
      ": expected a string or call expression, found " := by simp only [String.reduceAppend]
  have hname : Kind.declaration.name = "Declaration" := by unfold Kind.name; rfl
  unfold RenderError.message refusal Complaint.message
  dsimp only
  rw [hname, hfront]
  generalize " > ".intercalate (path.map Kind.name) = p
  calc "malformed `Declaration.value` at " ++ p ++ ": " ++
        ("expected a string or call expression, found " ++ (k.name ++ " node"))
      = "malformed `Declaration.value` at " ++ p ++ (": " ++ "expected a string or call expression, found ") ++
        k.name ++ " node" := by simp only [String.append_assoc]
    _ = _ := by rw [hback]

/-- **Schema and writing agree.** A valid tree is rendered exactly if no declaration in it has a node other than a
call as its value. Otherwise, and in no other way, it is refused: for the first such declaration in preorder, by the
kind of its value, with the path from the root down to it. In particular it is never refused for a kind that the table
of node types does not have. -/
theorem render_agrees_with_schema (n : Node) (hv : n.Valid) (parent : Option Node) (indent : String) :
    ((∃ text, render n parent indent = .ok text) ↔ ∀ o ∈ n.occurrences, o.node.offence? = none) ∧
    ∀ e, render n parent indent = .error e ↔
      ∃ before o after k, n.occurrences = before ++ o :: after ∧ (∀ b ∈ before, b.node.offence? = none) ∧
        o.node.offence? = some k ∧
        e = ⟨.malformed .declaration "value" (.notStringOrCall (k.name ++ " node")), o.path⟩ ∧
        e.message = "malformed `Declaration.value` at " ++ " > ".intercalate (o.path.map Kind.name) ++
          ": expected a string or call expression, found " ++ k.name ++ " node" := by
  rw [render_eq n hv]
  cases hh : n.halt? with
  | none =>
    have hnone : ∀ o ∈ n.occurrences, o.node.offence? = none := fun o ho =>
      Option.map_eq_none_iff.1 (List.findSome?_eq_none_iff.1 hh o ho)
    refine ⟨⟨fun _ => hnone, fun _ => ⟨_, rfl⟩⟩, fun e => ⟨nofun, ?_⟩⟩
    rintro ⟨before, o, after, k, hocc, -, ho, -⟩
    rw [hnone o (by rw [hocc]; simp)] at ho
    cases ho
  | some h =>
    obtain ⟨before, o, after, k, hocc, hb, ho, rfl⟩ := halt?_eq_some.1 hh
    refine ⟨⟨?_, fun h => ?_⟩, fun e => ⟨fun h => ?_, ?_⟩⟩
    · rintro ⟨text, h⟩
      cases h
    · rw [h o (by rw [hocc]; simp)] at ho
      cases ho
    · cases h
      exact ⟨before, o, after, k, hocc, hb, ho, rfl, refusal_message _ _⟩
    · rintro ⟨before', o', after', k', hocc', hb', ho', rfl, -⟩
      have hh' := halt?_eq_some.2 ⟨before', o', after', k', hocc', hb', ho', rfl⟩
      rw [hh, Option.some.injEq, Halt.mk.injEq] at hh'
      rw [hh'.1, hh'.2.2]; rfl

/-- a rule with one declaration -/
def plainRule (selector property value : String) : Node :=
  ⟨.rule, [("selectors", .list [.string selector]),
    ("declarations", .list [.node .declaration [("property", .string property), ("value", .string value)]])]⟩

theorem plainRule_valid (selector property value : String) : (plainRule selector property value).Valid :=
  Value.valid_of_isValid _ rfl

/-- a sheet whose second rule sets a colour to a bare name -/
def brandSheet : Node :=
  ⟨.styleSheet, [("children", .list
    [(plainRule ".ok" "color" "red").toValue,
     .node .rule [("selectors", .list [.string ".bad"]),
      ("declarations", .list [.node .declaration
        [("property", .string "color"), ("value", .node .identifier [("name", .string "brand")])]])]])]⟩

theorem brandSheet_valid : brandSheet.Valid := Value.valid_of_isValid _ rfl

/-- the sheet is refused for its second rule -/
theorem brandSheet_refused :
    brandSheet.Valid ∧ render brandSheet none "  " =
      .error ⟨.malformed .declaration "value" (.notStringOrCall "Identifier node"),
        [.styleSheet, .rule, .declaration]⟩ := by
  let bad : Occurrence := ⟨[.styleSheet, .rule, .declaration], ⟨.declaration,
    [("property", .string "color"), ("value", .node .identifier [("name", .string "brand")])]⟩⟩
  have hname : Kind.identifier.name ++ " node" = "Identifier node" := by
    unfold Kind.name; simp only [String.reduceAppend]
  refine ⟨brandSheet_valid, ((render_agrees_with_schema brandSheet brandSheet_valid none "  ").2 _).2 ?_⟩
  refine ⟨brandSheet.occurrences.take 4, bad, brandSheet.occurrences.drop 5, .identifier, rfl, by decide, rfl, ?_, ?_⟩
  · rw [hname]
  · rw [← hname]; exact refusal_message .identifier _

end StyleTree
