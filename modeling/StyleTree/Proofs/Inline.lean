/-
Writing inside a line. A value is mostly written behind something else: the test of an `@if` behind its keyword, the
value of a map entry behind its colon. There the cursor stands inside a line and right behind a space, while a value
that is rendered on its own begins a line. The two come to the same text: at the start of a line as well as behind a
space a further space is dropped, and outside all blocks a line begins without indentation. The one operation that tells
them apart is the end of a line asked for before anything was written.

- `fluent`: a script that asks for no such thing before it has written something;
- `Behind base q p`: `q` has written nothing yet and `p` stands behind a space, or `p` stands where `q` stands, with
  `base` below; `fluent_run`: a fluent script keeps this up;
- `value_fluent`: values are fluent, unless a node stands in a raw value, for that may be anything;
- `Follows`, `follows_of_render`: so a fluent node adds, inside a line, the text that it has on its own.
-/
import StyleTree.Proofs.Sigils

namespace StyleTree

open Emission Instr

/-! ## Nodes in fields -/

/-- a node in a field of a valid node is valid -/
theorem Node.Valid.of_get? {n m : Node} (hv : n.Valid) {name : String} (hg : n.get? name = some m.toValue) : m.Valid :=
  hv.of_child m (List.mem_flatMap.2 ⟨_, mem_of_lookup hg, by simp⟩)

/-- a node in a required field is of a kind that stands there -/
theorem holds_of_required {n m : Node} (hv : n.Valid) {k : Kind} (hk : n.kind = k) {name : String} {shape : Shape}
    (hs : Schema.required name shape ∈ k.schema) (hg : n.get? name = some m.toValue) : shape.holds m.kind = true := by
  obtain ⟨v, hg', ha⟩ := required_get? hv hk name hs
  rw [hg, Option.some.injEq] at hg'
  subst hg'
  exact holds_of_admits shape _ ha m (by simp)

/-- a node in a field, ready to be written -/
theorem site_node {n m : Node} {k : Kind} (hk : n.kind = k) {name : String} {c : Option Kind}
    (hc : contextIn k name = c) (hg : n.get? name = some m.toValue) :
    n.site.get? name = some (.node (rendered c m)) := by
  rw [site_get?, hg, hk, hc, Option.map_some, piece_toValue]

/-- a text in a field, ready to be written -/
theorem site_text {n : Node} {name t : String} (hg : n.get? name = some (.string t)) :
    n.site.get? name = some (.string t) := by
  rw [site_get?, hg, Option.map_some, piece_string]

/-! ## Fluent scripts -/

/-- a script that does not end a line before it has written something -/
def fluent : Script → Bool
  | [] => true
  | .enter _ :: s | .leave :: s | .print .space :: s => fluent s
  | .print (.token t) :: s => t != "" || fluent s
  | .print .newline :: _ | .print (.openBlock _) :: _ | .fail _ :: _ => true
  | .print .maybeNewline :: _ | .print (.closeBlock _) :: _ => false

@[simp] theorem fluent_token (t : String) : fluent [token t] = true := Bool.or_true _

theorem fluent_append {s s' : Script} (h : fluent s = true) (h' : fluent s' = true) : fluent (s ++ s') = true := by
  fun_induction fluent s with
  | case1 => exact h'
  | case2 k s ih => exact ih h
  | case3 s ih => exact ih h
  | case4 s ih => exact ih h
  | case5 t s ih =>
    rw [Bool.or_eq_true] at h
    rw [List.cons_append, fluent, Bool.or_eq_true]
    exact h.imp_right ih
  | case6 | case7 | case8 => rfl
  | case9 | case10 => cases h

theorem fluent_flatMap {α : Type} {l : List α} {f : α → Script} (h : ∀ a ∈ l, fluent (f a) = true) :
    fluent (l.flatMap f) = true := by
  induction l with
  | nil => rfl
  | cons a l ih =>
    obtain ⟨ha, hl⟩ := List.forall_mem_cons.1 h
    exact fluent_append ha (ih hl)

theorem fluent_joined {α : Type} {between : α → α → Script} (hb : ∀ a a', fluent (between a a') = true)
    {f : α → Script} {l : List α} (h : ∀ a ∈ l, fluent (f a) = true) : fluent (joined between f l) = true := by
  induction l with
  | nil => rfl
  | cons a l ih =>
    obtain ⟨ha, hl⟩ := List.forall_mem_cons.1 h
    cases l with
    | nil => exact ha
    | cons a' l => exact fluent_append ha (fluent_append (hb a a') (ih hl))

/-! ## Two printers -/

/-- `q` has written nothing and `p` stands inside a line, or `p` stands where `q` stands; in both cases `base` is what
`p` had written before -/
inductive Behind (base : List Char) : Printer → Printer → Prop
  | fresh (indent : String) : Behind base ⟨[], indent, 0, true⟩ ⟨base, indent, 0, false⟩
  | begun {q p : Printer} (h : Continues base q p) (hne : q.written ≠ []) : Behind base q p

namespace Behind

variable {base : List Char} {q p : Printer}

theorem newline (h : Behind base q p) : Behind base q.newline p.newline := by
  refine .begun ?_ (List.cons_ne_nil _ _)
  cases h with
  | fresh indent => exact ⟨rfl, nofun⟩
  | begun h _ => exact h.newline

theorem put (h : Behind base q p) (c : Char) : Behind base (q.put c) (p.put c) := by
  by_cases hc : c = '\n'
  · subst hc
    exact h.newline
  · refine .begun ?_ (Printer.put_written_ne_nil q c)
    cases h with
    | fresh indent =>
      -- outside all blocks a line begins without indentation
      unfold Printer.put
      rw [if_neg hc, if_neg hc]
      exact ⟨rfl, nofun⟩
    | begun h _ => exact h.put c

theorem token (h : Behind base q p) (t : String) : Behind base (q.token t) (p.token t) := by
  rw [Printer.token_eq_foldl, Printer.token_eq_foldl]
  induction t.toList generalizing q p with
  | nil => exact h
  | cons c l ih => exact ih (h.put c)

theorem space (h : Behind base q p) (hb : base.head? = some ' ') : Behind base q.space p.space := by
  cases h with
  | fresh indent =>
    have hp : Printer.space ⟨base, indent, 0, false⟩ = ⟨base, indent, 0, false⟩ := by
      rw [Printer.space, if_pos]
      simp [hb]
    rw [hp]
    exact .fresh indent
  | begun h hne =>
    refine .begun h.space fun h0 => hne (List.suffix_nil.1 ?_)
    rw [← h0]
    exact (Printer.space_grows q).written

/-- opening a block writes something -/
theorem openBlock (h : Behind base q p) (mark : String) : Behind base (q.openBlock mark) (p.openBlock mark) := by
  have hline := (h.token mark).newline
  cases hline with
  | begun hline hne => exact .begun ⟨by rw [Printer.openBlock, Printer.openBlock, hline.state], nofun⟩ hne

/-- once `q` has written something, `p` stands where it stands -/
theorem continues (h : Behind base q p) (hne : q.written ≠ []) : Continues base q p := by
  cases h with
  | fresh indent => exact absurd rfl hne
  | begun h _ => exact h

end Behind

/-- a printer goes on like another one as long as they do the same -/
theorem Continues.run {base : List Char} (s : Script) {g f : Generator} (h : Continues base g.printer f.printer) :
    Continues base (Generator.run s g).1.printer (Generator.run s f).1.printer := by
  induction s generalizing g f with
  | nil => exact h
  | cons i s ih =>
    cases i with
    | print op => exact ih (h.step op)
    | enter k => exact ih (g := { g with path := g.path ++ [k] }) (f := { f with path := f.path ++ [k] }) h
    | leave => exact ih (g := { g with path := g.path.dropLast }) (f := { f with path := f.path.dropLast }) h
    | fail fault => exact h

/-- once something is written, everything can follow -/
theorem behind_run_of_begun {base : List Char} (s : Script) {g f : Generator}
    (h : Behind base g.printer f.printer) (hne : g.printer.written ≠ []) :
    Behind base (Generator.run s g).1.printer (Generator.run s f).1.printer := by
  refine .begun ((h.continues hne).run s) fun h0 => hne (List.suffix_nil.1 ?_)
  rw [← h0]
  exact (Generator.run_grows s g).written

/-- **Behind a space as at the start.** A fluent script runs behind a space as it runs with nothing before it. -/
theorem fluent_run {base : List Char} (hb : base.head? = some ' ') {s : Script} (hs : fluent s = true)
    {g f : Generator} (h : Behind base g.printer f.printer) :
    Behind base (Generator.run s g).1.printer (Generator.run s f).1.printer := by
  -- either the two have come together, or nothing is written yet and the next instruction is a fluent one
  fun_induction fluent s generalizing g f with
  | case1 => exact h
  | case2 k s ih => exact ih hs (g := { g with path := g.path ++ [k] }) (f := { f with path := f.path ++ [k] }) h
  | case3 s ih => exact ih hs (g := { g with path := g.path.dropLast }) (f := { f with path := f.path.dropLast }) h
  | case4 s ih => exact ih hs (g := g.print .space) (f := f.print .space) (h.space hb)
  | case5 t s ih =>
    have htoken : Behind base (g.print (.token t)).printer (f.print (.token t)).printer := h.token t
    by_cases ht : t = ""
    · subst ht
      exact ih hs htoken
    · exact behind_run_of_begun s htoken (Printer.token_written_ne_nil g.printer ht)
  | case6 s =>
    exact behind_run_of_begun s (g := g.print .newline) (f := f.print .newline) h.newline (List.cons_ne_nil _ _)
  | case7 mark s =>
    exact behind_run_of_begun s (g := g.print (.openBlock mark)) (f := f.print (.openBlock mark)) (h.openBlock mark)
      (List.cons_ne_nil _ _)
  | case8 fault s => exact h
  | case9 | case10 => cases hs

/-! ## Values -/

/-- the kinds that values are made of -/
def valueKinds : List Kind := Family.sassValue.kinds ++ [.sassMapProperty]

/-- no raw value in the tree holds a node -/
def Node.Unmixed (n : Node) : Prop := ∀ o ∈ n.occurrences, o.node.kind = .sassValue → o.node.children = []

instance (n : Node) : Decidable n.Unmixed :=
  inferInstanceAs (Decidable (∀ o ∈ n.occurrences, o.node.kind = .sassValue → o.node.children = []))

theorem Node.Unmixed.of_child {n m : Node} (h : n.Unmixed) (hm : m ∈ n.children) : m.Unmixed := by
  intro o ho
  refine h (o.below [n.kind]) ?_
  rw [n.occurrences_eq]
  exact List.mem_cons_of_mem _ (List.mem_map_of_mem (List.mem_flatMap.2 ⟨m, hm, ho⟩))

/-- apart from raw values, values hold values only -/
theorem valueKinds_closed : ∀ k ∈ valueKinds, k ≠ .sassValue → ∀ spec ∈ k.schema, ∀ k', spec.shape.holds k' = true →
    k' ∈ valueKinds := by
  have hall : ∀ k ∈ valueKinds, k ≠ .sassValue → ∀ spec ∈ k.schema, ∀ k' ∈ Kind.all, spec.shape.holds k' = true →
      k' ∈ valueKinds := by decide
  intro k hk hne spec hs k' hh
  exact hall k hk hne spec hs k' (by cases k' <;> decide) hh

theorem children_of_value {n : Node} (hv : n.Valid) (hk : n.kind ∈ valueKinds) (hu : n.Unmixed) :
    ∀ m ∈ n.children, m.kind ∈ valueKinds := by
  intro m hm
  by_cases hraw : n.kind = .sassValue
  · have hnone : n.children = [] := hu ⟨[n.kind], n⟩ (by rw [n.occurrences_eq]; exact List.mem_cons_self) hraw
    rw [hnone] at hm
    cases hm
  · obtain ⟨e, he, hm⟩ := List.mem_flatMap.1 hm
    obtain ⟨spec, hs, -, ha⟩ := hv.conforms.of_mem e he
    exact valueKinds_closed n.kind hk hraw spec hs m.kind (holds_of_admits spec.shape e.2 ha m hm)

/-- an element that is written inside a line -/
def Emission.Element.isInline (e : Element) : Bool :=
  match e.part with
  | .print (.token _) | .print .space | .sigil | .keyword => true
  | .field _ style => [.plain, .text, .literal, .entries].contains style
  | .print _ => false

theorem format_inline : ∀ k ∈ valueKinds, ∀ e ∈ k.format, e.isInline = true := by decide

theorem raw_fluent (parent : Option Kind) (v : Value) :
    (∀ m ∈ v.top, fluent (m.script parent) = true) → fluent (raw (piece parent v)) = true := by
  induction v using Value.induct with
  | null => intro _; rfl
  | bool b => intro _; exact fluent_token _
  | number x => intro _; exact fluent_token _
  | string t => intro _; exact fluent_token t
  | node k fs _ =>
    intro h
    rw [piece_node, raw_node]
    exact h ⟨k, fs⟩ (by simp)
  | list items ih =>
    intro h
    rw [piece_list, raw_list, List.map_map, separated, intercalate_eq_joined]
    refine fluent_joined (fun _ _ => rfl) fun v hv => ih v hv fun m hm => h m ?_
    rw [Value.top_list]
    exact List.mem_flatMap.2 ⟨v, hv, hm⟩

section Elements

variable {n : Node} (hv : n.Valid) (hm : ∀ m ∈ n.children, ∀ parent, fluent (m.script parent) = true) {e : Element}
  (he : e ∈ n.kind.format) (hi : e.isInline = true)

include hv hm he hi

theorem field_fluent {name : String} {style : Style} (hp : e.part = .field name style) {v : Value}
    (hg : n.get? name = some v) (parent : Option Kind) : fluent (style.write (piece parent v)) = true := by
  have hmem : (name, v) ∈ n.fields := mem_of_lookup hg
  have htop : ∀ m ∈ v.top, fluent (m.script parent) = true :=
    fun m h => hm m (List.mem_flatMap.2 ⟨_, hmem, h⟩) parent
  have hfit := fits_of_valid hv he hp hg
  simp only [Element.isInline, hp] at hi
  cases style with
  | plain => exact raw_fluent parent v htop
  | text =>
    obtain ⟨t, rfl⟩ := hfit
    rw [piece_string]
    exact fluent_token t
  | literal =>
    obtain ⟨t, rfl⟩ := hfit
    rw [piece_string]
    exact fluent_token _
  | entries =>
    obtain ⟨ns, rfl⟩ := hfit
    rw [piece_nodes, write_entries, entries]
    split <;> rfl
  | _ => cases hi

theorem element_fluent (parent : Option Kind) : fluent (e.script parent n.site) = true := by
  have hguard : ∀ s : Script, fluent s = true → fluent (optionally (e.guard.holds n.site) s) = true := by
    intro s hs
    cases e.guard.holds n.site
    · rfl
    · exact hs
  rw [Element.script]
  apply hguard
  cases hp : e.part with
  | print op =>
    simp only [Element.isInline, hp] at hi
    cases op with
    | token t => exact fluent_token t
    | space => rfl
    | _ => cases hi
  | sigil =>
    rw [Part.script]
    cases isVariableContext parent <;> rfl
  | keyword => exact fluent_token _
  | field name style =>
    rw [Part.script, site_get?]
    cases hg : n.get? name with
    | none => rfl
    | some v => exact field_fluent hv hm he hi hp hg _

end Elements

/-- a node is as fluent as what it is written as -/
theorem fluent_node (k : Kind) {s : Script} (h : fluent s = true) : fluent ([.enter k] ++ s ++ [.leave]) = true :=
  fluent_append (fluent_append rfl h) rfl

/-- **Values are fluent**, if no raw value in them holds a node. -/
theorem value_fluent (n : Node) (hv : n.Valid) :
    n.kind ∈ valueKinds → n.Unmixed → ∀ parent, fluent (n.script parent) = true := by
  refine Node.Valid.induct (P := fun n => n.kind ∈ valueKinds → n.Unmixed → ∀ parent,
    fluent (n.script parent) = true) ?_ n hv
  intro n hv ih hk hu parent
  have hm : ∀ m ∈ n.children, ∀ parent, fluent (m.script parent) = true :=
    fun m hm => ih m hm (children_of_value hv hk hu m hm) (hu.of_child hm)
  rw [script_eq hv]
  exact fluent_node n.kind (fluent_flatMap fun e he => element_fluent hv hm he (format_inline n.kind hk e he) parent)

/-- a block is fluent whatever stands in it -/
theorem block_fluent {n : Node} (hv : n.Valid) (hk : n.kind = .blockStatement) (parent : Option Kind) :
    fluent (n.script parent) = true := by
  obtain ⟨rs, hrs⟩ := required_nodes hv hk "body" (.head _) (Shape.nodal_deferred _ _)
  have hbraced : formatted parent n.site = braced rs := by
    rw [formatted_of_kind hk]
    simp [Kind.format, script_field _ _ _ hrs]
  rw [script_eq hv, hbraced]
  exact fluent_node n.kind rfl

/-! ## Texts inside a line -/

/-- the printer with a text added inside a line -/
def Printer.flow (p : Printer) (t : String) : Printer :=
  ⟨t.toList.reverse ++ p.written, p.indent, p.depth, t.toList.getLast? == some '\n'⟩

theorem Printer.flow_text (p : Printer) (t : String) : (p.flow t).text = p.text ++ t := by
  simp [Printer.flow, Printer.text]

/-- a text without line feeds leaves the cursor inside the line -/
theorem Printer.flow_unbroken {p : Printer} (hp : p.atLineStart = false) {t : String} (ht : '\n' ∉ t.toList) :
    p.flow t = { p with written := t.toList.reverse ++ p.written } := by
  have hlast : (t.toList.getLast? == some '\n') = false := by
    rw [beq_eq_false_iff_ne]
    exact fun h => ht (List.mem_of_getLast? h)
  rw [Printer.flow, hlast, ← hp]

/-- outside all blocks, inside a line and right behind the character `c`, the script runs through and adds the text -/
def Follows (indent : String) (c : Option Char) (s : Script) (t : String) : Prop :=
  ∀ g : Generator, g.printer.atLineStart = false → g.printer.indent = indent → g.printer.depth = 0 →
    g.printer.written.head? = c →
    (Generator.run s g).2 = none ∧ (Generator.run s g).1.printer = g.printer.flow t

namespace Follows

variable {indent : String} {c : Option Char} {s s' : Script} {t t' : String}

theorem nil : Follows indent c [] "" := by
  intro g hline _ _ _
  refine ⟨rfl, ?_⟩
  rw [Printer.flow_unbroken hline (by decide)]
  rfl

theorem token (ht : '\n' ∉ t.toList) : Follows indent c [Instr.token t] t := by
  intro g hline _ _ _
  refine ⟨rfl, ?_⟩
  rw [Printer.flow_unbroken hline ht, ← Printer.foldl_put_inline hline ht]
  rfl

/-- a space is written behind anything but a space -/
theorem space (hc : c ≠ some ' ') : Follows indent c [Instr.space] " " := by
  intro g hline _ _ hhead
  refine ⟨rfl, ?_⟩
  change g.printer.space = g.printer.flow " "
  rw [Printer.space, if_neg (by simp [hline, hhead, hc]), Printer.flow_unbroken hline (by decide)]
  rfl

/-- what follows stands behind the last character so far -/
theorem append {d : Char} (h : Follows indent c s t) (ht : t.toList.getLast? = some d) (hd : d ≠ '\n')
    (h' : Follows indent (some d) s' t') : Follows indent c (s ++ s') (t ++ t') := by
  intro g hline hindent hdepth hhead
  obtain ⟨hrun, hprinter⟩ := h g hline hindent hdepth hhead
  have hne : t.toList ≠ [] := by
    intro h0
    rw [h0] at ht
    cases ht
  have hlast : (Generator.run s g).1.printer.written.head? = some d := by
    rw [hprinter, Printer.flow, List.head?_append_of_ne_nil _ (by simpa using hne), List.head?_reverse, ht]
  have hinside : (Generator.run s g).1.printer.atLineStart = false := by
    rw [hprinter, Printer.flow, ht]
    simpa using hd
  obtain ⟨hrun', hprinter'⟩ := h' (Generator.run s g).1 hinside (by rw [hprinter]; exact hindent)
    (by rw [hprinter]; exact hdepth) hlast
  rw [Generator.run_append_of_none hrun]
  refine ⟨hrun', ?_⟩
  have hend : ((t ++ t').toList.getLast? == some '\n') = (t'.toList.getLast? == some '\n') := by
    by_cases h0 : t' = ""
    · subst h0
      rw [String.append_empty, ht]
      simpa using hd
    · rw [String.toList_append, List.getLast?_append_of_ne_nil _ (by simpa using h0)]
  rw [hprinter', hprinter, Printer.flow, Printer.flow, Printer.flow, hend]
  simp

/-- behind a word -/
theorem word {w : String} {d : Char} (hw : '\n' ∉ w.toList) (hlast : w.toList.getLast? = some d)
    (h : Follows indent (some d) s t) : Follows indent c ([Instr.token w] ++ s) (w ++ t) := by
  refine (Follows.token hw).append hlast ?_ h
  rintro rfl
  exact hw (List.mem_of_getLast? hlast)

/-- behind a space -/
theorem spaced (hc : c ≠ some ' ') (h : Follows indent (some ' ') s t) :
    Follows indent c ([Instr.space] ++ s) (" " ++ t) :=
  (Follows.space hc).append rfl (by decide) h

/-- entering and leaving a node writes nothing -/
theorem node (h : Follows indent c s t) (k : Kind) : Follows indent c ([.enter k] ++ s ++ [.leave]) t := by
  intro g hline hindent hdepth hhead
  obtain ⟨hrun, hprinter⟩ := h { g with path := g.path ++ [k] } hline hindent hdepth hhead
  rw [List.append_assoc, run_enter, Generator.run_append_of_none hrun]
  exact ⟨rfl, hprinter⟩

end Follows

/-- what a fluent script prints at the start of a line it adds inside a line -/
theorem follows_of_prints {indent t : String} {s : Script} (hs : fluent s = true) (hn : Nested s none)
    (hp : Prints indent 0 s t) : Follows indent (some ' ') s t := by
  intro g hline hindent hdepth hspace
  obtain ⟨-, hadds⟩ := hp (blankAt indent 0) rfl rfl rfl
  have hstart : Behind g.printer.written (blankAt indent 0).printer g.printer := by
    have hg : g.printer = ⟨g.printer.written, indent, 0, false⟩ := by rw [← hline, ← hindent, ← hdepth]
    rw [hg]
    exact .fresh indent
  have hend := fluent_run hspace hs hstart
  refine ⟨(hn.run g).error, ?_⟩
  generalize (Generator.run s (blankAt indent 0)).1.printer = q at hadds hend
  generalize (Generator.run s g).1.printer = p at hend
  have hwritten : q.written = t.toList.reverse := hadds.written.trans (List.append_nil _)
  have hq : q.indent = g.printer.indent ∧ q.depth = g.printer.depth :=
    ⟨hadds.indent.trans hindent.symm, hadds.depth.trans hdepth.symm⟩
  by_cases ht : t = ""
  · subst ht
    cases hend with
    | fresh unit => rw [Printer.flow, ← hq.1, ← hq.2]; rfl
    | begun h hne => exact absurd hwritten hne
  · have hne : q.written ≠ [] := by rw [hwritten]; simpa using ht
    have hfresh : q.atLineStart = (t.toList.getLast? == some '\n') := by
      rw [Bool.eq_iff_iff, hadds.fresh, Ended, beq_iff_eq]
      exact or_iff_right ht
    rw [(hend.continues hne).state, Printer.flow, ← hq.1, ← hq.2, ← hfresh, hwritten]

/-- **Inside a line as on its own.** A fluent node adds, behind a space and outside all blocks, the text that it is
rendered to. -/
theorem follows_of_render {n : Node} (hv : n.Valid) {parent : Option Node} {indent t : String}
    (hf : fluent (n.script (parent.map Node.kind)) = true) (hr : render n parent indent = .ok t) :
    Follows indent (some ' ') (n.script (parent.map Node.kind)) t := by
  have hh := (render_ok_iff hv parent indent).1 ⟨t, hr⟩
  obtain ⟨lines, hlines⟩ := exists_lines hv hh (parent.map Node.kind)
  have hprints := hlines indent 0
  rw [render_of_prints hprints, Except.ok.injEq] at hr
  rw [hr] at hprints
  have hnested := script_nested n hv (parent.map Node.kind)
  rw [hh] at hnested
  exact follows_of_prints hf hnested hprints

end StyleTree
