/-
Chains of `@else`. The alternative of an `@if` is another `@if`, which continues the chain, or a block, which ends it. A
chain of any length is written in one piece: the word `@if` once, then for every further arm `@else if` behind the
closing brace of the arm before, and `@else` before a last block. Test and block of an arm are written inside a line,
and stand there with the texts that they have on their own.

- `chain_follows`: a chain adds its text, by induction over its arms; every arm but the first is the alternative of the
  one before and is written behind `@else` and a space;
- `block_render`: the text of a block, of which the closing brace is the last character;
- `else_chain`: the text of a chain; an `@if` in one of its blocks is none of its arms and starts a chain of its own.
-/
import StyleTree.Proofs.Inline

namespace StyleTree

open Emission Instr

/-! ## Arms -/

/-- an `@if` with its test and its block, and the texts of these -/
structure Arm where
  node : Node
  test : Node
  block : Node
  testText : String
  blockText : String

namespace Arm

/-- the arm is an `@if` with this test and this block, and under it they are rendered to these texts; the test has no
node in a raw value, and something is seen at its end -/
structure Renders (indent : String) (a : Arm) : Prop where
  kind : a.node.kind = .ifStatement
  test : a.node.get? "test" = some a.test.toValue
  block : a.node.get? "consequent" = some a.block.toValue
  unmixed : a.test.Unmixed
  testText : render a.test (some a.node) indent = .ok a.testText
  blockText : render a.block (some a.node) indent = .ok a.blockText
  nonempty : a.testText ≠ ""
  unspaced : a.testText.toList.getLast? ≠ some ' '
  unended : a.testText.toList.getLast? ≠ some '\n'

/-- test and block -/
def text (a : Arm) : String := a.testText ++ " " ++ a.blockText

end Arm

/-- every further arm is the alternative of the one before it, and the last one has the block as its alternative, which
is rendered to the text under it, or has none -/
def Linked (indent : String) (otherwise : Option (Node × String)) : Arm → List Arm → Prop
  | a, b :: rest => a.node.get? "alternate" = some b.node.toValue ∧ Linked indent otherwise b rest
  | a, [] =>
    match otherwise with
    | none => a.node.get? "alternate" = none
    | some (b, text) =>
      a.node.get? "alternate" = some b.toValue ∧ b.kind = .blockStatement ∧ render b (some a.node) indent = .ok text

/-- the text of the last block of a chain, with its keyword -/
def elseText : Option (Node × String) → String
  | none => ""
  | some (_, text) => " @else " ++ text

/-- the text of everything behind the first arm -/
def chainTail (rest : List Arm) (otherwise : Option (Node × String)) : String :=
  String.join (rest.map fun a => " @else if " ++ a.text) ++ elseText otherwise

/-! ## Scripts -/

/-- the word that starts an `@if`, or continues an `@else` -/
def ifWord (parent : Option Kind) : String := if parent = some .ifStatement then "if" else "@if"

/-- what stands behind the block of an `@if` -/
def elseScript : Option Node → Script
  | none => []
  | some n => [space, token "@else", space] ++ n.script (some .ifStatement)

theorem ifStatement_script {n : Node} (hv : n.Valid) (hk : n.kind = .ifStatement) {test block : Node}
    {alternate : Option Node} (ht : n.get? "test" = some test.toValue) (hb : n.get? "consequent" = some block.toValue)
    (ha : n.get? "alternate" = alternate.map Node.toValue) (parent : Option Kind) :
    n.script parent = [.enter n.kind] ++ ([token (ifWord parent)] ++ ([space] ++ (test.script (some .ifStatement) ++
      ([space] ++ (block.script (some .ifStatement) ++ elseScript alternate))))) ++ [.leave] := by
  have htest := site_node hk (c := some .ifStatement) rfl ht
  have hblock := site_node hk (c := some .ifStatement) rfl hb
  rw [script_eq hv, formatted_of_kind hk]
  cases alternate with
  | none =>
    have halt : n.site.get? "alternate" = none := by rw [site_get?, ha]; rfl
    simp [Kind.format, script_field _ _ _ htest, script_field _ _ _ hblock, halt, optionally, elseScript, ifWord,
      rendered]
  | some m =>
    have halt := site_node hk (c := some .ifStatement) rfl ha
    simp [Kind.format, script_field _ _ _ htest, script_field _ _ _ hblock, script_field _ _ _ halt, halt, optionally,
      elseScript, ifWord, rendered]

/-- under anything but another `@if` an `@if` is written as if it had no parent -/
theorem ifStatement_script_parent {n : Node} (hk : n.kind = .ifStatement) {parent : Option Kind}
    (hp : parent ≠ some .ifStatement) : n.script parent = n.script none := by
  simp [Node.script, scriptOf_eq, routine, hk, ifStatement, hp]

/-! ## Blocks -/

/-- the text of a block outside all others, from the texts that its statements have one level deeper -/
def bracedText (own : Node → String) (cs : List Node) : String :=
  "\x7b\n" ++ bodyText own (visibleNodes cs) ++
    (if (visibleNodes cs).isEmpty then "" else breakAfter (bodyText own (visibleNodes cs))) ++ "\x7d"

theorem bracedText_last (own : Node → String) (cs : List Node) :
    (bracedText own cs).toList.getLast? = some '\x7d' := by
  rw [bracedText, String.toList_append, List.getLast?_append_of_ne_nil _ (by decide)]
  rfl

/-- a block is rendered to its statements in braces, each in the lines of its own rendering -/
theorem block_render {b : Node} (hv : b.Valid) (hk : b.kind = .blockStatement) {parent : Option Node}
    {indent text : String} (hr : render b parent indent = .ok text) :
    ∃ (cs : List Node) (lines : Node → List Line), b.get? "body" = some (.list (cs.map Node.toValue)) ∧
      (∀ c ∈ cs, render c (some b) indent = .ok (Line.stack indent 0 (lines c))) ∧
      text = bracedText (fun c => Line.stack indent 1 (lines c)) cs := by
  have hh := (render_ok_iff hv parent indent).1 ⟨text, hr⟩
  have hfield : b.kind.blockField? = some "body" := by rw [hk]; rfl
  obtain ⟨v, hg, ha⟩ := required_get? hv hk "body" (.head _)
  obtain ⟨cs, rfl⟩ := (Shape.nodal_deferred _ _).list ha
  obtain ⟨lines, hown, hfull, hprint⟩ := body_prints hv hh (bodyField_of_blockField hfield) hg
  refine ⟨cs, lines, hg, fun c hc => hown c hc indent, ?_⟩
  have hrs := body_site (bodyField_of_blockField hfield) hg
  have hblock := block_formatted hv (parent.map Node.kind) hfield hrs (by simp [hk])
  have hheader : b.header = [] := by rw [Node.header, hk]
  obtain ⟨g, hrun, htext⟩ := block_text { Generator.new indent with path := (Generator.new indent).path ++ [b.kind] }
    (header_flat b) (hprint indent 1)
  rw [lineEnd_bodyText fun c hc => hfull c hc _ _, hheader] at htext
  have hopen : (((Generator.new indent).printer.run []).token "\x7b").text ++ "\n" = "\x7b\n" := rfl
  obtain ⟨-, hwritten⟩ := run_of_render hr
  rw [script_eq hv, hblock, braced, List.append_assoc, run_enter, Generator.run_append_of_none (by rw [hrun]), hrun]
    at hwritten
  have hend : g.text = text := hwritten
  have hflat : String.join (List.replicate (Generator.new indent).printer.depth (Generator.new indent).printer.indent) =
      "" := rfl
  simp only [hopen, hflat] at htext
  rw [← hend, htext, bracedText, String.append_empty]

/-! ## Chains -/

section Chains

variable {indent : String}

/-- a block ends with its closing brace -/
theorem block_last {b : Node} (hv : b.Valid) (hk : b.kind = .blockStatement) {parent : Option Node} {text : String}
    (hr : render b parent indent = .ok text) : text.toList.getLast? = some '\x7d' := by
  obtain ⟨cs, lines, -, -, rfl⟩ := block_render hv hk hr
  exact bracedText_last _ cs

theorem Arm.Renders.testKind {a : Arm} (h : a.Renders indent) (hv : a.node.Valid) : a.test.kind ∈ valueKinds := by
  have hholds := holds_of_required hv h.kind (.head _) h.test
  cases hk : a.test.kind <;> rw [hk] at hholds <;> first | decide | cases hholds

theorem Arm.Renders.blockKind {a : Arm} (h : a.Renders indent) (hv : a.node.Valid) :
    a.block.kind = .blockStatement := by
  have hholds := holds_of_required hv h.kind (.tail _ (.head _)) h.block
  exact (beq_iff_eq.1 hholds).symm

/-- one arm: its word, its test and its block, and what stands behind the closing brace -/
theorem arm_follows {a : Arm} (h : a.Renders indent) (hv : a.node.Valid) (alternate : Option Node)
    (ha : a.node.get? "alternate" = alternate.map Node.toValue) {tail : String}
    (htail : Follows indent (some '\x7d') (elseScript alternate) tail) (parent : Option Kind) (c : Option Char) :
    Follows indent c (a.node.script parent) (ifWord parent ++ (" " ++ (a.text ++ tail))) := by
  have hword : (ifWord parent).toList.getLast? = some 'f' ∧ '\n' ∉ (ifWord parent).toList := by
    unfold ifWord
    split <;> decide
  have hif : (some a.node).map Node.kind = some .ifStatement := congrArg some h.kind
  have htest := follows_of_render (hv.of_get? h.test) (value_fluent _ (hv.of_get? h.test) (h.testKind hv) h.unmixed _)
    h.testText
  have hblock := follows_of_render (hv.of_get? h.block) (block_fluent (hv.of_get? h.block) (h.blockKind hv) _)
    h.blockText
  rw [hif] at htest hblock
  obtain ⟨d, hd⟩ : ∃ d, a.testText.toList.getLast? = some d := by
    rw [← Option.isSome_iff_exists, List.getLast?_isSome]
    simpa using h.nonempty
  have hspace : d ≠ ' ' := fun h0 => h.unspaced (by rw [hd, h0])
  have hline : d ≠ '\n' := fun h0 => h.unended (by rw [hd, h0])
  have hbody := hblock.append (block_last (hv.of_get? h.block) (h.blockKind hv) h.blockText) (by decide) htail
  have hfrom := htest.append hd hline (hbody.spaced (by simpa using hspace))
  have harm := ((hfrom.spaced (by decide)).word hword.2 hword.1).node (c := c) a.node.kind
  rw [ifStatement_script hv h.kind h.test h.block ha parent]
  simpa only [Arm.text, String.append_assoc] using harm

/-- an alternative stands behind `@else` and a space -/
theorem else_follows {n : Node} {t : String} (h : Follows indent (some ' ') (n.script (some .ifStatement)) t) :
    Follows indent (some '\x7d') (elseScript (some n)) (" @else " ++ t) := by
  have helse := ((h.spaced (c := some 'e') (by decide)).word (w := "@else") (by decide) rfl).spaced
    (c := some '\x7d') (by decide)
  rwa [← String.append_assoc, ← String.append_assoc] at helse

/-- **A chain inside a line.** By induction over the further arms. -/
theorem chain_follows {otherwise : Option (Node × String)} {rest : List Arm} :
    ∀ {first : Arm}, first.node.Valid → (∀ a ∈ first :: rest, a.Renders indent) →
      Linked indent otherwise first rest → ∀ (parent : Option Kind) (c : Option Char),
      Follows indent c (first.node.script parent)
        (ifWord parent ++ (" " ++ (first.text ++ chainTail rest otherwise))) := by
  -- for every parent, because only the first arm is written without an `@if` above it
  induction rest with
  | nil =>
    intro first hv hr hl
    have hfirst := hr first List.mem_cons_self
    cases otherwise with
    | none => exact arm_follows hfirst hv none hl .nil
    | some e =>
      obtain ⟨ha, hk, htext⟩ := hl
      have hve := hv.of_get? ha
      have helse := follows_of_render hve (block_fluent hve hk _) htext
      rw [Option.map_some, hfirst.kind] at helse
      exact arm_follows hfirst hv (some e.1) ha (else_follows helse)
  | cons b rest ih =>
    intro first hv hr hl
    obtain ⟨hfirst, hrest⟩ := List.forall_mem_cons.1 hr
    obtain ⟨ha, hl⟩ := hl
    have hnext := else_follows (ih (hv.of_get? ha) hrest hl (some .ifStatement) (some ' '))
    have htail : " @else " ++ (ifWord (some .ifStatement) ++ (" " ++ (b.text ++ chainTail rest otherwise))) =
        chainTail (b :: rest) otherwise := by
      have hword : " @else " ++ (ifWord (some .ifStatement) ++ " ") = " @else if " := rfl
      simp only [chainTail, List.map_cons, String.join_cons, ← String.append_assoc, ← hword]
    rw [htail] at hnext
    exact arm_follows hfirst hv (some b.node) ha hnext

end Chains

/-! ## Chains on their own -/

theorem ifStatement_head {n : Node} (hv : n.Valid) (hk : n.kind = .ifStatement) :
    ∃ s, n.script none = [.enter n.kind, token "@if", space] ++ s := by
  rw [script_eq hv, formatted_of_kind hk]
  exact ⟨_, rfl⟩

/-- an `@if` that is nobody's alternative starts with its keyword -/
theorem ifStatement_opens {n : Node} (hv : n.Valid) (hk : n.kind = .ifStatement) {indent text : String}
    (hr : render n none indent = .ok text) : ∃ more, text = "@if " ++ more := by
  obtain ⟨s, hs⟩ := ifStatement_head hv hk
  obtain ⟨-, htext⟩ := run_of_render hr
  rw [Option.map_none, hs] at htext
  obtain ⟨more, hmore⟩ := (Generator.run_grows s _).text
  exact ⟨more, htext.symm.trans hmore⟩

/-- what an `@if` adds to a line on which nothing stands is its text: outside all blocks its keyword is not indented -/
theorem render_of_follows {n : Node} (hv : n.Valid) (hk : n.kind = .ifStatement) {indent text : String}
    (h : Follows indent none (n.script none) text) : render n none indent = .ok text := by
  obtain ⟨s, hs⟩ := ifStatement_head hv hk
  have hstart : Generator.run (n.script none) (.new indent) =
      Generator.run (n.script none) ⟨⟨[], indent, 0, false⟩, []⟩ := by
    rw [hs]
    rfl
  obtain ⟨hrun, hprinter⟩ := h ⟨⟨[], indent, 0, false⟩, []⟩ rfl rfl rfl rfl
  rw [render, Generator.write, Option.map_none, hstart]
  generalize Generator.run (n.script none) ⟨⟨[], indent, 0, false⟩, []⟩ = out at hrun hprinter
  obtain ⟨g, fault⟩ := out
  simp only at hrun hprinter
  subst hrun
  have htext : g.text = text := by
    rw [Generator.text, hprinter, Printer.flow_text]
    exact String.empty_append
  rw [← htext]

/-- the blocks of a chain with their texts, that of an `@else` last -/
def chainBlocks (first : Arm) (rest : List Arm) (otherwise : Option (Node × String)) : List (Node × String) :=
  (first :: rest).map (fun a => (a.block, a.blockText)) ++ otherwise.toList

theorem chainBlocks_rendered {indent : String} {otherwise : Option (Node × String)} {rest : List Arm} :
    ∀ {first : Arm}, first.node.Valid → (∀ a ∈ first :: rest, a.Renders indent) →
      Linked indent otherwise first rest → ∀ e ∈ chainBlocks first rest otherwise,
      e.1.Valid ∧ e.1.kind = .blockStatement ∧ ∃ parent, render e.1 parent indent = .ok e.2 := by
  induction rest with
  | nil =>
    intro first hv hr hl e he
    have hfirst := hr first List.mem_cons_self
    rcases List.mem_cons.1 he with rfl | he
    · exact ⟨hv.of_get? hfirst.block, hfirst.blockKind hv, _, hfirst.blockText⟩
    · cases otherwise with
      | none => cases he
      | some o =>
        obtain rfl := List.mem_singleton.1 he
        obtain ⟨ha, hk, htext⟩ := hl
        exact ⟨hv.of_get? ha, hk, _, htext⟩
  | cons b rest ih =>
    intro first hv hr hl e he
    obtain ⟨hfirst, hrest⟩ := List.forall_mem_cons.1 hr
    rcases List.mem_cons.1 he with rfl | he
    · exact ⟨hv.of_get? hfirst.block, hfirst.blockKind hv, _, hfirst.blockText⟩
    · exact ih (hv.of_get? hl.1) hrest hl.2 e he

/-- under anything but another `@if` an `@if` starts with its keyword, as it does on its own -/
theorem ifStatement_starts {n : Node} (hv : n.Valid) (hk : n.kind = .ifStatement) {parent : Option Node}
    (hp : parent.map Node.kind ≠ some .ifStatement) {indent text : String} (hr : render n parent indent = .ok text) :
    render n none indent = .ok text ∧ ∃ more, text = "@if " ++ more := by
  have halone : render n none indent = .ok text := by
    rw [render, Generator.write, ifStatement_script_parent hk hp] at hr
    exact hr
  exact ⟨halone, ifStatement_opens hv hk halone⟩

/-- **Chains of `@else`.** A chain of any length is rendered to `@if` and the test and the block of its first arm, then
for every further arm `@else if` and its test and block, then `@else` and the last block if there is one, all separated
by single spaces; every text is the one that the part has on its own, under its arm. A block is its statements in
braces; an `@if` among them, and wherever else it is not the alternative of an `@if`, starts with its own keyword. -/
theorem else_chain {indent : String} {first : Arm} {rest : List Arm} {otherwise : Option (Node × String)}
    (hv : first.node.Valid) (hr : ∀ a ∈ first :: rest, a.Renders indent) (hl : Linked indent otherwise first rest) :
    render first.node none indent = .ok ("@if " ++ first.text ++
      String.join (rest.map fun a => " @else if " ++ a.text) ++ elseText otherwise) ∧
    (∀ e ∈ chainBlocks first rest otherwise, ∃ (cs : List Node) (lines : Node → List Line),
      e.1.get? "body" = some (.list (cs.map Node.toValue)) ∧
      e.2 = bracedText (fun c => Line.stack indent 1 (lines c)) cs ∧
      ∀ c ∈ cs, render c (some e.1) indent = .ok (Line.stack indent 0 (lines c)) ∧
        (c.kind = .ifStatement → ∃ more, Line.stack indent 0 (lines c) = "@if " ++ more)) ∧
    ∀ n : Node, n.Valid → n.kind = .ifStatement → ∀ parent : Option Node, parent.map Node.kind ≠ some .ifStatement →
      ∀ text, render n parent indent = .ok text → render n none indent = .ok text ∧ ∃ more, text = "@if " ++ more := by
  refine ⟨?_, ?_, fun n hvn hk parent hp text hr => ifStatement_starts hvn hk hp hr⟩
  · rw [render_of_follows hv (hr first List.mem_cons_self).kind (chain_follows hv hr hl none none)]
    simp only [ifWord, chainTail, ← String.append_assoc]
    rfl
  · intro e he
    obtain ⟨hve, hk, parent, hrender⟩ := chainBlocks_rendered hv hr hl e he
    obtain ⟨cs, lines, hg, hown, htext⟩ := block_render hve hk hrender
    refine ⟨cs, lines, hg, htext, fun c hc => ⟨hown c hc, fun hif => ?_⟩⟩
    have hvc : c.Valid := hve.of_child c (List.mem_flatMap.2 ⟨_, mem_of_lookup hg, by simpa using hc⟩)
    exact (ifStatement_starts hvc hif (by simp [hk]) (hown c hc)).2

/-- a variable, a map and a flag are asked one after the other; the first block asks again -/
def themeChain : Arm × List Arm × Node :=
  let red : Value := .node .sassColor [("value", .string "red")]
  let flag : Node := ⟨.sassBoolean, [("value", .bool true)]⟩
  let tone : Node := ⟨.identifier, [("name", .string "tone")]⟩
  let key : Value := .node .identifier [("name", .string "main")]
  let map : Node := ⟨.sassMap, [("properties", .list [.node .sassMapProperty [("key", key), ("value", red)]])]⟩
  let block : List Value → Node := fun body => ⟨.blockStatement, [("body", .list body)]⟩
  let branch : Node → Node → Option Node → Node := fun test body alternate =>
    ⟨.ifStatement, [("test", test.toValue), ("consequent", body.toValue)] ++
      (alternate.map fun n => ("alternate", n.toValue)).toList⟩
  let asking := block [(branch flag (block []) none).toValue]
  let last := block [.node .atContent []]
  let third := branch flag (block []) (some last)
  let second := branch map (block []) (some third)
  (⟨branch tone asking (some second), tone, asking, "$tone", "\x7b\n  @if true \x7b\n  \x7d\n\x7d"⟩,
    [⟨second, map, block [], "(\n  main: red\n)", "\x7b\n\x7d"⟩, ⟨third, flag, block [], "true", "\x7b\n\x7d"⟩], last)

theorem themeChain_renders : ∀ a ∈ themeChain.1 :: themeChain.2.1, a.Renders "  " := by
  intro a ha
  rcases List.mem_cons.1 ha with rfl | ha
  · exact ⟨rfl, rfl, rfl, by decide, rfl, rfl, by decide, by decide, by decide⟩
  rcases List.mem_cons.1 ha with rfl | ha
  · exact ⟨rfl, rfl, rfl, by decide, rfl, rfl, by decide, by decide, by decide⟩
  · obtain rfl := List.mem_singleton.1 ha
    exact ⟨rfl, rfl, rfl, by decide, rfl, rfl, by decide, by decide, by decide⟩

theorem themeChain_linked :
    Linked "  " (some (themeChain.2.2, "\x7b\n  @content;\n\x7d")) themeChain.1 themeChain.2.1 :=
  ⟨rfl, rfl, rfl, rfl, rfl⟩

/-- the chain in one piece -/
theorem themeChain_text : themeChain.1.node.Valid ∧
    render themeChain.1.node none "  " = .ok ("@if $tone \x7b\n  @if true \x7b\n  \x7d\n\x7d" ++
      " @else if (\n  main: red\n) \x7b\n\x7d @else if true \x7b\n\x7d @else \x7b\n  @content;\n\x7d") := by
  have hv : themeChain.1.node.Valid := Value.valid_of_isValid _ rfl
  exact ⟨hv, (else_chain hv themeChain_renders themeChain_linked).1⟩

end StyleTree
