/-
What writing leaves behind. Writing a node moves a generator through text, depth and path; this module says where it
ends, from any generator whatsoever, also one that earlier failures left in the middle of nodes and blocks.

- text: what was there stays in front, and the unit of indentation stays;
- success: depth and path are as before, and no block is closed that the node did not open;
- failure: the nodes down to the declaration to blame stay on the path, which is the path that is reported, and the
  blocks that those nodes had opened stay open.
A generator that is used over and over therefore has a path that is made of its failures (`session_path`): printing in
between, or writing that succeeds, takes nothing off it and puts nothing on it.
-/
import StyleTree.Proofs.Offence

namespace StyleTree

open Emission Instr

/-! ## The declaration to blame -/

/-- the first declaration of a tree that offends -/
def Node.blamed? (n : Node) : Option Occurrence := n.occurrences.find? fun o => o.node.offence?.isSome

/-- the kinds from a node down to the declaration to blame; none if there is none -/
def Node.chain (n : Node) : List Kind := (n.blamed?.map Occurrence.path).getD []

theorem findSome?_eq_find? {α β : Type} (l : List α) (f : α → Option β) :
    l.findSome? f = (l.find? fun a => (f a).isSome).bind f := by
  induction l with
  | nil => rfl
  | cons a l ih =>
    rw [List.findSome?_cons, List.find?_cons, ih]
    cases h : f a with
    | none => rfl
    | some b => exact h.symm

/-- writing stops at the declaration to blame -/
theorem halt?_eq_blamed? (n : Node) : n.halt? = n.blamed?.bind Occurrence.halt? := by
  have hsome : (fun o : Occurrence => o.halt?.isSome) = fun o => o.node.offence?.isSome := by
    funext o
    rw [Occurrence.halt?, Option.isSome_map]
  rw [Node.halt?, findSome?_eq_find?, hsome, Node.blamed?]

theorem blamed?_of_halt? {n : Node} {h : Halt} (hh : n.halt? = some h) :
    ∃ o, n.blamed? = some o ∧ h.path = o.path ∧ h.depth = o.path.countP Kind.opensBlock := by
  rw [halt?_eq_blamed?, Option.bind_eq_some_iff] at hh
  obtain ⟨o, ho, hh⟩ := hh
  obtain ⟨k, -, rfl⟩ := Option.map_eq_some_iff.1 hh
  exact ⟨o, ho, rfl, rfl⟩

/-! ## One node -/

section Write

variable {n : Node} (hv : n.Valid) (parent : Option Node) (g : Generator)

include hv

/-- success brings path and depth back -/
theorem write_restores (h : (g.write n parent).2 = none) :
    (g.write n parent).1.path = g.path ∧ (g.write n parent).1.printer.depth = g.printer.depth := by
  have he := write_ends hv parent g
  cases hh : n.halt? with
  | none =>
    rw [hh] at he
    exact ⟨by simpa using he.path, by simpa using he.depth⟩
  | some x => rw [he.error, hh] at h; cases h

/-- failure leaves the nodes on the way to the declaration to blame, and their blocks -/
theorem write_strands {e : RenderError} (h : (g.write n parent).2 = some e) :
    ∃ o, n.blamed? = some o ∧ (g.write n parent).1.path = g.path ++ o.path ∧ e.path = g.path ++ o.path ∧
      (g.write n parent).1.printer.depth = g.printer.depth + o.path.countP Kind.opensBlock := by
  have he := write_ends hv parent g
  cases hh : n.halt? with
  | none => rw [he.error, hh] at h; cases h
  | some x =>
    obtain ⟨o, ho, hp, hd⟩ := blamed?_of_halt? hh
    rw [hh] at he
    have herr := he.error
    rw [h, Option.map_some, Option.some.injEq] at herr
    refine ⟨o, ho, ?_, ?_, ?_⟩
    · rw [he.path, ← hp]; rfl
    · rw [herr, ← hp]
    · rw [he.depth, ← hd]; rfl

end Write

/-! ## Sessions -/

/-- one use of a generator: writing a node under a parent, or an operation of its printer -/
inductive Act where
  | write (node : Node) (parent : Option Node)
  | print (op : Printer.Op)

/-- only valid nodes are written -/
def Act.Valid : Act → Prop
  | .write n _ => n.Valid
  | .print _ => True

/-- one use of a generator; where it ends, and the node that could not be written, if so -/
def Generator.act (g : Generator) : Act → Generator × List Node
  | .print op => (g.print op, [])
  | .write n parent =>
    let out := g.write n parent
    (out.1, if out.2.isSome then [n] else [])

/-- one use after the other; where the generator ends, and the nodes that could not be written, first to last -/
def Generator.session (g : Generator) : List Act → Generator × List Node
  | [] => (g, [])
  | a :: acts =>
    let out := g.act a
    let rest := out.1.session acts
    (rest.1, out.2 ++ rest.2)

/-- one use puts the chain of the node that failed on the path, and nothing else -/
theorem act_path {a : Act} (ha : a.Valid) (g : Generator) :
    (g.act a).1.path = g.path ++ (g.act a).2.flatMap Node.chain := by
  cases a with
  | print op => exact (List.append_nil _).symm
  | write n parent =>
    change (g.write n parent).1.path = g.path ++ (if (g.write n parent).2.isSome then [n] else []).flatMap Node.chain
    cases hw : (g.write n parent).2 with
    | none => rw [(write_restores ha parent g hw).1]; exact (List.append_nil _).symm
    | some e =>
      obtain ⟨o, ho, hp, -, -⟩ := write_strands ha parent g hw
      have hc : n.chain = o.path := by rw [Node.chain, ho]; rfl
      rw [hp, ← hc]
      exact congrArg (g.path ++ ·) (List.flatMap_singleton _ _).symm

/-- **The path is made of failures.** -/
theorem session_path (acts : List Act) (ha : ∀ a ∈ acts, a.Valid) (g : Generator) :
    (g.session acts).1.path = g.path ++ (g.session acts).2.flatMap Node.chain := by
  induction acts generalizing g with
  | nil => exact (List.append_nil _).symm
  | cons a acts ih =>
    have hrest := ih (fun b hb => ha b (List.mem_cons_of_mem _ hb)) (g.act a).1
    have hstep := act_path (ha a List.mem_cons_self) g
    calc (g.session (a :: acts)).1.path
        = (g.act a).1.path ++ ((g.act a).1.session acts).2.flatMap Node.chain := hrest
      _ = g.path ++ ((g.act a).2.flatMap Node.chain ++ ((g.act a).1.session acts).2.flatMap Node.chain) := by
          rw [hstep, List.append_assoc]
      _ = g.path ++ (g.session (a :: acts)).2.flatMap Node.chain := by
          rw [← List.flatMap_append]; rfl

/-- **What writing leaves behind.** From any generator, writing a valid node keeps the text in front and the unit of
indentation, and closes no block but its own. Success restores depth and path; failure leaves exactly the kinds down to
the declaration to blame on the path, and their blocks open. So the path of a generator that started new is, after any
use, the chains of the nodes that could not be written. -/
theorem write_residue :
    (∀ (n : Node) (_ : n.Valid) (parent : Option Node) (g : Generator),
      (∃ added, (g.write n parent).1.text = g.text ++ added) ∧
      (g.write n parent).1.printer.indent = g.printer.indent ∧
      (∀ done mark rest, n.script (parent.map Node.kind) = done ++ closeBlock mark :: rest →
        (Generator.run done g).2 = none → g.printer.depth < (Generator.run done g).1.printer.depth) ∧
      ((g.write n parent).2 = none →
        (g.write n parent).1.path = g.path ∧ (g.write n parent).1.printer.depth = g.printer.depth) ∧
      ∀ e, (g.write n parent).2 = some e →
        ∃ o, n.blamed? = some o ∧ (g.write n parent).1.path = g.path ++ o.path ∧ e.path = g.path ++ o.path ∧
          (g.write n parent).1.printer.depth = g.printer.depth + o.path.countP Kind.opensBlock) ∧
    ∀ (indent : String) (acts : List Act), (∀ a ∈ acts, a.Valid) →
      ((Generator.new indent).session acts).1.path = ((Generator.new indent).session acts).2.flatMap Node.chain := by
  refine ⟨fun n hv parent g => ?_, fun indent acts ha => session_path acts ha (Generator.new indent)⟩
  have hgrow := Generator.run_grows (n.script (parent.map Node.kind)) g
  exact ⟨hgrow.text, hgrow.indent, fun done mark rest hs hr => (script_nested n hv _).close_deep hs g hr,
    write_restores hv parent g, fun e he => write_strands hv parent g he⟩

/-- a generator that was left deep in something else -/
def stale : Generator := ⟨⟨['x'], "\t", 3, false⟩, [.atRule]⟩

/-- the sheet fails from there, and in a session it fails twice -/
theorem brandSheet_residue :
    ((stale.write brandSheet none).1.path = [.atRule, .styleSheet, .rule, .declaration] ∧
      (stale.write brandSheet none).1.printer.depth = 4) ∧
    ((Generator.new "  ").session [.write brandSheet none, .print .newline, .write brandSheet none]).1.path =
      [.styleSheet, .rule, .declaration, .styleSheet, .rule, .declaration] := by
  have hvalid : ∀ a ∈ [Act.write brandSheet none, .print .newline, .write brandSheet none], a.Valid := by
    simp [Act.Valid, brandSheet_valid]
  have hfail : ∀ g : Generator, ∃ e, (g.write brandSheet none).2 = some e := by
    intro g
    rw [(write_ends brandSheet_valid none g).error]
    exact ⟨_, rfl⟩
  refine ⟨?_, ?_⟩
  · obtain ⟨e, he⟩ := hfail stale
    obtain ⟨o, ho, hpath, -, hdepth⟩ := (write_residue.1 brandSheet brandSheet_valid none stale).2.2.2.2 e he
    have hchain : o.path = brandSheet.chain := by rw [Node.chain, ho]; rfl
    rw [hpath, hdepth, hchain]
    exact ⟨rfl, rfl⟩
  · rw [write_residue.2 "  " _ hvalid]
    simp only [Generator.session, Generator.act, fun g => Option.isSome_iff_exists.2 (hfail g)]
    rfl

end StyleTree
