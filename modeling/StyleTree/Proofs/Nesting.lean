/-
How runs of scripts end. A nested script opens and closes nodes and blocks in pairs; its run goes to the end unless it
holds a failure, and then it stops inside the nodes and blocks that are open there. `Nested s r` says that `s` is nested
and stops at `r`, if at all; of two scripts in a row the first one that stops decides.

- `Nested.run`: from any generator, a nested script that does not stop leaves path and depth as they were; one that
  stops leaves exactly the open nodes on the path and the open blocks in the depth, and reports that path.
- `Nested.close_deep`: no block is ever closed at the depth the run started from, so closing never saturates.
- `run_grows`: every run only appends to the text.
-/
import StyleTree.Generator
import StyleTree.Proofs.Printer

namespace StyleTree

open Instr

/-! ## Runs -/

namespace Generator

theorem run_append (s t : Script) (g : Generator) :
    run (s ++ t) g = match run s g with
      | (g', none) => run t g'
      | (g', some e) => (g', some e) := by
  induction s generalizing g with
  | nil => rfl
  | cons i s ih =>
    cases i with
    | print op => exact ih _
    | enter k => exact ih _
    | leave => exact ih _
    | fail f => rfl

theorem run_append_of_none {s : Script} {g : Generator} (h : (run s g).2 = none) (t : Script) :
    run (s ++ t) g = run t (run s g).1 := by
  rw [run_append]
  generalize run s g = out at h ⊢
  obtain ⟨g', e⟩ := out
  cases h; rfl

theorem run_append_of_some {s : Script} {g : Generator} {e : RenderError} (h : (run s g).2 = some e) (t : Script) :
    run (s ++ t) g = run s g := by
  rw [run_append]
  generalize run s g = out at h ⊢
  obtain ⟨g', o⟩ := out
  cases h; rfl

/-- a run that gets through `s ++ t` got through `s` -/
theorem run_none_of_append {s t : Script} {g : Generator} (h : (run (s ++ t) g).2 = none) : (run s g).2 = none := by
  cases hs : (run s g).2 with
  | none => rfl
  | some e => rw [run_append_of_some hs, hs] at h; cases h

/-- **Runs only append**, and keep the unit of indentation. -/
theorem run_grows (s : Script) (g : Generator) : g.printer.Grows (run s g).1.printer := by
  induction s generalizing g with
  | nil => exact Printer.Grows.refl _
  | cons i s ih =>
    cases i with
    | print op => exact (Printer.step_grows g.printer op).trans (ih (g.print op))
    | enter k => exact ih { g with path := g.path ++ [k] }
    | leave => exact ih { g with path := g.path.dropLast }
    | fail f => exact Printer.Grows.refl _

end Generator

/-! ## Rows -/

/-- the scripts of items in a row, with something between each two that may depend on both -/
def joined {α : Type} (between : α → α → Script) (f : α → Script) : List α → Script
  | [] => []
  | [a] => f a
  | a :: a' :: rest => f a ++ (between a a' ++ joined between f (a' :: rest))

theorem intercalate_eq_joined {α : Type} (sep : Script) (f : α → Script) (l : List α) :
    List.intercalate sep (l.map f) = joined (fun _ _ => sep) f l := by
  induction l with
  | nil => rfl
  | cons a l ih =>
    cases l with
    | nil => exact List.intercalate_singleton
    | cons b l =>
      rw [List.map_cons, List.map_cons, List.intercalate_cons_cons, ← List.map_cons, ih, List.append_assoc]; rfl

/-! ## Nested scripts -/

/-- where a run stops: the nodes and the number of blocks open there, and why -/
structure Halt where
  path : List Kind
  depth : Nat
  fault : Fault
deriving DecidableEq, Repr

namespace Halt

/-- the same stop, seen from outside a node -/
def within (k : Kind) (h : Halt) : Halt := { h with path := k :: h.path }

/-- the same stop, seen from outside a block -/
def deeper (h : Halt) : Halt := { h with depth := h.depth + 1 }

end Halt

/-- nodes and blocks are opened and closed in pairs, and the run stops as given -/
inductive Nested : Script → Option Halt → Prop
  | nil : Nested [] none
  | print {op : Printer.Op} (h : op.isFlat = true) : Nested [.print op] none
  | fail (f : Fault) : Nested [.fail f] (some ⟨[], 0, f⟩)
  | append {s t : Script} {r r' : Option Halt} (hs : Nested s r) (ht : Nested t r') : Nested (s ++ t) (r.or r')
  | block (m m' : String) {s : Script} {r : Option Halt} (h : Nested s r) :
      Nested ([openBlock m] ++ s ++ [closeBlock m']) (r.map Halt.deeper)
  | node (k : Kind) {s : Script} {r : Option Halt} (h : Nested s r) :
      Nested ([.enter k] ++ s ++ [.leave]) (r.map (Halt.within k))

namespace Nested

/-- flat operations in a row -/
theorem prints {s : Script} (h : ∀ i ∈ s, ∃ op : Printer.Op, i = .print op ∧ op.isFlat = true) : Nested s none := by
  induction s with
  | nil => exact .nil
  | cons i s ih =>
    obtain ⟨op, rfl, hop⟩ := h i List.mem_cons_self
    exact .append (.print hop) (ih fun j hj => h j (List.mem_cons_of_mem _ hj))

theorem flatMap {α : Type} {l : List α} {f : α → Script} {r : α → Option Halt}
    (h : ∀ a ∈ l, Nested (f a) (r a)) : Nested (l.flatMap f) (l.findSome? r) := by
  induction l with
  | nil => exact .nil
  | cons a l ih =>
    have hl := ih fun b hb => h b (List.mem_cons_of_mem _ hb)
    have ha := Nested.append (h a List.mem_cons_self) hl
    rw [List.flatMap_cons, List.findSome?_cons]
    cases hr : r a with
    | none => rwa [hr] at ha
    | some x => rwa [hr] at ha

/-- a row stops where the first of its items does, if nothing between them stops -/
theorem joined {α : Type} {between : α → α → Script} (hb : ∀ a a', Nested (between a a') none) {l : List α}
    {f : α → Script} {r : α → Option Halt} (h : ∀ a ∈ l, Nested (f a) (r a)) :
    Nested (StyleTree.joined between f l) (l.findSome? r) := by
  induction l with
  | nil => exact .nil
  | cons a l ih =>
    have ha := h a List.mem_cons_self
    have hl := ih fun b hb => h b (List.mem_cons_of_mem _ hb)
    rw [List.findSome?_cons]
    cases l with
    | nil => cases hr : r a <;> simpa [StyleTree.joined, hr] using ha
    | cons b l =>
      have hall := Nested.append ha (Nested.append (hb a b) hl)
      cases hr : r a <;> simpa [StyleTree.joined, hr] using hall

/-- scripts with a flat separator between them -/
theorem intercalate {α : Type} {sep : Script} (hsep : Nested sep none) {l : List α} {f : α → Script}
    {r : α → Option Halt} (h : ∀ a ∈ l, Nested (f a) (r a)) :
    Nested (List.intercalate sep (l.map f)) (l.findSome? r) := by
  rw [intercalate_eq_joined]
  exact .joined (fun _ _ => hsep) h

end Nested

/-! ## Where runs of nested scripts end -/

/-- path, depth and error after a run that stopped as given -/
structure Ends (g : Generator) (r : Option Halt) (out : Generator × Option RenderError) : Prop where
  path : out.1.path = g.path ++ (r.map Halt.path).getD []
  depth : out.1.printer.depth = g.printer.depth + (r.map Halt.depth).getD 0
  error : out.2 = r.map fun h => ⟨h.fault, g.path ++ h.path⟩

namespace Nested

variable {s : Script} {r : Option Halt}

/-- **The effect of a nested script** on path and depth, from any generator. -/
theorem run (h : Nested s r) (g : Generator) : Ends g r (Generator.run s g) := by
  induction h generalizing g with
  | nil => exact ⟨by simp [Generator.run], rfl, rfl⟩
  | print hop => exact ⟨by simp [Generator.run, Generator.print], Printer.step_depth_of_flat hop g.printer, rfl⟩
  | fail f => exact ⟨by simp [Generator.run], rfl, by simp [Generator.run]⟩
  | @append s t r r' _ _ ihs iht =>
    have hs := ihs g
    cases r with
    | none =>
      have ht := iht (Generator.run s g).1
      rw [Generator.run_append_of_none hs.error]
      refine ⟨?_, ?_, ?_⟩
      · rw [ht.path, hs.path]; simp
      · rw [ht.depth, hs.depth]; simp
      · rw [ht.error, hs.path]; simp
    | some x => rw [Generator.run_append_of_some hs.error]; exact hs
  | @block m m' s r _ ih =>
    have hs := ih (g.print (.openBlock m))
    have hd : (g.print (.openBlock m)).printer.depth = g.printer.depth + 1 := Printer.step_depth _ _
    rw [List.append_assoc, List.singleton_append]
    change Ends g _ (Generator.run (s ++ [closeBlock m']) (g.print (.openBlock m)))
    cases r with
    | none =>
      rw [Generator.run_append_of_none hs.error]
      refine ⟨hs.path, ?_, rfl⟩
      have hc := Printer.step_depth (Generator.run s (g.print (.openBlock m))).1.printer (.closeBlock m')
      rw [hs.depth, hd] at hc
      exact hc
    | some x =>
      rw [Generator.run_append_of_some hs.error]
      refine ⟨hs.path, ?_, hs.error⟩
      rw [hs.depth, hd]; simp [Halt.deeper]; omega
  | @node k s r _ ih =>
    have hs := ih { g with path := g.path ++ [k] }
    rw [List.append_assoc, List.singleton_append]
    change Ends g _ (Generator.run (s ++ [.leave]) { g with path := g.path ++ [k] })
    cases r with
    | none =>
      rw [Generator.run_append_of_none hs.error]
      refine ⟨?_, hs.depth, rfl⟩
      change (Generator.run s { g with path := g.path ++ [k] }).1.path.dropLast = _
      rw [hs.path]; simp
    | some x =>
      rw [Generator.run_append_of_some hs.error]
      refine ⟨?_, hs.depth, ?_⟩
      · rw [hs.path]; simp [Halt.within]
      · rw [hs.error]; simp [Halt.within]

/-- an element of two lists in a row stands in the first or in the second -/
theorem split_append {α : Type} {s t pre post : List α} {x : α} (h : s ++ t = pre ++ x :: post) :
    (∃ u, s = pre ++ x :: u) ∨ ∃ u, pre = s ++ u ∧ t = u ++ x :: post := by
  obtain ⟨u, rfl, ht⟩ | ⟨u, hs, hu⟩ := List.append_eq_append_iff.1 h
  · exact Or.inr ⟨u, rfl, ht⟩
  · cases u with
    | nil => exact Or.inr ⟨[], by simpa using hs.symm, by simpa using hu.symm⟩
    | cons y u =>
      obtain ⟨rfl, -⟩ := List.cons.inj hu
      exact Or.inl ⟨u, hs⟩

theorem split_singleton {α : Type} {y x : α} {pre post : List α} (h : [y] = pre ++ x :: post) : pre = [] ∧ y = x := by
  cases pre with
  | nil => exact ⟨rfl, (List.cons.inj h).1⟩
  | cons z pre => cases pre <;> cases h

/-- a run that gets through a nested script leaves the depth as it was -/
theorem depth_of_none (h : Nested s r) {g : Generator} (hr : (Generator.run s g).2 = none) :
    (Generator.run s g).1.printer.depth = g.printer.depth := by
  have he := (h.run g).error
  have hd := (h.run g).depth
  cases r with
  | none => exact hd
  | some x => rw [hr] at he; cases he

/-- **Blocks are closed above the depth they started from**, wherever the run has got to. -/
theorem close_deep (h : Nested s r) {pre post : Script} {m : String} (hs : s = pre ++ closeBlock m :: post)
    (g : Generator) (hr : (Generator.run pre g).2 = none) :
    g.printer.depth < (Generator.run pre g).1.printer.depth := by
  induction h generalizing pre post g with
  | nil => cases pre <;> cases hs
  | print hop =>
    obtain ⟨-, he⟩ := split_singleton hs
    cases he; cases hop
  | fail f =>
    obtain ⟨-, he⟩ := split_singleton hs
    cases he
  | @append s t r r' hns _ ihs iht =>
    obtain ⟨u, hu⟩ | ⟨u, rfl, ht⟩ := split_append hs
    · exact ihs hu g hr
    · have h0 := Generator.run_none_of_append hr
      rw [Generator.run_append_of_none h0] at hr ⊢
      have hlt := iht ht _ hr
      rwa [hns.depth_of_none h0] at hlt
  | @block m₁ m₂ s r hns ih =>
    have hd : (g.print (.openBlock m₁)).printer.depth = g.printer.depth + 1 := Printer.step_depth _ _
    rw [List.append_assoc] at hs
    obtain ⟨u, hu⟩ | ⟨u, rfl, hu⟩ := split_append hs
    · obtain ⟨-, he⟩ := split_singleton hu
      cases he
    · change (Generator.run u (g.print (.openBlock m₁))).2 = none at hr
      change _ < (Generator.run u (g.print (.openBlock m₁))).1.printer.depth
      obtain ⟨v, hv⟩ | ⟨v, rfl, hv⟩ := split_append hu
      · have hlt := ih hv _ hr
        omega
      · obtain ⟨rfl, -⟩ := split_singleton hv
        rw [List.append_nil] at hr ⊢
        rw [hns.depth_of_none hr, hd]
        omega
  | @node k s r hns ih =>
    rw [List.append_assoc] at hs
    obtain ⟨u, hu⟩ | ⟨u, rfl, hu⟩ := split_append hs
    · obtain ⟨-, he⟩ := split_singleton hu
      cases he
    · obtain ⟨v, hv⟩ | ⟨v, rfl, hv⟩ := split_append hu
      · exact ih hv { g with path := g.path ++ [k] } hr
      · obtain ⟨-, he⟩ := split_singleton hv
        cases he

end Nested

end StyleTree
