/-
Templates. A template is a script with holes for texts. Filled with texts that are clean, that is not empty, without a
line feed and without a space at the end, it always prints the same way around them: `gaps` are the strings before,
between and after the holes, and they are computed from the template alone (`run_fill`).

The reason is what a printer can see. Behind a clean text the cursor stands on a line, and the character before it is
not a space; so a printer that has just printed one goes on like a printer that has printed nothing on its line yet,
whatever the text was. `Continues base q p` says that `p` is such a `q` on top of what `base` holds.

`Uniform` is the other half: scripts of many trees that are all fillings of one template, each with its own texts. It
passes through everything that scripts are put together with.
-/
import Mathlib.Data.List.Basic
import StyleTree.Proofs.Nesting

namespace StyleTree

open Instr

/-! ## Clean texts -/

/-- a text that the printer cannot mistake for layout: not empty, no line feed, no space at the end -/
structure Clean (text : String) : Prop where
  nonempty : text ≠ ""
  unbroken : '\n' ∉ text.toList
  unspaced : text.toList.getLast? ≠ some ' '

theorem Clean.isEmpty {text : String} (h : Clean text) : text.isEmpty = false := by
  rw [Bool.eq_false_iff, ne_eq, String.isEmpty_iff]
  exact h.nonempty

namespace Printer

/-- what a printer writes before the next character -/
def margin (p : Printer) : List Char := if p.atLineStart then p.indentation else []

theorem foldl_put_inline {p : Printer} (hp : p.atLineStart = false) {l : List Char} (hl : '\n' ∉ l) :
    l.foldl put p = { p with written := l.reverse ++ p.written } := by
  induction l generalizing p with
  | nil => rfl
  | cons c l ih =>
    simp only [List.mem_cons, not_or] at hl
    have hput : p.put c = { p with written := c :: p.written } := by
      rw [put, if_neg fun h => hl.1 h.symm, hp]; rfl
    have hrest := ih (p := { p with written := c :: p.written }) hp hl.2
    rw [List.foldl_cons, hput, hrest]
    simp

/-- a clean text stands behind the margin, and the cursor behind it -/
theorem token_clean (p : Printer) {t : String} (ht : Clean t) :
    p.token t =
      { p with written := t.toList.reverse ++ (p.margin.reverse ++ p.written), atLineStart := false } := by
  rw [token_eq_foldl]
  have hne := ht.nonempty
  have hl := ht.unbroken
  rw [ne_eq, ← String.toList_eq_nil_iff] at hne
  generalize t.toList = l at hne hl
  cases l with
  | nil => exact absurd rfl hne
  | cons c l =>
    simp only [List.mem_cons, not_or] at hl
    have hput : p.put c = { p with written := c :: (p.margin.reverse ++ p.written), atLineStart := false } := by
      rw [put, if_neg fun h => hl.1 h.symm, margin]
      cases p.atLineStart <;> simp
    rw [List.foldl_cons, hput, foldl_put_inline rfl hl.2]
    simp

end Printer

/-! ## Templates -/

/-- a place in a template: an instruction, or a hole for a text -/
inductive Slot where
  | fixed (i : Instr)
  | hole
deriving DecidableEq, Repr

/-- the number of holes -/
def holes : List Slot → Nat
  | [] => 0
  | .fixed _ :: slots => holes slots
  | .hole :: slots => holes slots + 1

/-- the script of a template, with texts in the holes -/
def fill : List Slot → List String → Script
  | .fixed i :: slots, texts => i :: fill slots texts
  | .hole :: slots, t :: texts => token t :: fill slots texts
  | _, _ => []

/-- what a printer writes before, between and after the holes -/
def gaps (p : Printer) : List Slot → List String
  | [] => [p.text]
  | .fixed (.print op) :: slots => gaps (p.step op) slots
  | .fixed _ :: slots => gaps p slots
  | .hole :: slots =>
    (p.text ++ String.ofList p.margin) :: gaps { p with written := [], atLineStart := false } slots

/-- strings and texts in turn, strings first and last -/
def weave : List String → List String → String
  | gap :: gaps, t :: texts => gap ++ t ++ weave gaps texts
  | gap :: _, [] => gap
  | [], _ => ""

theorem gaps_length (p : Printer) (slots : List Slot) : (gaps p slots).length = holes slots + 1 := by
  fun_induction gaps p slots with
  | case1 p => rfl
  | case2 p op slots ih => exact ih
  | case3 p i slots hi ih => exact ih
  | case4 p slots ih => rw [List.length_cons, ih, holes]

/-! ## Printing on top of a text -/

/-- `p` stands where `q` stands, with `base` below; if `q` has written nothing yet, `base` hides no space from it -/
structure Continues (base : List Char) (q p : Printer) : Prop where
  state : p = { q with written := q.written ++ base }
  hidden : q.written = [] → q.atLineStart = false → base.head? ≠ some ' '

namespace Continues

variable {base : List Char} {q p : Printer}

theorem newline (h : Continues base q p) : Continues base q.newline p.newline :=
  ⟨by rw [h.state]; rfl, nofun⟩

theorem maybeNewline (h : Continues base q p) : Continues base q.maybeNewline p.maybeNewline := by
  have hp : p.atLineStart = q.atLineStart := by rw [h.state]
  unfold Printer.maybeNewline
  rw [hp]
  split
  · exact h
  · exact h.newline

theorem put (h : Continues base q p) (c : Char) : Continues base (q.put c) (p.put c) := by
  obtain ⟨rfl, -⟩ := h
  unfold Printer.put
  by_cases hc : c = '\n'
  · rw [if_pos hc, if_pos hc]; exact ⟨rfl, nofun⟩
  · rw [if_neg hc, if_neg hc]
    cases hs : q.atLineStart with
    | true => exact ⟨by simp [Printer.indentation], nofun⟩
    | false => exact ⟨by simp, nofun⟩

theorem token (h : Continues base q p) (s : String) : Continues base (q.token s) (p.token s) := by
  rw [Printer.token_eq_foldl, Printer.token_eq_foldl]
  induction s.toList generalizing q p with
  | nil => exact h
  | cons c l ih => exact ih (h.put c)

/-- what `p` sees before its cursor is a space exactly if `q` sees one -/
theorem sees (h : Continues base q p) (hs : q.atLineStart = false) :
    (p.written.head? == some ' ') = (q.written.head? == some ' ') := by
  obtain ⟨rfl, hb⟩ := h
  cases hw : q.written with
  | nil => simpa using hb hw hs
  | cons c w => rfl

theorem space (h : Continues base q p) : Continues base q.space p.space := by
  have hp : p.atLineStart = q.atLineStart := by rw [h.state]
  unfold Printer.space
  rw [hp]
  cases hs : q.atLineStart with
  | true => exact h
  | false =>
    rw [Bool.false_or, Bool.false_or, h.sees hs]
    split
    · exact h
    · exact ⟨by rw [h.state]; rfl, nofun⟩

theorem step (h : Continues base q p) (op : Printer.Op) : Continues base (q.step op) (p.step op) := by
  cases op with
  | token s => exact h.token s
  | space => exact h.space
  | newline => exact h.newline
  | maybeNewline => exact h.maybeNewline
  | openBlock mark =>
    have h1 := (h.token mark).newline
    exact ⟨by simp only [Printer.step, Printer.openBlock, h1.state], h1.hidden⟩
  | closeBlock mark =>
    have h1 := h.maybeNewline
    have h2 : Continues base { q.maybeNewline with depth := q.maybeNewline.depth - 1 }
        { p.maybeNewline with depth := p.maybeNewline.depth - 1 } := ⟨by rw [h1.state], h1.hidden⟩
    exact h2.token mark

/-- a clean text starts a new gap on top of everything so far -/
theorem clean (h : Continues base q p) {t : String} (ht : Clean t) :
    Continues (p.token t).written { q with written := [], atLineStart := false } (p.token t) ∧
      (p.token t).text = String.ofList base.reverse ++ (q.text ++ String.ofList q.margin) ++ t := by
  have hm : p.margin = q.margin := by rw [h.state]; rfl
  have hlast : (t.toList.reverse ++ (p.margin.reverse ++ p.written)).head? ≠ some ' ' := by
    have hne : t.toList.reverse ≠ [] := by simpa using ht.nonempty
    rw [List.head?_append_of_ne_nil _ hne, List.head?_reverse]
    exact ht.unspaced
  rw [p.token_clean ht]
  refine ⟨⟨by rw [h.state]; rfl, fun _ _ => hlast⟩, ?_⟩
  rw [Printer.text, hm, h.state]
  simp [Printer.text, ← String.toList_inj]

end Continues

/-- **Fixed strings around the texts.** A template that is filled with clean texts and runs to its end has written its
gaps with the texts between them. -/
theorem run_fill (slots : List Slot) {base : List Char} {q : Printer} {g : Generator} {texts : List String}
    (h : Continues base q g.printer) (hlen : texts.length = holes slots) (hc : ∀ t ∈ texts, Clean t)
    (hok : (Generator.run (fill slots texts) g).2 = none) :
    (Generator.run (fill slots texts) g).1.text = String.ofList base.reverse ++ weave (gaps q slots) texts := by
  induction slots generalizing base q g texts with
  | nil =>
    obtain rfl := List.length_eq_zero_iff.1 hlen
    change g.printer.text = String.ofList base.reverse ++ q.text
    rw [h.state]
    simp [Printer.text]
  | cons slot slots ih =>
    cases slot with
    | fixed i =>
      cases i with
      | print op => exact ih (g := g.print op) (h.step op) hlen hc hok
      | enter k => exact ih (g := { g with path := g.path ++ [k] }) h hlen hc hok
      | leave => exact ih (g := { g with path := g.path.dropLast }) h hlen hc hok
      | fail f => cases hok
    | hole =>
      cases texts with
      | nil => cases hlen
      | cons t texts =>
        obtain ⟨hnext, htext⟩ := h.clean (hc t List.mem_cons_self)
        have hrest := ih (g := g.print (.token t)) hnext (Nat.succ.inj hlen)
          (fun x hx => hc x (List.mem_cons_of_mem _ hx)) hok
        change (Generator.run (fill slots texts) (g.print (.token t))).1.text = _
        rw [hrest]
        change (g.printer.token t).text ++ _ = _
        rw [htext, gaps, weave]
        simp only [String.append_assoc]

/-! ## Scripts that fill one template -/

/-- a script that runs like a template with texts in its holes -/
structure Fills (slots : List Slot) (texts : List String) (s : Script) : Prop where
  length : texts.length = holes slots
  run : ∀ g : Generator, Generator.run s g = Generator.run (fill slots texts) g

theorem holes_append (slots slots' : List Slot) : holes (slots ++ slots') = holes slots + holes slots' := by
  induction slots with
  | nil => exact (Nat.zero_add _).symm
  | cons slot slots ih =>
    cases slot with
    | fixed i => exact ih
    | hole => rw [List.cons_append, holes, ih, holes]; omega

theorem fill_append {slots : List Slot} {texts : List String} (h : texts.length = holes slots) (slots' : List Slot)
    (texts' : List String) : fill (slots ++ slots') (texts ++ texts') = fill slots texts ++ fill slots' texts' := by
  induction slots generalizing texts with
  | nil => obtain rfl := List.length_eq_zero_iff.1 h; rfl
  | cons slot slots ih =>
    cases slot with
    | fixed i => exact congrArg (i :: ·) (ih h)
    | hole =>
      cases texts with
      | nil => cases h
      | cons t texts => exact congrArg (token t :: ·) (ih (Nat.succ.inj h))

namespace Fills

theorem nil : Fills [] [] [] := ⟨rfl, fun _ => rfl⟩

theorem fixed (s : Script) : Fills (s.map .fixed) [] s := by
  have h : ∀ s : Script, holes (s.map .fixed) = 0 ∧ fill (s.map .fixed) [] = s := by
    intro s
    induction s with
    | nil => exact ⟨rfl, rfl⟩
    | cons i s ih => exact ⟨ih.1, congrArg (i :: ·) ih.2⟩
  exact ⟨(h s).1.symm, fun g => by rw [(h s).2]⟩

theorem hole (t : String) : Fills [.hole] [t] [token t] := ⟨rfl, fun _ => rfl⟩

theorem append {slots slots' : List Slot} {texts texts' : List String} {s s' : Script} (h : Fills slots texts s)
    (h' : Fills slots' texts' s') : Fills (slots ++ slots') (texts ++ texts') (s ++ s') := by
  refine ⟨by rw [List.length_append, h.length, h'.length, holes_append], fun g => ?_⟩
  rw [fill_append h.length, Generator.run_append, Generator.run_append, h.run]
  simp only [h'.run]

/-- two tokens in a row can be one -/
theorem join {slots : List Slot} {texts : List String} {s t : String} {rest : Script}
    (h : Fills slots texts (token s :: token t :: rest)) : Fills slots texts (token (s ++ t) :: rest) := by
  refine ⟨h.length, fun g => ?_⟩
  rw [← h.run]
  change Generator.run rest (g.print (.token (s ++ t))) = Generator.run rest ((g.print (.token s)).print (.token t))
  simp only [Generator.print, Printer.step, Printer.token_append]

end Fills

/-- the scripts of all members fill one template, each with its own texts -/
def Uniform {α : Type} (member : α → Prop) (texts : α → List String) (script : α → Script) : Prop :=
  ∃ slots, ∀ a, member a → Fills slots (texts a) (script a)

namespace Uniform

variable {α β : Type} {member : α → Prop} {texts texts' : α → List String} {script script' : α → Script}

theorem of_fills (slots : List Slot) (h : ∀ a, member a → Fills slots (texts a) (script a)) :
    Uniform member texts script := ⟨slots, h⟩

theorem fixed (s : Script) : Uniform member (fun _ => []) fun _ => s := ⟨_, fun _ _ => .fixed s⟩

theorem append (h : Uniform member texts script) (h' : Uniform member texts' script') :
    Uniform member (fun a => texts a ++ texts' a) fun a => script a ++ script' a := by
  obtain ⟨slots, hs⟩ := h
  obtain ⟨slots', hs'⟩ := h'
  exact ⟨slots ++ slots', fun a ha => (hs a ha).append (hs' a ha)⟩

theorem congr (h : Uniform member texts script) (ht : ∀ a, member a → texts' a = texts a)
    (hs : ∀ a, member a → script' a = script a) : Uniform member texts' script' := by
  obtain ⟨slots, h⟩ := h
  refine ⟨slots, fun a ha => ?_⟩
  rw [ht a ha, hs a ha]
  exact h a ha

/-- one template for each part of a script that has the same parts in all members -/
theorem flatMap {ι : Type} (parts : List ι) {texts : ι → α → List String} {script : ι → α → Script}
    (h : ∀ i ∈ parts, Uniform member (texts i) (script i)) :
    Uniform member (fun a => parts.flatMap (texts · a)) fun a => parts.flatMap (script · a) := by
  induction parts with
  | nil => exact ⟨[], fun _ _ => .nil⟩
  | cons i parts ih =>
    have hi := h i List.mem_cons_self
    have hrest := ih fun j hj => h j (List.mem_cons_of_mem _ hj)
    exact (hi.append hrest).congr (fun _ _ => List.flatMap_cons) fun _ _ => List.flatMap_cons

end Uniform

end StyleTree
