/-
Quoting as a code. The literal of a text can be followed by anything: the reader stops at its closing quote and gives
the text back. So different texts have different literals, and no literal is the beginning of another one.

Quoting is two replacements, one after the other: every backslash is doubled, and then every quote gets a backslash of
its own (`escaped_eq_replaced`). Whether a quote is escaped can be told from the backslashes that stand right before it:
an escaped one has an odd number of them, as the doubled ones come in pairs (`escaped_odd`).
-/
import StyleTree.Proofs.Literals

namespace StyleTree.Text

/-! ## Replacements -/

/-- a text in which every occurrence of a character is replaced -/
def replaced (c : Char) (new : List Char) (s : List Char) : List Char := s.flatMap fun d => if d = c then new else [d]

/-- backslashes first, and then quotes: in this order the backslashes of the quotes are not doubled -/
theorem escaped_eq_replaced (s : List Char) :
    escaped s = replaced quoteMark ['\\', quoteMark] (replaced '\\' ['\\', '\\'] s) := by
  induction s with
  | nil => rfl
  | cons c s ih =>
    have hchar : escapeChar c =
        replaced quoteMark ['\\', quoteMark] (if c = '\\' then ['\\', '\\'] else [c]) := by
      by_cases hslash : c = '\\'
      · subst hslash
        rfl
      · by_cases hquote : c = quoteMark
        · subst hquote
          rfl
        · simp [escapeChar, replaced, hslash, hquote]
    rw [escaped_cons, ih, hchar]
    simp only [replaced, List.flatMap_cons, List.flatMap_append]

/-! ## Escaped quotes -/

/-- how many backslashes stand at the end of a text, right before what follows -/
def backslashes (l : List Char) : Nat := (l.reverse.takeWhile (· = '\\')).length

theorem backslashes_append (l m : List Char) :
    backslashes (l ++ m) = if backslashes m = m.length then m.length + backslashes l else backslashes m := by
  unfold backslashes
  rw [List.reverse_append, List.takeWhile_append, List.length_reverse]
  split
  · rw [List.length_append, List.length_reverse]
  · rfl

/-- an escaped character ends in two backslashes or in none -/
theorem backslashes_escapeChar (c : Char) : backslashes (escapeChar c) % 2 = 0 := by
  by_cases hslash : c = '\\'
  · subst hslash
    rfl
  · have hnone : backslashes (escapeChar c) = 0 := by
      unfold escapeChar
      split <;> simp [backslashes, hslash]
    rw [hnone]

/-- it leaves the backslashes that follow as odd or as even as they are -/
theorem backslashes_behind (c : Char) (m : List Char) : backslashes (escapeChar c ++ m) % 2 = backslashes m % 2 := by
  have hchar := backslashes_escapeChar c
  rw [backslashes_append]
  split <;> omega

/-- **Every quote in a literal is escaped.** -/
theorem escaped_odd {s a b : List Char} (h : escaped s = a ++ quoteMark :: b) : backslashes a % 2 = 1 := by
  induction s generalizing a with
  | nil => simp [escaped] at h
  | cons c s ih =>
    rw [escaped_cons, List.append_eq_append_iff] at h
    -- the quote stands behind the first character, or it is that character
    rcases h with ⟨a', rfl, hrest⟩ | ⟨m, hchar, hrest⟩
    · rw [backslashes_behind]
      exact ih hrest
    · cases m with
      | nil =>
        rw [List.append_nil] at hchar
        rw [List.nil_append] at hrest
        have hodd : backslashes [] % 2 = 1 := ih (a := []) hrest.symm
        cases hodd
      | cons d m =>
        obtain rfl : quoteMark = d := (List.cons.inj hrest).1
        unfold escapeChar at hchar
        split at hchar
        · rcases List.cons_eq_append_iff.1 hchar with ⟨rfl, hc⟩ | ⟨a', rfl, hc⟩
          · cases (List.cons.inj hc).1
          · rcases List.cons_eq_append_iff.1 hc with ⟨rfl, -⟩ | ⟨a', rfl, hc⟩
            · rfl
            · simp at hc
        · rename_i hplain
          rcases List.cons_eq_append_iff.1 hchar with ⟨rfl, hc⟩ | ⟨a', rfl, hc⟩
          · exact absurd (Or.inr (List.cons.inj hc).1.symm) hplain
          · simp at hc

/-- the closing quote is not -/
theorem escaped_even (s : List Char) : backslashes (escaped s) % 2 = 0 := by
  induction s with
  | nil => rfl
  | cons c s ih => rw [escaped_cons, backslashes_behind, ih]

/-! ## Literals -/

/-- **A literal says where it ends.** Whatever stands behind it, a literal is read as its text and the rest is left. So
quoting is injective, and no literal is the beginning of another one. Between its outer quotes stands the text with
backslashes doubled and then quotes escaped, where an odd number of backslashes stands before every quote, while before
the closing one their number is even. -/
theorem quoted_self_delimiting :
    (∀ s r : String, readQuoted (quoted s ++ r).toList = some (s.toList, r.toList)) ∧
    Function.Injective quoted ∧
    (∀ s t : String, (quoted s).toList <+: (quoted t).toList → s = t) ∧
    (∀ s : String, ∃ inside : List Char, (quoted s).toList = quoteMark :: (inside ++ [quoteMark]) ∧
      inside = replaced quoteMark ['\\', quoteMark] (replaced '\\' ['\\', '\\'] s.toList) ∧
      (∀ a b : List Char, inside = a ++ quoteMark :: b → backslashes a % 2 = 1) ∧ backslashes inside % 2 = 0) := by
  have hfront : ∀ s t : String, (quoted s).toList <+: (quoted t).toList → s = t := by
    intro s t ⟨r, hr⟩
    have hread := readQuoted_quoted s (String.ofList r)
    have hread' := readQuoted_quoted t ""
    rw [String.append_empty, ← hr] at hread'
    rw [String.toList_append, String.toList_ofList, hread', Option.some.injEq, Prod.mk.injEq] at hread
    exact (String.toList_inj.1 hread.1).symm
  refine ⟨readQuoted_quoted, ?_, hfront, ?_⟩
  · intro s t h
    apply hfront
    exact h ▸ List.prefix_rfl
  · intro s
    refine ⟨escaped s.toList, ?_, escaped_eq_replaced s.toList, fun a b h => escaped_odd h, escaped_even s.toList⟩
    rw [quoted, String.toList_ofList, quotedChars]

/-- a backslash before a quote, and a backslash at the end, where the closing quote comes next -/
theorem endingSlash_delimited :
    quoted "\\'\\" = "'\\\\\\'\\\\'" ∧ readQuoted "'\\\\\\'\\\\'', '".toList = some ("\\'\\".toList, "', '".toList) ∧
    backslashes ['\\', '\\', '\\'] % 2 = 1 := by
  obtain ⟨hread, -, -, hinside⟩ := quoted_self_delimiting
  obtain ⟨inside, hquoted, -, hodd, -⟩ := hinside "\\'\\"
  have hshape : quoteMark :: (['\\', '\\', '\\', quoteMark, '\\', '\\'] ++ [quoteMark]) =
      quoteMark :: (inside ++ [quoteMark]) := hquoted
  have hsplit : ['\\', '\\', '\\', quoteMark, '\\', '\\'] = inside :=
    List.append_cancel_right (List.cons.inj hshape).2
  exact ⟨by decide, hread "\\'\\" "', '", hodd ['\\', '\\', '\\'] ['\\', '\\'] hsplit.symm⟩

end StyleTree.Text
