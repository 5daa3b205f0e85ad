/-
What a command line that asks for a job says. Before the command word stand options, and the only one that does not end
the matter is the wish for progress lines; behind the word stands what its grammar understands. Help and the version
are granted on the way, a job never is: it takes the whole command line.

- `requestFrom_patient`: nothing that is read on the way settles for a job;
- `requestFrom_says`: a command line that asks for a job is options, a command word and what is given behind it;
- `request?_verbose`: asking for progress lines as well asks for the same job.
-/
import Mathlib.Tactic.Common
import StyleTree.Command.Arguments

namespace StyleTree.Command

/-! ## No job is granted on the way -/

/-- reading does not stop early with a job -/
def Patient {α : Type} (x : Except Halt α) : Prop := ∀ i, x ≠ .error (.granted (.perform i))

theorem patient_ok {α : Type} (a : α) : Patient (Except.ok a : Except Halt α) := fun _ h => nomatch h

theorem patient_refused {α : Type} : Patient (.error .refused : Except Halt α) := fun _ h => nomatch h

theorem Patient.map {α β : Type} {x : Except Halt α} (h : Patient x) (f : α → β) : Patient (x.map f) := by
  rcases x with halt | a
  · exact fun i e => h i (by cases e; rfl)
  · exact patient_ok _

theorem Patient.error {α β : Type} {x : Except Halt α} (h : Patient x) {halt : Halt} (e : x = .error halt) :
    Patient (.error halt : Except Halt β) := by
  rintro i ⟨⟩
  exact h i e

theorem turnOn_patient (given : Given) (s : Switch) : Patient (given.turnOn s) := by
  intro i h
  unfold Given.turnOn at h
  split at h <;> first | cases h | (split at h <;> cases h)

theorem assign_patient (given : Given) (value : String) (s : Setting) : Patient (given.assign value s) := by
  intro i h
  unfold Given.assign at h
  split at h
  · split at h <;> cases h
  · split at h <;> cases h

namespace Grammar

theorem operand_patient (g : Grammar) (given : Given) (text : String) : Patient (g.operand given text) := by
  intro i h
  unfold operand Given.operand at h
  split_ifs at h <;> cases h

theorem letters_patient (g : Grammar) (given : Given) (cs : List Char) : Patient (g.letters given cs) := by
  induction cs generalizing given with
  | nil => exact patient_ok _
  | cons c rest ih =>
    unfold letters
    split
    · rename_i s _
      split
      · exact (turnOn_patient given s).error ‹_›
      · exact ih _
    · split
      · exact patient_refused
      · split
        · exact patient_ok _
        · exact (assign_patient _ _ _).map _
        · exact (assign_patient _ _ _).map _

theorem option_patient (g : Grammar) (given : Given) (arg : String) : Patient (g.option given arg) := by
  unfold option
  split
  · unfold long
    dsimp only
    split
    · exact (turnOn_patient _ _).map _
    · exact patient_ok _
    · exact (assign_patient _ _ _).map _
    · exact patient_refused
  · exact g.letters_patient _ _
  · exact patient_refused

theorem step_patient (g : Grammar) (l : Level) (arg : String) : Patient (g.step l arg) := by
  unfold step
  split
  · exact (g.operand_patient _ _).map _
  · split
    · split
      · exact patient_refused
      · exact (assign_patient _ _ _).map _
    · split
      · exact patient_ok _
      · split
        · exact (g.option_patient _ _).map _
        · exact (g.operand_patient _ _).map _

theorem foldlM_step_patient (g : Grammar) (args : List String) (l : Level) : Patient (args.foldlM g.step l) := by
  induction args generalizing l with
  | nil => exact patient_ok l
  | cons arg args ih =>
    rw [List.foldlM_cons]
    rcases h : g.step l arg with halt | l'
    · exact (step_patient g l arg).error h
    · exact ih l'

theorem read_patient (g : Grammar) (args : List String) : Patient (g.read args) := by
  unfold read
  split
  · exact (foldlM_step_patient g args _).error ‹_›
  · split
    · exact patient_refused
    · exact patient_ok _

end Grammar

theorem request_patient (v : Verb) (verbose : Bool) (args : List String) : Patient (v.request verbose args) := by
  unfold Verb.request
  split
  · exact (v.grammar.read_patient args).error ‹_›
  · split
    · exact patient_refused
    · exact patient_ok _

theorem requestFrom_patient (given : Given) (args : List String) : Patient (requestFrom given args) := by
  induction args generalizing given with
  | nil => exact patient_refused
  | cons arg rest ih =>
    unfold requestFrom
    split
    · split
      · exact (topGrammar.option_patient given arg).error ‹_›
      · exact ih _
    · split
      · unfold helpRequest
        split
        · exact patient_ok _
        · split
          · exact patient_ok _
          · exact patient_refused
        · exact patient_refused
      · split
        · exact request_patient _ _ _
        · exact patient_refused

theorem request?_eq_perform {args : List String} {i : Invocation} :
    request? args = some (.perform i) ↔ requestFrom .none args = .ok (.perform i) := by
  unfold request?
  rcases h : requestFrom .none args with (_ | r) | r
  · simp
  · have hr : r ≠ .perform i := by
      rintro rfl
      exact requestFrom_patient _ _ i h
    simpa using hr
  · simp

/-! ## What stands before and behind the command word -/

theorem turnOn_top {given given' : Given} {s : Switch} (hs : s ∈ topGrammar.switches)
    (h : given.turnOn s = .ok given') : given.verbose = false ∧ given' = { given with verbose := true } := by
  rcases s with _ | _ | _ | _
  · simp only [Given.turnOn] at h
    split_ifs at h with hv
    cases h
    exact ⟨by simpa using hv, rfl⟩
  · cases h
  · cases h
  · simp [topGrammar] at hs

theorem letters_top {given given' : Given} {cs : List Char} {awaiting : Option Setting}
    (h : topGrammar.letters given cs = .ok (given', awaiting)) :
    cs = [] ∧ given' = given ∨ given.verbose = false ∧ given' = { given with verbose := true } := by
  induction cs generalizing given with
  | nil =>
    cases h
    exact .inl ⟨rfl, rfl⟩
  | cons c rest ih =>
    refine .inr ?_
    unfold Grammar.letters at h
    split at h
    · rename_i s hs
      split at h
      · cases h
      · rename_i middle hm
        obtain ⟨hv, rfl⟩ := turnOn_top (List.mem_of_find?_eq_some hs) hm
        -- a second letter would ask for progress lines again
        rcases ih h with ⟨-, rfl⟩ | ⟨hv', -⟩
        · exact ⟨hv, rfl⟩
        · cases hv'
    · cases h

/-- an option before the command word that does not end the matter asks for progress lines, for the first time -/
theorem option_top {given given' : Given} {arg : String} {awaiting : Option Setting} (ha : isOption arg = true)
    (h : topGrammar.option given arg = .ok (given', awaiting)) :
    given.verbose = false ∧ given' = { given with verbose := true } := by
  unfold isOption at ha
  unfold Grammar.option at h
  split at h
  · unfold Grammar.long at h
    dsimp only at h
    split at h
    · rename_i s hs _
      rcases hm : given.turnOn s with halt | middle
      · rw [hm] at h
        cases h
      · rw [hm] at h
        cases h
        exact turnOn_top (List.mem_of_find?_eq_some hs) hm
    · rename_i hs _
      cases hs
    · rename_i hs _
      cases hs
    · cases h
  · rename_i cs hne harg
    rcases letters_top h with ⟨rfl, -⟩ | hv
    · rw [harg] at ha
      cases ha
    · exact hv
  · cases h

/-- the command line is options, a command word, and behind it what gives `given` -/
def Says (args options : List String) (v : Verb) (given : Given) : Prop :=
  ∃ word rest, args = options ++ word :: rest ∧ Verb.ofWord? word = some v ∧ v.grammar.read rest = .ok given

theorem request_says {v : Verb} {verbose : Bool} {args : List String} {i : Invocation}
    (h : v.request verbose args = .ok (.perform i)) :
    ∃ given, v.grammar.read args = .ok given ∧ v.job? given = some i.job ∧ i.verbose = (verbose || given.verbose) := by
  unfold Verb.request at h
  split at h
  · cases h
  · rename_i given hg
    split at h
    · cases h
    · rename_i job hj
      cases h
      exact ⟨given, hg, hj, rfl⟩

/-- a command line that asks for a job is options, a command word and what is given behind it -/
theorem requestFrom_says {given : Given} {args : List String} {i : Invocation}
    (h : requestFrom given args = .ok (.perform i)) :
    ∃ options v behind, Says args options v behind ∧ v.job? behind = some i.job ∧
      i.verbose = (given.verbose || !options.isEmpty || behind.verbose) := by
  induction args generalizing given with
  | nil => cases h
  | cons arg rest ih =>
    unfold requestFrom at h
    split at h
    · rename_i ha
      split at h
      · cases h
      · rename_i middle awaiting hm
        obtain ⟨-, rfl⟩ := option_top ha hm
        obtain ⟨options, v, behind, ⟨word, tail, rfl, hw, hr⟩, hj, hv⟩ := ih h
        exact ⟨arg :: options, v, behind, ⟨word, tail, rfl, hw, hr⟩, hj, by simpa using hv⟩
    · split at h
      · unfold helpRequest at h
        split at h <;> first | cases h | (split at h <;> cases h)
      · split at h
        · rename_i v hw
          obtain ⟨behind, hr, hj, hv⟩ := request_says h
          exact ⟨[], v, behind, ⟨arg, rest, rfl, hw, hr⟩, hj, by simpa using hv⟩
        · cases h

/-- asking for progress lines as well asks for the same job -/
theorem request?_verbose {args : List String} {job : Job} (h : request? args = some (.perform ⟨false, job⟩)) :
    request? ("-v" :: args) = some (.perform ⟨true, job⟩) := by
  obtain ⟨options, v, behind, ⟨word, rest, rfl, hw, hr⟩, hj, hv⟩ := requestFrom_says (request?_eq_perform.1 h)
  have hnil : options = [] := by
    rcases options with _ | ⟨o, os⟩
    · rfl
    · simp at hv
  subst hnil
  have hbehind : v.request true rest = .ok (.perform ⟨true, job⟩) := by
    simp only [Verb.request, hr, hj, Bool.true_or]
  rw [request?_eq_perform, List.nil_append]
  unfold Verb.ofWord? at hw
  split_ifs at hw with h1 h2 h3 <;> cases hw
  · subst h1
    exact hbehind
  · subst h2
    exact hbehind
  · subst h3
    exact hbehind

end StyleTree.Command
