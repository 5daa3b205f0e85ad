/-
What writing a file does. A path leads to one place (`Disk.locate`), the same for reading and for writing. Writing
replaces what stands there as a whole and nothing else, or fails and replaces nothing; a sink swallows the text.

- `entry?_put`: putting something at a place changes that place only;
- `locate_of_directories`: a path goes on leading to its place as long as directories stay directories;
- `write_cases`: what a write that succeeds makes of the file system;
- `write_rewrites`: so one file is rewritten, and reading the path afterwards gives the text.
-/
import Mathlib.Tactic.Common
import StyleTree.Command.Disk

namespace StyleTree.Command

/-- replacing what is listed under one key changes what is found under that key, if anything was, and no other -/
theorem lookup_map_replace {α β : Type} [BEq α] [LawfulBEq α] [DecidableEq α] (l : List (α × β)) (a : α) (b : β)
    (x : α) : (l.map fun e => if e.1 = a then (e.1, b) else (e.1, e.2)).lookup x =
      if x = a then (l.lookup x).map fun _ => b else l.lookup x := by
  induction l with
  | nil => simp
  | cons e l ih =>
    obtain ⟨k, v⟩ := e
    by_cases hx : x = k
    · subst hx
      by_cases ha : x = a <;> simp [ha]
    · have hne : (x == k) = false := beq_eq_false_iff_ne.2 hx
      by_cases ha : k = a
      · simp only [List.map_cons, if_pos ha, List.lookup_cons, hne]
        exact ih
      · simp only [List.map_cons, if_neg ha, List.lookup_cons, hne]
        exact ih

namespace Disk

/-! ## Places -/

/-- the place that a path leads to -/
def locate (d : Disk) (path : String) : Except FileFault Place :=
  match d.walk path (Route.ofPath path).directories with
  | .error fault => .error fault
  | .ok directory =>
    match (Route.ofPath path).file? with
    | none => .error .isDirectory
    | some name => placeIn directory name

theorem locate_eq_ok {d : Disk} {path : String} {place : Place} :
    d.locate path = .ok place ↔
      ∃ directory name, d.walk path (Route.ofPath path).directories = .ok directory ∧
        (Route.ofPath path).file? = some name ∧ placeIn directory name = .ok place := by
  unfold locate
  rcases d.walk path (Route.ofPath path).directories with fault | directory
  · simp
  · rcases (Route.ofPath path).file? with _ | name <;> simp

theorem locate_ne_nil {d : Disk} {path : String} {place : Place} (h : d.locate path = .ok place) : place ≠ [] := by
  obtain ⟨directory, name, -, -, hp⟩ := locate_eq_ok.1 h
  unfold placeIn at hp
  split at hp
  · cases hp
  · cases hp
    simp

@[simp] theorem put_here (d : Disk) (place : Place) (entry : Entry) : (d.put place entry).here = d.here := by
  unfold put
  split <;> rfl

/-- putting something at a place changes that place only -/
theorem entry?_put (d : Disk) {place : Place} (hp : place ≠ []) (entry : Entry) (q : Place) :
    entry? (d.put place entry) q = if q = place then some entry else d.entry? q := by
  unfold entry?
  by_cases hq : q = []
  · subst hq
    rw [if_neg hp.symm]; rfl
  · have hempty : q.isEmpty = false := List.isEmpty_eq_false_iff.2 hq
    rw [hempty]
    unfold put
    rcases hold : d.entries.lookup place with _ | old
    · by_cases hqp : q = place
      · simp [hqp, List.lookup_append, hold]
      · simp [hqp, List.lookup_append, List.lookup_cons, beq_eq_false_iff_ne.2 hqp]
    · have hmap := lookup_map_replace d.entries place entry q
      by_cases hqp : q = place
      · subst hqp
        simpa [hold] using hmap
      · simpa [hqp] using hmap

/-! ## Ways that stay open -/

section

variable {d d' : Disk} (hdirs : ∀ p, d.entry? p = some .directory → d'.entry? p = some .directory)

include hdirs

theorem enter_of_directories {p q : Place} {name : String} (h : d.enter p name = .ok q) :
    d'.enter p name = .ok q := by
  unfold enter at h ⊢
  split_ifs at h ⊢ with h1 h2 h3
  · exact h
  · exact h
  · split at h
    · rename_i he
      rw [hdirs _ he]
      exact h
    · cases h
    · cases h

theorem foldlM_enter_of_directories {names : List String} {p q : Place}
    (h : names.foldlM d.enter p = .ok q) : names.foldlM d'.enter p = .ok q := by
  induction names generalizing p with
  | nil => exact h
  | cons name names ih =>
    rw [List.foldlM_cons] at h ⊢
    rcases he : d.enter p name with fault | p'
    · rw [he] at h
      cases h
    · rw [he] at h
      rw [enter_of_directories hdirs he]
      exact ih h

/-- a path goes on leading to its place as long as directories stay directories -/
theorem locate_of_directories (hhere : d'.here = d.here) {path : String} {place : Place}
    (h : d.locate path = .ok place) : d'.locate path = .ok place := by
  obtain ⟨directory, name, hw, hf, hp⟩ := locate_eq_ok.1 h
  refine locate_eq_ok.2 ⟨directory, name, ?_, hf, hp⟩
  unfold walk at hw ⊢
  split_ifs at hw ⊢
  unfold start at hw ⊢
  rw [hhere]
  exact foldlM_enter_of_directories hdirs hw

end

/-! ## Reading and writing -/

theorem read_eq (d : Disk) (path : String) :
    d.read path =
      match d.locate path with
      | .error fault => .error fault
      | .ok place =>
        match d.entry? place with
        | some (.file text) => .ok text
        | some .sink => .ok ""
        | some .directory => .error .isDirectory
        | none => .error .notFound := by
  simp only [read, locate, bind, Except.bind]
  rcases d.walk path (Route.ofPath path).directories with fault | directory
  · rfl
  · rcases (Route.ofPath path).file? with _ | name
    · rfl
    · rcases hp : placeIn directory name with fault | place
      · simp only [hp]
      · simp only [hp]
        rfl

theorem write_eq (d : Disk) {path : String} (hslash : endsInSlash path = false) (text : String) :
    d.write path text =
      match d.locate path with
      | .error fault => .error fault
      | .ok place =>
        match d.entry? place with
        | some .directory => .error .isDirectory
        | some .sink => .ok d
        | _ => .ok (d.put place (.file text)) := by
  simp only [write, locate, hslash, Bool.false_eq_true, if_false, bind, Except.bind]
  rcases d.walk path (Route.ofPath path).directories with fault | directory
  · rfl
  · rcases (Route.ofPath path).file? with _ | name
    · rfl
    · rcases hp : placeIn directory name with fault | place
      · simp only [hp]
      · simp only [hp]
        rfl

/-- what a write that succeeds makes of the file system -/
theorem write_cases {d d' : Disk} {path text : String} (h : d.write path text = .ok d') :
    ∃ place, d.locate path = .ok place ∧
      (d.entry? place = some .sink ∧ d' = d ∨
        d.entry? place ≠ some .directory ∧ d' = d.put place (.file text)) := by
  have hslash : endsInSlash path = false := by
    by_contra hs
    rw [Bool.not_eq_false] at hs
    simp only [write, hs, if_true] at h
    -- the path means a directory, and following it gives one fault or another
    rcases hw : d.walk path (Route.toParent path) with fault | directory <;> rw [hw] at h <;> cases h
  rw [write_eq d hslash] at h
  rcases hl : d.locate path with fault | place
  · rw [hl] at h
    cases h
  · refine ⟨place, rfl, ?_⟩
    rcases he : d.entry? place with _ | (old | _ | _) <;> simp only [hl, he] at h <;> cases h <;> simp

/-- one file and no other has been given a text as a whole; a sink has swallowed it -/
structure Rewritten (d : Disk) (path text : String) (d' : Disk) : Prop where
  here : d'.here = d.here
  place : ∃ place, d.locate path = .ok place ∧ (∀ q, q ≠ place → d'.entry? q = d.entry? q) ∧
    (d.entry? place = some .sink ∧ d'.entry? place = some .sink ∨
      d'.entry? place = some (.file text) ∧ d'.read path = .ok text)

theorem write_rewrites {d d' : Disk} {path text : String} (h : d.write path text = .ok d') :
    d.Rewritten path text d' := by
  obtain ⟨place, hl, ⟨hsink, rfl⟩ | ⟨hfile, rfl⟩⟩ := write_cases h
  · exact ⟨rfl, place, hl, fun _ _ => rfl, .inl ⟨hsink, hsink⟩⟩
  · have hput := entry?_put d (locate_ne_nil hl) (.file text)
    have hnew : entry? (d.put place (.file text)) place = some (.file text) := by simp [hput]
    refine ⟨put_here .., place, hl, fun q hq => by rw [hput, if_neg hq], .inr ⟨hnew, ?_⟩⟩
    -- no directory was overwritten, so the path still leads to the same place
    have hdirs : ∀ p, d.entry? p = some .directory → entry? (d.put place (.file text)) p = some .directory := by
      intro p hp
      have hne : p ≠ place := by
        rintro rfl
        exact hfile hp
      rw [hput, if_neg hne, hp]
    rw [read_eq, locate_of_directories hdirs (put_here ..) hl]
    simp only [hnew]

end Disk

end StyleTree.Command
