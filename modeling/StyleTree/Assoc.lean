/-
Ordered association lists. `put` keeps the place of a name that is already there and replaces its value; a new name
goes to the end. So names keep the order of their first appearance, and no name appears twice.
-/

namespace StyleTree.Assoc

variable {α : Type}

/-- the names, in order -/
def names (l : List (String × α)) : List String := l.map Prod.fst

/-- sets the value of a name, in its place if it has one and at the end otherwise -/
def put (name : String) (value : α) : List (String × α) → List (String × α)
  | [] => [(name, value)]
  | (n, v) :: rest => if n = name then (name, value) :: rest else (n, v) :: put name value rest

/-- the names after `put`: the same ones, with a new name at the end -/
theorem names_put (name : String) (value : α) (l : List (String × α)) :
    names (put name value l) = if name ∈ names l then names l else names l ++ [name] := by
  induction l with
  | nil => rfl
  | cons e rest ih =>
    obtain ⟨n, v⟩ := e
    by_cases h : n = name
    · subst h; simp [put, names]
    · have h' : ¬ name = n := fun e => h e.symm
      simp only [names] at ih
      by_cases hm : name ∈ rest.map Prod.fst <;> simp [put, names, h, h', ih, hm]

/-- no name comes to stand twice -/
theorem nodup_put {name : String} {value : α} {l : List (String × α)} (h : (names l).Nodup) :
    (names (put name value l)).Nodup := by
  rw [names_put]
  split
  · exact h
  · rename_i hm
    exact List.nodup_append.2 ⟨h, by simp, by simp only [List.mem_singleton]; rintro a ha b rfl rfl; exact hm ha⟩

end StyleTree.Assoc
