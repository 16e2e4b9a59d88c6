/-!
# Named values

Values sorted by name, each name once: the members of an object, the files of a directory.
-/

namespace ScreenEditor

/-- Values with their names, sorted by name. -/
abbrev Named (α : Type) := List (String × α)

namespace Named

variable {α : Type}

/-- The value with a name. -/
def find? (name : String) : Named α → Option α
  | [] => none
  | (other, a) :: rest => if other = name then some a else find? name rest

/-- Put a value in its place, instead of one that has the name already. -/
def insert (name : String) (a : α) : Named α → Named α
  | [] => [(name, a)]
  | (other, b) :: rest =>
    if name < other then (name, a) :: (other, b) :: rest
    else if name = other then (name, a) :: rest
    else (other, b) :: insert name a rest

/-- Values put in their places one after the other, so that the last of each name stays. -/
def ofList (values : List (String × α)) : Named α :=
  values.foldl (fun sorted v => insert v.1 v.2 sorted) []

@[simp] theorem find?_insert_self (name : String) (a : α) (values : Named α) :
    find? name (insert name a values) = some a := by
  induction values with
  | nil => simp [insert, find?]
  | cons v rest ih =>
    obtain ⟨other, b⟩ := v
    by_cases lt : name < other
    · simp [insert, find?, lt]
    · by_cases eq : name = other
      · subst eq
        simp only [insert, lt, ↓reduceIte, find?]
      · simp [insert, find?, lt, eq, Ne.symm eq, ih]

/-- Putting a value touches no other name. -/
theorem find?_insert_of_ne {name other : String} (ne : other ≠ name) (a : α) (values : Named α) :
    find? other (insert name a values) = find? other values := by
  induction values with
  | nil => simp [insert, find?, Ne.symm ne]
  | cons v rest ih =>
    obtain ⟨key, b⟩ := v
    by_cases lt : name < key
    · simp [insert, find?, lt, Ne.symm ne]
    · by_cases eq : name = key
      · subst eq
        simp only [insert, lt, ↓reduceIte, find?, Ne.symm ne]
      · simp only [insert, lt, eq, if_false, find?, ih]

end Named
end ScreenEditor
