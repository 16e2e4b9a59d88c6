import ScreenEditor.Named

/-!
# Sorted names

Values put in their places are sorted by name, each name once (`Named.sorted_ofList`).  So the order
in which they are put there does not matter, as long as no name comes twice: values that are sorted
come back from any order of them (`Named.ofList_eq_of_perm`).
-/

namespace ScreenEditor.Named

variable {α : Type} {name : String} {a : α} {values : Named α}

/-- The values are sorted by name, and each name is there once. -/
def Sorted (values : Named α) : Prop := values.Pairwise fun v w => v.1 < w.1

/-- What is found after an insertion is new or was there. -/
theorem mem_insert {v : String × α} (h : v ∈ insert name a values) :
    v = (name, a) ∨ v ∈ values := by
  induction values with
  | nil => exact .inl (List.mem_singleton.mp h)
  | cons w rest ih =>
      rw [insert] at h
      split at h
      · exact List.mem_cons.mp h
      · split at h
        · exact (List.mem_cons.mp h).imp_right (List.mem_cons_of_mem w)
        · rcases List.mem_cons.mp h with rfl | h
          · exact .inr List.mem_cons_self
          · exact (ih h).imp_right (List.mem_cons_of_mem w)

/-- An insertion keeps the names in order. -/
theorem Sorted.insert (h : values.Sorted) (name : String) (a : α) :
    (insert name a values).Sorted := by
  induction values with
  | nil => exact List.pairwise_singleton _ _
  | cons w rest ih =>
      obtain ⟨hfirst, hrest⟩ := List.pairwise_cons.mp h
      rw [Named.insert]
      split
      · next hlt =>
        refine List.pairwise_cons.mpr ⟨fun v hv => ?_, h⟩
        rcases List.mem_cons.mp hv with rfl | hv
        · exact hlt
        · exact String.lt_trans hlt (hfirst v hv)
      · next hge =>
        split
        · next heq => exact List.pairwise_cons.mpr ⟨fun v hv => heq ▸ hfirst v hv, hrest⟩
        · next hne =>
          refine List.pairwise_cons.mpr ⟨fun v hv => ?_, ih hrest⟩
          rcases mem_insert hv with rfl | hv
          · exact Std.lt_of_le_of_ne (String.not_lt.mp hge) (Ne.symm hne)
          · exact hfirst v hv

/-- A name that is not there yet is one more. -/
theorem insert_perm (h : ∀ v ∈ values, v.1 ≠ name) (a : α) :
    (insert name a values).Perm ((name, a) :: values) := by
  induction values with
  | nil => exact .refl _
  | cons w rest ih =>
      obtain ⟨hfirst, hrest⟩ := List.forall_mem_cons.mp h
      rw [insert]
      split
      · exact .refl _
      · rw [if_neg (Ne.symm hfirst)]
        exact ((ih hrest).cons w).trans (.swap _ _ _)

/-- Put values in their places among others. -/
def insertAll (values : Named α) (more : List (String × α)) : Named α :=
  more.foldl (fun sorted v => insert v.1 v.2 sorted) values

/-- So do any number of them. -/
theorem Sorted.insertAll (h : values.Sorted) (more : List (String × α)) :
    (insertAll values more).Sorted := by
  induction more generalizing values with
  | nil => exact h
  | cons v rest ih => exact ih (h.insert v.1 v.2)

/-- What is found after them is one of the new ones or was there. -/
theorem mem_insertAll {more : List (String × α)} {v : String × α}
    (h : v ∈ insertAll values more) : v ∈ values ∨ v ∈ more := by
  induction more generalizing values with
  | nil => exact .inl h
  | cons w rest ih =>
      rcases ih h with h | h
      · rcases mem_insert h with rfl | h
        · exact .inr List.mem_cons_self
        · exact .inl h
      · exact .inr (List.mem_cons_of_mem w h)

/-- Where no name comes twice, nothing is replaced. -/
theorem insertAll_perm {more : List (String × α)} (h : (values ++ more).Pairwise (·.1 ≠ ·.1)) :
    (insertAll values more).Perm (values ++ more) := by
  induction more generalizing values with
  | nil => rw [List.append_nil]; exact .refl _
  | cons v rest ih =>
      obtain ⟨hvalues, hmore, hapart⟩ := List.pairwise_append.mp h
      have hother : ∀ w ∈ values, w.1 ≠ v.1 := fun w hw => hapart w hw v List.mem_cons_self
      have hperm : (insert v.1 v.2 values ++ rest).Perm (values ++ v :: rest) :=
        ((insert_perm hother v.2).append_right rest).trans List.perm_middle.symm
      exact (ih (hperm.symm.pairwise h fun hne => Ne.symm hne)).trans hperm

/-- **Values put in their places are sorted.** -/
theorem sorted_ofList (values : List (String × α)) : (ofList values).Sorted :=
  Sorted.insertAll (show Sorted [] from List.Pairwise.nil) values

/-- Sorting values by their names brings in no others. -/
theorem mem_of_mem_ofList {values : List (String × α)} {v : String × α} (h : v ∈ ofList values) :
    v ∈ values :=
  (mem_insertAll (show v ∈ insertAll [] values from h)).resolve_left List.not_mem_nil

/-- **Sorted values come back from any order of them.** -/
theorem Sorted.ofList_eq_of_perm (h : values.Sorted) {shuffled : List (String × α)}
    (hperm : shuffled.Perm values) : ofList shuffled = values := by
  have hapart : values.Pairwise (·.1 ≠ ·.1) := by
    refine h.imp fun {v w} hlt heq => ?_
    rw [heq] at hlt
    exact String.lt_irrefl w.1 hlt
  have hne : shuffled.Pairwise (·.1 ≠ ·.1) := hperm.symm.pairwise hapart fun hne => Ne.symm hne
  have hall : (ofList shuffled).Perm ([] ++ shuffled) := insertAll_perm hne
  exact (hall.trans hperm).eq_of_pairwise (fun _ _ _ _ hlt hgt => absurd hgt (String.lt_asymm hlt))
    (sorted_ofList shuffled) h

end ScreenEditor.Named
