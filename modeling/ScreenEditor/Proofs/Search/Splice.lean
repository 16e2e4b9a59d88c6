import Mathlib.Data.List.Basic

/-!
# Splicing lists

`splice` takes a stretch out of a list and puts another list in its place.  `splicedFrom` does this
at several places at once, given in rising order as offsets of the old list, to what the list holds
from some offset on.  Splicing at one more place behind the others is a step of either kind
(`splicedFrom_eq_append`, `drop_splicedFrom`), so a text that is changed from the front to the back
can be described by the places that have been changed so far.
-/

namespace ScreenEditor

variable {α β : Type} {l new : List α} {width start offset n : Nat} {places : List Nat}

/-! ## One stretch -/

/-- A list with `width` elements from an offset on replaced. -/
def splice (l : List α) (offset width : Nat) (new : List α) : List α :=
  l.take offset ++ (new ++ l.drop (offset + width))

theorem map_splice (f : α → β) (l : List α) (offset width : Nat) (new : List α) :
    (splice l offset width new).map f = splice (l.map f) offset width (new.map f) := by
  simp [splice]

theorem length_splice (new : List α) (h : offset + width ≤ l.length) :
    (splice l offset width new).length + width = l.length + new.length := by
  simp only [splice, List.length_append, List.length_take, List.length_drop]
  omega

/-- What stands before the stretch, and the new list behind it. -/
theorem take_splice (new : List α) (h : offset ≤ l.length) :
    (splice l offset width new).take (offset + new.length) = l.take offset ++ new := by
  have hlen : (l.take offset ++ new).length = offset + new.length := by
    rw [List.length_append, List.length_take, Nat.min_eq_left h]
  rw [splice, ← List.append_assoc, ← hlen, List.take_left]

/-- What stands behind the stretch. -/
theorem drop_splice (new : List α) (h : offset ≤ l.length) :
    (splice l offset width new).drop (offset + new.length) = l.drop (offset + width) := by
  have hlen : (l.take offset ++ new).length = offset + new.length := by
    rw [List.length_append, List.length_take, Nat.min_eq_left h]
  rw [splice, ← List.append_assoc, ← hlen, List.drop_left]

/-- Setting one element and splicing behind it is splicing there. -/
theorem splice_set (h : offset < l.length) (a : α) (width : Nat) (new : List α) :
    splice (l.set offset a) (offset + 1) width new = splice l offset (width + 1) (a :: new) := by
  have hlen : (l.take offset).length = offset := by
    rw [List.length_take]
    omega
  have hset : l.set offset a = (l.take offset ++ [a]) ++ l.drop (offset + 1) := by
    rw [List.set_eq_take_append_cons_drop, if_pos h, List.append_assoc, List.singleton_append]
  have hfront : (l.take offset ++ [a]).length = offset + 1 := by
    rw [List.length_append, hlen, List.length_singleton]
  rw [splice, splice, hset, ← hfront, List.take_left, ← List.drop_drop, List.drop_left, hfront,
    List.drop_drop, Nat.add_assoc, Nat.add_comm 1 width]
  simp

/-! ## Several stretches -/

/-- What a list holds from an offset on, with `width` elements at each of some places replaced. -/
def splicedFrom (width : Nat) (new l : List α) : Nat → List Nat → List α
  | start, [] => l.drop start
  | start, place :: places =>
      (l.drop start).take (place - start) ++
        (new ++ splicedFrom width new l (place + width) places)

theorem map_splicedFrom (f : α → β) (start : Nat) (places : List Nat) :
    (splicedFrom width new l start places).map f
      = splicedFrom width (new.map f) (l.map f) start places := by
  induction places generalizing start with
  | nil => simp [splicedFrom]
  | cons place places ih => simp [splicedFrom, ih]

/-- The list is as it was up to the first place. -/
theorem splicedFrom_eq_append (h : ∀ place ∈ places, start + n ≤ place) :
    splicedFrom width new l start places
      = (l.drop start).take n ++ splicedFrom width new l (start + n) places := by
  cases places with
  | nil => rw [splicedFrom, splicedFrom, ← List.drop_drop, List.take_append_drop]
  | cons place places =>
      have hle := h place List.mem_cons_self
      have hcut : (l.drop start).take (place - start)
          = (l.drop start).take n ++ (l.drop (start + n)).take (place - (start + n)) := by
        rw [show place - start = n + (place - (start + n)) by omega, List.take_add, List.drop_drop]
      rw [splicedFrom, splicedFrom, hcut, List.append_assoc]

/-- Dropping what stands before the first place. -/
theorem drop_splicedFrom (h : ∀ place ∈ places, start + n ≤ place ∧ place ≤ l.length) :
    (splicedFrom width new l start places).drop n = splicedFrom width new l (start + n) places := by
  cases places with
  | nil => rw [splicedFrom, splicedFrom, List.drop_drop]
  | cons place places =>
      obtain ⟨hle, hlength⟩ := h place List.mem_cons_self
      rw [splicedFrom_eq_append fun p hp => (h p hp).1, List.drop_append_of_le_length,
        List.drop_of_length_le, List.nil_append]
      · exact List.length_take_le _ _
      · rw [List.length_take, List.length_drop]
        omega

/-- Taking what stands before the first place. -/
theorem take_splicedFrom (h : ∀ place ∈ places, start + n ≤ place ∧ place ≤ l.length) :
    (splicedFrom width new l start places).take n = (l.drop start).take n := by
  cases places with
  | nil => rfl
  | cons place places =>
      obtain ⟨hle, hlength⟩ := h place List.mem_cons_self
      rw [splicedFrom, List.take_append_of_le_length, List.take_take, Nat.min_eq_left (by omega)]
      rw [List.length_take, List.length_drop]
      omega

/-- An element before the first place stands where it stood. -/
theorem getElem?_splicedFrom (h : ∀ place ∈ places, start + n < place ∧ place ≤ l.length) :
    (splicedFrom width new l start places)[n]? = l[start + n]? := by
  have htake : (splicedFrom width new l start places).take (n + 1) = (l.drop start).take (n + 1) :=
    take_splicedFrom h
  have hget := congrArg (·[n]?) htake
  simpa [List.getElem?_take] using hget

/-- Behind what stands before the first place comes the new list. -/
theorem getElem?_splicedFrom_cons {place : Nat} (hstart : start ≤ place)
    (hlength : place ≤ l.length) :
    (splicedFrom width new l start (place :: places))[place - start]?
      = (new ++ splicedFrom width new l (place + width) places)[0]? := by
  have hlen : ((l.drop start).take (place - start)).length = place - start := by
    rw [List.length_take, List.length_drop]
    omega
  rw [splicedFrom, List.getElem?_append_right (Nat.le_of_eq hlen), hlen, Nat.sub_self]

/-- What is not new stood at its place or behind it. -/
theorem mem_splicedFrom {a : α} (hplaces : places.Pairwise (· + width ≤ ·))
    (hstart : ∀ place ∈ places, start ≤ place) (ha : a ∈ splicedFrom width new l start places) :
    a ∈ new ∨ a ∈ l.drop start := by
  induction places generalizing start with
  | nil => exact .inr ha
  | cons place places ih =>
      rw [splicedFrom, List.mem_append, List.mem_append] at ha
      rcases ha with hbefore | hnew | hbehind
      · exact .inr (List.mem_of_mem_take hbefore)
      · exact .inl hnew
      · obtain ⟨hfirst, hrest⟩ := List.pairwise_cons.mp hplaces
        refine (ih hrest hfirst hbehind).imp_right fun hmem => ?_
        have hle := hstart place List.mem_cons_self
        rw [show place + width = start + (place + width - start) by omega, ← List.drop_drop] at hmem
        exact List.mem_of_mem_drop hmem

end ScreenEditor
