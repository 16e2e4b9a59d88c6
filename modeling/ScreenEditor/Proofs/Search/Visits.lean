import ScreenEditor.Proofs.Search.Occurrence
import ScreenEditor.Proofs.Search.Replace

/-!
# Searching on and on

A search that finds a match selects it, and the next search begins one past it.  So searching for
one needle again and again visits its occurrences from the first to the last and then from the first
again (`Searched.search_visits`).

Where a search begins is decided by the selection alone: it begins one past the caret as soon as a
frozen selection begins there, whether or not that is a match.  A selection made by hand that begins
at an occurrence of the needle and is no match makes the search pass over that occurrence, and this
is the only case in which it does (`Searched.foundFrom_intendedOrigin_iff`).
-/

namespace ScreenEditor

/-- The selection is a match that begins at the caret: it is frozen, and just one occurrence of the
needle is selected. -/
def Selection.IsMatch (selection : Selection) (needle text : List UInt8) (caret : Nat) : Prop :=
  selection.selecting = false ∧ selection.range = some ⟨caret, caret + needle.length⟩ ∧
    Occurs needle text caret

instance (selection : Selection) (needle text : List UInt8) (caret : Nat) :
    Decidable (selection.IsMatch needle text caret) :=
  inferInstanceAs (Decidable (selection.selecting = false ∧
    selection.range = some ⟨caret, caret + needle.length⟩ ∧ Occurs needle text caret))

theorem Selection.startsAt_eq_true_iff {selection : Selection} {offset : Nat} :
    selection.startsAt offset = true ↔
      selection.selecting = false ∧ ∃ hi, offset < hi ∧ selection.range = some ⟨offset, hi⟩ := by
  rw [startsAt, Bool.and_eq_true, Bool.not_eq_true']
  refine and_congr_right fun _ => ?_
  rw [nonEmptyRange]
  cases selection.range with
  | none => simp
  | some r =>
      obtain ⟨lo, hi⟩ := r
      simp [Option.any_filter, Span.isEmpty]
      grind

namespace Selection.IsMatch

variable {selection : Selection} {needle text : List UInt8} {caret : Nat}

/-- A match that is selected is a selection that begins there. -/
theorem startsAt (h : selection.IsMatch needle text caret) : selection.startsAt caret = true :=
  startsAt_eq_true_iff.mpr
    ⟨h.1, caret + needle.length, Nat.lt_add_of_pos_right h.2.2.length_pos, h.2.1⟩

end Selection.IsMatch

namespace Searched

variable {s : Searched} {needle : List UInt8} {offset : Nat} {wrapped : Bool}

/-! ## One search -/

/-- A match that is shown has the caret at its start. -/
theorem caret_showMatch (h : Occurs needle s.buffer.content offset) :
    (s.showMatch needle offset).buffer.caret = offset := by
  have hle := h.add_length_le
  rw [GapBuffer.length_content] at hle
  exact GapBuffer.caret_seek s.buffer (by omega)

/-- What a search finds, it shows. -/
theorem search_eq_of_foundFrom
    (h : FoundFrom needle s.buffer.content (searchOrigin s.buffer s.selection) offset wrapped) :
    s.search needle = (s.showMatch needle offset, .found offset wrapped) := by
  rw [search, GapBuffer.findWrapping_eq_some_iff.mpr h]

/-- A search that finds nothing changes nothing. -/
theorem search_eq_of_not_occurs (h : ∀ k, ¬ Occurs needle s.buffer.content k) :
    s.search needle = (s, .notFound) := by
  rw [search, GapBuffer.findWrapping_eq_none_iff.mpr h]

/-- A search finds something unless the needle stands nowhere. -/
theorem exists_foundFrom (h : ∃ k, Occurs needle s.buffer.content k) (start : Nat) :
    ∃ offset wrapped, FoundFrom needle s.buffer.content start offset wrapped := by
  obtain ⟨k, hk⟩ := h
  cases hfind : s.buffer.findWrapping needle start with
  | none => exact absurd hk (GapBuffer.findWrapping_eq_none_iff.mp hfind k)
  | some found => exact ⟨found.1, found.2, GapBuffer.findWrapping_eq_some_iff.mp hfind⟩

theorem search_eq_notFound_iff :
    (s.search needle).2 = .notFound ↔ ∀ k, ¬ Occurs needle s.buffer.content k := by
  constructor
  · intro h k hk
    obtain ⟨offset, wrapped, hfound⟩ :=
      exists_foundFrom ⟨k, hk⟩ (searchOrigin s.buffer s.selection)
    rw [search_eq_of_foundFrom hfound] at h
    cases h
  · intro h
    rw [search_eq_of_not_occurs h]

/-! ## Where a search begins -/

/-- Where a search is meant to begin: at the caret, or one past it when the selection is a match
that begins there. -/
def intendedOrigin (s : Searched) (needle : List UInt8) : Nat :=
  if s.selection.IsMatch needle s.buffer.content s.buffer.caret then s.buffer.caret + 1
  else s.buffer.caret

/-- A frozen selection begins at the caret, where an occurrence of the needle begins too, and does
not select just this occurrence. -/
def PassesOver (s : Searched) (needle : List UInt8) : Prop :=
  s.selection.startsAt s.buffer.caret = true ∧
    Occurs needle s.buffer.content s.buffer.caret ∧
      ¬ s.selection.IsMatch needle s.buffer.content s.buffer.caret

/-- **A search begins where it is meant to begin** unless it passes over an occurrence at the caret.
It finds the needle if it stands anywhere in the text. -/
theorem foundFrom_intendedOrigin_iff (h : ∃ k, Occurs needle s.buffer.content k) :
    ∃ offset wrapped, (s.search needle).2 = .found offset wrapped ∧
      (FoundFrom needle s.buffer.content (s.intendedOrigin needle) offset wrapped ↔
        ¬ s.PassesOver needle) := by
  obtain ⟨offset, wrapped, hfound⟩ := exists_foundFrom h (searchOrigin s.buffer s.selection)
  refine ⟨offset, wrapped, by rw [search_eq_of_foundFrom hfound], ?_⟩
  by_cases hmatch : s.selection.IsMatch needle s.buffer.content s.buffer.caret
  · rw [searchOrigin, if_pos hmatch.startsAt] at hfound
    rw [intendedOrigin, if_pos hmatch]
    exact iff_of_true hfound fun hpass => hpass.2.2 hmatch
  · rw [intendedOrigin, if_neg hmatch]
    by_cases hstarts : s.selection.startsAt s.buffer.caret = true
    · rw [searchOrigin, if_pos hstarts] at hfound
      by_cases hocc : Occurs needle s.buffer.content s.buffer.caret
      · refine iff_of_false (fun hcaret => ?_) fun hnot => hnot ⟨hstarts, hocc, hmatch⟩
        -- the occurrence at the caret is the first one from there on, and the search is past it
        have hfirst : FoundFrom needle s.buffer.content s.buffer.caret s.buffer.caret false :=
          ⟨⟨Nat.le_refl _, hocc⟩, fun k hk => hk.1⟩
        obtain ⟨rfl, rfl⟩ := hcaret.unique hfirst
        exact absurd hfound.le (Nat.not_succ_le_self _)
      · exact iff_of_true ((foundFrom_succ hocc).mp hfound) fun hpass => hocc hpass.2.1
    · rw [searchOrigin, if_neg hstarts] at hfound
      exact iff_of_true hfound fun hpass => hstarts hpass.1

/-- The letter at the caret is selected, from right to left, and the needle is another one: the
search begins at the caret. -/
theorem foundFrom_intendedOrigin_backwards :
    let s : Searched := ⟨((GapBuffer.empty 8).insertAll [97, 98, 99, 98]).seek 1, Selection.span 2 1⟩
    (∃ k, Occurs [99, 98] s.buffer.content k) ∧ s.selection.startsAt s.buffer.caret = true ∧
      ¬ s.PassesOver [99, 98] ∧
      FoundFrom [99, 98] s.buffer.content (s.intendedOrigin [99, 98]) 2 false := by
  intro s
  have hocc : ∃ k, Occurs [99, 98] s.buffer.content k := ⟨2, by decide +kernel⟩
  have hnot : ¬ s.PassesOver [99, 98] :=
    fun hpass => absurd hpass.2.1 (by decide +kernel)
  refine ⟨hocc, by decide +kernel, hnot, ?_⟩
  obtain ⟨offset, wrapped, hsearch, hiff⟩ := foundFrom_intendedOrigin_iff hocc
  have hresult : (s.search [99, 98]).2 = .found 2 false := by decide +kernel
  obtain ⟨rfl, rfl⟩ := SearchOutcome.found.inj (hresult.symm.trans hsearch)
  exact hiff.mpr hnot

/-- The first letter of the needle is selected by hand, at the caret: the search passes over the
occurrence that begins there. -/
theorem not_foundFrom_intendedOrigin_first_letter :
    let s : Searched :=
      ⟨((GapBuffer.empty 16).insertAll [97, 98, 97, 98]).seek 0,
        (Selection.none.startOrExtend 1).startOrExtend 0⟩
    ¬ s.selection.IsMatch [97, 98] s.buffer.content s.buffer.caret ∧ s.buffer.caret = 0 ∧
      Occurs [97, 98] s.buffer.content 0 ∧ (s.search [97, 98]).2 = .found 2 false ∧
      ¬ FoundFrom [97, 98] s.buffer.content (s.intendedOrigin [97, 98]) 2 false := by
  intro s
  have hmatch : ¬ s.selection.IsMatch [97, 98] s.buffer.content s.buffer.caret := by decide +kernel
  have hocc : Occurs [97, 98] s.buffer.content 0 := by decide +kernel
  have horigin : s.intendedOrigin [97, 98] = 0 := by decide +kernel
  refine ⟨hmatch, by decide +kernel, hocc, by decide +kernel, fun hfound => ?_⟩
  rw [horigin] at hfound
  exact absurd (hfound.2 ⟨Nat.le_refl 0, hocc⟩) (by decide)

/-! ## Searching again and again -/

/-- A text after a number of searches for one needle. -/
def searchAgain (s : Searched) (needle : List UInt8) : Nat → Searched
  | 0 => s
  | count + 1 => ((s.searchAgain needle count).search needle).1

/-- After a match was shown, the next search begins one past it. -/
theorem searchOrigin_showMatch (h : Occurs needle s.buffer.content offset) :
    searchOrigin (s.showMatch needle offset).buffer (s.showMatch needle offset).selection
      = offset + 1 := by
  have hcaret := caret_showMatch h
  have hmatch : (s.showMatch needle offset).selection.IsMatch needle s.buffer.content offset :=
    ⟨rfl, by simp [showMatch, Selection.span, Selection.range], h⟩
  rw [searchOrigin, hcaret, if_pos hmatch.startsAt]

/-- Behind an occurrence comes the next one of the list, and behind the last one the first. -/
theorem foundFrom_next {text : List UInt8} {i here next : Nat}
    (hhere : (occurrences needle text)[i]? = some here)
    (hnext : (occurrences needle text)[(i + 1) % (occurrences needle text).length]? = some next) :
    FoundFrom needle text (here + 1) next (decide (next ≤ here)) := by
  obtain ⟨hi, rfl⟩ := List.getElem?_eq_some_iff.mp hhere
  have hocc := mem_occurrences.mp (List.mem_of_getElem? hnext)
  have hoccurs : ∀ k, Occurs needle text k →
      ∃ (j : Nat) (hj : j < (occurrences needle text).length), (occurrences needle text)[j] = k :=
    fun k hk => List.mem_iff_getElem.mp (mem_occurrences.mpr hk)
  rcases Nat.lt_or_ge (i + 1) (occurrences needle text).length with hlt | hge
  · -- the next occurrence of the list is the first one behind this one
    rw [Nat.mod_eq_of_lt hlt, List.getElem?_eq_getElem hlt] at hnext
    obtain rfl := Option.some.inj hnext
    have hup := (getElem_occurrences_lt_iff hi hlt).mpr (Nat.lt_succ_self i)
    rw [decide_eq_false (Nat.not_le_of_lt hup)]
    refine ⟨⟨hup, hocc⟩, fun k hk => Nat.le_of_not_lt fun hbefore => ?_⟩
    obtain ⟨j, hj, rfl⟩ := hoccurs k hk.2
    have hij := (getElem_occurrences_lt_iff hi hj).mp hk.1
    have hji := (getElem_occurrences_lt_iff hj hlt).mp hbefore
    omega
  · -- this is the last occurrence, so the search wraps
    rw [show i + 1 = (occurrences needle text).length by omega, Nat.mod_self,
      List.getElem?_eq_getElem (by omega)] at hnext
    obtain rfl := Option.some.inj hnext
    have hfirst : ∀ k, Occurs needle text k → (occurrences needle text)[0] ≤ k := by
      intro k hk
      obtain ⟨j, hj, rfl⟩ := hoccurs k hk
      refine Nat.le_of_not_lt fun hlt => ?_
      exact Nat.not_lt_zero j ((getElem_occurrences_lt_iff hj (by omega)).mp hlt)
    rw [decide_eq_true (hfirst _ (mem_occurrences.mp (List.getElem_mem hi)))]
    refine ⟨fun k hk hbehind => ?_, hocc, fun k hk => hfirst k hk⟩
    obtain ⟨j, hj, rfl⟩ := hoccurs k hbehind
    have hij := (getElem_occurrences_lt_iff hi hj).mp hk
    omega

/-- Whether each search of a row has wrapped, when it is known of the first one. -/
def wrapsFrom (first : Bool) (visited : Nat → Nat) : Nat → Bool
  | 0 => first
  | last + 1 => visited (last + 1) ≤ visited last

/-- From one occurrence of the list a search arrives at the next one. -/
theorem searchAgain_arrives {first : Nat} {visited : Nat → Nat}
    (hvisited : ∀ count, (occurrences needle s.buffer.content)[(first + count) %
      (occurrences needle s.buffer.content).length]? = some (visited count))
    (hfirst : FoundFrom needle s.buffer.content (searchOrigin s.buffer s.selection) (visited 0)
      wrapped) (count : Nat) :
    (s.searchAgain needle count).buffer.content = s.buffer.content ∧
      FoundFrom needle s.buffer.content
        (searchOrigin (s.searchAgain needle count).buffer (s.searchAgain needle count).selection)
        (visited count) (wrapsFrom wrapped visited count) := by
  induction count with
  | zero => exact ⟨rfl, hfirst⟩
  | succ count ih =>
      obtain ⟨hcontent, hfound⟩ := ih
      have hnext := hvisited (count + 1)
      rw [← Nat.add_assoc, ← Nat.mod_add_mod] at hnext
      rw [searchAgain, search_eq_of_foundFrom (by rw [hcontent]; exact hfound), content_showMatch,
        searchOrigin_showMatch (by rw [hcontent]; exact hfound.occurs)]
      exact ⟨hcontent, foundFrom_next (hvisited count) hnext⟩

/-- **Searching again and again visits every occurrence in turn.**  A search finds nothing, and then
changes nothing, iff the needle is empty or stands nowhere.  Otherwise each search shows one
occurrence, in cyclic order from the one that the first search found, the text stays, and a later
search has wrapped iff it has not gone forward. -/
theorem search_visits (s : Searched) (needle : List UInt8) :
    ((s.search needle).2 = .notFound ↔
        needle = [] ∨ ∀ k, ¬ needle <+: s.buffer.content.drop k) ∧
      ((s.search needle).2 = .notFound → (s.search needle).1 = s) ∧
      ((s.search needle).2 ≠ .notFound →
        ∃ (first : Nat) (visited : Nat → Nat) (wrapped : Nat → Bool), ∀ count,
          let places := occurrences needle s.buffer.content
          let found := s.searchAgain needle (count + 1)
          places[(first + count) % places.length]? = some (visited count) ∧
            ((s.searchAgain needle count).search needle).2
              = .found (visited count) (wrapped count) ∧
            found.buffer.content = s.buffer.content ∧ found.buffer.caret = visited count ∧
            found.selection = Selection.span (visited count) (visited count + needle.length) ∧
            (wrapped (count + 1) = true ↔ visited (count + 1) ≤ visited count)) := by
  refine ⟨?_, fun hnone => ?_, fun hsome => ?_⟩
  · rw [search_eq_notFound_iff, or_iff_not_imp_left, forall_comm]
    exact forall_congr' fun k => not_and
  · rw [search_eq_of_not_occurs (search_eq_notFound_iff.mp hnone)]
  · have hocc : ∃ k, Occurs needle s.buffer.content k := by
      simpa only [ne_eq, search_eq_notFound_iff, not_forall, not_not] using hsome
    obtain ⟨start, wrapped, hstart⟩ :=
      exists_foundFrom hocc (searchOrigin s.buffer s.selection)
    obtain ⟨first, hfirst⟩ := List.mem_iff_getElem?.mp (mem_occurrences.mpr hstart.occurs)
    obtain ⟨hlt, -⟩ := List.getElem?_eq_some_iff.mp hfirst
    have hall : ∀ count, ∃ offset, (occurrences needle s.buffer.content)[(first + count) %
        (occurrences needle s.buffer.content).length]? = some offset :=
      fun count => ⟨_, List.getElem?_eq_getElem (Nat.mod_lt _ (by omega))⟩
    choose visited hvisited using hall
    have hzero : visited 0 = start := by
      have h := hvisited 0
      rw [Nat.add_zero, Nat.mod_eq_of_lt hlt, hfirst] at h
      exact (Option.some.inj h).symm
    refine ⟨first, visited, wrapsFrom wrapped visited, fun count => ?_⟩
    obtain ⟨hcontent, hfound⟩ := searchAgain_arrives hvisited (hzero ▸ hstart) count
    have hsearch := search_eq_of_foundFrom (by rw [hcontent]; exact hfound)
    have hshown : s.searchAgain needle (count + 1)
        = (s.searchAgain needle count).showMatch needle (visited count) := by
      rw [searchAgain, hsearch]
    have hcaret := caret_showMatch (by rw [hcontent]; exact hfound.occurs)
    refine ⟨hvisited count, by rw [hsearch], ?_⟩
    rw [hshown]
    exact ⟨(content_showMatch _ _ _).trans hcontent, hcaret, rfl, decide_eq_true_iff⟩

/-- Overlapping occurrences, with the caret at the last one. -/
example :
    let s : Searched := ⟨((GapBuffer.empty 8).insertAll [97, 97, 97]).seek 1, Selection.none⟩
    (List.range 4).map (fun count => ((s.searchAgain [97, 97] count).search [97, 97]).2)
      = [.found 1 false, .found 0 true, .found 1 false, .found 0 true] := by decide +kernel

end Searched
end ScreenEditor
