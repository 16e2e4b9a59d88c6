import ScreenEditor.Proofs.Gap.Content
import ScreenEditor.Search.Replace

/-!
# What searching leaves alone

Searching and replacing stay within the segment: no search, no answer and no whole run changes the
capacity of the text.  They also leave no selection behind whose extent should follow the caret and
does not (`Searched.Tracks`): a selection that is being made is given up before the caret moves.

A run counts every change of the text: as long as it has replaced nothing, the text is the one that
it began with (`ReplaceRun.Counts`).
-/

namespace ScreenEditor

/-- While the selection is being made, its extent is the caret. -/
def Selection.Tracks (selection : Selection) (caret : Nat) : Prop :=
  selection.selecting = true → ∃ anchor, selection.bounds = some (anchor, caret)

/-- A selection that is not being made follows no caret. -/
theorem Selection.tracks_of_not_selecting {selection : Selection}
    (h : selection.selecting = false) (caret : Nat) : selection.Tracks caret := by
  intro hselecting
  rw [h] at hselecting
  cases hselecting

namespace ReplaceRun

/-- Writing bytes over the text, one after the other. -/
theorem capacity_writeAll (bytes : List (UInt8 × Nat)) (g : GapBuffer) (offset : Nat) :
    (bytes.foldl (fun g b => g.writeAt (g.rawIndex (offset + b.2)) b.1) g).capacity
      = g.capacity := by
  induction bytes generalizing g with
  | nil => rfl
  | cons b bytes ih => rw [List.foldl_cons, ih, GapBuffer.capacity_writeAt]

/-- A replacement keeps the size of the segment. -/
theorem capacity_substitute (run : ReplaceRun) (g : GapBuffer) (offset : Nat) :
    (run.substitute g offset).capacity = g.capacity := by
  rw [substitute]
  split
  · rw [GapBuffer.capacity_seek, capacity_writeAll]
  · rw [GapBuffer.capacity_insertAll, GapBuffer.capacity_deleteRange]

/-- **A run that replaces every match keeps the capacity.** -/
theorem capacity_all (run : ReplaceRun) (s : Searched) :
    (run.all s).2.buffer.capacity = s.buffer.capacity := by
  fun_induction all run s with
  | case1 => rfl
  | case2 run s offset next h shown fit hdec ih =>
      rw [ih, capacity_substitute]
      exact GapBuffer.capacity_seek _ offset
  | case3 run s offset next h shown full => exact GapBuffer.capacity_seek _ offset

/-- So does a question. -/
theorem capacity_offer? {run : ReplaceRun} {s : Searched} {offer : Offer}
    (h : run.offer? s = some offer) : offer.shown.buffer.capacity = s.buffer.capacity := by
  obtain ⟨found, -, rfl⟩ := Option.map_eq_some_iff.mp h
  exact GapBuffer.capacity_seek _ found.1

/-- The text after an answer. -/
def Answered.searched : Answered → Searched
  | .goOn _ s => s
  | .stop _ s => s

/-- So does its answer. -/
theorem capacity_answer (run : ReplaceRun) (s : Searched) (offset : Nat)
    (decision : ReplaceDecision) :
    (run.answer s offset decision).searched.buffer.capacity = s.buffer.capacity := by
  cases decision with
  | abort => rfl
  | skip => rfl
  | replace =>
      rw [answer]
      split
      · exact capacity_substitute run s.buffer offset
      · rfl

end ReplaceRun

namespace Searched

/-- Showing a match changes no text. -/
@[simp] theorem content_showMatch (s : Searched) (needle : List UInt8) (offset : Nat) :
    (s.showMatch needle offset).buffer.content = s.buffer.content :=
  GapBuffer.content_seek s.buffer offset

/-- A search keeps the size of the segment. -/
theorem capacity_search (s : Searched) (needle : List UInt8) :
    (s.search needle).1.buffer.capacity = s.buffer.capacity := by
  rw [search]
  split
  · next offset _ _ => exact GapBuffer.capacity_seek _ offset
  · rfl

/-- So does a run without questions. -/
theorem capacity_replaceAll (s : Searched) (needle replacement : List UInt8) :
    (s.replaceAll needle replacement).1.buffer.capacity = s.buffer.capacity :=
  ReplaceRun.capacity_all (ReplaceRun.start s needle replacement) s

/-! ## Selections -/

/-- The selection of a text under search follows its caret. -/
def Tracks (s : Searched) : Prop := s.selection.Tracks s.buffer.caret

/-- A match is shown by a frozen selection. -/
theorem tracks_showMatch (s : Searched) (needle : List UInt8) (offset : Nat) :
    (s.showMatch needle offset).Tracks := Selection.tracks_of_not_selecting rfl _

/-- A match is shown as a frozen selection. -/
theorem Tracks.search {s : Searched} (h : s.Tracks) (needle : List UInt8) :
    (s.search needle).1.Tracks := by
  rw [Searched.search]
  split
  · next offset _ _ => exact s.tracks_showMatch needle offset
  · exact h

end Searched

namespace ReplaceRun

/-- So is the last one of a run without questions. -/
theorem tracks_all {run : ReplaceRun} {s : Searched} (h : s.Tracks) : (run.all s).2.Tracks := by
  fun_induction all run s with
  | case1 => exact h
  | case2 run s offset next hnext shown fit hdec ih =>
      exact ih (Selection.tracks_of_not_selecting rfl _)
  | case3 run s offset next hnext shown full => exact s.tracks_showMatch next.needle offset

/-- So is the match that a question is about. -/
theorem tracks_offer? {run : ReplaceRun} {s : Searched} {offer : Offer}
    (h : run.offer? s = some offer) : offer.shown.Tracks := by
  obtain ⟨found, -, rfl⟩ := Option.map_eq_some_iff.mp h
  exact s.tracks_showMatch run.needle found.1

/-- An answer leaves the selection or drops it. -/
theorem tracks_answer (run : ReplaceRun) {s : Searched} (h : s.Tracks) (offset : Nat)
    (decision : ReplaceDecision) : (run.answer s offset decision).searched.Tracks := by
  cases decision with
  | abort => exact h
  | skip => exact h
  | replace =>
      rw [answer]
      split
      · exact Selection.tracks_of_not_selecting rfl _
      · exact h

/-! ## Counting -/

/-- A run that began with the text `content` has come to the text `g`: it has replaced no more
matches than it offered, and if it has replaced none, the text is the same. -/
structure Counts (run : ReplaceRun) (content : List UInt8) (g : GapBuffer) : Prop where
  replaced_le : run.summary.replaced ≤ run.summary.offered
  content_eq : run.summary.replaced = 0 → g.content = content

/-- A run begins with nothing replaced. -/
theorem counts_start (s : Searched) (needle replacement : List UInt8) :
    (start s needle replacement).Counts s.buffer.content s.buffer := ⟨Nat.le_refl _, fun _ => rfl⟩

/-- Finding the next match counts one more offer. -/
theorem summary_next {run next : ReplaceRun} {g : GapBuffer} {offset : Nat}
    (h : run.next? g = some (offset, next)) :
    next.summary = { run.summary with offered := run.summary.offered + 1 } := by
  simp only [next?] at h
  split at h
  · obtain ⟨k, -, heq⟩ := Option.map_eq_some_iff.mp h
    rw [← (Prod.mk.inj heq).2]
  · split at h
    · rw [← (Prod.mk.inj (Option.some.inj h)).2]
    · obtain ⟨k, -, heq⟩ := Option.map_eq_some_iff.mp h
      rw [← (Prod.mk.inj heq).2]

/-- At an offer, more matches were offered than replaced. -/
theorem Counts.next {run next : ReplaceRun} {content : List UInt8} {g g' : GapBuffer}
    {offset : Nat} (h : run.Counts content g) (hnext : run.next? g = some (offset, next))
    (hsame : g'.content = g.content) :
    next.Counts content g' ∧ next.summary.replaced < next.summary.offered := by
  have hle := h.replaced_le
  have hsummary := summary_next hnext
  have hreplaced : next.summary.replaced = run.summary.replaced := by rw [hsummary]
  have hoffered : next.summary.offered = run.summary.offered + 1 := by rw [hsummary]
  refine ⟨⟨by omega, fun hnone => hsame.trans (h.content_eq ?_)⟩, by omega⟩
  rw [← hreplaced, hnone]

/-- A question counts one more match that is offered. -/
theorem Counts.offer {run : ReplaceRun} {content : List UInt8} {s : Searched} {offer : Offer}
    (h : run.Counts content s.buffer) (hoffer : run.offer? s = some offer) :
    offer.run.Counts content offer.shown.buffer ∧
      offer.run.summary.replaced < offer.run.summary.offered := by
  obtain ⟨found, hfound, rfl⟩ := Option.map_eq_some_iff.mp hoffer
  exact h.next hfound (GapBuffer.content_seek _ found.1)

/-- A replacement is counted. -/
theorem counts_afterReplacing {run : ReplaceRun} (content : List UInt8) (g : GapBuffer)
    (offset : Nat) (h : run.summary.replaced < run.summary.offered) :
    (run.afterReplacing offset).Counts content g :=
  ⟨h, fun hnone => absurd hnone (Nat.succ_ne_zero _)⟩

/-- The run after an answer. -/
def Answered.run : Answered → ReplaceRun
  | .goOn run _ => run
  | .stop run _ => run

/-- Its answer counts at most that one as replaced. -/
theorem Counts.answer {run : ReplaceRun} {content : List UInt8} {s : Searched}
    (h : run.Counts content s.buffer) (hlt : run.summary.replaced < run.summary.offered)
    (offset : Nat) (decision : ReplaceDecision) : (run.answer s offset decision).run.Counts content
      (run.answer s offset decision).searched.buffer := by
  cases decision with
  | abort => exact ⟨h.replaced_le, h.content_eq⟩
  | skip => exact ⟨h.replaced_le, h.content_eq⟩
  | replace =>
      rw [ReplaceRun.answer]
      split
      · exact counts_afterReplacing content _ offset hlt
      · exact ⟨h.replaced_le, h.content_eq⟩

/-- **A run that replaces every match counts what it changes.** -/
theorem Counts.all {run : ReplaceRun} {content : List UInt8} {s : Searched}
    (h : run.Counts content s.buffer) : (run.all s).1.Counts content (run.all s).2.buffer := by
  fun_induction ReplaceRun.all run s with
  | case1 => exact h
  | case2 run s offset next hnext shown fit hdec ih =>
      obtain ⟨-, hlt⟩ := h.next hnext (GapBuffer.content_seek s.buffer offset)
      exact ih (counts_afterReplacing content _ offset hlt)
  | case3 run s offset next hnext shown full =>
      obtain ⟨hcounts, -⟩ := h.next hnext (GapBuffer.content_seek s.buffer offset)
      exact ⟨hcounts.replaced_le, hcounts.content_eq⟩

end ReplaceRun
end ScreenEditor
