import ScreenEditor.Proofs.Search.Replies

/-!
# How many matches a replace run offers

A text can grow while a run replaces, and the origin of the run moves with it, so no variable of a
run goes down from one offer to the next.  What goes down is the number of places that the run has
still before it (`ReplaceRun.ahead`): in the first pass the places from its position to the end of
the text, and those before the origin; in the second pass the places from its position on that lie
before the origin and leave room for the needle.  A replacement is passed over as a whole, so it
adds none.

A new run has before it the places of the old text that leave room for the needle.  So it ends after
as many offers at the most, whatever the replies are (`Searched.replace_stops`).
-/

namespace ScreenEditor
namespace ReplaceRun

/-- How many places a run has still before it, in a text of so many bytes. -/
def ahead (run : ReplaceRun) (length : Nat) : Nat :=
  let places := length + 1 - run.needle.length
  if run.wrapped then min (run.origin - run.position) (places - run.position)
  else places - run.position + min run.origin places

/-- In its first pass a run is not before its origin. -/
def PastOrigin (run : ReplaceRun) : Prop := run.wrapped = false → run.origin ≤ run.position

theorem pastOrigin_start (s : Searched) (needle replacement : List UInt8) :
    (start s needle replacement).PastOrigin := fun _ => Nat.le_refl _

/-- A new run has all places of the text before it. -/
theorem ahead_start (s : Searched) (needle replacement : List UInt8) :
    (start s needle replacement).ahead s.buffer.length = s.buffer.length + 1 - needle.length := by
  simp only [ahead, start, Bool.false_eq_true, if_false]
  omega

/-- The places of the second pass are among those before a run that wraps. -/
theorem GoesOnAs.ahead_le {run base : ReplaceRun} {text : List UInt8} (h : run.GoesOnAs text base)
    (length : Nat) : base.ahead length ≤ run.ahead length := by
  cases h with
  | same => exact Nat.le_refl _
  | wrap hfirst =>
      have hwrap : run.wrap.ahead length
          = min run.origin (length + 1 - run.needle.length) := rfl
      rw [hwrap, ahead, hfirst, if_neg Bool.false_ne_true]
      exact Nat.le_add_left _ _

theorem GoesOnAs.pastOrigin {run base : ReplaceRun} {text : List UInt8}
    (h : run.GoesOnAs text base) (hpast : run.PastOrigin) : base.PastOrigin := by
  cases h with
  | same => exact hpast
  | wrap => intro hwrapped; cases hwrapped

section Step

variable {run : ReplaceRun} {length offset : Nat}

/-- Passing over a match leaves fewer places. -/
theorem ahead_skip (hpos : run.position ≤ offset) (hfit : offset + run.needle.length ≤ length)
    (hbefore : run.wrapped = true → offset < run.origin) :
    ({ run with position := offset + 1 } : ReplaceRun).ahead length < run.ahead length := by
  cases hwrapped : run.wrapped with
  | true =>
      have hlt := hbefore hwrapped
      simp only [ahead, hwrapped, if_true]
      omega
  | false =>
      simp only [ahead, hwrapped, Bool.false_eq_true, if_false]
      omega

/-- So does replacing it, in a text that grows or shrinks with that. -/
theorem ahead_afterReplacing {length' : Nat} (hpast : run.PastOrigin)
    (hpos : run.position ≤ offset) (hfit : offset + run.needle.length ≤ length)
    (hneedle : 0 < run.needle.length) (hbefore : run.wrapped = true → offset < run.origin)
    (hlength : length' + run.needle.length = length + run.replacement.length) :
    (run.afterReplacing offset).ahead length' < run.ahead length := by
  cases hwrapped : run.wrapped with
  | true =>
      have hlt := hbefore hwrapped
      simp only [ahead, afterReplacing, hwrapped, if_true]
      omega
  | false =>
      -- the first pass has made an offer behind the origin, so every place before it is counted
      have horigin := hpast hwrapped
      simp only [ahead, afterReplacing, hwrapped, Bool.false_eq_true, if_false]
      omega

end Step

/-- Where a run makes its next offer. -/
structure Offer.Place (offer : Offer) (run : ReplaceRun) (length : Nat) : Prop where
  pastOrigin : offer.run.PastOrigin
  position_le : offer.run.position ≤ offer.offset
  fits : offer.offset + offer.run.needle.length ≤ length
  needle_pos : 0 < offer.run.needle.length
  before : offer.run.wrapped = true → offer.offset < offer.run.origin
  length_eq : offer.shown.buffer.length = length
  ahead_le : offer.run.ahead length ≤ run.ahead length

theorem place_of_offer? {run : ReplaceRun} {s : Searched} {offer : Offer}
    (hpast : run.PastOrigin) (h : run.offer? s = some offer) :
    offer.Place run s.buffer.length := by
  obtain ⟨base, hbase, hrun, hshown, hleast, hbefore⟩ := offer?_eq_some h
  obtain ⟨next, offset, shown⟩ := offer
  obtain rfl : next = base.counted := hrun
  obtain rfl : shown = s.showMatch run.needle offset := hshown
  have hneedle : base.needle = run.needle := by cases hbase <;> rfl
  rw [← hneedle] at hleast
  have hfits := hleast.1.2.add_length_le
  rw [GapBuffer.length_content] at hfits
  exact ⟨hbase.pastOrigin hpast, hleast.1.1, hfits, hleast.1.2.length_pos, hbefore,
    GapBuffer.length_seek _ _, hbase.ahead_le _⟩

section Course

variable {run ended : ReplaceRun} {s found : Searched} {log : List Reply}

/-- **Every offer uses up a place.**  The induction is on the course; what carries it is that the
first pass does not come before the origin. -/
theorem Course.length_le_ahead (h : run.Course s log ended found) (hpast : run.PastOrigin) :
    log.length ≤ run.ahead s.buffer.length := by
  induction h with
  | exhausted => exact Nat.zero_le _
  | aborted hoffer | full hoffer =>
      have place := place_of_offer? hpast hoffer
      have hskip := ahead_skip place.position_le place.fits place.before
      exact Nat.lt_of_le_of_lt (Nat.zero_le _) (Nat.lt_of_lt_of_le hskip place.ahead_le)
  | skipped hoffer rest ih =>
      have place := place_of_offer? hpast hoffer
      have hskip := ahead_skip place.position_le place.fits place.before
      have hrest := ih fun hfirst => Nat.le_succ_of_le
        (Nat.le_trans (place.pastOrigin hfirst) place.position_le)
      rw [place.length_eq] at hrest
      exact Nat.lt_of_le_of_lt hrest (Nat.lt_of_lt_of_le hskip place.ahead_le)
  | @replaced _ _ _ _ offer _ hoffer fit rest ih =>
      have place := place_of_offer? hpast hoffer
      have hlength := length_substitute (place.length_eq ▸ place.fits) fit
      rw [place.length_eq] at hlength
      have hreplace := ahead_afterReplacing place.pastOrigin place.position_le place.fits
        place.needle_pos place.before hlength
      have hrest := ih fun hfirst => by
        have horigin := place.pastOrigin hfirst
        have hposition := place.position_le
        have hmoved : (offer.run.afterReplacing offer.offset).origin = offer.run.origin :=
          if_neg (Bool.eq_false_iff.mp hfirst)
        rw [hmoved]
        exact Nat.le_add_right_of_le (Nat.le_trans horigin hposition)
      exact Nat.lt_of_le_of_lt hrest (Nat.lt_of_lt_of_le hreplace place.ahead_le)

/-- An offer is counted. -/
theorem offered_of_offer? {offer : Offer} (h : run.offer? s = some offer) :
    offer.run.summary.offered = run.summary.offered + 1 := by
  obtain ⟨next, hnext, rfl⟩ := Option.map_eq_some_iff.mp h
  exact congrArg ReplaceSummary.offered (summary_next hnext)

/-- A course counts its offers. -/
theorem Course.offered_eq (h : run.Course s log ended found) :
    ended.summary.offered = run.summary.offered + log.length := by
  induction h with
  | exhausted => rfl
  | aborted hoffer | full hoffer => exact offered_of_offer? hoffer
  | @skipped run ended _ _ offer log hoffer rest ih
  | @replaced run ended _ _ offer log hoffer _ rest ih =>
      have hone := offered_of_offer? hoffer
      have hrest : ended.summary.offered = offer.run.summary.offered + log.length := ih
      rw [hrest, List.length_cons]
      omega

/-- A run that is answered from a list takes the course that has these replies, if the list is long
enough for it. -/
theorem Course.answering_eq (h : run.Course s log ended found) {decisions : List ReplaceDecision}
    (hreplies : log.map (·.decision) <+: decisions) :
    run.answering s decisions = (ended, found, log.map (·.offer.shown)) := by
  induction h generalizing decisions with
  | exhausted hnone => cases decisions <;> simp [answering, hnone]
  | aborted hoffer =>
      obtain ⟨rest, rfl⟩ := hreplies
      simp [answering, hoffer, answer]
  | full hoffer hfull =>
      obtain ⟨rest, rfl⟩ := hreplies
      simp [answering, hoffer, answer, hfull]
  | skipped hoffer rest ih =>
      obtain ⟨more, rfl⟩ := hreplies
      simp [answering, hoffer, answer, ih (List.prefix_append _ more)]
  | replaced hoffer fit rest ih =>
      obtain ⟨more, rfl⟩ := hreplies
      simp [answering, hoffer, answer, fit, ih (List.prefix_append _ more)]

end Course

end ReplaceRun

namespace Searched

open ReplaceRun

/-- The answers to the first questions begin those to more questions. -/
theorem prefix_answers (answers : Nat → ReplaceDecision) {few many : Nat} (h : few ≤ many) :
    (List.range few).map answers <+: (List.range many).map answers := by
  obtain ⟨more, rfl⟩ := Nat.exists_eq_add_of_le h
  rw [List.range_add, List.map_append]
  exact List.prefix_append _ _

/-- **A replace run stops by itself**, after at most as many offers as there are places in the old
text that leave room for the needle, whatever it replaces.  When it asks no questions it does so;
and whatever answers there are to its questions, it has asked as many of them as it made offers, and
takes no notice of any further answer. -/
theorem replace_stops (s : Searched) (needle replacement : List UInt8) :
    (∃ log ended found, (start s needle replacement).Course s log ended found ∧
      (∀ r ∈ log, r.decision = .replace) ∧
      s.replaceAll needle replacement = (found, ended.outcome) ∧
      ended.summary.offered = log.length ∧
      log.length ≤ s.buffer.length + 1 - needle.length) ∧
    ∀ answers : Nat → ReplaceDecision,
      ∃ log ended found, (start s needle replacement).Course s log ended found ∧
        log.map (·.decision) = (List.range log.length).map answers ∧
        (∀ count, log.length ≤ count →
          s.queryReplace needle replacement ((List.range count).map answers)
            = (found, ended.outcome, log.map (·.offer.shown))) ∧
        ended.summary.offered = log.length ∧
        log.length ≤ s.buffer.length + 1 - needle.length := by
  have hbound : ∀ {log ended found}, (start s needle replacement).Course s log ended found →
      log.length ≤ s.buffer.length + 1 - needle.length := by
    intro log ended found hcourse
    rw [← ahead_start s needle replacement]
    exact hcourse.length_le_ahead (pastOrigin_start s needle replacement)
  have hoffered : ∀ {log ended found}, (start s needle replacement).Course s log ended found →
      ended.summary.offered = log.length :=
    fun hcourse => hcourse.offered_eq.trans (Nat.zero_add _)
  refine ⟨?_, fun answers => ?_⟩
  · obtain ⟨log, hcourse, hall⟩ := course_all (start s needle replacement) s
    exact ⟨log, _, _, hcourse, hall, rfl, hoffered hcourse, hbound hcourse⟩
  · -- as many answers as there are places are enough, so the list is never at its end
    let enough := (List.range (s.buffer.length + 1 - needle.length)).map answers
    obtain ⟨log, hcourse, -, hreplies⟩ :=
      course_answering (start s needle replacement) s enough
    have hlength := hbound hcourse
    have henough : log.map (·.decision) <+: enough :=
      List.prefix_of_prefix_length_le hreplies (List.prefix_append _ _) (by simpa [enough])
    have hanswers : log.map (·.decision) = (List.range log.length).map answers := by
      refine (List.prefix_of_prefix_length_le henough (prefix_answers answers hlength)
        (by simp)).eq_of_length (by simp)
    refine ⟨log, _, _, hcourse, hanswers, fun count hcount => ?_, hoffered hcourse, hlength⟩
    have heq := hcourse.answering_eq (hanswers ▸ prefix_answers answers hcount)
    rw [queryReplace, heq]

/-- Each letter is replaced by two, from the second of three letters on: there are as many offers as
letters in the old text, and the last two answers are not asked for. -/
example :
    let s : Searched := ⟨((GapBuffer.empty 8).insertAll [97, 97, 97]).seek 1, Selection.none⟩
    let (found, outcome, asked) := s.queryReplace [97] [97, 97] (List.replicate 5 .replace)
    found.buffer.content = List.replicate 6 97 ∧ outcome = .finished ⟨3, 3, false, false⟩ ∧
      asked.map (·.buffer.caret) = [1, 3, 0] := by decide +kernel

end Searched
end ScreenEditor
