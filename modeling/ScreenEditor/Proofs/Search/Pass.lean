import ScreenEditor.Proofs.Search.Overreach
import ScreenEditor.Proofs.Search.Visits

/-!
# A run from the start of the text

A replace run that begins at the start of the text never comes to a second pass.  `Pass` says on
plain lists what it does: every offer is the first occurrence from the resume point on, a match that
is taken is spliced out of the text, and the run ends where it is aborted, where a replacement does
not fit, or where no match is left.

When every match is taken, the needle is replaced wherever it stands, from the front of the text to
the back and without overlaps (`replaceLeftmost`).  The main result is `Searched.pass_from_start`.
-/

namespace ScreenEditor

/-! ## Leftmost occurrences -/

/-- The text with the needle replaced at its first occurrence, then at the first one behind that,
and so on. -/
def replaceLeftmost (needle replacement : List UInt8) : List UInt8 → List UInt8
  | [] => []
  | b :: bs =>
    if Occurs needle (b :: bs) 0 then
      replacement ++ replaceLeftmost needle replacement (bs.drop (needle.length - 1))
    else b :: replaceLeftmost needle replacement bs
termination_by text => text.length
decreasing_by all_goals simp only [List.length_cons, List.length_drop]; omega

section Leftmost

variable {needle replacement text : List UInt8} {offset : Nat}

theorem replaceLeftmost_of_occurs (h : Occurs needle text 0) :
    replaceLeftmost needle replacement text
      = replacement ++ replaceLeftmost needle replacement (text.drop needle.length) := by
  have hpos := h.length_pos
  have hle := h.add_length_le
  cases text with
  | nil => simp only [List.length_nil] at hle; omega
  | cons b bs =>
      obtain ⟨n, hn⟩ := Nat.exists_eq_succ_of_ne_zero (Nat.ne_of_gt hpos)
      rw [replaceLeftmost, if_pos h, hn, Nat.succ_eq_add_one, Nat.add_sub_cancel, List.drop_succ_cons]

/-- Where the needle stands nowhere, nothing is replaced. -/
theorem replaceLeftmost_of_not_occurs (h : ∀ k, ¬ Occurs needle text k) :
    replaceLeftmost needle replacement text = text := by
  induction text with
  | nil => rw [replaceLeftmost]
  | cons b bs ih =>
      rw [replaceLeftmost, if_neg (h 0), ih fun k hk => h (1 + k) (occurs_drop.mp hk)]

/-- The text before the first occurrence stays. -/
theorem replaceLeftmost_of_isLeast (h : IsLeast {k | Occurs needle text k} offset) :
    replaceLeftmost needle replacement text = text.take offset ++
      (replacement ++ replaceLeftmost needle replacement (text.drop (offset + needle.length))) := by
  induction offset generalizing text with
  | zero => rw [replaceLeftmost_of_occurs h.1, List.take_zero, List.nil_append, Nat.zero_add]
  | succ offset ih =>
      cases text with
      | nil => exact absurd h.1.add_length_le (by simp)
      | cons b bs =>
          have hzero : ¬ Occurs needle (b :: bs) 0 :=
            fun hocc => absurd (h.2 hocc) (Nat.not_succ_le_zero offset)
          have hleast : IsLeast {k | Occurs needle bs k} offset :=
            ⟨h.1, fun k hk => Nat.le_of_succ_le_succ (h.2 (show Occurs needle (b :: bs) (k + 1) from hk))⟩
          rw [replaceLeftmost, if_neg hzero, ih hleast, Nat.succ_add, List.drop_succ_cons,
            List.take_succ_cons, List.cons_append]

/-- The same behind a start. -/
theorem take_append_replaceLeftmost {start : Nat}
    (h : IsLeast {k | start ≤ k ∧ Occurs needle text k} offset) :
    text.take start ++ replaceLeftmost needle replacement (text.drop start)
      = text.take offset ++ (replacement ++
          replaceLeftmost needle replacement (text.drop (offset + needle.length))) := by
  obtain ⟨x, rfl⟩ := Nat.exists_eq_add_of_le h.1.1
  have hleast : IsLeast {k | Occurs needle (text.drop start) k} x := by
    refine ⟨occurs_drop.mpr h.1.2, fun k hk => ?_⟩
    exact Nat.le_of_add_le_add_left (h.2 ⟨Nat.le_add_right start k, occurs_drop.mp hk⟩)
  rw [replaceLeftmost_of_isLeast hleast, List.drop_drop, List.take_add, List.append_assoc,
    Nat.add_assoc]

/-- A replacement that is no shorter than the needle shortens no text. -/
theorem length_le_replaceLeftmost (h : needle.length ≤ replacement.length) (text : List UInt8) :
    text.length ≤ (replaceLeftmost needle replacement text).length := by
  fun_induction replaceLeftmost needle replacement text with
  | case1 => exact Nat.le_refl 0
  | case2 b bs hocc ih =>
      have hpos := hocc.length_pos
      rw [List.length_drop] at ih
      rw [List.length_append, List.length_cons]
      omega
  | case3 b bs hocc ih => exact Nat.succ_le_succ ih

end Leftmost

namespace ReplaceRun

/-! ## Passes -/

/-- How a replace run ends. -/
inductive Ending where
  | exhausted
  | aborted
  | outOfSpace
  deriving DecidableEq, Repr

/-- An offer of a first pass.  It shows the first occurrence from a resume point on: the caret is at
its start, and it is selected. -/
structure Offer.IsFirst (offer : Offer) (needle replacement : List UInt8) (capacity : Nat)
    (text : List UInt8) (start : Nat) : Prop where
  least : IsLeast {k | start ≤ k ∧ Occurs needle text k} offer.offset
  content_eq : offer.shown.buffer.content = text
  caret_eq : offer.shown.buffer.caret = offer.offset
  selection_eq : offer.shown.selection
    = Selection.span offer.offset (offer.offset + needle.length)
  capacity_eq : offer.shown.buffer.capacity = capacity
  needle_eq : offer.run.needle = needle
  replacement_eq : offer.run.replacement = replacement
  first : offer.run.wrapped = false

/-- One pass over a text from a resume point on, with its replies, the text that it leads to and the
way it ends. -/
inductive Pass (needle replacement : List UInt8) (capacity : Nat) :
    List UInt8 → Nat → List Reply → List UInt8 → Ending → Prop
  | exhausted {text : List UInt8} {start : Nat} (none : ∀ k, start ≤ k → ¬ Occurs needle text k) :
      Pass needle replacement capacity text start [] text .exhausted
  | aborted {text : List UInt8} {start : Nat} {offer : Offer}
      (first : offer.IsFirst needle replacement capacity text start) :
      Pass needle replacement capacity text start [⟨offer, .abort⟩] text .aborted
  | full {text : List UInt8} {start : Nat} {offer : Offer}
      (first : offer.IsFirst needle replacement capacity text start)
      (full : capacity < (splice text offer.offset needle.length replacement).length) :
      Pass needle replacement capacity text start [⟨offer, .replace⟩] text .outOfSpace
  | skipped {text final : List UInt8} {start : Nat} {offer : Offer} {log : List Reply}
      {ending : Ending} (first : offer.IsFirst needle replacement capacity text start)
      (rest : Pass needle replacement capacity text (offer.offset + 1) log final ending) :
      Pass needle replacement capacity text start (⟨offer, .skip⟩ :: log) final ending
  | replaced {text final : List UInt8} {start : Nat} {offer : Offer} {log : List Reply}
      {ending : Ending} (first : offer.IsFirst needle replacement capacity text start)
      (fit : (splice text offer.offset needle.length replacement).length ≤ capacity)
      (rest : Pass needle replacement capacity
        (splice text offer.offset needle.length replacement) (offer.offset + replacement.length)
        log final ending) :
      Pass needle replacement capacity text start (⟨offer, .replace⟩ :: log) final ending

/-- What a run of offers and replies comes to. -/
def Ending.outcome (ending : Ending) (log : List Reply) : SearchOutcome :=
  if log = [] then .notFound
  else .finished ⟨log.length, log.countP Reply.taken, ending = .aborted, ending = .outOfSpace⟩

section Pass

variable {needle replacement text final : List UInt8} {capacity start : Nat} {log : List Reply}
  {ending : Ending} {offer : Offer}

/-- A match that is offered lies inside the text. -/
theorem Offer.IsFirst.add_length_le
    (h : offer.IsFirst needle replacement capacity text start) :
    offer.offset + offer.run.needle.length ≤ offer.shown.buffer.length := by
  have hle := h.least.1.2.add_length_le
  rwa [h.needle_eq, ← GapBuffer.length_content, h.content_eq]

theorem Offer.IsFirst.fits_iff (h : offer.IsFirst needle replacement capacity text start) :
    offer.run.fits offer.shown.buffer = true ↔
      (splice text offer.offset needle.length replacement).length ≤ capacity := by
  rw [fits_eq_true_iff h.add_length_le, h.content_eq, h.needle_eq, h.replacement_eq, h.capacity_eq]

theorem Pass.isFirst (h : Pass needle replacement capacity text start log final ending) :
    ∀ r ∈ log, ∃ text start, r.offer.IsFirst needle replacement capacity text start := by
  induction h with
  | exhausted => simp
  | aborted first | full first => simpa using ⟨_, _, first⟩
  | skipped first _ ih | replaced first _ _ ih => exact List.forall_mem_cons.mpr ⟨⟨_, _, first⟩, ih⟩

/-- A pass in which every match is taken and that has room replaces what is leftmost. -/
theorem Pass.eq_replaceLeftmost (h : Pass needle replacement capacity text start log final ending)
    (hreplace : ∀ r ∈ log, r.decision = .replace) (hlength : text.length ≤ capacity)
    (hroom : (text.take start ++ replaceLeftmost needle replacement (text.drop start)).length
      ≤ capacity) :
    ending = .exhausted ∧
      final = text.take start ++ replaceLeftmost needle replacement (text.drop start) := by
  induction h with
  | @exhausted text start hnone =>
      rw [replaceLeftmost_of_not_occurs fun k hk =>
        hnone (start + k) (Nat.le_add_right _ _) (occurs_drop.mp hk), List.take_append_drop]
      exact ⟨rfl, rfl⟩
  | aborted first => simp at hreplace
  | @full text start offer first full =>
      have hlen := length_splice replacement first.least.1.2.add_length_le
      have hle := first.least.1.2.add_length_le
      rw [take_append_replaceLeftmost first.least] at hroom
      rcases Nat.le_total needle.length replacement.length with hlonger | hshorter
      · have hrest := length_le_replaceLeftmost hlonger (text.drop (offer.offset + needle.length))
        simp only [splice, List.length_append] at hroom full
        omega
      · omega
  | skipped first rest ih => simp at hreplace
  | @replaced text final start offer log ending first fit rest ih =>
      have hle := Nat.le_of_add_right_le first.least.1.2.add_length_le
      rw [take_splice _ hle, drop_splice _ hle] at ih
      rw [take_append_replaceLeftmost first.least] at hroom ⊢
      rw [← List.append_assoc] at hroom ⊢
      exact ih (List.forall_mem_cons.mp hreplace).2 fit hroom

end Pass

/-! ## Courses that are passes -/

/-- A run that began at the start of the text and has not wrapped. -/
structure AtStart (run : ReplaceRun) (needle replacement : List UInt8) : Prop where
  needle_eq : run.needle = needle
  replacement_eq : run.replacement = replacement
  origin_eq : run.origin = 0
  first : run.wrapped = false
  going : run.summary.aborted = false ∧ run.summary.outOfSpace = false

section Course

variable {needle replacement : List UInt8} {run ended : ReplaceRun} {s found : Searched}
  {log : List Reply} {offer : Offer}

/-- A run that began at the start of the text never wraps to an offer. -/
theorem AtStart.isFirst (h : run.AtStart needle replacement) (hoffer : run.offer? s = some offer) :
    offer.run = run.counted ∧
      offer.IsFirst needle replacement s.buffer.capacity s.buffer.content run.position := by
  obtain ⟨base, hbase, hrun, hshown, hleast, hbefore⟩ := offer?_eq_some hoffer
  cases hbase with
  | wrap => exact absurd (hbefore rfl) (by simp [wrap, h.origin_eq])
  | same =>
      refine ⟨hrun, ?_⟩
      exact {
        least := h.needle_eq ▸ hleast
        content_eq := by rw [hshown, Searched.content_showMatch]
        caret_eq := by rw [hshown, Searched.caret_showMatch hleast.1.2]
        selection_eq := by rw [hshown, h.needle_eq]; rfl
        capacity_eq := by rw [hshown]; exact GapBuffer.capacity_seek s.buffer offer.offset
        needle_eq := by rw [hrun]; exact h.needle_eq
        replacement_eq := by rw [hrun]; exact h.replacement_eq
        first := by rw [hrun]; exact h.first }

/-- **A run that began at the start of the text** is one pass, and counts its offers and the matches
that it takes. -/
theorem Course.pass (h : run.Course s log ended found) (start : run.AtStart needle replacement) :
    ∃ ending, Pass needle replacement s.buffer.capacity s.buffer.content run.position log
        found.buffer.content ending ∧
      ended.summary = ⟨run.summary.offered + log.length,
        run.summary.replaced + log.countP Reply.taken, ending = .aborted, ending = .outOfSpace⟩ := by
  induction h with
  | @exhausted run s hnone =>
      refine ⟨.exhausted, .exhausted fun k hk => ?_, ?_⟩
      · rw [← start.needle_eq]
        exact not_occurs_of_offer?_eq_none hnone hk fun hwrapped => by
          rw [start.first] at hwrapped
          cases hwrapped
      · obtain ⟨haborted, hspace⟩ := start.going
        exact congrArg₂ (ReplaceSummary.mk run.summary.offered run.summary.replaced) haborted hspace
  | @aborted run s offer hoffer =>
      obtain ⟨hrun, hfirst⟩ := start.isFirst hoffer
      refine ⟨.aborted, ?_, ?_⟩
      · rw [hfirst.content_eq]
        exact .aborted hfirst
      · simp [hrun, ReplaceRun.aborted, counted, start.going]
  | @full run s offer hoffer full =>
      obtain ⟨hrun, hfirst⟩ := start.isFirst hoffer
      refine ⟨.outOfSpace, ?_, ?_⟩
      · rw [hfirst.content_eq]
        refine .full hfirst (Nat.lt_of_not_le fun hle => ?_)
        rw [hfirst.fits_iff.mpr hle] at full
        cases full
      · simp only [List.countP_singleton, Reply.taken_replace, full]
        simp [hrun, counted, start.going]
  | @skipped run ended s found offer log hoffer rest ih =>
      obtain ⟨hrun, hfirst⟩ := start.isFirst hoffer
      have hnext : AtStart { offer.run with position := offer.offset + 1 } needle replacement := by
        rw [hrun]
        exact { start with }
      obtain ⟨ending, hpass, hsummary⟩ := ih hnext
      rw [hfirst.content_eq, hfirst.capacity_eq] at hpass
      refine ⟨ending, .skipped hfirst hpass, ?_⟩
      rw [hsummary]
      simp [hrun, counted]
      omega
  | @replaced run ended s found offer log hoffer fit rest ih =>
      obtain ⟨hrun, hfirst⟩ := start.isFirst hoffer
      have hnext : (offer.run.afterReplacing offer.offset).AtStart needle replacement := by
        rw [hrun]
        exact { start with
          origin_eq := by simp [afterReplacing, counted, start.first, start.origin_eq] }
      obtain ⟨ending, hpass, hsummary⟩ := ih hnext
      rw [content_substitute hfirst.add_length_le fit, capacity_substitute, hfirst.capacity_eq,
        hfirst.content_eq, hfirst.needle_eq, hfirst.replacement_eq] at hpass
      refine ⟨ending, .replaced hfirst (hfirst.fits_iff.mp fit) ?_, ?_⟩
      · have hposition : (offer.run.afterReplacing offer.offset).position
            = offer.offset + replacement.length := by rw [afterReplacing, hfirst.replacement_eq]
        rwa [hposition] at hpass
      · rw [hsummary, List.countP_cons, Reply.taken_replace, fit]
        simp [hrun, counted, afterReplacing]
        omega

/-- A match that is offered in a first pass does not overreach. -/
theorem not_overreaches {m : Moment} {t : TracedText} {earlier : List Reply}
    (hlog : ∀ r ∈ log, r.offer.run.wrapped = false) (hm : m ∈ moments t earlier log) :
    ¬ m.Overreaches := by
  induction log generalizing t earlier with
  | nil => cases hm
  | cons r log ih =>
      obtain ⟨hfirst, hrest⟩ := List.forall_mem_cons.mp hlog
      rcases List.mem_cons.mp hm with rfl | hmem
      · intro hover
        exact absurd hover.1 (Bool.eq_false_iff.mp hfirst)
      · exact ih hrest hmem

end Course
end ReplaceRun

namespace Searched

open ReplaceRun TracedText

/-- A run from the start of the text, without a selection. -/
theorem atStart_start {s : Searched} (hcaret : s.buffer.caret = 0)
    (hselection : s.selection.bounds = none) (needle replacement : List UInt8) :
    (start s needle replacement).AtStart needle replacement := by
  have horigin : searchOrigin s.buffer s.selection = 0 := by
    have hstarts : s.selection.startsAt s.buffer.caret = false := by
      rw [Selection.startsAt, Selection.nonEmptyRange, Selection.range, hselection]
      exact Bool.and_false _
    rw [searchOrigin, hstarts, if_neg Bool.false_ne_true, hcaret]
  exact ⟨rfl, rfl, horigin, rfl, rfl, rfl⟩

/-- **A replace run from the start of the text does exactly the accepted replacements.**  It is one
pass, whatever the replies.  The new text is the old one with the occurrences replaced that were
taken, and these do not overlap.  Without questions, and with room for it, the new text is the old
one with the leftmost occurrences replaced.  Each replacement, in place or not, leaves the text and
the caret that deleting the match and inserting the replacement leave. -/
theorem pass_from_start (s : Searched) (needle replacement : List UInt8)
    (asking : Option (List ReplaceDecision)) (hcaret : s.buffer.caret = 0)
    (hselection : s.selection.bounds = none) :
    ∃ log found ending,
      Pass needle replacement s.buffer.capacity s.buffer.content 0 log found.buffer.content ending ∧
      Answers asking log ∧
      s.replace needle replacement asking = (found, ending.outcome log, questions asking log) ∧
      (∃ places, ReplacesExactly needle replacement s.buffer.content places found.buffer.content ∧
        ∀ place, place ∈ places ↔ ∃ m ∈ moments (ofText s.buffer.content) [] log,
          m.reply.taken = true ∧ m.StoodAt place) ∧
      (asking = none →
        (replaceLeftmost needle replacement s.buffer.content).length ≤ s.buffer.capacity →
          ending = .exhausted ∧
            found.buffer.content = replaceLeftmost needle replacement s.buffer.content) ∧
      ∀ r ∈ log, r.taken = true →
        (r.offer.run.substitute r.offer.shown.buffer r.offer.offset).cursorText
          = ((r.offer.shown.buffer.deleteRange r.offer.offset
              (r.offer.offset + needle.length)).insertAll replacement).cursorText := by
  obtain ⟨log, ended, found, hcourse, hanswers, hreplace⟩ :=
    s.exists_course needle replacement asking
  have hstart := atStart_start hcaret hselection needle replacement
  obtain ⟨ending, hpass, hsummary⟩ := hcourse.pass hstart
  have hposition : (start s needle replacement).position = 0 := hstart.origin_eq
  rw [hposition] at hpass
  have hfirst := hpass.isFirst
  refine ⟨log, found, ending, hpass, hanswers, ?_, ?_, fun hasking hroom => ?_, fun r hr htaken => ?_⟩
  · have houtcome : ended.outcome = ending.outcome log := by
      simp [ReplaceRun.outcome, Ending.outcome, hsummary, start]
    rw [hreplace, houtcome]
  · have hwrapped : ∀ r ∈ log, r.offer.run.wrapped = false := fun r hr => by
      obtain ⟨_, _, hshows⟩ := hfirst r hr
      exact hshows.first
    simpa using hcourse.replacesExactly (stage_start s needle replacement)
      (bytes_ofText s.buffer.content) fun m hm _ => not_overreaches hwrapped hm
  · have hlength : s.buffer.content.length ≤ s.buffer.capacity := by
      have hfree := GapBuffer.length_add_free s.buffer
      rw [GapBuffer.length_content]
      omega
    subst hasking
    simpa using hpass.eq_replaceLeftmost hanswers hlength (by simpa using hroom)
  · obtain ⟨_, _, hshows⟩ := hfirst r hr
    have fit : r.offer.run.fits r.offer.shown.buffer = true := by
      rw [Reply.taken, Bool.and_eq_true] at htaken
      exact htaken.2
    rw [cursorText_substitute hshows.add_length_le fit, ← hshows.needle_eq, ← hshows.replacement_eq,
      cursorText_deleteRange_insertAll hshows.add_length_le fit]

/-- The first of two matches that overlap is skipped and the second one is taken. -/
theorem pass_from_start_skipping :
    let s : Searched := ⟨((GapBuffer.empty 8).insertAll [97, 97, 97]).seek 0, Selection.none⟩
    s.buffer.caret = 0 ∧ s.selection.bounds = none ∧
      ∃ log ending, Pass [97, 97] [98] 8 [97, 97, 97] 0 log [97, 98] ending ∧
        Answers (some [.skip, .replace]) log ∧
        ending.outcome log = .finished ⟨2, 1, false, false⟩ ∧
        ∃ places, ReplacesExactly [97, 97] [98] [97, 97, 97] places [97, 98] := by
  intro s
  have hcaret : s.buffer.caret = 0 := by decide +kernel
  have hcontent : s.buffer.content = [97, 97, 97] := by decide +kernel
  obtain ⟨log, found, ending, hpass, hanswers, hreplace, ⟨places, hexact, -⟩, -⟩ :=
    s.pass_from_start [97, 97] [98] (some [.skip, .replace]) hcaret rfl
  have hfound : (s.replace [97, 97] [98] (some [.skip, .replace])).1.buffer.content = [97, 98] := by
    decide +kernel
  have houtcome : (s.replace [97, 97] [98] (some [.skip, .replace])).2.1
      = .finished ⟨2, 1, false, false⟩ := by decide +kernel
  rw [hreplace] at hfound houtcome
  rw [hfound, hcontent] at hpass hexact
  exact ⟨hcaret, rfl, log, ending, hpass, hanswers, houtcome, places, hexact⟩

end Searched
end ScreenEditor
