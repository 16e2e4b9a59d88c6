import ScreenEditor.Proofs.Gap.Refinement
import ScreenEditor.Proofs.Search.Occurrence
import ScreenEditor.Proofs.Search.Replace
import ScreenEditor.Proofs.Search.Splice

/-!
# Offers and replies

A replace run goes from one offer to the next.  `ReplaceRun.Course` is such a run with the offers it
made and the replies it got, up to its end.  A run that replaces every match and a run that is
answered from a list are both courses (`Searched.exists_course`), and a course may get any replies.
So what is shown of all courses holds for a run with questions, whatever the answers depend on, and
for a run without questions.

What a reply does to the text is said on lists: a match that is taken is spliced out and the
replacement put in its place (`ReplaceRun.cursorText_substitute`), in place or not.
-/

namespace ScreenEditor

namespace ReplaceRun

/-! ## Finding the next match -/

/-- A run that goes on from the start of the text. -/
def wrap (run : ReplaceRun) : ReplaceRun := { run with wrapped := true, position := 0 }

/-- A run that has made one more offer. -/
def counted (run : ReplaceRun) : ReplaceRun :=
  { run with summary := { run.summary with offered := run.summary.offered + 1 } }

/-- The run that makes the next offer: this one, or this one from the start of the text when it
finds nothing any more. -/
inductive GoesOnAs (run : ReplaceRun) (text : List UInt8) : ReplaceRun → Prop
  | same : GoesOnAs run text run
  | wrap (first : run.wrapped = false)
      (none : ∀ k, run.position ≤ k → ¬ Occurs run.needle text k) : GoesOnAs run text run.wrap

/-- An offer is the first occurrence from the position of the run on, and after wrapping it lies
before the origin. -/
theorem offer?_eq_some {run : ReplaceRun} {s : Searched} {offer : Offer}
    (h : run.offer? s = some offer) :
    ∃ base, run.GoesOnAs s.buffer.content base ∧ offer.run = base.counted ∧
      offer.shown = s.showMatch run.needle offer.offset ∧
      IsLeast {k | base.position ≤ k ∧ Occurs run.needle s.buffer.content k} offer.offset ∧
      (base.wrapped = true → offer.offset < base.origin) := by
  obtain ⟨⟨offset, next⟩, hnext, rfl⟩ := Option.map_eq_some_iff.mp h
  have hbefore : ∀ base : ReplaceRun, base.needle = run.needle →
      (base.nextBeforeOrigin? s.buffer).map (fun k => (k, base.counted)) = some (offset, next) →
        next = base.counted ∧
          IsLeast {k | base.position ≤ k ∧ Occurs run.needle s.buffer.content k} offset ∧
          (base.wrapped = true → offset < base.origin) := by
    intro base hneedle hbase
    obtain ⟨k, hk, heq⟩ := Option.map_eq_some_iff.mp hbase
    obtain ⟨rfl, rfl⟩ := Prod.mk.inj heq
    obtain ⟨hfind, hlt⟩ := Option.filter_eq_some_iff.mp hk
    rw [hneedle] at hfind
    exact ⟨rfl, GapBuffer.find_eq_some_iff.mp hfind, fun _ => of_decide_eq_true hlt⟩
  rw [next?] at hnext
  split at hnext
  · obtain ⟨hrun, hleast, hlt⟩ := hbefore run rfl hnext
    exact ⟨run, .same, hrun, rfl, hleast, hlt⟩
  · next hfirst =>
    split at hnext
    · next k hk =>
      obtain ⟨rfl, rfl⟩ := Prod.mk.inj (Option.some.inj hnext)
      exact ⟨run, .same, rfl, rfl, GapBuffer.find_eq_some_iff.mp hk,
        fun hwrapped => absurd hwrapped hfirst⟩
    · next hnone =>
      obtain ⟨hrun, hleast, hlt⟩ := hbefore run.wrap rfl hnext
      exact ⟨run.wrap, .wrap (Bool.eq_false_iff.mpr hfirst) (GapBuffer.find_eq_none_iff.mp hnone),
        hrun, rfl, hleast, hlt⟩

/-- A run that makes no offer finds nothing from its position on, before its origin if it has
wrapped. -/
theorem not_occurs_of_offer?_eq_none {run : ReplaceRun} {s : Searched} (h : run.offer? s = none)
    {k : Nat} (hk : run.position ≤ k) (hlt : run.wrapped = true → k < run.origin) :
    ¬ Occurs run.needle s.buffer.content k := by
  rw [offer?, Option.map_eq_none_iff, next?] at h
  split at h
  · next hwrapped =>
    rw [Option.map_eq_none_iff, nextBeforeOrigin?, Option.filter_eq_none_iff] at h
    intro hocc
    cases hfind : s.buffer.find run.needle run.position with
    | none => exact GapBuffer.find_eq_none_iff.mp hfind k hk hocc
    | some offset =>
        have hle := (GapBuffer.find_eq_some_iff.mp hfind).2 ⟨hk, hocc⟩
        have hlt := hlt hwrapped
        exact h offset hfind (decide_eq_true (by omega))
  · split at h
    · cases h
    · next hnone => exact GapBuffer.find_eq_none_iff.mp hnone k hk

/-! ## Courses -/

/-- An offer and the reply that it got. -/
structure Reply where
  offer : Offer
  decision : ReplaceDecision

/-- Whether the match is replaced: the reply says so, and the replacement fits. -/
def Reply.taken (r : Reply) : Bool :=
  r.decision = .replace && r.offer.run.fits r.offer.shown.buffer

@[simp] theorem Reply.taken_replace (offer : Offer) :
    Reply.taken ⟨offer, .replace⟩ = offer.run.fits offer.shown.buffer := Bool.true_and _

@[simp] theorem Reply.taken_skip (offer : Offer) : Reply.taken ⟨offer, .skip⟩ = false :=
  Bool.false_and _

@[simp] theorem Reply.taken_abort (offer : Offer) : Reply.taken ⟨offer, .abort⟩ = false :=
  Bool.false_and _

/-- A run from a state to its end, with the replies it got. -/
inductive Course : ReplaceRun → Searched → List Reply → ReplaceRun → Searched → Prop
  | exhausted {run : ReplaceRun} {s : Searched} (none : run.offer? s = none) : Course run s [] run s
  | aborted {run : ReplaceRun} {s : Searched} {offer : Offer} (next : run.offer? s = some offer) :
      Course run s [⟨offer, .abort⟩] offer.run.aborted offer.shown
  | full {run : ReplaceRun} {s : Searched} {offer : Offer} (next : run.offer? s = some offer)
      (full : offer.run.fits offer.shown.buffer = false) :
      Course run s [⟨offer, .replace⟩]
        { offer.run with summary := { offer.run.summary with outOfSpace := true } } offer.shown
  | skipped {run ended : ReplaceRun} {s found : Searched} {offer : Offer} {log : List Reply}
      (next : run.offer? s = some offer)
      (rest : Course { offer.run with position := offer.offset + 1 } offer.shown log ended found) :
      Course run s (⟨offer, .skip⟩ :: log) ended found
  | replaced {run ended : ReplaceRun} {s found : Searched} {offer : Offer} {log : List Reply}
      (next : run.offer? s = some offer) (fit : offer.run.fits offer.shown.buffer = true)
      (rest : Course (offer.run.afterReplacing offer.offset)
        ⟨offer.run.substitute offer.shown.buffer offer.offset, Selection.none⟩ log ended found) :
      Course run s (⟨offer, .replace⟩ :: log) ended found

/-- A run looks for the same needle to its end. -/
theorem needle_next {run next : ReplaceRun} {s : Searched} {offset : Nat}
    (h : run.next? s.buffer = some (offset, next)) : next.needle = run.needle := by
  have hoffer : run.offer? s = some ⟨next, offset, s.showMatch run.needle offset⟩ := by
    rw [offer?, h]
    rfl
  obtain ⟨base, hbase, rfl, -⟩ := offer?_eq_some hoffer
  cases hbase with
  | same => rfl
  | wrap => rfl

/-- A run that replaces every match is the course in which every reply is to replace. -/
theorem course_all (run : ReplaceRun) (s : Searched) :
    ∃ log, run.Course s log (run.all s).1 (run.all s).2 ∧ ∀ r ∈ log, r.decision = .replace := by
  have hoffer : ∀ {run next : ReplaceRun} {s : Searched} {offset : Nat},
      run.next? s.buffer = some (offset, next) →
        run.offer? s = some ⟨next, offset, s.showMatch next.needle offset⟩ := by
    intro run next s offset h
    rw [offer?, h, Option.map_some, needle_next h]
  fun_induction all run s with
  | case1 run s h => exact ⟨[], .exhausted (by rw [offer?, h, Option.map_none]), by simp⟩
  | case2 run s offset next h shown fit hdec ih =>
      obtain ⟨log, hcourse, hall⟩ := ih
      exact ⟨_ :: log, .replaced (hoffer h) fit hcourse, by simpa using hall⟩
  | case3 run s offset next h shown full =>
      exact ⟨_, .full (hoffer h) (Bool.eq_false_iff.mpr full), by simp⟩

/-- A run that is answered from a list is the course with the replies of the list, and aborted where
the list ends. -/
theorem course_answering (run : ReplaceRun) (s : Searched) (decisions : List ReplaceDecision) :
    ∃ log, run.Course s log (run.answering s decisions).1 (run.answering s decisions).2.1 ∧
      (run.answering s decisions).2.2 = log.map (·.offer.shown) ∧
      log.map (·.decision) <+: decisions ++ [.abort] := by
  induction decisions generalizing run s with
  | nil =>
      cases hoffer : run.offer? s with
      | none => exact ⟨[], by simpa [answering, hoffer] using .exhausted hoffer⟩
      | some offer => exact ⟨[⟨offer, .abort⟩], by simpa [answering, hoffer] using .aborted hoffer⟩
  | cons decision decisions ih =>
      cases hoffer : run.offer? s with
      | none => exact ⟨[], by simpa [answering, hoffer] using .exhausted hoffer⟩
      | some offer =>
          cases decision with
          | abort =>
              exact ⟨[⟨offer, .abort⟩], by simpa [answering, hoffer, answer] using .aborted hoffer⟩
          | skip =>
              obtain ⟨log, hcourse, hasked, hreplies⟩ :=
                ih { offer.run with position := offer.offset + 1 } offer.shown
              refine ⟨⟨offer, .skip⟩ :: log, ?_⟩
              simp only [answering, hoffer, answer]
              exact ⟨.skipped hoffer hcourse, by simp [hasked], by simpa using hreplies⟩
          | replace =>
              by_cases hfit : offer.run.fits offer.shown.buffer = true
              · obtain ⟨log, hcourse, hasked, hreplies⟩ := ih (offer.run.afterReplacing offer.offset)
                  ⟨offer.run.substitute offer.shown.buffer offer.offset, Selection.none⟩
                refine ⟨⟨offer, .replace⟩ :: log, ?_⟩
                simp only [answering, hoffer, answer, if_pos hfit]
                exact ⟨.replaced hoffer hfit hcourse, by simp [hasked], by simpa using hreplies⟩
              · refine ⟨[⟨offer, .replace⟩], ?_⟩
                simp only [answering, hoffer, answer, if_neg hfit]
                exact ⟨.full hoffer (Bool.eq_false_iff.mpr hfit), by simp, by simp⟩

/-! ## What taking a match does to the text -/

/-- Bytes written over the text one by one are spliced into it. -/
theorem content_writeAll (bytes : List UInt8) {g : GapBuffer} {offset first : Nat}
    (h : offset + first + bytes.length ≤ g.length) :
    ((bytes.zipIdx first).foldl (fun g b => g.writeAt (g.rawIndex (offset + b.2)) b.1) g).content
      = splice g.content (offset + first) bytes.length bytes := by
  induction bytes generalizing g first with
  | nil => simp [splice]
  | cons b bytes ih =>
      rw [List.length_cons] at h
      rw [List.zipIdx_cons, List.foldl_cons, ih (by rw [GapBuffer.length_writeAt]; omega),
        GapBuffer.content_writeAt_rawIndex, ← Nat.add_assoc,
        splice_set (by rw [GapBuffer.length_content]; omega), List.length_cons]

variable {run : ReplaceRun} {g : GapBuffer} {offset : Nat}

/-- A replacement fits iff the text that it leads to fits the buffer. -/
theorem fits_eq_true_iff (h : offset + run.needle.length ≤ g.length) :
    run.fits g = true ↔
      (splice g.content offset run.needle.length run.replacement).length ≤ g.capacity := by
  have hlen := length_splice run.replacement (by rwa [GapBuffer.length_content])
  have hroom := GapBuffer.length_add_free g
  rw [GapBuffer.length_content] at hlen
  rw [fits, decide_eq_true_eq]
  omega

/-- Deleting a match and inserting the replacement. -/
theorem cursorText_deleteRange_insertAll (h : offset + run.needle.length ≤ g.length)
    (fit : run.fits g = true) :
    ((g.deleteRange offset (offset + run.needle.length)).insertAll run.replacement).cursorText
      = ⟨g.capacity, splice g.content offset run.needle.length run.replacement,
          offset + run.replacement.length⟩ := by
  have hle : offset ≤ offset + run.needle.length := Nat.le_add_right _ _
  have hroom : run.replacement.length
      ≤ (g.deleteRange offset (offset + run.needle.length)).free := by
    have hdeleted := g.length_deleteRange hle h
    have hbefore := GapBuffer.length_add_free g
    have hafter := GapBuffer.length_add_free (g.deleteRange offset (offset + run.needle.length))
    rw [GapBuffer.capacity_deleteRange] at hafter
    rw [fits, decide_eq_true_eq] at fit
    omega
  rw [GapBuffer.cursorText_of_lists (GapBuffer.before_insertAll _ hroom)
      (GapBuffer.after_insertAll _ _), GapBuffer.before_deleteRange g hle h,
    GapBuffer.after_deleteRange g hle h, GapBuffer.capacity_insertAll,
    GapBuffer.capacity_deleteRange, List.length_append, List.length_take, GapBuffer.length_content,
    Nat.min_eq_left (by omega), List.append_assoc, splice]

/-- **Taking a match** splices it out of the text, puts the replacement in its place, and leaves the
caret behind it. -/
theorem cursorText_substitute (h : offset + run.needle.length ≤ g.length)
    (fit : run.fits g = true) :
    (run.substitute g offset).cursorText
      = ⟨g.capacity, splice g.content offset run.needle.length run.replacement,
          offset + run.replacement.length⟩ := by
  by_cases hsame : run.replacement.length = run.needle.length
  · have hinside : offset + 0 + run.replacement.length ≤ g.length := by omega
    have hcontent := content_writeAll run.replacement hinside
    rw [GapBuffer.cursorText, capacity_substitute, substitute, if_pos hsame,
      GapBuffer.content_seek, GapBuffer.caret_seek _ (by rw [length_writeAll]; omega), hcontent,
      Nat.add_zero, hsame]
  · rw [← cursorText_deleteRange_insertAll h fit, substitute, if_neg hsame]

/-- A replacement that fits is the splice at its match. -/
theorem content_substitute (h : offset + run.needle.length ≤ g.length)
    (fit : run.fits g = true) : (run.substitute g offset).content
      = splice g.content offset run.needle.length run.replacement :=
  congrArg CursorText.text (cursorText_substitute h fit)

end ReplaceRun

/-! ## Runs of a text under search -/

namespace Searched

/-- A replace run whose questions are answered from a list, or one that asks no questions.  The
third part of the result holds what was shown at each question. -/
def replace (s : Searched) (needle replacement : List UInt8) :
    Option (List ReplaceDecision) → Searched × SearchOutcome × List Searched
  | none =>
      ((s.replaceAll needle replacement).1, (s.replaceAll needle replacement).2, [])
  | some decisions => s.queryReplace needle replacement decisions

/-- The replies of a run: those of the list, and aborting where it ends; without questions every
match is to be replaced. -/
def Answers : Option (List ReplaceDecision) → List ReplaceRun.Reply → Prop
  | none, log => ∀ r ∈ log, r.decision = .replace
  | some decisions, log => log.map (·.decision) <+: decisions ++ [.abort]

/-- What was shown at the questions of a run. -/
def questions (asking : Option (List ReplaceDecision)) (log : List ReplaceRun.Reply) :
    List Searched :=
  if asking.isSome then log.map (·.offer.shown) else []

/-- **Every replace run is a course** that ends, with the replies that it was given. -/
theorem exists_course (s : Searched) (needle replacement : List UInt8)
    (asking : Option (List ReplaceDecision)) :
    ∃ log ended found, (ReplaceRun.start s needle replacement).Course s log ended found ∧
      Answers asking log ∧
      s.replace needle replacement asking = (found, ended.outcome, questions asking log) := by
  cases asking with
  | none =>
      obtain ⟨log, hcourse, hall⟩ := ReplaceRun.course_all (.start s needle replacement) s
      exact ⟨log, _, _, hcourse, hall, rfl⟩
  | some decisions =>
      obtain ⟨log, hcourse, hasked, hreplies⟩ :=
        ReplaceRun.course_answering (.start s needle replacement) s decisions
      refine ⟨log, _, _, hcourse, hreplies, ?_⟩
      rw [questions, Option.isSome_some, if_pos rfl, ← hasked]
      rfl

end Searched
end ScreenEditor
