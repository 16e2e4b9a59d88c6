import ScreenEditor.Proofs.Search.Stage

/-!
# Matches that reach over the origin

The pass of a replace run that has wrapped takes every match that begins before the origin.  When
the first pass replaced something right behind the origin, such a match may end in the text that was
inserted there, so inserted text can be matched again.  These are the only matches that did not
stand in the old text.

## Main results

* `Searched.stoodAt_iff_not_overreaches`: every other match is an occurrence in the old text, and a
  run that takes no such match replaces disjoint occurrences of the old text and nothing else.
* `Searched.not_stoodAt_overreaching`: a run that takes such a match.
-/

namespace ScreenEditor
namespace ReplaceRun

/-- A run that has wrapped and is past its origin makes no more offers. -/
theorem Course.eq_nil {run ended : ReplaceRun} {s found : Searched} {log : List Reply}
    (h : run.Course s log ended found) (hwrapped : run.wrapped = true)
    (hle : run.origin ≤ run.position) : log = [] := by
  have hnone : ∀ offer, run.offer? s ≠ some offer := by
    intro offer hoffer
    obtain ⟨base, hbase, -, -, hleast, hbefore⟩ := offer?_eq_some hoffer
    cases hbase with
    | same => exact absurd (Nat.le_trans hle hleast.1.1) (Nat.not_le_of_lt (hbefore hwrapped))
    | wrap hfirst => rw [hwrapped] at hfirst; cases hfirst
  cases h with
  | exhausted => rfl
  | aborted hoffer | full hoffer | skipped hoffer | replaced hoffer => exact absurd hoffer (hnone _)

section Course

variable {needle replacement old : List UInt8} {origin reached : Nat} {run ended : ReplaceRun}
  {s found : Searched} {log : List Reply} {t : TracedText} {earlier : List Reply}
  {behind ahead : List Nat}

/-- Every match of a course was found in the text as it stood then. -/
theorem Course.sound (h : run.Course s log ended found)
    (stage : Stage needle replacement old origin run t earlier run.position reached behind ahead)
    (hbytes : t.bytes = s.buffer.content) : ∀ m ∈ moments t earlier log, m.Sound := by
  induction h generalizing t earlier reached behind ahead with
  | exhausted => simp [moments]
  | aborted hoffer | full hoffer =>
      obtain ⟨_, _, _, hmeeting, -⟩ := stage.meeting hbytes hoffer
      simpa [moments] using hmeeting.sound
  | skipped hoffer rest ih =>
      obtain ⟨_, _, _, hmeeting, -⟩ := stage.meeting hbytes hoffer
      exact List.forall_mem_cons.mpr ⟨hmeeting.sound, ih hmeeting.skip hmeeting.bytes_eq⟩
  | @replaced _ _ _ _ offer _ hoffer fit rest ih =>
      obtain ⟨_, _, _, hmeeting, -⟩ := stage.meeting hbytes hoffer
      refine List.forall_mem_cons.mpr ⟨hmeeting.sound, ?_⟩
      by_cases hover : (Moment.mk t earlier ⟨offer, .replace⟩).Overreaches
      · obtain rfl := rest.eq_nil hover.1 hover.origin_le_position
        simp [moments]
      · exact ih (hmeeting.replace fit hover) (hmeeting.bytes_retrace fit)

/-- **A course that takes no match that overreaches** replaces the occurrences of the old text that
it takes, and nothing else. -/
theorem Course.replacesExactly (h : run.Course s log ended found)
    (stage : Stage needle replacement old origin run t earlier run.position reached behind ahead)
    (hbytes : t.bytes = s.buffer.content)
    (hnot : ∀ m ∈ moments t earlier log, m.reply.taken = true → ¬ m.Overreaches) :
    ∃ places, ReplacesExactly needle replacement old places found.buffer.content ∧
      ∀ place, place ∈ places ↔ place ∈ behind ++ ahead ∨
        ∃ m ∈ moments t earlier log, m.reply.taken = true ∧ m.StoodAt place := by
  induction h generalizing t earlier reached behind ahead with
  | exhausted =>
      exact ⟨behind ++ ahead, hbytes ▸ stage.cut.replacesExactly, by simp [moments]⟩
  | aborted hoffer =>
      obtain ⟨_, _, _, hmeeting, hplaces⟩ := stage.meeting hbytes hoffer
      refine ⟨_, hmeeting.bytes_eq ▸ hmeeting.stage.cut.replacesExactly, fun place => ?_⟩
      simp [hplaces, moments]
  | full hoffer full =>
      obtain ⟨_, _, _, hmeeting, hplaces⟩ := stage.meeting hbytes hoffer
      refine ⟨_, hmeeting.bytes_eq ▸ hmeeting.stage.cut.replacesExactly, fun place => ?_⟩
      simp [hplaces, moments, full]
  | skipped hoffer rest ih =>
      obtain ⟨_, _, _, hmeeting, hplaces⟩ := stage.meeting hbytes hoffer
      obtain ⟨places, hexact, hmem⟩ := ih hmeeting.skip hmeeting.bytes_eq
        (List.forall_mem_cons.mp hnot).2
      refine ⟨places, hexact, fun place => ?_⟩
      rw [hmem, hplaces, moments, List.exists_mem_cons_iff]
      simp [Reply.retrace]
  | @replaced _ _ _ _ offer _ hoffer fit rest ih =>
      obtain ⟨hfirst, hrest⟩ := List.forall_mem_cons.mp hnot
      obtain ⟨reached', behind', ahead', hmeeting, hplaces⟩ := stage.meeting hbytes hoffer
      have hover := hfirst ((Reply.taken_replace offer).trans fit)
      obtain ⟨places, hexact, hmem⟩ := ih (hmeeting.replace fit hover)
        (hmeeting.bytes_retrace fit) hrest
      have hstood : ∀ place,
          (Moment.mk t earlier ⟨offer, .replace⟩).StoodAt place ↔ place = reached' := by
        have hwidth : 0 < offer.run.needle.length :=
          hmeeting.stage.needle_eq ▸ hmeeting.found.length_pos
        refine fun place => ⟨fun h => h.unique hwidth (hmeeting.stoodAt hover), ?_⟩
        rintro rfl
        exact hmeeting.stoodAt hover
      refine ⟨places, hexact, fun place => ?_⟩
      rw [hmem, ← hplaces, moments, List.exists_mem_cons_iff, hstood]
      simp [fit]
      tauto

end Course
end ReplaceRun

namespace Searched

open ReplaceRun TracedText

/-- **A replace run matches old text unless it overreaches.**  Every match that it offers was found
in the text as it stood then.  The match stood in the old text iff it does not overreach, and it
holds inserted bytes iff it overreaches and something is inserted.  A run that takes no match that
overreaches leaves the old text with just those occurrences replaced that it took. -/
theorem stoodAt_iff_not_overreaches (s : Searched) (needle replacement : List UInt8)
    (asking : Option (List ReplaceDecision)) :
    ∃ log ended found, (start s needle replacement).Course s log ended found ∧
      Answers asking log ∧
      s.replace needle replacement asking = (found, ended.outcome, questions asking log) ∧
      (∀ m ∈ moments (ofText s.buffer.content) [] log,
        m.text.bytes = m.reply.offer.shown.buffer.content ∧
          ((∃ source, m.StoodAt source) ↔ ¬ m.Overreaches) ∧
          (m.HoldsInserted ↔ m.Overreaches ∧ m.reply.offer.run.replacement ≠ [])) ∧
      ((∀ m ∈ moments (ofText s.buffer.content) [] log, m.reply.taken = true → ¬ m.Overreaches) →
        ∃ places, ReplacesExactly needle replacement s.buffer.content places found.buffer.content ∧
          ∀ place, place ∈ places ↔ ∃ m ∈ moments (ofText s.buffer.content) [] log,
            m.reply.taken = true ∧ m.StoodAt place) := by
  obtain ⟨log, ended, found, hcourse, hanswers, hreplace⟩ :=
    s.exists_course needle replacement asking
  have hstage := stage_start s needle replacement
  have hbytes := bytes_ofText s.buffer.content
  refine ⟨log, ended, found, hcourse, hanswers, hreplace, fun m hm => ?_, fun hnot => ?_⟩
  · have hsound := hcourse.sound hstage hbytes m hm
    exact ⟨hsound.bytes_eq, hsound.stood_iff, hsound.inserted_iff⟩
  · simpa using hcourse.replacesExactly hstage hbytes hnot

/-- The run begins at the second letter of "aab" and replaces "ab" by "b".  It wraps, and then it
matches the first letter with the one that it inserted. -/
theorem not_stoodAt_overreaching :
    let s : Searched := ⟨((GapBuffer.empty 8).insertAll [97, 97, 98]).seek 1, Selection.none⟩
    ∃ log ended found, (start s [97, 98] [98]).Course s log ended found ∧
      s.replace [97, 98] [98] (some [.replace, .replace])
        = (found, ended.outcome, questions (some [.replace, .replace]) log) ∧
      found.buffer.content = [98] ∧
      (∃ m ∈ moments (ofText s.buffer.content) [] log,
        m.reply.taken = true ∧ m.HoldsInserted) ∧
      ∀ places, ¬ ReplacesExactly [97, 98] [98] s.buffer.content places found.buffer.content := by
  intro s
  let first := ((start s [97, 98] [98]).offer? s).get (by decide +kernel)
  have hfirst : (start s [97, 98] [98]).offer? s = some first := (Option.some_get _).symm
  let s' : Searched := ⟨first.run.substitute first.shown.buffer first.offset, Selection.none⟩
  let second := ((first.run.afterReplacing first.offset).offer? s').get (by decide +kernel)
  have hsecond : (first.run.afterReplacing first.offset).offer? s' = some second :=
    (Option.some_get (by decide +kernel)).symm
  have hfit : first.run.fits first.shown.buffer = true := by decide +kernel
  have hfit' : second.run.fits second.shown.buffer = true := by decide +kernel
  have hnone : (second.run.afterReplacing second.offset).offer?
      ⟨second.run.substitute second.shown.buffer second.offset, Selection.none⟩ = none :=
    Option.isNone_iff_eq_none.mp (by decide +kernel)
  have hcourse : (start s [97, 98] [98]).Course s [⟨first, .replace⟩, ⟨second, .replace⟩] _ _ :=
    .replaced hfirst hfit (.replaced hsecond hfit' (.exhausted hnone))
  refine ⟨_, _, _, hcourse, ?_, by decide +kernel, ?_, ?_⟩
  · simp only [Searched.replace, queryReplace, answering, hfirst, answer, if_pos hfit]
    simp only [s', hsecond, if_pos hfit', hnone]
    rfl
  · exact ⟨_, List.mem_cons_of_mem _ List.mem_cons_self, by decide +kernel, 1, by decide +kernel,
      98, by decide +kernel⟩
  · intro places hexact
    -- there is one place where the needle stands, and replacing it leaves two letters
    have hplace : ∀ place ∈ places, place = 1 := by
      intro place hplace
      have hocc := hexact.occurs place hplace
      have hle : place + 2 ≤ 3 := hocc.add_length_le
      have hzero : ¬ Occurs [97, 98] s.buffer.content 0 := by decide +kernel
      rcases Nat.eq_zero_or_pos place with rfl | hpos
      · exact absurd hocc hzero
      · omega
    have htext := hexact.text
    rcases places with _ | ⟨place, _ | ⟨later, rest⟩⟩
    · exact absurd htext (by decide +kernel)
    · rw [hplace place List.mem_cons_self] at htext
      exact absurd htext (by decide +kernel)
    · have hapart : place + 2 ≤ later :=
        (List.pairwise_cons.mp hexact.apart).1 later List.mem_cons_self
      have hfirst := hplace place List.mem_cons_self
      have hlater := hplace later (List.mem_cons_of_mem _ List.mem_cons_self)
      omega

end Searched
end ScreenEditor
