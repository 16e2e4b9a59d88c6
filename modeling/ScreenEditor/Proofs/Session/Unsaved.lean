import ScreenEditor.Proofs.Session.Documents
import ScreenEditor.Storage.Memory

/-!
# Unsaved changes

The mark of a change is never missing.  A document is settled when its file is opened, when it is
given up for another one, and when it is saved (`Session.settledBy`).  As long as it does not count
as modified, its text is the one that it had when it was last settled, or that of a new session
(`Session.unmodified_course`).  So nothing is lost when a session without unsaved changes ends.

## Main results

* `Session.unmodified_course`: every course of a new session.
-/

namespace ScreenEditor.Session

variable {σ : Type} {s : Session σ}

/-- The texts of the segments. -/
def texts (s : Session σ) (id : Nat) : List UInt8 := (s.table.document id).buffer.content

/-- Documents that do not count as modified have the texts that were settled last. -/
structure Marked (s : Session σ) (settled : Nat → List UInt8) : Prop where
  wellFormed : s.table.WellFormed
  text_eq : ∀ id, s.table.has id = true → (s.table.document id).header.modified = false →
    s.texts id = settled id

/-- A new session has nothing to save. -/
theorem marked_create {options : SessionOptions} {storage : σ} {rows cols : Nat}
    (hcap : options.capacity < 2 ^ 32) (h : create options storage rows cols = .ok s) :
    s.Marked s.texts :=
  ⟨SegmentTable.wellFormed_ofLayout hcap (ofLayout_of_create h), fun _ _ _ => rfl⟩

/-- A session has unsaved changes if any of its segments counts as modified. -/
theorem hasUnsavedChanges_eq_false (h : s.table.WellFormed) :
    s.hasUnsavedChanges.1 = false ↔
      ∀ id, s.table.has id = true → (s.table.document id).header.modified = false := by
  have hentries : s.hasUnsavedChanges.1 = (s.table.list.1).any (·.modified) := rfl
  rw [hentries, (SegmentTable.list_spec h).1, List.any_map, List.any_eq_false]
  constructor
  · intro hnone id hid
    have hid' := SegmentTable.has_iff.mp hid
    have hmem : id ∈ List.range' 1 s.table.count := by
      rw [List.mem_range'_1, SegmentTable.count]
      omega
    exact Bool.eq_false_iff.mpr (hnone id hmem)
  · intro hnone id hmem
    rw [List.mem_range'_1, SegmentTable.count] at hmem
    exact Bool.eq_false_iff.mp (hnone id (SegmentTable.has_iff.mpr (by omega)))

/-! ## What operations settle -/

variable [Storage σ]

/-- The segments that an operation settles: those that take a file that is opened, the other parts
of the document that it replaces, and the parts of a document that is saved. -/
def settledBy (s : Session σ) (op : SessionOp) : List Nat :=
  match s.fileEvent op with
  | .opened _ ids => ids ++ (Load.otherParts s.table).1
  | .saved _ => (Save.savedParts s.table none).1
  | _ => []

/-- The texts that were settled last, once an operation is done. -/
def recordTexts (settled : Nat → List UInt8) (s : Session σ) (op : SessionOp) :
    Nat → List UInt8 := fun id =>
  if id ∈ s.settledBy op then (s.perform op).texts id else settled id

/-- It is enough to look at the segments that an operation does not settle. -/
theorem Marked.of_others {settled : Nat → List UInt8} (h : s.Marked settled) {op : SessionOp}
    (hwf : (s.perform op).table.WellFormed) (hcount : (s.perform op).table.count = s.table.count)
    (hothers : ∀ id, s.table.has id = true → id ∉ s.settledBy op →
      ((s.perform op).table.document id).header.modified = false →
        (s.table.document id).header.modified = false ∧ (s.perform op).texts id = s.texts id) :
    (s.perform op).Marked (recordTexts settled s op) := by
  refine ⟨hwf, ?_⟩
  intro id hid hmod
  rw [SegmentTable.has_congr hcount] at hid
  rw [recordTexts]
  split
  · rfl
  · next hnot =>
    obtain ⟨hold, hsame⟩ := hothers id hid hnot hmod
    rw [hsame, h.text_eq id hid hold]

/-- **Every operation that leaves a document unmodified leaves the text that was settled last.** -/
theorem Marked.perform {settled : Nat → List UInt8} (h : s.Marked settled) (op : SessionOp) :
    (s.perform op).Marked (recordTexts settled s op) := by
  have hmakes := makes_fileEvent h.wellFormed op
  cases hevent : s.fileEvent op with
  | none =>
      rw [hevent] at hmakes
      have hkept : Kept s.table (s.perform op).table := hmakes
      exact h.of_others hkept.wellFormed hkept.count fun id hid _ => hkept.unmodified id hid
  | opened name ids =>
      rw [hevent] at hmakes
      obtain ⟨report, hload, rfl, htable⟩ := hmakes
      have hspread := spread_of_load_ok h.wellFormed hload
      rw [← htable] at hspread
      refine h.of_others hspread.wellFormed hspread.count ?_
      intro id hid hnot
      have hsettled : s.settledBy op = report.segments ++ (Load.otherParts s.table).1 := by
        rw [settledBy, hevent]
      rw [hsettled, List.mem_append, not_or] at hnot
      have hstale : id ∉ Load.stale s.table .replace := hnot.2
      have hlater : id ∉ Load.later s.table .replace := List.not_mem_nil
      rw [texts, texts, hspread.others id hid hnot.1, if_neg hstale, if_neg hlater]
      exact fun hmod => ⟨hmod, rfl⟩
  | inserted name ids =>
      rw [hevent] at hmakes
      obtain ⟨report, hload, rfl, htable⟩ := hmakes
      have hspread := spread_of_load_ok h.wellFormed hload
      rw [← htable] at hspread
      refine h.of_others hspread.wellFormed hspread.count ?_
      intro id hid _ hmod
      by_cases hmem : id ∈ report.segments
      · rw [hspread.modified rfl id hmem] at hmod
        cases hmod
      · have hstale : id ∉ Load.stale s.table .insert := List.not_mem_nil
        have hdoc := hspread.others id hid hmem
        rw [if_neg hstale] at hdoc
        rw [hdoc] at hmod
        rw [texts, texts, hdoc]
        split at hmod
        · next hlater =>
          rw [if_pos hlater]
          exact ⟨hmod, rfl⟩
        · next hlater =>
          rw [if_neg hlater]
          exact ⟨hmod, rfl⟩
  | saved name =>
      rw [hevent] at hmakes
      obtain ⟨written, hsave, htable⟩ := hmakes
      have hrenamed := renamed_of_save_ok h.wellFormed hsave
      rw [← htable] at hrenamed
      refine h.of_others hrenamed.wellFormed hrenamed.count ?_
      intro id hid hnot
      have hsettled : s.settledBy op = s.table.wholeDocument := by
        rw [settledBy, hevent, Save.savedParts_eq h.wellFormed, if_pos rfl]
      rw [hsettled] at hnot
      rw [texts, texts, hrenamed.document id hid, if_neg hnot]
      exact fun hmod => ⟨hmod, rfl⟩

/-- **The mark of a change is never missing.**  Wherever a course of operations leads, whichever of
them fail and whatever the storage does, a document that does not count as modified has the text
that it had when it was last settled.  A session without unsaved changes holds no other text. -/
theorem unmodified_course {options : SessionOptions} {storage : σ} {rows cols : Nat}
    (hcap : options.capacity < 2 ^ 32) (h : create options storage rows cols = .ok s)
    (ops : List SessionOp) : ∀ p ∈ s.courseWith recordTexts s.texts ops,
      (∀ id, p.1.table.has id = true → (p.1.table.document id).header.modified = false →
        (p.1.table.document id).buffer.content = p.2 id) ∧
      (p.1.hasUnsavedChanges.1 = false → ∀ id, p.1.table.has id = true →
        (p.1.table.document id).buffer.content = p.2 id) := by
  have hstep : ∀ (s : Session σ) (settled : Nat → List UInt8) (op : SessionOp), s.Marked settled →
      True → (s.perform op).Marked (recordTexts settled s op) := fun _ _ op hs _ => hs.perform op
  have hops : s.Along (fun _ _ => True) ops := along_of_forall fun _ _ => trivial
  intro p hp
  have hmarked := forall_mem_courseWith hstep (marked_create hcap h) hops p hp
  refine ⟨hmarked.text_eq, ?_⟩
  intro hnone id hid
  exact hmarked.text_eq id hid ((hasUnsavedChanges_eq_false hmarked.wellFormed).mp hnone id hid)

/-- A document is saved, changed, and replaced by a file that takes two segments; a file that is not
there changes nothing. -/
theorem unmodified_course_saving :
    let config := { Config.standard "" with segmentCapacity := 2, loadChunkSize := 1 }
    let storage := Memory.empty.putFile "f" [97, 98, 99]
    let ops : List SessionOp :=
      [.insertByte 100, .saveAs "g" false, .deleteLeft, .openFile "f", .deleteRight, .switchTo 2,
        .insertFile "h"]
    config.complaint? = none ∧
      ∃ s : Session Memory, create config.sessionOptions storage 2 3 = .ok s ∧
        (s.courseWith recordTexts s.texts ops).map
            (fun p => (p.1.hasUnsavedChanges.1, p.1.texts 1, p.1.texts 2))
          = [(false, [], []), (true, [100], []), (false, [100], []), (true, [], []),
            (false, [97, 98], [99]), (true, [98], [99]), (true, [98], [99]),
            (true, [98], [99])] ∧
        ∀ p ∈ s.courseWith recordTexts s.texts ops,
          p.1.hasUnsavedChanges.1 = false → p.1.texts 1 = p.2 1 ∧ p.1.texts 2 = p.2 2 := by
  intro config storage ops
  have hnone : config.complaint? = none := by decide
  obtain ⟨s, hcreate, htexts, hhas⟩ : ∃ s : Session Memory,
      create config.sessionOptions storage 2 3 = .ok s ∧
        (s.courseWith recordTexts s.texts ops).map
            (fun p => (p.1.hasUnsavedChanges.1, p.1.texts 1, p.1.texts 2))
          = [(false, [], []), (true, [100], []), (false, [100], []), (true, [], []),
            (false, [97, 98], [99]), (true, [98], [99]), (true, [98], [99]),
            (true, [98], [99])] ∧
        ∀ p ∈ s.courseWith recordTexts s.texts ops,
          p.1.table.has 1 = true ∧ p.1.table.has 2 = true :=
    ⟨_, rfl, by decide +kernel, by decide +kernel⟩
  refine ⟨hnone, s, hcreate, htexts, ?_⟩
  intro p hp hunchanged
  have hsame := (unmodified_course (capacity_sessionOptions_lt hnone) hcreate ops p hp).2 hunchanged
  exact ⟨hsame 1 (hhas p hp).1, hsame 2 (hhas p hp).2⟩

end ScreenEditor.Session
