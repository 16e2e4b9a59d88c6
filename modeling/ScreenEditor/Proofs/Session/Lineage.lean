import ScreenEditor.Proofs.Session.Chains
import ScreenEditor.Storage.Memory

/-!
# Documents of one name

Two documents may come from the same file and bear the same name.  `Lineage` tells them apart: it
remembers which load brought in the document of a segment.

A file that is opened takes the place of a whole document, whose other parts are given up.  They are
found by their name.  So this leaves all other documents alone as long as no document has joined the
chain of another one (`Session.sparesOthers_course`), and no longer than that
(`Session.not_sparesOthers_joined`).

## Main results

* `Session.kin_perform`: parts with one name stay parts of one document.
* `Session.sparesOthers_course`: every file that is opened in the course of a session.
-/

namespace ScreenEditor

/-! ## Which document a segment holds -/

/-- Which document each segment holds.  A document is told by the time at which it came in, and by
the segment that was active then. -/
structure Lineage where
  time : Nat
  document : Nat → Nat × Nat

namespace Lineage

/-- In a new session every segment holds a document of its own. -/
def first : Lineage := ⟨0, fun id => (0, id)⟩

/-- A file was opened.  The segments that it took hold a new document, and of those that were given
up each holds one of its own. -/
def opened (l : Lineage) (t : SegmentTable) (ids : List Nat) : Lineage where
  time := l.time + 1
  document id :=
    if id ∈ ids then (l.time + 1, t.active)
    else if id ∈ Load.stale t .replace then (l.time + 1, id)
    else l.document id

/-- A file was inserted.  The segments that it took hold the document at hand. -/
def continued (l : Lineage) (t : SegmentTable) (ids : List Nat) : Lineage where
  time := l.time
  document id := if id ∈ ids then l.document t.active else l.document id

variable {l : Lineage} {t : SegmentTable} {ids : List Nat} {id : Nat}

/-- The segments of an opened file begin a document of their own. -/
theorem document_opened_of_mem (h : id ∈ ids) :
    (l.opened t ids).document id = (l.time + 1, t.active) := if_pos h

/-- Segments that an opened file did not touch keep theirs. -/
theorem document_opened_of_notMem (h : id ∉ ids) (hstale : id ∉ Load.stale t .replace) :
    (l.opened t ids).document id = l.document id := (if_neg h).trans (if_neg hstale)

/-- The segments of an inserted file belong to the document that it was inserted into. -/
theorem document_continued_of_mem (h : id ∈ ids) :
    (l.continued t ids).document id = l.document t.active := if_pos h

/-- All others keep theirs. -/
theorem document_continued_of_notMem (h : id ∉ ids) :
    (l.continued t ids).document id = l.document id := if_neg h

end Lineage

/-- Parts with the same name are parts of one document. -/
structure SegmentTable.Kin (t : SegmentTable) (l : Lineage) : Prop where
  wellFormed : t.WellFormed
  kin : ∀ name a b, t.IsPart name a → t.IsPart name b → l.document a = l.document b

namespace SegmentTable.Kin

variable {t t' : SegmentTable} {l : Lineage} {name : String} {ids : List Nat}

/-- What is given up for a file is of the document that the file replaces. -/
theorem of_mem_stale (h : t.Kin l) {id : Nat} (hid : id ∈ Load.stale t .replace) :
    l.document id = l.document t.active := by
  obtain ⟨hpart, -, hold⟩ := (Load.mem_stale_iff h.wellFormed id).mp hid
  exact h.kin _ _ _ hold (isPart_active.mpr ⟨hpart, rfl⟩)

/-- Opening a file leaves names and documents in step, unless it joins another chain. -/
theorem opened (h : t.Kin l) (hs : Load.Spread t name .replace ids t') (hj : ¬ t.JoinsChain t') :
    t'.Kin (l.opened t ids) := by
  refine ⟨hs.wellFormed, fun m a b ha hb => ?_⟩
  have hdoc : ∀ id, id ∉ ids → t'.IsPart m id →
      t.IsPart m id ∧ (l.opened t ids).document id = l.document id := by
    intro id hmem hid
    obtain ⟨hstale, hold⟩ := hs.isPart_of_notMem h.wellFormed hmem hid
    exact ⟨hold, Lineage.document_opened_of_notMem hmem hstale⟩
  by_cases hmem : a ∈ ids
  · have hmem' := hs.mem_of_not_joinsChain h.wellFormed hj hmem ha hb
    rw [Lineage.document_opened_of_mem hmem, Lineage.document_opened_of_mem hmem']
  · have hmem' : b ∉ ids := fun hin =>
      hmem (hs.mem_of_not_joinsChain h.wellFormed hj hin hb ha)
    rw [(hdoc a hmem ha).2, (hdoc b hmem' hb).2]
    exact h.kin m a b (hdoc a hmem ha).1 (hdoc b hmem' hb).1

/-- So does inserting one. -/
theorem inserted (h : t.Kin l) (hs : Load.Spread t name .insert ids t') (hj : ¬ t.JoinsChain t') :
    t'.Kin (l.continued t ids) := by
  refine ⟨hs.wellFormed, fun m a b ha hb => ?_⟩
  -- what took bytes is of the document at hand, and so is what has its name
  have hdoc : ∀ id, t'.IsPart m id →
      (l.continued t ids).document id = l.document id ∧ t.IsPart m id ∨
        id ∈ ids ∧ (l.continued t ids).document id = l.document t.active := by
    intro id hid
    by_cases hin : id ∈ ids
    · exact .inr ⟨hin, Lineage.document_continued_of_mem hin⟩
    · exact .inl ⟨Lineage.document_continued_of_notMem hin,
        (hs.isPart_of_notMem h.wellFormed hin hid).2⟩
  have hmixed : ∀ id j, id ∈ ids → t'.IsPart m id → t.IsPart m j →
      l.document j = l.document t.active := by
    intro id j hin hid hold
    obtain ⟨hpart, rfl⟩ := hs.isPart_active h.wellFormed hin hid
    exact h.kin _ _ _ hold (isPart_active_of_not_joinsChain hj hs.active hpart hold)
  rcases hdoc a ha with ⟨hda, holda⟩ | ⟨hina, hda⟩
  · rcases hdoc b hb with ⟨hdb, holdb⟩ | ⟨hinb, hdb⟩
    · rw [hda, hdb]
      exact h.kin m a b holda holdb
    · rw [hda, hdb]
      exact hmixed b a hinb hb holda
  · rcases hdoc b hb with ⟨hdb, holdb⟩ | ⟨-, hdb⟩
    · rw [hda, hdb]
      exact (hmixed a b hina ha holdb).symm
    · rw [hda, hdb]

/-- So does saving under another name. -/
theorem saved (h : t.Kin l) (hs : Save.Renamed t name t') (hj : ¬ t.JoinsChain t') : t'.Kin l := by
  refine ⟨hs.wellFormed, fun m a b ha hb => ?_⟩
  by_cases hmem : a ∈ t.wholeDocument
  · have hmem' := hs.mem_of_not_joinsChain hj hmem ha hb
    exact h.kin _ a b (hs.isPart_of_mem hmem ha).2.1 (hs.isPart_of_mem hmem' hb).2.1
  · have hmem' : b ∉ t.wholeDocument := fun hin => hmem (hs.mem_of_not_joinsChain hj hin hb ha)
    exact h.kin m a b (hs.isPart_of_notMem hmem ha) (hs.isPart_of_notMem hmem' hb)

/-- What keeps the names and the part numbers keeps them in step. -/
theorem kept (h : t.Kin l) (hk : Kept t t') : t'.Kin l :=
  ⟨hk.wellFormed, fun m a b ha hb => h.kin m a b (hk.isPart ha) (hk.isPart hb)⟩

end SegmentTable.Kin

namespace Session

variable {σ : Type} [Storage σ] {s : Session σ}

/-- The documents of the segments once an operation is done. -/
def trace (l : Lineage) (s : Session σ) (op : SessionOp) : Lineage :=
  match s.fileEvent op with
  | .opened _ ids => l.opened s.table ids
  | .inserted _ ids => l.continued s.table ids
  | _ => l

/-- **Parts with one name stay parts of one document**, if the document at hand joins no chain. -/
theorem kin_perform {l : Lineage} (h : s.table.Kin l) {op : SessionOp}
    (hop : ¬ s.table.JoinsChain (s.perform op).table) :
    (s.perform op).table.Kin (trace l s op) := by
  have hmakes := makes_fileEvent h.wellFormed op
  rw [trace]
  cases hevent : s.fileEvent op with
  | none =>
      rw [hevent] at hmakes
      exact h.kept hmakes
  | opened name ids =>
      rw [hevent] at hmakes
      obtain ⟨report, hload, rfl, htable⟩ := hmakes
      rw [htable] at hop ⊢
      exact h.opened (spread_of_load_ok h.wellFormed hload) hop
  | inserted name ids =>
      rw [hevent] at hmakes
      obtain ⟨report, hload, rfl, htable⟩ := hmakes
      rw [htable] at hop ⊢
      exact h.inserted (spread_of_load_ok h.wellFormed hload) hop
  | saved name =>
      rw [hevent] at hmakes
      obtain ⟨written, hsave, htable⟩ := hmakes
      rw [htable] at hop ⊢
      exact h.saved (renamed_of_save_ok h.wellFormed hsave) hop

/-- A file that is opened changes only the segments that it takes and those of the document that it
replaces. -/
def SparesOthers (s : Session σ) (l : Lineage) : Prop :=
  ∀ (name : String) (report : LoadReport), (s.openFile name).1 = .ok report →
    ∀ id, s.table.has id = true → id ∉ report.segments →
      l.document id ≠ l.document s.table.active →
        (s.openFile name).2.table.document id = s.table.document id

/-- Opening a file gives up parts of the document at hand only, if parts with its name are. -/
theorem sparesOthers_of_kin {l : Lineage} (h : s.table.Kin l) : s.SparesOthers l := by
  intro name report hopen id hid hnot hother
  obtain ⟨hresult, htable⟩ := s.openFile_eq name
  rw [hresult] at hopen
  have hstale : id ∉ Load.stale s.table .replace := fun hmem => hother (h.of_mem_stale hmem)
  have hlater : id ∉ Load.later s.table .replace := List.not_mem_nil
  rw [htable, (spread_of_load_ok h.wellFormed hopen).others id hid hnot, if_neg hstale,
    if_neg hlater]

/-- **A file that is opened leaves other documents alone**, their headers, texts and carets, also if
they have the same name.  This holds wherever a course of operations leads on which no document
joins the chain of another one. -/
theorem sparesOthers_course {options : SessionOptions} {storage : σ} {rows cols : Nat}
    (hcap : options.capacity < 2 ^ 32) (h : create options storage rows cols = .ok s)
    {ops : List SessionOp}
    (hops : s.Along (fun s op => ¬ s.table.JoinsChain (s.perform op).table) ops) :
    ∀ p ∈ s.courseWith trace Lineage.first ops, p.1.SparesOthers p.2 := by
  have hlayout := ofLayout_of_create h
  have hfirst : s.table.Kin Lineage.first := by
    refine ⟨SegmentTable.wellFormed_ofLayout hcap hlayout, ?_⟩
    rintro name a b ⟨hid, hpart, -⟩
    rw [SegmentTable.document_ofLayout hcap hlayout hid] at hpart
    exact absurd rfl hpart
  have hstep : ∀ (s : Session σ) (l : Lineage) (op : SessionOp), s.table.Kin l →
      ¬ s.table.JoinsChain (s.perform op).table → (s.perform op).table.Kin (trace l s op) :=
    fun _ _ _ hkin hop => kin_perform hkin hop
  intro p hp
  exact sparesOthers_of_kin (forall_mem_courseWith hstep hfirst hops p hp)

/-- Unsaved text in one document, and a file of the same name opened beside it in the place of
another one. -/
theorem sparesOthers_course_unsaved :
    let config := { Config.standard "" with
      segmentCapacity := 4, segmentCount := 4, loadChunkSize := 1 }
    let storage := (Memory.empty.putFile "f" [97, 98, 99, 100, 101, 102]).putFile "g" [120]
    let ops : List SessionOp := [.openFile "f", .deleteRight, .switchTo 3, .openFile "g"]
    config.complaint? = none ∧
      ∃ s : Session Memory, create config.sessionOptions storage 2 3 = .ok s ∧
        s.Along (fun s op => ¬ s.table.JoinsChain (s.perform op).table) ops ∧
        ∃ p ∈ s.courseWith trace Lineage.first ops,
          (p.1.openFile "f").1 = .ok ⟨6, 6, [3, 4]⟩ ∧
            p.2.document 1 ≠ p.2.document p.1.table.active ∧
            ((p.1.openFile "f").2.table.document 1).buffer.content = [98, 99, 100] := by
  intro config storage ops
  have hnone : config.complaint? = none := by decide
  obtain ⟨s, hcreate, hops, p, hp, hopen, hother, hhas, htext⟩ : ∃ s : Session Memory,
      create config.sessionOptions storage 2 3 = .ok s ∧
        s.Along (fun s op => ¬ s.table.JoinsChain (s.perform op).table) ops ∧
        ∃ p ∈ s.courseWith trace Lineage.first ops,
          (p.1.openFile "f").1 = .ok ⟨6, 6, [3, 4]⟩ ∧
            p.2.document 1 ≠ p.2.document p.1.table.active ∧ p.1.table.has 1 = true ∧
            (p.1.table.document 1).buffer.content = [98, 99, 100] :=
    ⟨_, rfl, by decide +kernel, _, List.mem_of_getElem? (i := 4) rfl, by decide +kernel,
      by decide +kernel, by decide +kernel, by decide +kernel⟩
  have hspares := sparesOthers_course (capacity_sessionOptions_lt hnone) hcreate hops p hp
  refine ⟨hnone, s, hcreate, hops, p, hp, hopen, hother, ?_⟩
  rw [hspares "f" _ hopen 1 hhas (by decide) hother, htext]

/-- The condition is needed: two documents hold the same file, in parts of one name, and a file that
takes the place of the second wipes out the unsaved text of the first. -/
theorem not_sparesOthers_joined :
    let config := { Config.standard "" with
      segmentCapacity := 4, segmentCount := 4, loadChunkSize := 1 }
    let storage := (Memory.empty.putFile "f" [97, 98, 99, 100, 101, 102]).putFile "g" [120]
    let ops : List SessionOp := [.openFile "f", .deleteRight, .switchTo 3, .openFile "f"]
    config.complaint? = none ∧
      ∃ s : Session Memory, create config.sessionOptions storage 2 3 = .ok s ∧
        ∃ p ∈ s.courseWith trace Lineage.first ops,
          (p.1.openFile "g").1 = .ok ⟨1, 1, [3]⟩ ∧
            p.2.document 1 ≠ p.2.document p.1.table.active ∧
            (p.1.table.document 1).buffer.content = [98, 99, 100] ∧
            ((p.1.openFile "g").2.table.document 1).buffer.content = [] ∧
            ¬ p.1.SparesOthers p.2 := by
  intro config storage ops
  have hnone : config.complaint? = none := by decide
  obtain ⟨s, hcreate, p, hp, hopen, hother, hhas, htext, hne, hpart, hold⟩ : ∃ s : Session Memory,
      create config.sessionOptions storage 2 3 = .ok s ∧
        ∃ p ∈ s.courseWith trace Lineage.first ops,
          (p.1.openFile "g").1 = .ok ⟨1, 1, [3]⟩ ∧
            p.2.document 1 ≠ p.2.document p.1.table.active ∧ p.1.table.has 1 = true ∧
            (p.1.table.document 1).buffer.content = [98, 99, 100] ∧
            1 ≠ p.1.table.active ∧ p.1.table.current.header.part ≠ 0 ∧
            p.1.table.IsPart p.1.table.current.header.name 1 :=
    ⟨_, rfl, _, List.mem_of_getElem? (i := 4) rfl, by decide +kernel, by decide +kernel,
      by decide +kernel, by decide +kernel, by decide +kernel, by decide +kernel,
      by decide +kernel⟩
  have hmem : p.1 ∈ s.course ops := by
    rw [← map_fst_courseWith trace Lineage.first]
    exact List.mem_map_of_mem hp
  have hsized : ∀ op ∈ ops, op.Sized := by simp [ops, SessionOp.Sized]
  have hwf := ((synced_create (capacity_sessionOptions_lt hnone) (by decide) (by decide)
    hcreate).course hsized p.1 hmem).wellFormed
  obtain ⟨hresult, htable⟩ := p.1.openFile_eq "g"
  have hstale : 1 ∈ Load.stale p.1.table .replace :=
    (Load.mem_stale_iff hwf 1).mpr ⟨hpart, hne, hold⟩
  have hlost : ((p.1.openFile "g").2.table.document 1).buffer.content = [] := by
    rw [htable, (spread_of_load_ok hwf (hresult.symm.trans hopen)).others 1 hhas (by decide),
      if_pos hstale]
    simp [Document.released, GapBuffer.content]
  refine ⟨hnone, s, hcreate, p, hp, hopen, hother, htext, hlost, fun hspares => ?_⟩
  rw [hspares "g" _ hopen 1 hhas (by decide) hother, htext] at hlost
  cases hlost

end Session
end ScreenEditor
