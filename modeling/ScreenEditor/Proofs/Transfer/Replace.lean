import ScreenEditor.Proofs.Transfer.Settling
import ScreenEditor.Storage.Memory

/-!
# Opening a file

A load that replaces the active document leaves a document, or a chain of parts, that spells the
translated file.  Where chunks or parts end plays no role, since the translation is one function of
the whole file.

## Main results

* `load_replace_spec`: what a load in place of the active document leaves.
-/

namespace ScreenEditor

/-- The segments bear a document read from a file: its name, parts numbered from 1 unless there is
one only, no change, no open question, every caret at the start. -/
structure ReadFrom (t : SegmentTable) (name : String) (ids : List Nat) : Prop where
  name : ∀ id ∈ ids, (t.document id).header.name = Header.clipName name
  number : ∀ i id, ids[i]? = some id → t.partNumber id = if ids.length = 1 then 0 else i + 1
  unmodified : ∀ id ∈ ids, (t.document id).header.modified = false
  settled : ∀ id ∈ ids, (t.document id).header.awaitsOverwrite = false
  caret : ∀ id ∈ ids, (t.document id).buffer.caret = 0

namespace Load

variable {t : SegmentTable}

/-- An emptied document is ready to be filled from a file. -/
theorem filling_firstSink_replace (h : t.WellFormed) (hcap : 0 < t.capacity) {name : String}
    (hname : name ≠ "") (settings : TransferSettings) :
    Sink.Filling (ready t .replace name) [] [] (firstSink t name .replace settings) := by
  have hparts : Sink.Parts (ready t .replace name) (firstSink t name .replace settings) :=
    parts_firstSink h (fun _ => hname) settings
  obtain ⟨-, hreadyCap, -⟩ := ready_frame h .replace name
  have hbuffer : (ready t .replace name).current.buffer
      = (listed t .replace).current.buffer.reset := rfl
  have hafter := (congrArg GapBuffer.after hbuffer).trans (GapBuffer.after_reset _)
  refine ⟨hparts.confined, by omega, hparts.named, hparts.nodup, fun _ => hafter, ?_, ?_,
    hparts.name, hparts.awaits, hparts.number, hparts.closedAs, ?_, ?_⟩
  · exact (congrArg GapBuffer.before hbuffer).trans (GapBuffer.before_reset _)
  · have htail : (firstSink t name .replace settings).tail.getD [] = [] := rfl
    rw [htail, List.append_nil]
    exact hafter
  · intro htail
    exact absurd rfl htail
  · intro hm
    cases hm

/-- A finished document bears what was read from the file. -/
theorem readFrom_finished {p t' : SegmentTable} {text : List UInt8} {s : Sink} {name : String}
    (hs : Sink.Finished p text s) (hp : p.current.header = Header.blank.setName name)
    (hm : s.mode = .replace)
    (hdoc : ∀ id ∈ s.segments, t'.document id = s.table.document id) :
    ReadFrom t' name s.segments where
  name := by
    intro id hid
    rw [hdoc id hid, hs.name id hid, hp]
    rfl
  number := by
    intro i id hi
    have hpart : p.partNumber p.active = 0 := by
      rw [SegmentTable.partNumber, SegmentTable.document_active, hp]
      rfl
    have hnumber := hs.number (by rw [hpart]; exact Nat.zero_le _) i id hi
    have hlen : s.segments.length = s.begun.length + 1 := by simp [Sink.segments]
    rw [SegmentTable.partNumber, hdoc id (List.mem_of_getElem? hi), ← SegmentTable.partNumber,
      hnumber, hpart, Sink.numberAt, hlen]
    split
    · next hzero => rw [if_pos (by omega)]
    · next hzero =>
      rw [if_neg (by omega)]
      omega
  unmodified := by
    intro id hid
    have hclosed := hs.closedAs id hid
    rw [hm] at hclosed
    rw [hdoc id hid]
    exact hclosed.1
  settled := by
    intro id hid
    rw [hdoc id hid, Bool.eq_false_iff]
    intro hawaits
    have hblank := hs.awaits id hid hawaits
    rw [hp] at hblank
    exact Bool.false_ne_true hblank
  caret := by
    intro id hid
    have hclosed := hs.closedAs id hid
    rw [hm] at hclosed
    rw [hdoc id hid]
    exact hclosed.2

/-- The table `t'` holds the parts of the finished sink `s` in place of the active document of `t`;
the other parts of the chain that document was in are given up, and nothing else has changed. -/
structure Replaced (t t' : SegmentTable) (s : Sink) : Prop where
  active : t'.active = t.active
  has : ∀ id ∈ s.segments, t'.has id = true
  document : ∀ id ∈ s.segments, t'.document id = s.table.document id
  others : ∀ id, t.has id = true → id ∉ s.segments → t'.document id =
    if t.current.header.part ≠ 0 ∧ t.IsPart t.current.header.name id
    then (t.document id).released else t.document id

/-- A segment that was begun was unused, and an unused segment is no part of the old chain. -/
theorem notMem_stale (h : t.WellFormed)
    (hunused : t.current.header.part ≠ 0 → ∀ id, t.has id = true → id ≠ t.active →
      (t.document id).header.part ≠ 0 → (t.document id).isUnused = false) {name : String} {s : Sink}
    (hs : Sink.Confined (ready t .replace name) s) {id : Nat} (hid : id ∈ s.segments) :
    id ∉ stale t .replace := by
  obtain ⟨-, -, -, hactive, hothers⟩ := ready_frame h .replace name
  intro hmem
  obtain ⟨hchain, hne, hhas, hpart, -⟩ := (mem_stale_iff h id).mp hmem
  rcases List.mem_cons.mp hid with rfl | hid
  · exact hne (hs.origin.trans hactive)
  · rcases (hs.fresh id (List.mem_reverse.mp hid)).2 with he | hfresh
    · exact hne (he.trans hactive)
    · rw [hothers id hhas hne, hunused hchain id hhas hne hpart] at hfresh
      exact Bool.false_ne_true hfresh

theorem replaced_settle (h : t.WellFormed)
    (hunused : t.current.header.part ≠ 0 → ∀ id, t.has id = true → id ≠ t.active →
      (t.document id).header.part ≠ 0 → (t.document id).isUnused = false)
    {name : String} {text : List UInt8} {s : Sink}
    (hs : Sink.Finished (ready t .replace name) text s.finishPart) (hresume : s.resume = none) :
    Replaced t (settle s (stale t .replace) []) s.finishPart := by
  obtain ⟨-, -, hcount, hactive, -⟩ := ready_frame h .replace name
  have hhas : ∀ id, (ready t .replace name).has id = t.has id := SegmentTable.has_congr hcount
  have hsegHas : ∀ id ∈ s.finishPart.segments, (ready t .replace name).has id = true := by
    intro id hid
    rw [← hs.confined.has]
    exact hs.confined.has_of_mem hid
  have hsettled : Settled (ready t .replace name) s (stale t .replace) []
      (settle s (stale t .replace) []) := settled_settle hs.confined
    (fun id hid => (hhas id).trans (has_of_mem_stale h hid)) List.Pairwise.nil
    (fun id hid => absurd hid List.not_mem_nil)
    (fun j caret hj => by rw [hresume] at hj; cases hj)
  have hdocument : ∀ id, (ready t .replace name).has id = true →
      (settle s (stale t .replace) []).document id =
        if id ∈ stale t .replace then (s.finishPart.table.document id).released
        else s.finishPart.table.document id := by
    intro id hid
    rw [hsettled.document id hid, settledDocument, hresume]
    rfl
  refine ⟨hsettled.active.trans hactive, ?_, ?_, ?_⟩
  · intro id hid
    rw [SegmentTable.has_congr hsettled.count]
    exact hsegHas id hid
  · intro id hid
    rw [hdocument id (hsegHas id hid), if_neg (notMem_stale h hunused hs.confined hid)]
  · intro id hid hnot
    have hne : id ≠ t.active := by
      rintro rfl
      refine hnot ?_
      rw [← hactive, ← hs.confined.origin]
      exact List.mem_cons_self
    have hsame := document_of_notMem h hs.confined hid hnot
    rw [hdocument id (by rwa [hhas]), hsame]
    by_cases hold : t.current.header.part ≠ 0 ∧ t.IsPart t.current.header.name id
    · rw [if_pos hold, if_pos ((mem_stale_iff h id).mpr ⟨hold.1, hne, hold.2⟩)]
    · rw [if_neg hold, if_neg fun hmem => hold
        ⟨((mem_stale_iff h id).mp hmem).1, ((mem_stale_iff h id).mp hmem).2.2⟩]

/-- What is settled in place of a document bears what was read from the file, whatever that was. -/
theorem Landed.readFrom (h : t.WellFormed)
    (hunused : t.current.header.part ≠ 0 → ∀ id, t.has id = true → id ≠ t.active →
      (t.document id).header.part ≠ 0 → (t.document id).isUnused = false)
    {name : String} {ids : List Nat} {t' : SegmentTable} {s : Sink}
    (hland : Landed t name .replace ids t' s) (hs : Sink.Parts (ready t .replace name) s) :
    ReadFrom t' name ids := by
  have hmode := (Sink.sameReader_finishPart s).mode.trans hland.mode_eq
  rw [hland.segments_eq]
  refine readFrom_finished hs.finished rfl hmode fun id hid => ?_
  have hready := (hland.confined.has id).symm.trans (hland.confined.has_of_mem hid)
  rw [hland.settled.document id hready, settledDocument, hland.resume_none rfl]
  exact if_neg (notMem_stale h hunused hland.confined hid)

/-- The parts of a finished sink spell the text that it stored. -/
theorem Replaced.textOf_eq {t' p : SegmentTable} {text : List UInt8} {s : Sink}
    (h : Replaced t t' s) (hs : Sink.Finished p text s) : t'.textOf s.segments = text := by
  have hsame := SegmentTable.textOf_congr fun id hid =>
    congrArg (·.buffer.content) (h.document id hid)
  rw [hsame, hs.text_eq]

end Load

/-- **The parts of a file that is opened are numbered from 1**, whatever the storage gives for its
bytes. -/
theorem readFrom_of_load_ok {σ : Type} [Storage σ] {t : SegmentTable} (h : t.WellFormed)
    (hunused : t.current.header.part ≠ 0 → ∀ id, t.has id = true → id ≠ t.active →
      (t.document id).header.part ≠ 0 → (t.document id).isUnused = false)
    {store : σ} {name : String} (hname : name ≠ "") {settings : TransferSettings}
    {report : LoadReport} (hload : (t.load store name .replace settings).1 = .ok report) :
    ReadFrom (t.load store name .replace settings).2.1 name report.segments := by
  have hparts : Sink.Parts (Load.ready t .replace name) (Load.firstSink t name .replace settings) :=
    Load.parts_firstSink h (fun _ => hname) settings
  obtain ⟨s, hs, hland⟩ := landed_of_load_ok h (Sink.lasting_parts _) hparts hload
  exact hland.readFrom h hunused hs

variable {σ : Type} [HonestStorage σ]

/-- A load in place of the active document that succeeds put the parts of the file in the place of
that document, and a family that its sink tracks has followed. -/
theorem tracked_replaced_of_load_ok {t : SegmentTable} (h : t.WellFormed)
    (hunused : t.current.header.part ≠ 0 → ∀ id, t.has id = true → id ≠ t.active →
      (t.document id).header.part ≠ 0 → (t.document id).isUnused = false)
    {store : σ} {name : String} {file : List UInt8}
    (hfile : HonestStorage.file? store name = some file) {settings : TransferSettings}
    {report : LoadReport} (hload : (t.load store name .replace settings).1 = .ok report)
    {F : List UInt8 → Sink → Prop} {ended : List UInt8 → Prop} {stuck : Sink → Prop}
    (hF : Sink.Tracked F ended stuck) (hbegin : F [] (Load.firstSink t name .replace settings))
    (hended : ∀ front, Load.ReadsTo store name settings front →
      ended (translate (max settings.tabWidth 1) 0 front))
    (hfilling : ∀ {text : List UInt8} {s : Sink}, F text s →
      Sink.Filling (Load.ready t .replace name) [] text s) :
    let text := translate (max settings.tabWidth 1) 0 file
    ∃ taken, F text taken ∧ (Load.firstSink t name .replace settings).Took file text taken ∧
      report = ⟨file.length, taken.stored, taken.finishPart.segments⟩ ∧
      Sink.Finished (Load.ready t .replace name) text taken.finishPart ∧
      Load.Replaced t (t.load store name .replace settings).2.1 taken.finishPart := by
  obtain ⟨taken, sink, hfollowed, htook, htail, rfl, hsettled⟩ :=
    tracked_of_load_ok hF hbegin hended hfile hload
  have howed : (Load.firstSink t name .replace settings).owed file
      = translate (max settings.tabWidth 1) 0 file := rfl
  rw [howed, List.nil_append] at hfollowed
  rw [howed] at htook
  have hfill := hfilling hfollowed
  have hmode : taken.mode = .replace := htook.mode
  -- a file that replaces a document has no tail to put back
  have hnone : taken.tail = none := by
    by_contra hsome
    exact absurd ((hfill.tail_begun hsome).1.symm.trans hmode) (by decide)
  rw [Sink.reattachTail, hnone] at htail
  obtain rfl := Except.ok.inj htail
  have hfinished := hfill.finished (by rw [hnone]; rfl)
  rw [List.append_nil] at hfinished
  have hseg := Sink.segments_finishPart taken
  have hlater : Load.later t .replace = [] := rfl
  rw [hlater] at hsettled
  refine ⟨taken, hfollowed, htook, by rw [hseg], hfinished, ?_⟩
  rw [hsettled]
  exact Load.replaced_settle h hunused hfinished htook.resume

/-- A load in place of the active document that succeeds took the whole file and put its parts in
the place of that document. -/
theorem replaced_of_load_ok {t : SegmentTable} (h : t.WellFormed) (hcap : 0 < t.capacity)
    (hunused : t.current.header.part ≠ 0 → ∀ id, t.has id = true → id ≠ t.active →
      (t.document id).header.part ≠ 0 → (t.document id).isUnused = false)
    {store : σ} {name : String} (hname : name ≠ "") {file : List UInt8}
    (hfile : HonestStorage.file? store name = some file) {settings : TransferSettings}
    {report : LoadReport} (hload : (t.load store name .replace settings).1 = .ok report) :
    ∃ taken, Load.Taken t name .replace settings [] [] file taken ∧
      report = ⟨file.length, taken.stored, taken.finishPart.segments⟩ ∧
      Sink.Finished (Load.ready t .replace name) (translate (max settings.tabWidth 1) 0 file)
        taken.finishPart ∧
      Load.Replaced t (t.load store name .replace settings).2.1 taken.finishPart := by
  obtain ⟨taken, hfilling, htook, hreport, hfinished, hreplaced⟩ := tracked_replaced_of_load_ok h
    hunused hfile hload (Sink.respected_filling (Load.ready t .replace name) []).tracked
    (Load.filling_firstSink_replace h hcap hname settings) (fun _ _ => trivial) id
  have hstored := htook.stored.trans (Nat.zero_add _)
  exact ⟨taken, ⟨hfilling, htook.mode, htook.resume, hstored⟩, hreport, hfinished, hreplaced⟩

/-- **A file opened in place of the active document.**  If the load succeeds, the segments it
reports spell the translated file, whatever the chunk size, the capacity and the places of the cuts;
they begin with the active one and bear a document read from the file.  Other parts of a chain that
was replaced are given up, and every other document is as it was. -/
theorem load_replace_spec {t : SegmentTable} (h : t.WellFormed) (hcap : 0 < t.capacity)
    (hunused : ∀ id, t.has id = true → id ≠ t.active → (t.document id).header.part ≠ 0 →
      (t.document id).isUnused = false)
    {store : σ} {name : String} (hname : name ≠ "") {file : List UInt8}
    (hfile : HonestStorage.file? store name = some file) {settings : TransferSettings}
    {report : LoadReport} (hload : (t.load store name .replace settings).1 = .ok report) :
    let t' := (t.load store name .replace settings).2.1
    let text := translate (max settings.tabWidth 1) 0 file
    t'.textOf report.segments = text ∧
      report.bytesRead = file.length ∧ report.bytesStored = text.length ∧
      report.segments.head? = some t.active ∧ report.segments.Nodup ∧
      (∀ id ∈ report.segments, t'.has id = true) ∧ ReadFrom t' name report.segments ∧
      t'.active = t.active ∧
      ∀ id, t.has id = true → id ∉ report.segments → t'.document id =
        if t.current.header.part ≠ 0 ∧ t.IsPart t.current.header.name id
        then (t.document id).released else t.document id := by
  obtain ⟨taken, htaken, rfl, hfinished, hreplaced⟩ :=
    replaced_of_load_ok h hcap (fun _ => hunused) hname hfile hload
  have hread := Load.readFrom_finished hfinished rfl
    ((Sink.sameReader_finishPart _).mode.trans htaken.mode_eq) hreplaced.document
  have hnodup : taken.finishPart.segments.Nodup := by
    rw [Sink.finishPart_eq]
    exact htaken.filling.nodup
  obtain ⟨-, -, -, hreadyActive, -⟩ := Load.ready_frame h .replace name
  have horigin : taken.finishPart.origin = t.active :=
    hfinished.confined.origin.trans hreadyActive
  refine ⟨hreplaced.textOf_eq hfinished, rfl, htaken.stored, ?_, hnodup, hreplaced.has, hread,
    hreplaced.active, hreplaced.others⟩
  rw [← horigin]
  rfl

/-- A file whose line end is cut by a chunk and whose tab is cut by a part. -/
theorem load_replace_two_parts :
    let t := SegmentTable.unused 4 0 [1, 2]
    let store := Memory.empty.putFile "f" [97, 13, 10, 9, 98]
    let settings : TransferSettings := ⟨4, 2, 2, .lf⟩
    (t.load store "f" .replace settings).1 = .ok ⟨5, 7, [1, 2]⟩ ∧
      (t.load store "f" .replace settings).2.1.textOf [1, 2] = [97, 10, 32, 32, 32, 32, 98] := by
  intro t store settings
  have hwf : t.WellFormed := SegmentTable.wellFormed_unused (by decide) (by decide)
  have hunused : ∀ id, t.has id = true → id ≠ t.active → (t.document id).header.part ≠ 0 →
      (t.document id).isUnused = false := by
    intro id hid _ hpart
    rw [SegmentTable.document_unused (by decide) hid] at hpart
    exact absurd rfl hpart
  have hload : (t.load store "f" .replace settings).1 = .ok ⟨5, 7, [1, 2]⟩ := by decide +kernel
  have hfile : HonestStorage.file? store "f" = some [97, 13, 10, 9, 98] := by decide +kernel
  have hspec := load_replace_spec hwf (by decide) hunused (by decide) hfile hload
  exact ⟨hload, hspec.1.trans (by decide)⟩

end ScreenEditor
