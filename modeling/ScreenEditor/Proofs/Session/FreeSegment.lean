import ScreenEditor.Proofs.Session.Numbering
import ScreenEditor.Proofs.Transfer.Replace
import ScreenEditor.Proofs.Transfer.Undone

/-!
# Files opened in a free segment

A file that is opened takes the place of the active document, and with it that of the other parts of
its chain.  When the active segment is unused there is no such chain, provided that unused segments
keep no part number (`Tidy`).  Then the file takes unused segments only, and every document in use
is left as it is (`Spares`), whether the file is opened or not.

So a file that was opened stays where it is (`Holds.spared`) as long as later files are opened in
free segments too.

## Main results

* `SegmentTable.open_in_free_segment`: a file that is opened.
* `SegmentTable.fail_in_free_segment`: a file that is not.
-/

namespace ScreenEditor.SegmentTable

variable {t t' t'' : SegmentTable}

/-! ## Tidy tables -/

/-- An unused segment has no part number. -/
structure Tidy (t : SegmentTable) : Prop where
  wellFormed : t.WellFormed
  number : ∀ id, t.has id = true → (t.document id).isUnused = true →
    (t.document id).header.part = 0

/-- A new table is tidy. -/
theorem tidy_ofLayout {capacity : Nat} {present : List Bool} (hcap : capacity < 2 ^ 32)
    (h : ofLayout capacity present = .ok t) : t.Tidy :=
  ⟨wellFormed_ofLayout hcap h, fun id hid _ => by rw [document_ofLayout hcap h hid]; rfl⟩

/-- What keeps the documents keeps the table tidy. -/
theorem Tidy.kept (h : t.Tidy) (hk : Kept t t') : t'.Tidy := by
  refine ⟨hk.wellFormed, fun id hid hunused => ?_⟩
  rw [hk.has] at hid
  rcases hk.part id hid with hsame | ⟨hzero, -⟩
  · rw [hsame]
    exact h.number id hid (hk.isUnused hid hunused)
  · exact hzero

/-! ## Documents that are spared -/

/-- The table `t'` has the documents of `t` that were in use. -/
structure Spares (t t' : SegmentTable) : Prop where
  capacity : t'.capacity = t.capacity
  count : t'.count = t.count
  inUse : ∀ id, t.has id = true → (t.document id).isUnused = false →
    (t'.document id).plain = (t.document id).plain

theorem Spares.refl (t : SegmentTable) : t.Spares t := ⟨rfl, rfl, fun _ _ _ => rfl⟩

theorem Spares.has (h : t.Spares t') (id : Nat) : t'.has id = t.has id := has_congr h.count id

/-- What is in use stays so. -/
theorem Spares.isUnused_eq_false (h : t.Spares t') {id : Nat} (hid : t.has id = true)
    (hused : (t.document id).isUnused = false) : (t'.document id).isUnused = false := by
  rw [← Document.isUnused_plain, h.inUse id hid hused, Document.isUnused_plain, hused]

/-- Documents that are spared twice are spared. -/
theorem Spares.trans (h : t.Spares t') (h' : t'.Spares t'') : t.Spares t'' where
  capacity := h'.capacity.trans h.capacity
  count := h'.count.trans h.count
  inUse id hid hused :=
    (h'.inUse id ((h.has id).trans hid) (h.isUnused_eq_false hid hused)).trans
      (h.inUse id hid hused)

/-- The same documents are spared. -/
theorem Agrees.spares (h : t.Agrees t') : t.Spares t' :=
  ⟨h.capacity, h.count, fun id hid _ => by rw [h.document id hid]⟩

/-! ## Files in segments -/

/-- The segments hold a file that was read under a name and whose translated text is `text`. -/
structure Holds (t : SegmentTable) (name : String) (text : List UInt8) (ids : List Nat) :
    Prop where
  has : ∀ id ∈ ids, t.has id = true
  readFrom : ReadFrom t name ids
  textOf_eq : t.textOf ids = text

variable {name : String} {text : List UInt8} {ids : List Nat}

/-- A segment that holds a part of a named file is in use. -/
theorem Holds.inUse (h : t.Holds name text ids) (hname : name ≠ "") {id : Nat} (hid : id ∈ ids) :
    (t.document id).isUnused = false := by
  refine Document.isUnused_of_named ?_
  rw [h.readFrom.name id hid]
  exact Header.clipName_ne_empty hname

/-- **A file stays where it is** when the documents in use are spared. -/
theorem Holds.spared (h : t.Holds name text ids) (hname : name ≠ "") (hs : t.Spares t') :
    t'.Holds name text ids := by
  have hsame : ∀ id ∈ ids, (t'.document id).plain = (t.document id).plain := fun id hid =>
    hs.inUse id (h.has id hid) (h.inUse hname hid)
  have hheader : ∀ id ∈ ids, (t'.document id).header = (t.document id).header := fun id hid =>
    congrArg (·.header) (hsame id hid)
  refine ⟨fun id hid => (hs.has id).trans (h.has id hid), ⟨?_, ?_, ?_, ?_, ?_⟩, ?_⟩
  · intro id hid
    rw [hheader id hid]
    exact h.readFrom.name id hid
  · intro i id hi
    rw [partNumber, hheader id (List.mem_of_getElem? hi)]
    exact h.readFrom.number i id hi
  · intro id hid
    rw [hheader id hid]
    exact h.readFrom.unmodified id hid
  · intro id hid
    rw [hheader id hid]
    exact h.readFrom.settled id hid
  · intro id hid
    exact (congrArg (·.caret) (hsame id hid)).trans (h.readFrom.caret id hid)
  · rw [← h.textOf_eq]
    exact textOf_congr fun id hid => congrArg (·.text) (hsame id hid)

/-! ## Opening -/

section Opening

variable {σ : Type} {store : σ} {settings : TransferSettings}

/-- A file that could not be opened leaves the documents in use. -/
theorem fail_in_free_segment [Storage σ] (h : t.Tidy) {e : EditorError}
    (hload : (t.load store name .replace settings).1 = .error e) :
    (t.load store name .replace settings).2.1.Tidy ∧
      t.Spares (t.load store name .replace settings).2.1 := by
  have hrestored := load_error h.wellFormed hload
  exact ⟨h.kept (Kept.of_restored hrestored),
    hrestored.capacity, hrestored.count, hrestored.undone.inUse⟩

variable [HonestStorage σ] {report : LoadReport}

/-- A document that is replaced by a file keeps the capacity. -/
theorem capacity_of_replaced (h : t.WellFormed) (h' : t'.WellFormed) {s : Sink}
    (hfinished : Sink.Finished (Load.ready t .replace name) text s)
    (hreplaced : Load.Replaced t t' s) : t'.capacity = t.capacity := by
  have hconfined := hfinished.confined
  have hmem := hconfined.active_mem
  have hloaded := h'.storable (hreplaced.has _ hmem)
  have hsink := hconfined.wellFormed.storable (hconfined.has_of_mem hmem)
  rw [hreplaced.document _ hmem] at hloaded
  rw [← hloaded.capacity_eq, hsink.capacity_eq, hconfined.capacity]
  exact (Load.ready_frame h .replace name).2.1

/-- **A file that is opened in an unused segment** takes unused segments, holds the translated file
there, and leaves the documents in use. -/
theorem open_in_free_segment (h : t.Tidy) (hcap : 0 < t.capacity)
    (hfree : t.current.isUnused = true) (hname : name ≠ "") {file : List UInt8}
    (hfile : HonestStorage.file? store name = some file)
    (hload : (t.load store name .replace settings).1 = .ok report) :
    let t' := (t.load store name .replace settings).2.1
    t'.Tidy ∧ t.Spares t' ∧
      t'.Holds name (translate (max settings.tabWidth 1) 0 file) report.segments ∧
      report.segments.head? = some t.active ∧
      ∀ id ∈ report.segments, t.has id = true ∧ (t.document id).isUnused = true := by
  intro t'
  have hunused : ∀ id, t.has id = true → id ≠ t.active → (t.document id).header.part ≠ 0 →
      (t.document id).isUnused = false := fun id hid _ hpart =>
    Bool.eq_false_iff.mpr fun hunused => hpart (h.number id hid hunused)
  have hstandalone : t.current.header.part = 0 := by
    have hnumber := h.number t.active has_active
    rw [document_active] at hnumber
    exact hnumber hfree
  have hspread := spread_of_load_ok h.wellFormed hload
  obtain ⟨taken, htaken, rfl, hfinished, hreplaced⟩ :=
    replaced_of_load_ok h.wellFormed hcap (fun _ => hunused) hname hfile hload
  have hread := Load.readFrom_finished hfinished rfl
    ((Sink.sameReader_finishPart _).mode.trans htaken.mode_eq) hreplaced.document
  have horigin : taken.finishPart.origin = t.active :=
    hfinished.confined.origin.trans (Load.ready_frame h.wellFormed .replace name).2.2.2.1
  have hfresh : ∀ id ∈ taken.finishPart.segments,
      t.has id = true ∧ (t.document id).isUnused = true := by
    intro id hid
    obtain ⟨hhas, rfl | hunused⟩ := hspread.fresh id hid
    · exact ⟨hhas, by rwa [document_active]⟩
    · exact ⟨hhas, hunused⟩
  have hsame : ∀ id, t.has id = true → id ∉ taken.finishPart.segments →
      t'.document id = t.document id := by
    intro id hid hnot
    rw [hreplaced.others id hid hnot, if_neg fun hold => hold.1 hstandalone]
  have hholds : t'.Holds name (translate (max settings.tabWidth 1) 0 file)
      taken.finishPart.segments := ⟨hreplaced.has, hread, hreplaced.textOf_eq hfinished⟩
  refine ⟨⟨hspread.wellFormed, ?_⟩,
    ⟨capacity_of_replaced h.wellFormed hspread.wellFormed hfinished hreplaced, hspread.count, ?_⟩,
    hholds, congrArg some horigin, hfresh⟩
  · intro id hid hunused
    rw [has_congr hspread.count] at hid
    by_cases hmem : id ∈ taken.finishPart.segments
    · rw [hholds.inUse hname hmem] at hunused
      cases hunused
    · rw [hsame id hid hmem] at hunused ⊢
      exact h.number id hid hunused
  · intro id hid hused
    have hnot : id ∉ taken.finishPart.segments := fun hmem => by
      rw [(hfresh id hmem).2] at hused
      cases hused
    rw [hsame id hid hnot]

end Opening

end ScreenEditor.SegmentTable
