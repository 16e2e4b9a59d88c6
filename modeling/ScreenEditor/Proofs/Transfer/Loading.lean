import ScreenEditor.Proofs.Transfer.Filling
import ScreenEditor.Proofs.Transfer.Rollback

/-!
# The course of a load

A load lists the parts of the document's chain, makes the active document ready, reads the file into
a sink, puts the tail back, and settles the documents.  `load_eq` spells this course with a name for
the sink it begins with, and `of_load_ok` opens a load that succeeds.

A load that fails restores the documents (`load_error`), and every load leaves a well-formed table
(`wellFormed_load`), whatever the storage does.  In an honest storage a load that succeeds took the
whole file (`taken_of_load_ok`).
-/

namespace ScreenEditor

namespace Load

variable {t : SegmentTable}

/-- The parts that a load gives up at its end. -/
def stale (t : SegmentTable) (mode : LoadMode) : List Nat :=
  match mode with
  | .replace => (otherParts t).1
  | .insert => []

/-- The parts whose numbers a load raises at its end. -/
def later (t : SegmentTable) (mode : LoadMode) : List Nat :=
  match mode with
  | .replace => []
  | .insert => (laterParts t).1

/-- The table once the parts of the chain are listed. -/
def listed (t : SegmentTable) (mode : LoadMode) : SegmentTable :=
  match mode with
  | .replace => (otherParts t).2
  | .insert => (laterParts t).2

/-- The table once the active document is ready for the file. -/
def ready (t : SegmentTable) (mode : LoadMode) (name : String) : SegmentTable :=
  prepare (listed t mode) mode name

/-- The sink that a load begins with. -/
def firstSink (t : SegmentTable) (name : String) (mode : LoadMode) (settings : TransferSettings) :
    Sink := sinkOf (ready t mode name) mode settings

/-! ## Listing the parts -/

/-- Looking up the other parts goes through the segments and comes back. -/
theorem agrees_otherParts (h : t.WellFormed) :
    t.Agrees (otherParts t).2 ∧ (otherParts t).2.active = t.active := by
  unfold otherParts
  split
  · exact ⟨SegmentTable.Agrees.refl h, rfl⟩
  · obtain ⟨-, -, -, hagrees, hactive⟩ := SegmentTable.parts_spec h t.current.header.name
    exact ⟨hagrees, hactive⟩

/-- So does looking up the later ones. -/
theorem agrees_laterParts (h : t.WellFormed) :
    t.Agrees (laterParts t).2 ∧ (laterParts t).2.active = t.active := by
  unfold laterParts
  split
  · exact ⟨SegmentTable.Agrees.refl h, rfl⟩
  · obtain ⟨-, -, -, hagrees, hactive⟩ := SegmentTable.parts_spec h t.current.header.name
    exact ⟨hagrees, hactive⟩

/-- In either mode the look-up leaves the documents. -/
theorem agrees_listed (h : t.WellFormed) (mode : LoadMode) :
    t.Agrees (listed t mode) ∧ (listed t mode).active = t.active := by
  cases mode with
  | replace => exact agrees_otherParts h
  | insert => exact agrees_laterParts h

/-- The document at hand is the one that was at hand before. -/
theorem current_listed (h : t.WellFormed) (mode : LoadMode) :
    (listed t mode).current = t.current := by
  obtain ⟨hagrees, hactive⟩ := agrees_listed h mode
  exact hagrees.current_eq hactive

/-- Only the active document is changed to make it ready. -/
theorem ready_frame (h : t.WellFormed) (mode : LoadMode) (name : String) :
    (ready t mode name).WellFormed ∧ (ready t mode name).capacity = t.capacity ∧
      (ready t mode name).count = t.count ∧ (ready t mode name).active = t.active ∧
      ∀ id, t.has id = true → id ≠ t.active →
        (ready t mode name).document id = t.document id := by
  obtain ⟨hagrees, hactive⟩ := agrees_listed h mode
  cases mode with
  | insert => exact ⟨hagrees.wellFormed, hagrees.capacity, hagrees.count, hactive,
      fun id hid _ => hagrees.document id hid⟩
  | replace =>
      have hstor : Document.Storable
          ⟨Header.blank.setName name, (listed t .replace).current.buffer.reset⟩
          (listed t .replace).capacity :=
        ⟨hagrees.wellFormed.current.capacity_eq, Header.nameFits_setName _ name⟩
      have hwf : (ready t .replace name).WellFormed := by
        rw [ready, prepare]
        exact hagrees.wellFormed.modifyCurrent hstor
      refine ⟨hwf, hagrees.capacity, hagrees.count, hactive, ?_⟩
      intro id hid hne
      rw [ready, prepare, SegmentTable.document_modifyCurrent _ (by rwa [hagrees.has]),
        if_neg (by rwa [hactive]), hagrees.document id hid]

/-- The first sink has changed nothing but the document at hand. -/
theorem confined_firstSink (h : t.WellFormed) (name : String) (mode : LoadMode)
    (settings : TransferSettings) :
    Sink.Confined (ready t mode name) (firstSink t name mode settings) := by
  obtain ⟨hwf, -⟩ := ready_frame h mode name
  refine ⟨hwf, rfl, rfl, rfl, rfl, ?_, fun _ _ _ _ => rfl⟩
  intro id hid
  exact absurd hid List.not_mem_nil

/-- The only segment of a sink that has begun no further one is the active one. -/
theorem eq_active_of_mem_firstSink {name : String} {mode : LoadMode} {settings : TransferSettings}
    {id : Nat} (hid : id ∈ (firstSink t name mode settings).segments) :
    id = (firstSink t name mode settings).table.active := List.mem_singleton.mp hid

/-- The first sink gives the name that the document is to have. -/
theorem named_firstSink (h : t.WellFormed) (name : String) (mode : LoadMode)
    (settings : TransferSettings) :
    Sink.Named (ready t mode name) (firstSink t name mode settings) := by
  refine ⟨confined_firstSink h name mode settings, ?_, fun hbegun => absurd rfl hbegun⟩
  intro id hid
  rw [eq_active_of_mem_firstSink hid, SegmentTable.document_active]
  rfl

/-- A sink has begun with one part, which has the document's own number. -/
theorem parts_firstSink (h : t.WellFormed) {name : String} {mode : LoadMode}
    (hname : mode = .replace → name ≠ "") (settings : TransferSettings) :
    Sink.Parts (ready t mode name) (firstSink t name mode settings) := by
  refine ⟨confined_firstSink h name mode settings, ?_, List.pairwise_singleton _ _,
    (named_firstSink h name mode settings).name, ?_, ?_, ?_⟩
  · rintro rfl
    exact Header.clipName_ne_empty (hname rfl)
  · intro id hid
    rw [eq_active_of_mem_firstSink hid, SegmentTable.document_active]
    exact fun hawaits => hawaits
  · intro _ i id hi
    rw [eq_active_of_mem_firstSink (List.mem_of_getElem? hi)]
    rfl
  · intro id hid
    exact absurd hid List.not_mem_nil

end Load

/-! ## The course of a load -/

variable {σ : Type} [Storage σ] {t : SegmentTable}

/-- A load, with its preparations under their names. -/
theorem load_eq (t : SegmentTable) (store : σ) (name : String) (mode : LoadMode)
    (settings : TransferSettings) :
    t.load store name mode settings =
      match Storage.openStream store name .read with
      | .error fault => (.error (.ofFault name .opening fault), t, store)
      | .ok (stream, store) =>
        match Load.readAll name (max settings.readChunk 1)
            ⟨Load.firstSink t name mode settings, 0, stream, store⟩ with
        | .error failed =>
          (.error failed.error,
            (Checkpoint.take t).restore failed.sink.table failed.sink.begun.reverse,
            (Storage.close failed.store failed.stream).toOption.getD failed.store)
        | .ok done =>
          match done.sink.reattachTail with
          | .error sink =>
            (.error .outOfSegments, (Checkpoint.take t).restore sink.table sink.begun.reverse,
              (Storage.close done.store done.stream).toOption.getD done.store)
          | .ok sink =>
            (.ok ⟨done.bytesRead, sink.stored, sink.segments⟩,
              Load.settle sink (Load.stale t mode) (Load.later t mode),
              (Storage.close done.store done.stream).toOption.getD done.store) := by
  cases mode <;> rfl

/-- Putting the tail back into a confined sink leaves it confined. -/
theorem Sink.Confined.reattachTail {s : Sink} (h : Confined t s) :
    s.reattachTail.Spec (Confined t) (Confined t) := by
  unfold Sink.reattachTail
  cases s.tail with
  | none => exact h
  | some tail =>
      have hfresh : Confined t { s with
          tail := none
          overflowDue := false
          resume := some (s.table.active, s.table.current.buffer.caret) } := h.congr rfl rfl rfl
      have hall := @Respected.placeAll _ _ (respected_confined t) [] _ hfresh tail
      exact hall.mono (fun _ h => h.1) (fun _ => id)

/-- **A load that fails restores the documents.** -/
theorem load_error (h : t.WellFormed) {store : σ} {name : String} {mode : LoadMode}
    {settings : TransferSettings} {e : EditorError}
    (hload : (t.load store name mode settings).1 = .error e) :
    Restored t (t.load store name mode settings).2.1 := by
  obtain ⟨-, hcap, hcount, hactive, hothers⟩ := Load.ready_frame h mode name
  have hundo : ∀ s : Sink, Sink.Confined (Load.ready t mode name) s →
      Restored t ((Checkpoint.take t).restore s.table s.begun.reverse) := fun s hs =>
    restored_restore h hcap hcount hactive hothers hs
  rw [load_eq] at hload ⊢
  cases hopen : Storage.openStream store name .read with
  | error fault => exact Restored.refl h
  | ok opened =>
      simp only [hopen] at hload ⊢
      have hread := @Sink.Respected.readAll σ _ _ _
        (Sink.respected_confined (Load.ready t mode name)) name (max settings.readChunk 1)
        ⟨Load.firstSink t name mode settings, 0, opened.1, opened.2⟩ []
        (Load.confined_firstSink h name mode settings)
      cases hrun : Load.readAll name (max settings.readChunk 1)
          ⟨Load.firstSink t name mode settings, 0, opened.1, opened.2⟩ with
      | error failed =>
          rw [hrun] at hread
          refine hundo failed.sink ?_
          rcases hread with hs | ⟨_, hs⟩
          · exact hs
          · exact hs
      | ok done =>
          rw [hrun] at hread
          obtain ⟨-, -, -, hdone, -⟩ := hread
          simp only [hrun] at hload ⊢
          have htail := hdone.reattachTail
          cases hrest : done.sink.reattachTail with
          | error sink =>
              rw [hrest] at htail
              exact hundo sink htail
          | ok sink =>
              simp only [hrest] at hload
              cases hload

/-- What a load that succeeds went through. -/
structure Loaded (t : SegmentTable) (store : σ) (name : String) (mode : LoadMode)
    (settings : TransferSettings) (report : LoadReport) (t' : SegmentTable) : Prop where
  run : ∃ stream store' done sink,
    Storage.openStream store name .read = .ok (stream, store') ∧
    Load.readAll name (max settings.readChunk 1)
      ⟨Load.firstSink t name mode settings, 0, stream, store'⟩ = .ok done ∧
    done.sink.reattachTail = .ok sink ∧
    report = ⟨done.bytesRead, sink.stored, sink.segments⟩ ∧
    t' = Load.settle sink (Load.stale t mode) (Load.later t mode)

/-- What a load that succeeds has gone through. -/
theorem of_load_ok {store : σ} {name : String} {mode : LoadMode} {settings : TransferSettings}
    {report : LoadReport} (hload : (t.load store name mode settings).1 = .ok report) :
    Loaded t store name mode settings report (t.load store name mode settings).2.1 := by
  rw [load_eq] at hload ⊢
  cases hopen : Storage.openStream store name .read with
  | error fault =>
      simp only [hopen] at hload
      cases hload
  | ok opened =>
      obtain ⟨stream, store'⟩ := opened
      simp only [hopen] at hload ⊢
      cases hrun : Load.readAll name (max settings.readChunk 1)
          ⟨Load.firstSink t name mode settings, 0, stream, store'⟩ with
      | error failed =>
          simp only [hrun] at hload
          cases hload
      | ok done =>
          simp only [hrun] at hload ⊢
          cases hrest : done.sink.reattachTail with
          | error sink =>
              simp only [hrest] at hload
              cases hload
          | ok sink =>
              simp only [hrest, Except.ok.injEq] at hload ⊢
              exact ⟨stream, store', done, sink, hopen, hrun, hrest, hload.symm, rfl⟩

/-! ## Tables that a load leaves -/

/-- Raising part numbers leaves segments that can be put away. -/
theorem SegmentTable.WellFormed.raiseParts (h : t.WellFormed) (ids : List Nat) (added : Nat) :
    (Load.raiseParts t ids added).WellFormed :=
  (SegmentTable.sameTexts_modifyHeaders h
    (f := fun header => { header with part := Load.raisePart header.part added })
    (fun _ hfits => hfits) ids).wellFormed

/-- So does the end of a load. -/
theorem Load.wellFormed_settle {s : Sink} (h : s.table.WellFormed) (stale later : List Nat) :
    (Load.settle s stale later).WellFormed := by
  have hfinish : s.finishPart.table.WellFormed := by
    rw [Sink.finishPart_eq]
    exact h.modifyCurrent (Sink.storable_finished s.mode h.current)
  have hstale := hfinish.releaseAll stale
  have hraised : (if s.finishPart.begun = [] then s.finishPart.table.releaseAll stale
      else Load.raiseParts (s.finishPart.table.releaseAll stale) later
        s.finishPart.begun.length).WellFormed := by
    split
    · exact hstale
    · exact hstale.raiseParts later _
  rw [Load.settle]
  split
  · exact hraised.switch _
  · next id caret hresume =>
    have hseek := (hraised.switch id).modifyBuffer (f := (·.seek caret))
      (GapBuffer.capacity_seek _ caret)
    exact hseek.switch _

/-- When no further segment was begun, a load ends where it closes the part. -/
theorem Load.settle_of_one {s : Sink} (hbegun : s.begun = []) (hresume : s.resume = none)
    (horigin : s.origin = s.table.active) (later : List Nat) :
    Load.settle s [] later = s.finishPart.table := by
  rw [Sink.finishPart_eq, Load.settle, Sink.finishPart_eq]
  simp only [hbegun, hresume, if_true, horigin]
  exact SegmentTable.switch_active (s.table.modifyCurrent (Sink.finished s.mode))

/-- **A load leaves a well-formed table**, whether it succeeds or not. -/
theorem wellFormed_load {σ : Type} [Storage σ] {t : SegmentTable} (h : t.WellFormed) (store : σ)
    (name : String) (mode : LoadMode) (settings : TransferSettings) :
    (t.load store name mode settings).2.1.WellFormed := by
  cases hload : (t.load store name mode settings).1 with
  | error e => exact (load_error h hload).wellFormed
  | ok report =>
      obtain ⟨stream, store', done, sink, -, hrun, hrest, -, heq⟩ := (of_load_ok hload).run
      have hread := @Sink.Respected.readAll σ _ _ _
        (Sink.respected_confined (Load.ready t mode name)) name (max settings.readChunk 1)
        ⟨Load.firstSink t name mode settings, 0, stream, store'⟩ []
        (Load.confined_firstSink h name mode settings)
      rw [hrun] at hread
      obtain ⟨-, -, -, hdone, -⟩ := hread
      have htail := hdone.reattachTail
      rw [hrest] at htail
      have hconf : Sink.Confined (Load.ready t mode name) sink := htail
      rw [heq]
      exact Load.wellFormed_settle hconf.wellFormed _ _

/-! ## Files that are read -/

/-- The sink that a load began with has taken a whole file: after `pre`, and before `rest`, it has
stored what the file owes. -/
structure Load.Taken (t : SegmentTable) (name : String) (mode : LoadMode)
    (settings : TransferSettings) (rest pre file : List UInt8) (taken : Sink) : Prop where
  filling : Sink.Filling (Load.ready t mode name) rest
    (pre ++ (Load.firstSink t name mode settings).owed file) taken
  mode_eq : taken.mode = mode
  resume : taken.resume = none
  stored : taken.stored = ((Load.firstSink t name mode settings).owed file).length

/-- A load that succeeds took the whole file, and a family that its sink tracks has followed. -/
theorem tracked_of_load_ok {σ : Type} [HonestStorage σ] {t : SegmentTable} {store : σ}
    {name : String} {mode : LoadMode} {settings : TransferSettings} {report : LoadReport}
    {F : List UInt8 → Sink → Prop} {ended : List UInt8 → Prop} {stuck : Sink → Prop}
    (hF : Sink.Tracked F ended stuck) {pre file : List UInt8}
    (hbegin : F pre (Load.firstSink t name mode settings))
    (hended : ∀ front, Load.ReadsTo store name settings front →
      ended (pre ++ (Load.firstSink t name mode settings).owed front))
    (hfile : HonestStorage.file? store name = some file)
    (hload : (t.load store name mode settings).1 = .ok report) :
    let first := Load.firstSink t name mode settings
    ∃ taken sink, F (pre ++ first.owed file) taken ∧ first.Took file (first.owed file) taken ∧
      taken.reattachTail = .ok sink ∧ report = ⟨file.length, sink.stored, sink.segments⟩ ∧
      (t.load store name mode settings).2.1
        = Load.settle sink (Load.stale t mode) (Load.later t mode) := by
  obtain ⟨stream, store', done, sink, hopen, hread, htail, rfl, hsettled⟩ := (of_load_ok hload).run
  have hdone := hF.readAll name (max settings.readChunk 1)
    ⟨Load.firstSink t name mode settings, 0, stream, store'⟩ hbegin
    fun front hfront => hended front ⟨stream, store', hopen, hfront⟩
  rw [hread] at hdone
  obtain ⟨file', output, hstream, hfollowed, htook, hcount⟩ := hdone
  have hfile' : file' = file := by
    rw [hstream.eq_pending (by omega), HonestStorage.pending_open hopen hfile]
  subst hfile'
  have houtput := htook.output_eq
  subst houtput
  exact ⟨done.sink, sink, hfollowed, htook, htail, by rw [hcount, Nat.zero_add], hsettled⟩

/-- **A load that succeeds took the whole file**, wherever the reads cut it. -/
theorem taken_of_load_ok {σ : Type} [HonestStorage σ] {t : SegmentTable} {store : σ} {name : String}
    {mode : LoadMode} {settings : TransferSettings} {report : LoadReport}
    {rest pre file : List UInt8}
    (hbegin : Sink.Filling (Load.ready t mode name) rest pre (Load.firstSink t name mode settings))
    (hfile : HonestStorage.file? store name = some file)
    (hload : (t.load store name mode settings).1 = .ok report) :
    ∃ taken sink, Load.Taken t name mode settings rest pre file taken ∧
      taken.reattachTail = .ok sink ∧ report = ⟨file.length, sink.stored, sink.segments⟩ ∧
      (t.load store name mode settings).2.1
        = Load.settle sink (Load.stale t mode) (Load.later t mode) := by
  obtain ⟨taken, sink, hfilling, htook, htail, hreport, hsettled⟩ := tracked_of_load_ok
    (Sink.respected_filling (Load.ready t mode name) rest).tracked hbegin (fun _ _ => trivial)
    hfile hload
  have hstored := htook.stored.trans (Nat.zero_add _)
  exact ⟨taken, sink, ⟨hfilling, htook.mode, htook.resume, hstored⟩, htail, hreport, hsettled⟩

end ScreenEditor
