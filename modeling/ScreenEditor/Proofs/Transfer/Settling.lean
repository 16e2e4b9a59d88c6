import ScreenEditor.Proofs.Transfer.Loading

/-!
# What a load settles

At its end a load closes the last part, gives up the stale parts, raises the numbers of the later
ones, and puts the caret where the inserted text ends.  `Settled` says what this makes of the
documents of a confined sink.

Whatever the file and the storage, a load that succeeds settles a sink that has what lasts
(`landed_of_load_ok`).

## Main results

* `Load.settled_settle`: the end of a load.
* `landed_of_load_ok`: a load that succeeds.
-/

namespace ScreenEditor

namespace Load

variable {t : SegmentTable}

/-! ## Stale parts and later parts -/

/-- The stale parts of a load are the other parts of the chain that the document was in. -/
theorem mem_stale_iff (h : t.WellFormed) (id : Nat) :
    id ∈ stale t .replace ↔ t.current.header.part ≠ 0 ∧ id ≠ t.active
      ∧ t.IsPart t.current.header.name id := by
  obtain ⟨-, hmem, -, -, hactive⟩ := SegmentTable.parts_spec h t.current.header.name
  unfold stale otherParts
  by_cases hp : t.current.header.part = 0
  · simp [hp]
  · simp only [if_neg hp, List.mem_filter, bne_iff_ne, hactive, hmem]
    exact ⟨fun hid => ⟨hp, hid.2, hid.1⟩, fun hid => ⟨hid.2.2, hid.2.1⟩⟩

/-- Stale parts are segments of the table. -/
theorem has_of_mem_stale (h : t.WellFormed) {mode : LoadMode} {id : Nat}
    (hid : id ∈ stale t mode) : t.has id = true := by
  cases mode with
  | replace => exact ((mem_stale_iff h id).mp hid).2.2.1
  | insert => exact absurd hid List.not_mem_nil

/-- No part after the active one is listed twice. -/
theorem nodup_later (h : t.WellFormed) (mode : LoadMode) : (later t mode).Nodup := by
  cases mode with
  | replace => exact List.Pairwise.nil
  | insert =>
      obtain ⟨hnodup, -⟩ := SegmentTable.parts_spec h t.current.header.name
      rw [later, laterParts]
      split
      · exact List.Pairwise.nil
      · exact hnodup.sublist ((List.drop_sublist _ _).trans (List.dropWhile_sublist _))

/-- The later parts of a load are parts of the chain that the document is in. -/
theorem isPart_of_mem_later (h : t.WellFormed) {mode : LoadMode} {id : Nat}
    (hid : id ∈ later t mode) :
    t.current.header.part ≠ 0 ∧ t.IsPart t.current.header.name id := by
  cases mode with
  | replace => exact absurd hid List.not_mem_nil
  | insert =>
      obtain ⟨-, hmem, -⟩ := SegmentTable.parts_spec h t.current.header.name
      rw [later, laterParts] at hid
      split at hid
      · exact absurd hid List.not_mem_nil
      · next hpart =>
        exact ⟨hpart, (hmem id).mp (List.dropWhile_subset _ (List.drop_subset _ _ hid))⟩

/-! ## Raising part numbers -/

/-- A document with its part number raised. -/
def raised (added : Nat) (d : Document) : Document :=
  ⟨{ d.header with part := raisePart d.header.part added }, d.buffer⟩

theorem raised_zero (d : Document) : raised 0 d = d := by
  have hpart : raisePart d.header.part 0 = d.header.part := by
    have hlt := d.header.part.toNat_lt
    rw [raisePart, Nat.zero_mod, Nat.add_zero, Nat.min_eq_right (by omega), UInt8.ofNat_toNat]
  rw [raised, hpart]

/-- A part number that stays in its byte is raised by just what was added. -/
theorem toNat_raisePart {p : UInt8} {added : Nat} (h : p.toNat + added ≤ 255) :
    (raisePart p added).toNat = p.toNat + added := by
  rw [raisePart, Nat.mod_eq_of_lt (by omega), Nat.min_eq_right h,
    Utf8.toNat_ofNat (by omega)]

/-- Raising the numbers of some parts changes nothing else. -/
theorem raiseParts_spec (h : t.WellFormed) {ids : List Nat} (hn : ids.Nodup)
    (hids : ∀ id ∈ ids, t.has id = true) (added : Nat) :
    (raiseParts t ids added).WellFormed ∧ (raiseParts t ids added).capacity = t.capacity ∧
      (raiseParts t ids added).count = t.count ∧
      ∀ id, t.has id = true → (raiseParts t ids added).document id
        = if id ∈ ids then raised added (t.document id) else t.document id := by
  have hfits : ∀ header : Header, header.NameFits →
      Header.NameFits { header with part := raisePart header.part added } := fun _ hfits => hfits
  have hsame := SegmentTable.sameTexts_modifyHeaders h hfits ids
  exact ⟨hsame.wellFormed, hsame.capacity, hsame.count,
    fun _ hid => SegmentTable.document_modifyHeaders h hfits hn hids hid⟩

/-! ## The end of a load -/

/-- A document with its caret where the inserted text ends, if that is in its segment. -/
def resumed (resume : Option (Nat × Nat)) (id : Nat) (d : Document) : Document :=
  match resume with
  | some (j, caret) => if id = j then ⟨d.header, d.buffer.seek caret⟩ else d
  | none => d

@[simp] theorem header_resumed (resume : Option (Nat × Nat)) (id : Nat) (d : Document) :
    (resumed resume id d).header = d.header := by
  unfold resumed
  split
  · split <;> rfl
  · rfl

@[simp] theorem content_resumed (resume : Option (Nat × Nat)) (id : Nat) (d : Document) :
    (resumed resume id d).buffer.content = d.buffer.content := by
  unfold resumed
  split
  · split
    · exact GapBuffer.content_seek _ _
    · rfl
  · rfl

/-- The caret is moved in one segment only. -/
theorem resumed_eq_self {resume : Option (Nat × Nat)} {id : Nat}
    (h : ∀ j caret, resume = some (j, caret) → j ≠ id) (d : Document) :
    resumed resume id d = d := by
  unfold resumed
  split
  · next j caret => exact if_neg fun he => h j caret rfl he.symm
  · rfl

/-- A document at the end of a load: given up if it is stale, and else with its number raised if it
is a later part. -/
def settledDocument (s : Sink) (stale later : List Nat) (id : Nat) : Document :=
  let d := s.finishPart.table.document id
  let d := if id ∈ stale then d.released else d
  resumed s.resume id (if id ∈ later then raised s.begun.length d else d)

/-- The table `t'` is what the sink `s`, which began with the table `p`, leaves in the end. -/
structure Settled (p : SegmentTable) (s : Sink) (stale later : List Nat) (t' : SegmentTable) :
    Prop where
  wellFormed : t'.WellFormed
  count : t'.count = p.count
  active : t'.active = p.active
  document : ∀ id, p.has id = true → t'.document id = settledDocument s stale later id

/-- The numbers of the later parts are raised by as many parts as were begun, which may be none. -/
theorem raiseParts_begun (h : t.WellFormed) (begun : List Nat) {later : List Nat} (hn : later.Nodup)
    (hlater : ∀ id ∈ later, t.has id = true) :
    ∃ t', (if begun = [] then t else raiseParts t later begun.length) = t' ∧ t'.WellFormed ∧
      t'.count = t.count ∧ ∀ id, t.has id = true → t'.document id
        = if id ∈ later then raised begun.length (t.document id) else t.document id := by
  refine ⟨_, rfl, ?_⟩
  split
  · next hbegun =>
    refine ⟨h, rfl, ?_⟩
    intro id _
    rw [hbegun, List.length_nil, raised_zero, ite_self]
  · obtain ⟨hwf, -, hcount, hdoc⟩ := raiseParts_spec h hn hlater begun.length
    exact ⟨hwf, hcount, hdoc⟩

/-- The table with the caret where the inserted text ends. -/
def resumeAt (t : SegmentTable) : Option (Nat × Nat) → SegmentTable
  | some (j, caret) => (t.switch j).modifyBuffer (·.seek caret)
  | none => t

/-- The caret is moved in its segment, and nothing else is changed. -/
theorem resumeAt_spec (h : t.WellFormed) {resume : Option (Nat × Nat)}
    (hresume : ∀ j caret, resume = some (j, caret) → t.has j = true) :
    (resumeAt t resume).WellFormed ∧ (resumeAt t resume).count = t.count ∧
      ∀ id, t.has id = true →
        (resumeAt t resume).document id = resumed resume id (t.document id) := by
  cases resume with
  | none => exact ⟨h, rfl, fun _ _ => rfl⟩
  | some place =>
      obtain ⟨j, caret⟩ := place
      have hj : t.has j = true := hresume j caret rfl
      have hmoved := h.agrees_switch j
      refine ⟨hmoved.wellFormed.modifyBuffer (GapBuffer.capacity_seek _ caret), hmoved.count, ?_⟩
      intro id hid
      have hid' : (t.switch j).has id = true := by rwa [SegmentTable.has_switch]
      rw [resumeAt, SegmentTable.modifyBuffer, SegmentTable.document_modifyCurrent _ hid',
        SegmentTable.active_switch hj, hmoved.document id hid, SegmentTable.current_switch, resumed]
      split
      · next he =>
        subst he
        rfl
      · rfl

/-- **The end of a load.** -/
theorem settled_settle {p : SegmentTable} {s : Sink} {stale later : List Nat}
    (hs : Sink.Confined p s.finishPart) (hstale : ∀ id ∈ stale, p.has id = true)
    (hn : later.Nodup) (hlater : ∀ id ∈ later, p.has id = true)
    (hresume : ∀ j caret, s.resume = some (j, caret) → p.has j = true) :
    Settled p s stale later (settle s stale later) := by
  have hgiven := SegmentTable.releaseAll_spec hs.wellFormed fun id hid =>
    (hs.has id).trans (hstale id hid)
  have hgivenHas : ∀ id, (s.finishPart.table.releaseAll stale).has id = p.has id := fun id =>
    (SegmentTable.has_congr hgiven.count id).trans (hs.has id)
  obtain ⟨t, ht, hwf, hcount, hdoc⟩ := raiseParts_begun hgiven.wellFormed s.begun hn
    (fun id hid => (hgivenHas id).trans (hlater id hid))
  have hcount' : t.count = p.count := hcount.trans (hgiven.count.trans hs.count)
  have hhas : ∀ id, t.has id = p.has id := SegmentTable.has_congr hcount'
  obtain ⟨hwf', hcount'', hresumed⟩ := resumeAt_spec hwf
    (fun j caret hr => (hhas j).trans (hresume j caret hr))
  have hhas' : ∀ id, (resumeAt t s.resume).has id = p.has id :=
    SegmentTable.has_congr (hcount''.trans hcount')
  have hswitch := hwf'.agrees_switch p.active
  have hsettle : settle s stale later = (resumeAt t s.resume).switch p.active := by
    simp only [settle, Sink.begun_finishPart s, ht, (Sink.sameReader_finishPart s).resume,
      hs.origin]
    cases s.resume <;> rfl
  rw [hsettle]
  refine ⟨hswitch.wellFormed, hswitch.count.trans (hcount''.trans hcount'),
    SegmentTable.active_switch ((hhas' p.active).trans SegmentTable.has_active), ?_⟩
  intro id hid
  rw [hswitch.document id (by rwa [hhas']), hresumed id (by rwa [hhas]), settledDocument,
    hdoc id (by rwa [hgivenHas]), hgiven.document id (by rwa [hs.has])]

end Load

/-! ## Loads that succeed -/

/-- What a load that succeeds leaves of the sink that it filled. -/
structure Load.Landed (t : SegmentTable) (name : String) (mode : LoadMode) (segments : List Nat)
    (t' : SegmentTable) (s : Sink) : Prop where
  confined : Sink.Confined (ready t mode name) s.finishPart
  mode_eq : s.mode = mode
  segments_eq : segments = s.finishPart.segments
  resume_mem : ∀ j caret, s.resume = some (j, caret) → j ∈ s.finishPart.segments
  resume_none : mode = .replace → s.resume = none
  settled : Settled (ready t mode name) s (stale t mode) (later t mode) t'

variable {t : SegmentTable}

/-- Putting the tail back keeps what lasts, and remembers a segment that was filled. -/
theorem Sink.Lasting.reattachTail {P : Sink → Prop} (hP : Lasting t P) {s s' : Sink} (h : P s)
    (hresume : s.resume = none) (hok : s.reattachTail = .ok s') :
    P s' ∧ s'.mode = s.mode ∧ (s.tail = none → s' = s) ∧
      ∀ j caret, s'.resume = some (j, caret) → j ∈ s'.segments := by
  rw [Sink.reattachTail] at hok
  cases htail : s.tail with
  | none =>
      rw [htail] at hok
      obtain rfl := Except.ok.inj hok
      refine ⟨h, rfl, fun _ => rfl, ?_⟩
      intro j caret hj
      rw [hresume] at hj
      cases hj
  | some tail =>
      rw [htail] at hok
      generalize hfresh : ({ s with
        tail := none
        overflowDue := false
        resume := some (s.table.active, s.table.current.buffer.caret) } : Sink) = s₁ at hok
      have h₁ : (P s₁ ∧ s.table.active ∈ s₁.segments) ∧ (s₁.mode = .replace → s₁.tail = none) := by
        rw [← hfresh]
        exact ⟨⟨hP.congr h rfl rfl rfl rfl, (hP.confined h).active_mem⟩, fun _ => rfl⟩
      have hall := @Respected.placeAll _ _ (hP.and_mem s.table.active).respected [] s₁ h₁ tail
      rw [show tail.foldlM Sink.place s₁ = .ok s' from hok] at hall
      obtain ⟨⟨⟨hlast, hmem⟩, -⟩, hsame⟩ := hall
      refine ⟨hlast, ?_, (fun hnone => by cases hnone), ?_⟩
      · rw [hsame.mode, ← hfresh]
      · intro j caret hj
        rw [hsame.resume, ← hfresh] at hj
        obtain ⟨rfl, -⟩ := Prod.mk.inj (Option.some.inj hj)
        exact hmem

/-- **A load that succeeds settles a sink that has what lasts.** -/
theorem landed_of_load_ok {σ : Type} [Storage σ] (h : t.WellFormed) {store : σ} {name : String}
    {mode : LoadMode} {settings : TransferSettings} {P : Sink → Prop}
    (hP : Sink.Lasting (Load.ready t mode name) P)
    (hbegin : P (Load.firstSink t name mode settings))
    {report : LoadReport} (hload : (t.load store name mode settings).1 = .ok report) :
    ∃ s, P s ∧ Load.Landed t name mode report.segments (t.load store name mode settings).2.1 s := by
  obtain ⟨stream, store', done, sink, -, hread, htail, rfl, hsettled⟩ := (of_load_ok hload).run
  have hdone := @Sink.Respected.readAll σ _ _ _ hP.respected name (max settings.readChunk 1)
    ⟨Load.firstSink t name mode settings, 0, stream, store'⟩ [] ⟨hbegin, fun _ => rfl⟩
  rw [hread] at hdone
  obtain ⟨file, output, -, ⟨hlast, hnone⟩, htook, -⟩ := hdone
  obtain ⟨hs, hmode, hsame, hresume⟩ := hP.reattachTail hlast htook.resume htail
  have hmode' : sink.mode = mode := hmode.trans htook.mode
  have hconf := (hP.confined hs).finishPart
  have hseg := Sink.segments_finishPart sink
  rw [← hseg] at hresume
  obtain ⟨-, -, hcount, -, -⟩ := Load.ready_frame h mode name
  have hhas : ∀ id, (Load.ready t mode name).has id = t.has id := SegmentTable.has_congr hcount
  refine ⟨sink, hs, hconf, hmode', hseg.symm, hresume, ?_, ?_⟩
  · rintro rfl
    rw [hsame (hnone htook.mode)]
    exact htook.resume
  · rw [hsettled]
    exact Load.settled_settle hconf (fun id hid => (hhas id).trans (Load.has_of_mem_stale h hid))
      (Load.nodup_later h mode)
      (fun id hid => (hhas id).trans (Load.isPart_of_mem_later h hid).2.1)
      (fun j caret hj => (hconf.has j).symm.trans (hconf.has_of_mem (hresume j caret hj)))

/-! ## The documents after a load -/

namespace Load

/-- The name that the parts bear once a file was loaded. -/
def title (t : SegmentTable) (name : String) : LoadMode → String
  | .replace => Header.clipName name
  | .insert => t.current.header.name

/-- The documents after a load that took the segments `ids`. -/
structure Spread (t : SegmentTable) (name : String) (mode : LoadMode) (ids : List Nat)
    (t' : SegmentTable) : Prop where
  wellFormed : t'.WellFormed
  count : t'.count = t.count
  active : t'.active = t.active
  active_mem : t.active ∈ ids
  fresh : ∀ id ∈ ids, t.has id = true ∧ (id = t.active ∨ (t.document id).isUnused = true)
  name : ∀ id ∈ ids, id ∉ stale t mode → (t'.document id).header.name = title t name mode
  given : ∀ id ∈ ids, id ∈ stale t mode → (t'.document id).header = Header.blank
  inChain : ∀ id ∈ ids, (t'.document id).header.part ≠ 0 → t'.current.header.part ≠ 0
  modified : mode = .insert → ∀ id ∈ ids, (t'.document id).header.modified = true
  others : ∀ id, t.has id = true → id ∉ ids → t'.document id =
    if id ∈ stale t mode then (t.document id).released
    else if id ∈ later t mode then raised (ids.length - 1) (t.document id)
    else t.document id

variable {name : String} {mode : LoadMode} {ids : List Nat} {t' : SegmentTable} {s : Sink}

theorem title_ready (h : t.WellFormed) (name : String) (mode : LoadMode) :
    (ready t mode name).current.header.name = title t name mode := by
  cases mode with
  | replace => rfl
  | insert => exact congrArg (·.header.name) (current_listed h .insert)

/-- A sink that a load began with began where the load did. -/
theorem origin_eq (h : t.WellFormed) (hs : Sink.Confined (ready t mode name) s) :
    s.origin = t.active := by
  obtain ⟨-, -, -, hactive, -⟩ := ready_frame h mode name
  exact hs.origin.trans hactive

theorem active_mem_segments (h : t.WellFormed) (hs : Sink.Confined (ready t mode name) s) :
    t.active ∈ s.segments := by
  rw [Sink.segments, origin_eq h hs]
  exact List.mem_cons_self

/-- The segments that were filled are the one at hand and others that were unused. -/
theorem fresh_of_mem (h : t.WellFormed) (hs : Sink.Confined (ready t mode name) s) {id : Nat}
    (hid : id ∈ s.segments) :
    t.has id = true ∧ (id = t.active ∨ (t.document id).isUnused = true) := by
  obtain ⟨-, -, hcount, hactive, hothers⟩ := ready_frame h mode name
  have hhas : t.has id = true :=
    (SegmentTable.has_congr hcount id).symm.trans ((hs.has id).symm.trans (hs.has_of_mem hid))
  refine ⟨hhas, ?_⟩
  by_cases hne : id = t.active
  · exact .inl hne
  · rw [Sink.segments, List.mem_cons, origin_eq h hs, List.mem_reverse] at hid
    have hfresh := (hs.fresh id (hid.resolve_left hne)).2
    rwa [hactive, hothers id hhas hne] at hfresh

/-- Segments that were not filled have the documents that they had before the load. -/
theorem document_of_notMem (h : t.WellFormed) (hs : Sink.Confined (ready t mode name) s) {id : Nat}
    (hid : t.has id = true) (hnot : id ∉ s.segments) : s.table.document id = t.document id := by
  obtain ⟨-, -, hcount, hactive, hothers⟩ := ready_frame h mode name
  have hne : id ≠ t.active := fun heq => hnot (heq ▸ active_mem_segments h hs)
  have hbegun : id ∉ s.begun := fun hmem =>
    hnot (List.mem_cons_of_mem _ (List.mem_reverse.mpr hmem))
  rw [hs.others id (by rwa [SegmentTable.has_congr hcount]) (by rwa [hactive]) hbegun,
    hothers id hid hne]

/-- A raised part is still a part: saturation stops at 255 and never comes round to zero. -/
theorem raised_part_ne_zero {added : Nat} {p : UInt8} (h : p ≠ 0) : raisePart p added ≠ 0 := by
  have hpos : p.toNat ≠ 0 := fun hzero => h (UInt8.toNat_inj.mp hzero)
  have hbound : min 255 (p.toNat + added % 256) < 256 := by omega
  intro hzero
  have hnum := congrArg UInt8.toNat hzero
  rw [raisePart, Utf8.toNat_ofNat hbound] at hnum
  have hnone : min 255 (p.toNat + added % 256) = 0 := hnum
  omega

/-- The active segment is never one of the stale parts. -/
theorem notMem_stale_active (h : t.WellFormed) (mode : LoadMode) : t.active ∉ stale t mode := by
  cases mode with
  | replace => exact fun hmem => ((mem_stale_iff h _).mp hmem).2.1 rfl
  | insert => exact List.not_mem_nil

/-- No stale part is a later one: a load has the ones or the others. -/
theorem notMem_later_of_mem_stale {id : Nat} (hid : id ∈ stale t mode) : id ∉ later t mode := by
  cases mode with
  | replace => exact List.not_mem_nil
  | insert => exact absurd hid List.not_mem_nil

/-- The header of a document at the end of a load. -/
theorem header_settledDocument {stale later : List Nat} {id : Nat} :
    (settledDocument s stale later id).header =
      let header := if id ∈ stale then Header.blank else (s.finishPart.table.document id).header
      if id ∈ later then { header with part := raisePart header.part s.begun.length }
      else header := by
  rw [settledDocument, header_resumed]
  by_cases hstale : id ∈ stale <;> by_cases hlater : id ∈ later <;>
    simp only [hstale, hlater, if_true, if_false, raised, Document.released]

/-- Closing the last part changes nothing of a header but the mark of a change. -/
theorem header_finishPart {p : SegmentTable} (hs : Sink.Confined p s) {id : Nat}
    (hid : p.has id = true) : (s.finishPart.table.document id).header =
      { (s.table.document id).header with
        modified := (s.finishPart.table.document id).header.modified } := by
  rw [Sink.finishPart_eq, SegmentTable.document_modifyCurrent _ ((hs.has id).trans hid)]
  split
  · next hactive => rw [hactive, SegmentTable.document_active, Sink.header_finished]
  · rfl

namespace Landed

/-- The segments that a load took are those of its sink. -/
theorem ids_eq (hland : Landed t name mode ids t' s) : ids = s.segments :=
  hland.segments_eq.trans (Sink.segments_finishPart s)

/-- Every segment of the load but the first was begun by it. -/
theorem length_begun (hland : Landed t name mode ids t' s) : ids.length - 1 = s.begun.length := by
  rw [hland.ids_eq, Sink.segments, List.length_cons, List.length_reverse, Nat.add_sub_cancel]

/-- The segments of the load were there before it. -/
theorem has_ready (hland : Landed t name mode ids t' s) {id : Nat} (hid : id ∈ ids) :
    (ready t mode name).has id = true := by
  rw [hland.segments_eq] at hid
  exact (hland.confined.has id).symm.trans (hland.confined.has_of_mem hid)

/-- A document that was taken has the header that it was closed with, unless its segment is given
up; if it is a later part, its number is raised. -/
theorem header (hland : Landed t name mode ids t' s) {id : Nat} (hid : id ∈ ids) :
    (t'.document id).header =
      let header :=
        if id ∈ stale t mode then Header.blank else (s.finishPart.table.document id).header
      if id ∈ later t mode then { header with part := raisePart header.part s.begun.length }
      else header :=
  (congrArg Document.header (hland.settled.document id (hland.has_ready hid))).trans
    header_settledDocument

/-- The closed parts bear the name of the document. -/
theorem name_closed (h : t.WellFormed) (hland : Landed t name mode ids t' s)
    (hnamed : Sink.Named (ready t mode name) s) {id : Nat} (hid : id ∈ ids) :
    (s.finishPart.table.document id).header.name = title t name mode := by
  rw [header_finishPart hnamed.confined (hland.has_ready hid), ← title_ready h name mode]
  exact hnamed.name id (hland.ids_eq ▸ hid)

/-- If a document that was taken is a part of a chain, the one at hand is. -/
theorem inChain (h : t.WellFormed) (hland : Landed t name mode ids t' s)
    (hnamed : Sink.Named (ready t mode name) s) {id : Nat} (hid : id ∈ ids)
    (hpart : (t'.document id).header.part ≠ 0) : (t'.document t.active).header.part ≠ 0 := by
  have hmem := active_mem_segments h hnamed.confined
  have hactive : t.active ∈ ids := hland.ids_eq ▸ hmem
  by_cases hbegun : s.begun = []
  · rw [hland.ids_eq, Sink.segments, hbegun, origin_eq h hnamed.confined] at hid
    rwa [List.mem_singleton.mp hid] at hpart
  · have hne : (s.finishPart.table.document t.active).header.part ≠ 0 := by
      rw [header_finishPart hnamed.confined (hland.has_ready hactive)]
      exact hnamed.inChain hbegun t.active hmem
    rw [hland.header hactive]
    simp only [if_neg (notMem_stale_active h mode)]
    split
    · exact raised_part_ne_zero hne
    · exact hne

/-- A segment that was not taken keeps its document, unless it is a stale part or a later one. -/
theorem others (h : t.WellFormed) (hland : Landed t name mode ids t' s) {id : Nat}
    (hid : t.has id = true) (hnot : id ∉ ids) : t'.document id =
      if id ∈ stale t mode then (t.document id).released
      else if id ∈ later t mode then raised (ids.length - 1) (t.document id)
      else t.document id := by
  obtain ⟨-, -, hcount, -, -⟩ := ready_frame h mode name
  have hsame := document_of_notMem h hland.confined hid (hland.segments_eq ▸ hnot)
  have hstay := resumed_eq_self fun j caret hj => by
    rintro rfl
    exact hnot (hland.segments_eq ▸ hland.resume_mem id caret hj)
  rw [hland.settled.document id ((SegmentTable.has_congr hcount id).trans hid), settledDocument,
    hstay, hsame, hland.length_begun]
  by_cases hstale : id ∈ stale t mode
  · simp only [if_pos hstale, if_neg (notMem_later_of_mem_stale hstale)]
  · simp only [if_neg hstale]

/-- **A load that succeeds** changes the documents of the segments that it took, gives up stale
parts, raises the numbers of later ones, and leaves all others alone. -/
theorem spread (h : t.WellFormed) (hland : Landed t name mode ids t' s)
    (hnamed : Sink.Named (ready t mode name) s)
    (hmodified : mode = .insert →
      ∀ id ∈ ids, (s.finishPart.table.document id).header.modified = true) :
    Spread t name mode ids t' := by
  obtain ⟨-, -, hcount, hready, -⟩ := ready_frame h mode name
  have hactive : t'.active = t.active := hland.settled.active.trans hready
  refine ⟨hland.settled.wellFormed, hland.settled.count.trans hcount, hactive,
    hland.ids_eq ▸ active_mem_segments h hnamed.confined,
    fun id hid => fresh_of_mem h hnamed.confined (hland.ids_eq ▸ hid), ?_, ?_, ?_, ?_,
    fun id hid hnot => hland.others h hid hnot⟩
  · intro id hid hstale
    rw [hland.header hid]
    simp only [if_neg hstale]
    split
    · exact hland.name_closed h hnamed hid
    · exact hland.name_closed h hnamed hid
  · intro id hid hstale
    rw [hland.header hid]
    simp only [if_pos hstale, if_neg (notMem_later_of_mem_stale hstale)]
  · intro id hid hpart
    have hchain := hland.inChain h hnamed hid hpart
    rwa [← hactive, SegmentTable.document_active] at hchain
  · rintro rfl id hid
    have hnone : id ∉ stale t .insert := List.not_mem_nil
    rw [hland.header hid]
    simp only [if_neg hnone]
    split
    · exact hmodified rfl id hid
    · exact hmodified rfl id hid

end Landed

end Load

/-- **What a load that succeeds does to the documents**, whatever the file and the storage. -/
theorem spread_of_load_ok {σ : Type} [Storage σ] (h : t.WellFormed) {store : σ} {name : String}
    {mode : LoadMode} {settings : TransferSettings} {report : LoadReport}
    (hload : (t.load store name mode settings).1 = .ok report) :
    Load.Spread t name mode report.segments (t.load store name mode settings).2.1 := by
  have hnamed := Load.named_firstSink h name mode settings
  cases mode with
  | replace =>
      obtain ⟨s, hs, hland⟩ := landed_of_load_ok h (Sink.lasting_named _) hnamed hload
      exact hland.spread h hs fun hm => by cases hm
  | insert =>
      have hparts : Sink.Parts (Load.ready t .insert name)
          (Load.firstSink t name .insert settings) :=
        Load.parts_firstSink h (fun hm => by cases hm) settings
      obtain ⟨s, hs, hland⟩ := landed_of_load_ok h
        ((Sink.lasting_named _).and (Sink.lasting_parts _)) ⟨hnamed, hparts⟩ hload
      refine hland.spread h hs.1 fun _ id hid => ?_
      have hclosed := hs.2.finished.closedAs id (hland.segments_eq ▸ hid)
      rw [(Sink.sameReader_finishPart s).mode, hland.mode_eq] at hclosed
      exact hclosed

end ScreenEditor
