import ScreenEditor.Editor.Run
import ScreenEditor.Proofs.Session.FreeSegment
import ScreenEditor.Proofs.Transfer.FromDirectory

/-!
# Files named on the command line

At its start an editor opens the files it was given one after the other, each in the first free
segment, and goes back to the first.  `Editor.openings` records which segment was chosen for every
file, what the segments were just before it was loaded, and what the load came to.

A file may spill into any segments that are free, and one that cannot be opened leaves its segment
to the next.  `Starting` is what lasts through all this, `openNext?_spec` is one file, and
`openings_spec` is all of them.

## Main results

* `Editor.openFiles_spec`: where the files are once all are open.
-/

namespace ScreenEditor

/-- A file that is opened at the start: its name, the segment chosen for it, the segments just
before it is loaded, and what the load comes to. -/
structure Opening where
  name : String
  segment : Nat
  before : SegmentTable
  answer : Except EditorError LoadReport

namespace Opening

/-- The segment chosen for the file is active, and if the file is opened it begins there and takes
segments that were unused. -/
def TakesUnused (o : Opening) : Prop :=
  o.before.active = o.segment ∧ ∀ report, o.answer = .ok report →
    report.segments.head? = some o.segment ∧
      ∀ id ∈ report.segments, o.before.has id = true ∧ (o.before.document id).isUnused = true

/-- If the file was opened, the segments it took hold its bytes of the directory, translated. -/
def HeldIn (o : Opening) (d : Directory) (tabWidth : Nat) (t : SegmentTable) : Prop :=
  ∀ report, o.answer = .ok report → ∃ file, d.contents o.name = .ok file ∧
    t.Holds o.name (translate tabWidth 0 file) report.segments

theorem HeldIn.spared {o : Opening} {d : Directory} {tabWidth : Nat} {t t' : SegmentTable}
    (h : o.HeldIn d tabWidth t) (hs : t.Spares t') : o.HeldIn d tabWidth t' := by
  intro report hok
  obtain ⟨file, hfile, hholds⟩ := h report hok
  exact ⟨file, hfile, hholds.spared (Directory.ne_empty_of_contents hfile) hs⟩

/-- Two files that were opened share no segment. -/
def Apart (o o' : Opening) : Prop :=
  ∀ report report', o.answer = .ok report → o'.answer = .ok report' →
    report.segments.Disjoint report'.segments

end Opening

/-! ## What an editor begins with -/

/-- A configuration that nothing is wrong with has tabs, and room for more than a chunk. -/
theorem Config.bounds_of_complaint? {c : Config} (h : c.complaint? = none) :
    0 < c.tabWidth ∧ c.loadChunkSize < c.segmentCapacity := by
  rw [complaint?] at h
  split at h
  · cases h
  split at h
  · cases h
  split at h
  · cases h
  · omega

theorem Session.of_create {σ : Type} {options : SessionOptions} {storage : σ} {rows cols : Nat}
    {s : Session σ} (h : create options storage rows cols = .ok s) :
    s.storage = storage ∧ s.transfer = options.transfer := by
  obtain ⟨table, -, rfl⟩ := exists_of_map_ok h
  exact ⟨rfl, rfl⟩

namespace Editor

/-! ## One file after the other -/

section Steps

variable {σ : Type} [Storage σ] {e e' : Editor σ} {name : String} {o : Opening}

/-- Open a file in the first free segment, if there is one. -/
def openNext? (e : Editor σ) (name : String) : Option (Opening × Editor σ) :=
  let (entries, session) := e.session.listDocuments
  (entries.find? isFree).map fun entry =>
    let e := { e with session := (session.switchTo entry.id).2 }
    (⟨name, entry.id, e.session.table, (e.session.openFile name).1⟩, e.openOrBegin name)

/-- The files that are opened, in order, until no segment is free. -/
def openings (e : Editor σ) : List String → List Opening
  | [] => []
  | name :: rest =>
    match e.openNext? name with
    | none => []
    | some (o, e) => o :: openings e rest

theorem openEach_cons (e : Editor σ) (first : Option Nat) (name : String) (rest : List String) :
    e.openEach first (name :: rest) =
      match e.openNext? name with
      | none => ({ e with session := e.session.listDocuments.2 }.say
          ("No free segment for " ++ name), first)
      | some (o, e) => e.openEach (first.or (some o.segment)) rest := by
  rw [openEach, openNext?]
  simp only
  cases e.session.listDocuments.1.find? isFree <;> rfl

/-- The segment of the first file is the one to go back to. -/
theorem snd_openEach (e : Editor σ) (first : Option Nat) (names : List String) :
    (e.openEach first names).2 = first.or ((e.openings names).head?.map (·.segment)) := by
  induction names generalizing e first with
  | nil => exact (Option.or_none).symm
  | cons name rest ih =>
      rw [openEach_cons, openings]
      cases e.openNext? name with
      | none => exact (Option.or_none).symm
      | some next =>
          rw [ih]
          cases first <;> rfl

theorem name_of_openNext? (hnext : e.openNext? name = some (o, e')) : o.name = name := by
  obtain ⟨entry, -, heq⟩ := Option.map_eq_some_iff.mp hnext
  exact (congrArg (·.1.name) heq).symm

/-- The files are opened in the order of their names. -/
theorem prefix_map_name_openings (e : Editor σ) (names : List String) :
    (e.openings names).map (·.name) <+: names := by
  induction names generalizing e with
  | nil => exact List.prefix_rfl
  | cons name rest ih =>
      rw [openings]
      split
      · exact List.nil_prefix
      · next o e' hnext =>
        rw [List.map_cons, name_of_openNext? hnext]
        exact (List.prefix_cons_inj name).mpr (ih e')

/-! ## One file -/

omit [Storage σ] in
theorem switchTo_eq (s : Session σ) (id : Nat) :
    (s.switchTo id).2.table = s.table.switch id ∧ (s.switchTo id).2.storage = s.storage ∧
      (s.switchTo id).2.transfer = s.transfer := by
  rw [Session.switchTo]
  split
  · next e hactivate =>
    rw [SegmentTable.activate] at hactivate
    split at hactivate
    · cases hactivate
    · next hid => exact ⟨(SegmentTable.switch_of_not_has hid).symm, rfl, rfl⟩
  · next table hactivate =>
    rw [SegmentTable.activate] at hactivate
    split at hactivate
    · obtain rfl := Except.ok.inj hactivate
      exact ⟨rfl, rfl, rfl⟩
    · cases hactivate

/-- What the editor says of a file changes neither the segments nor the storage. -/
theorem openOrBegin_eq (e : Editor σ) (name : String) :
    let loaded := e.session.table.load e.session.storage name .replace e.session.transfer
    (e.openOrBegin name).session.table = loaded.2.1 ∧
      (e.openOrBegin name).session.storage = loaded.2.2 ∧
      (e.openOrBegin name).session.transfer = e.session.transfer := by
  have hopen : (e.openOrBegin name).session.table = (e.session.openFile name).2.table ∧
      (e.openOrBegin name).session.storage = (e.session.openFile name).2.storage ∧
      (e.openOrBegin name).session.transfer = (e.session.openFile name).2.transfer := by
    rw [openOrBegin]
    split
    · next s heq =>
      rw [heq]
      exact ⟨rfl, rfl, rfl⟩
    · rw [report]
      split <;> exact ⟨rfl, rfl, rfl⟩
  obtain ⟨htable, hstorage, htransfer⟩ := hopen
  rw [htable, hstorage, htransfer, Session.openFile]
  split
  · next error table storage heq =>
    rw [heq]
    exact ⟨rfl, rfl, rfl⟩
  · next report table storage heq =>
    rw [heq]
    exact ⟨rfl, rfl, rfl⟩

/-- A line of the listing is free if its segment is unused. -/
theorem isFree_entry (t : SegmentTable) (id : Nat) :
    isFree (t.entry id) = (t.document id).isUnused := rfl

theorem mem_list_iff {t : SegmentTable} (h : t.WellFormed) {entry : DocumentEntry} :
    entry ∈ t.list.1 ↔ ∃ id, t.has id = true ∧ t.entry id = entry := by
  have hrange : ∀ id, id ∈ List.range' 1 t.count ↔ t.has id = true := by
    intro id
    rw [List.mem_range'_1, SegmentTable.has_iff, SegmentTable.count]
    omega
  rw [(SegmentTable.list_spec h).1, List.mem_map]
  simp only [hrange]

theorem of_find?_isFree {t : SegmentTable} (h : t.WellFormed) {entry : DocumentEntry}
    (hfind : t.list.1.find? isFree = some entry) :
    t.has entry.id = true ∧ (t.document entry.id).isUnused = true := by
  obtain ⟨id, hid, rfl⟩ := (mem_list_iff h).mp (List.mem_of_find?_eq_some hfind)
  have hfree : isFree (t.entry id) = true := List.find?_some hfind
  exact ⟨hid, hfree⟩

/-- No line of the listing is free if all segments are in use. -/
theorem find?_isFree_eq_none_iff {t : SegmentTable} (h : t.WellFormed) :
    t.list.1.find? isFree = none ↔
      ∀ id, t.has id = true → (t.document id).isUnused = false := by
  rw [List.find?_eq_none]
  constructor
  · intro hnone id hid
    exact Bool.eq_false_of_not_eq_true (hnone _ ((mem_list_iff h).mpr ⟨id, hid, rfl⟩))
  · intro hused entry hmem
    obtain ⟨id, hid, rfl⟩ := (mem_list_iff h).mp hmem
    rw [isFree_entry, hused id hid]
    exact Bool.false_ne_true

/-- Once all files are open the segment of the first is made active. -/
theorem table_openFiles {names : List String} {later : List Opening}
    (hlog : e.openings names = o :: later) : (e.openFiles names).session.table
      = (e.openEach none names).1.session.table.switch o.segment := by
  have hchosen := e.snd_openEach none names
  rw [hlog] at hchosen
  rw [openFiles]
  generalize e.openEach none names = opened at hchosen ⊢
  obtain ⟨e₁, chosen⟩ := opened
  obtain rfl : chosen = some o.segment := hchosen
  exact (switchTo_eq e₁.session o.segment).1

/-- What opening one file is at the segments: a load into the free segment chosen for it. -/
theorem openNext?_eq (e : Editor σ) (name : String) {entry : DocumentEntry}
    (hfind : e.session.table.list.1.find? isFree = some entry) :
    let t := e.session.table.list.2.switch entry.id
    let loaded := t.load e.session.storage name .replace e.session.transfer
    ∃ e', e.openNext? name = some (⟨name, entry.id, t, loaded.1⟩, e') ∧
      e'.session.table = loaded.2.1 ∧ e'.session.storage = loaded.2.2 ∧
      e'.session.transfer = e.session.transfer := by
  intro t loaded
  obtain ⟨htable, hstorage, htransfer⟩ := switchTo_eq e.session.listDocuments.2 entry.id
  generalize hs : (e.session.listDocuments.2.switchTo entry.id).2 = s at htable hstorage htransfer
  have hload : s.table.load s.storage name .replace s.transfer = loaded := by
    rw [htable, hstorage, htransfer]
    rfl
  obtain ⟨htable', hstorage', htransfer'⟩ := openOrBegin_eq { e with session := s } name
  obtain ⟨hanswer, -⟩ := s.openFile_eq name
  simp only [hload] at htable' hstorage' hanswer
  refine ⟨openOrBegin { e with session := s } name, ?_, htable', hstorage',
    htransfer'.trans htransfer⟩
  refine Option.map_eq_some_iff.mpr ⟨entry, hfind, ?_⟩
  change (Opening.mk name entry.id (e.session.listDocuments.2.switchTo entry.id).2.table
      ((e.session.listDocuments.2.switchTo entry.id).2.openFile name).1,
    openOrBegin { e with session := (e.session.listDocuments.2.switchTo entry.id).2 } name) = _
  rw [hs, hanswer, htable]
  rfl

/-- Every file that is opened has a free segment chosen for it. -/
theorem find?_of_openNext? (hnext : e.openNext? name = some (o, e')) :
    ∃ entry, e.session.table.list.1.find? isFree = some entry := by
  obtain ⟨entry, hfind, -⟩ := Option.map_eq_some_iff.mp hnext
  exact ⟨entry, hfind⟩

end Steps

/-! ## All files -/

variable {d : Directory} {settings : TransferSettings} {e e' : Editor Directory} {name : String}
variable {o : Opening}

/-- An editor at its start, over a directory: its segments have room, and unused ones have no part
number. -/
structure Starting (d : Directory) (settings : TransferSettings) (e : Editor Directory) :
    Prop where
  storage : e.session.storage = d
  transfer : e.session.transfer = settings
  tidy : e.session.table.Tidy
  room : 0 < e.session.table.capacity

/-- What opening one file leaves: the file in segments that were unused, if it is opened, and every
document in use as it was. -/
theorem openNext?_spec (h : e.Starting d settings) (hnext : e.openNext? name = some (o, e')) :
    e'.Starting d settings ∧ e.session.table.Spares o.before ∧
      o.before.Spares e'.session.table ∧ o.TakesUnused ∧
      o.HeldIn d (max settings.tabWidth 1) e'.session.table := by
  obtain ⟨entry, hfind⟩ := find?_of_openNext? hnext
  obtain ⟨hhas, hfree⟩ := of_find?_isFree h.tidy.wellFormed hfind
  obtain ⟨-, hlisted, -⟩ := SegmentTable.list_spec h.tidy.wellFormed
  obtain ⟨e₁, hnext₁, htable, hstorage, htransfer⟩ := e.openNext?_eq name hfind
  obtain ⟨rfl, rfl⟩ := Prod.mk.inj (Option.some.inj (hnext₁.symm.trans hnext))
  simp only [h.storage, h.transfer, Directory.store_of_load] at htable hstorage htransfer ⊢
  generalize ht : e.session.table.list.2.switch entry.id = t at htable ⊢
  have hagrees : e.session.table.Agrees t :=
    ht ▸ hlisted.trans (hlisted.wellFormed.agrees_switch entry.id)
  have hspares : e.session.table.Spares t := hagrees.spares
  have htidy : t.Tidy := h.tidy.kept (Kept.of_agrees hagrees)
  have hroom : 0 < t.capacity := hspares.capacity ▸ h.room
  have hactive : t.active = entry.id :=
    ht ▸ SegmentTable.active_switch ((hlisted.has entry.id).trans hhas)
  have hunused : t.current.isUnused = true := by
    rw [← SegmentTable.document_active, hactive, hagrees.document entry.id hhas]
    exact hfree
  cases hload : (t.load d name .replace settings).1 with
  | error error =>
      obtain ⟨htidy', hspares'⟩ := SegmentTable.fail_in_free_segment htidy hload
      rw [← htable] at htidy' hspares'
      exact ⟨⟨hstorage, htransfer, htidy', hspares'.capacity ▸ hroom⟩, hspares, hspares',
        ⟨hactive, fun report hok => by cases hok⟩, fun report hok => by cases hok⟩
  | ok report =>
      obtain ⟨hname, file, hfile⟩ := Directory.contents_of_load_ok hload
      have hfile' : HonestStorage.file? d name = some file := congrArg Except.toOption hfile
      obtain ⟨htidy', hspares', hholds, hhead, hfresh⟩ :=
        SegmentTable.open_in_free_segment htidy hroom hunused hname hfile' hload
      rw [← htable] at htidy' hspares' hholds
      refine ⟨⟨hstorage, htransfer, htidy', hspares'.capacity ▸ hroom⟩, hspares, hspares',
        ⟨hactive, ?_⟩, ?_⟩
      · intro report' hok
        obtain rfl := Except.ok.inj hok
        exact ⟨hactive ▸ hhead, hfresh⟩
      · intro report' hok
        obtain rfl := Except.ok.inj hok
        exact ⟨file, hfile, hholds⟩

/-- The first of some files, with what is left to open. -/
theorem openings_cons (h : e.Starting d settings) (entry : DocumentEntry)
    (hfind : e.session.table.list.1.find? isFree = some entry) (name : String)
    (rest : List String) :
    let t := e.session.table.list.2.switch entry.id
    let loaded := t.load d name .replace settings
    ∃ e' : Editor Directory,
      e.openings (name :: rest) = ⟨name, entry.id, t, loaded.1⟩ :: e'.openings rest ∧
        e'.session.table = loaded.2.1 ∧ e'.Starting d settings := by
  intro t loaded
  obtain ⟨e', hnext, htable, -, -⟩ := e.openNext?_eq name hfind
  obtain ⟨hstart, -⟩ := openNext?_spec h hnext
  rw [h.storage, h.transfer] at hnext htable
  exact ⟨e', by rw [openings, hnext], htable, hstart⟩

/-- **All files.**  Every file that was opened took segments that were unused, still holds them at
the end, and shares none with another; no document that was in use has changed. -/
theorem openings_spec (h : e.Starting d settings) (first : Option Nat) (names : List String) :
    (e.openEach first names).1.Starting d settings ∧
      e.session.table.Spares (e.openEach first names).1.session.table ∧
      (∀ o ∈ e.openings names, e.session.table.Spares o.before ∧ o.TakesUnused ∧
        o.HeldIn d (max settings.tabWidth 1) (e.openEach first names).1.session.table) ∧
      (e.openings names).Pairwise Opening.Apart := by
  induction names generalizing e first with
  | nil => exact ⟨h, .refl _, fun o ho => absurd ho List.not_mem_nil, .nil⟩
  | cons name rest ih =>
      rw [openEach_cons, openings]
      cases hnext : e.openNext? name with
      | none =>
          obtain ⟨-, hlisted, -⟩ := SegmentTable.list_spec h.tidy.wellFormed
          exact ⟨⟨h.storage, h.transfer, h.tidy.kept (Kept.of_agrees hlisted),
            hlisted.capacity ▸ h.room⟩, hlisted.spares,
            fun o ho => absurd ho List.not_mem_nil, .nil⟩
      | some next =>
          obtain ⟨o, e₁⟩ := next
          obtain ⟨h₁, hbefore, hspares, htakes, hheld⟩ := openNext?_spec h hnext
          obtain ⟨hend, hrest, hlater, hapart⟩ := ih h₁ (first.or (some o.segment))
          have hfirst := hbefore.trans hspares
          refine ⟨hend, hfirst.trans hrest, ?_, List.pairwise_cons.mpr ⟨?_, hapart⟩⟩
          · rw [List.forall_mem_cons]
            refine ⟨⟨hbefore, htakes, hheld.spared hrest⟩, fun o' ho' => ?_⟩
            obtain ⟨hbefore', htakes', hheld'⟩ := hlater o' ho'
            exact ⟨hfirst.trans hbefore', htakes', hheld'⟩
          · -- what the first file holds is in use when a later one takes its segments
            intro o' ho' report report' hok hok' id hid hid'
            obtain ⟨hbefore', htakes', -⟩ := hlater o' ho'
            obtain ⟨file, hfile, hholds⟩ := hheld report hok
            have hused := hbefore'.isUnused_eq_false (hholds.has id hid)
              (hholds.inUse (Directory.ne_empty_of_contents hfile) hid)
            rw [((htakes'.2 report' hok').2 id hid').2] at hused
            cases hused

/-- A file that is left out found no free segment. -/
theorem names_openings_or_full (h : e.Starting d settings) (first : Option Nat)
    (names : List String) : (e.openings names).map (·.name) = names ∨
      ∀ id, (e.openEach first names).1.session.table.has id = true →
        ((e.openEach first names).1.session.table.document id).isUnused = false := by
  induction names generalizing e first with
  | nil => exact .inl rfl
  | cons name rest ih =>
      rw [openEach_cons, openings]
      cases hnext : e.openNext? name with
      | none =>
          obtain ⟨-, hlisted, -⟩ := SegmentTable.list_spec h.tidy.wellFormed
          have hused := (find?_isFree_eq_none_iff h.tidy.wellFormed).mp
            (Option.map_eq_none_iff.mp hnext)
          refine .inr fun id hid => ?_
          have hid' : e.session.table.has id = true := (hlisted.has id).symm.trans hid
          exact hlisted.spares.isUnused_eq_false hid' (hused id hid')
      | some next =>
          obtain ⟨o, e₁⟩ := next
          obtain ⟨h₁, -⟩ := openNext?_spec h hnext
          rcases ih h₁ (first.or (some o.segment)) with hnames | hfull
          · refine .inl ?_
            rw [List.map_cons, hnames, name_of_openNext? hnext]
          · exact .inr hfull

/-! ## A new editor -/

/-- The segments of a new editor are unused. -/
theorem starting_create {config : Config} {rows cols : Nat} (hconfig : config.complaint? = none)
    (h : create config d rows cols = .ok e) :
    e.Starting d config.transfer ∧ e.session.table.current.isUnused = true := by
  obtain ⟨s, hs, rfl⟩ := exists_of_map_ok h
  have hcap := Session.capacity_sessionOptions_lt hconfig
  have hlayout := Session.ofLayout_of_create hs
  obtain ⟨hstorage, htransfer⟩ := Session.of_create hs
  obtain ⟨first, rest, htable, -, -⟩ := SegmentTable.of_ofLayout hlayout
  have hroom : 0 < s.table.capacity := by
    rw [htable]
    exact Nat.zero_lt_of_lt (Config.bounds_of_complaint? hconfig).2
  have hunused : (SegmentTable.newDocument config.segmentCapacity).isUnused = true := by
    rw [Document.isUnused_iff]
    refine ⟨rfl, ?_, rfl⟩
    rw [SegmentTable.newDocument, GapBuffer.content, GapBuffer.before_empty,
      GapBuffer.after_empty, List.append_nil]
  refine ⟨⟨hstorage, htransfer, SegmentTable.tidy_ofLayout hcap hlayout, hroom⟩, ?_⟩
  have hactive := SegmentTable.document_ofLayout hcap hlayout SegmentTable.has_active
  rw [SegmentTable.document_active] at hactive
  rw [hactive]
  exact hunused

/-- The first file finds a free segment when the active one is unused. -/
theorem openings_ne_nil {σ : Type} [Storage σ] {e : Editor σ} (h : e.session.table.WellFormed)
    (hunused : e.session.table.current.isUnused = true) {names : List String}
    (hnames : names ≠ []) : e.openings names ≠ [] := by
  obtain ⟨name, rest, rfl⟩ := List.exists_cons_of_ne_nil hnames
  cases hfind : e.session.table.list.1.find? isFree with
  | none =>
      have hused := (find?_isFree_eq_none_iff h).mp hfind _ SegmentTable.has_active
      rw [SegmentTable.document_active, hunused] at hused
      cases hused
  | some entry =>
      obtain ⟨e', hnext, -⟩ := e.openNext?_eq name hfind
      rw [openings, hnext]
      exact List.cons_ne_nil _ _

/-- **Files named on the command line never overwrite each other.**  Whatever the files are that a
new editor is given, missing, named twice, too long for one segment or for all that are left: each
is opened in a free segment, in order, until none is free.  Every file that was opened took segments
that were unused just before, no two of them share a segment, and at the end each has its translated
text in its segments, unmodified.  The segment chosen for the first file is active. -/
theorem openFiles_spec {config : Config} {rows cols : Nat} (hconfig : config.complaint? = none)
    (hcreate : create config d rows cols = .ok e) {names : List String} (hnames : names ≠ []) :
    let log := e.openings names
    let t := (e.openFiles names).session.table
    log.map (·.name) <+: names ∧
      (log.map (·.name) = names ∨
        ∀ id, t.has id = true → (t.document id).isUnused = false) ∧
      (∃ first later, log = first :: later ∧ t.active = first.segment) ∧
      (∀ o ∈ log, o.TakesUnused ∧ o.HeldIn d config.tabWidth t) ∧ log.Pairwise Opening.Apart := by
  intro log t
  obtain ⟨hstarting, hunused⟩ := starting_create hconfig hcreate
  obtain ⟨hend, hspares, hall, hapart⟩ := openings_spec hstarting none names
  have htab : max config.transfer.tabWidth 1 = config.tabWidth :=
    Nat.max_eq_left (Config.bounds_of_complaint? hconfig).1
  rw [htab] at hall
  obtain ⟨first, later, hlog⟩ : ∃ first later, log = first :: later :=
    List.exists_cons_of_ne_nil (openings_ne_nil hstarting.tidy.wellFormed hunused hnames)
  have ht : t = (e.openEach none names).1.session.table.switch first.segment :=
    table_openFiles hlog
  have hswitch := hend.tidy.wellFormed.agrees_switch first.segment
  rw [← ht] at hswitch
  have hdone : log.map (·.name) = names ∨
      ∀ id, t.has id = true → (t.document id).isUnused = false := by
    refine (names_openings_or_full hstarting none names).imp_right fun hfull id hid => ?_
    have hid' := (hswitch.has id).symm.trans hid
    exact hswitch.spares.isUnused_eq_false hid' (hfull id hid')
  refine ⟨prefix_map_name_openings e names, hdone, ⟨first, later, hlog, ?_⟩, ?_, hapart⟩
  · have hmem : first ∈ log := hlog ▸ List.mem_cons_self
    obtain ⟨hbefore, ⟨hactive, -⟩, -⟩ := hall first hmem
    rw [ht]
    refine SegmentTable.active_switch ?_
    rw [hspares.has, ← hbefore.has, ← hactive]
    exact SegmentTable.has_active
  · intro o ho
    obtain ⟨-, htakes, hheld⟩ := hall o ho
    exact ⟨htakes, hheld.spared hswitch.spares⟩

/-- A missing file leaves its segment to the next, one that is named twice takes other segments the
second time, and one that is too long for what is left takes none. -/
theorem openFiles_spec_missing_repeated :
    let file : List UInt8 := [97, 98, 10, 99, 100, 101]
    let d := Directory.ofFiles [("f", file), ("g", List.replicate 9 97)]
    let config := { Config.standard "" with
      segmentCapacity := 4, segmentCount := 6, loadChunkSize := 2 }
    let names := ["m", "f", "f", "g"]
    ∃ e, create config d 4 20 = .ok e ∧
      (e.openings names).map (fun o => (o.name, o.segment, o.answer)) =
        [("m", 1, .error (.notFound "m")), ("f", 1, .ok ⟨6, 6, [1, 2]⟩),
          ("f", 3, .ok ⟨6, 6, [3, 4]⟩), ("g", 5, .error .outOfSegments)] ∧
      let t := (e.openFiles names).session.table
      t.active = 1 ∧ t.Holds "f" file [1, 2] ∧ t.Holds "f" file [3, 4] := by
  intro file d config names
  have hstep : ∀ name ∈ names, Directory.IsStep name := by
    have hplain : ∀ name ∈ names, '/' ∉ name.toList ∧ '\x00' ∉ name.toList ∧
        name.utf8ByteSize ≤ Directory.maxFileName ∧ name ∉ ["", ".", ".."] := by decide
    intro name hname
    obtain ⟨hslash, hzero, hsize, hnames⟩ := hplain name hname
    exact Directory.isStep_of_not_mem hslash hzero hsize hnames
  have hm : Storage.openStream d "m" .read = .error .notFound :=
    (Directory.openStream_of_isStep (hstep "m" (by decide)) rfl).trans
      (if_neg (by decide +kernel))
  have hf : Storage.openStream d "f" .read = .ok (⟨"f", .read, 0⟩, d) :=
    (Directory.openStream_of_isStep (hstep "f" (by decide)) rfl).trans
      (if_pos (by decide +kernel))
  have hg : Storage.openStream d "g" .read = .ok (⟨"g", .read, 0⟩, d) :=
    (Directory.openStream_of_isStep (hstep "g" (by decide)) rfl).trans
      (if_pos (by decide +kernel))
  have hfile : d.contents "f" = .ok file :=
    (Directory.contents_of_isStep (hstep "f" (by decide)) rfl).trans (by decide +kernel)
  obtain ⟨e, hcreate⟩ : ∃ e, create config d 4 20 = .ok e := ⟨_, rfl⟩
  have htable : e.session.table = SegmentTable.unused 4 0 [1, 2, 3, 4, 5] := by
    obtain rfl := Except.ok.inj hcreate
    rfl
  have hconfig : config.complaint? = none := by decide
  obtain ⟨hstart, -⟩ := starting_create hconfig hcreate
  obtain ⟨e₁, hlog, htable₁, hstart₁⟩ := openings_cons hstart ⟨1, 0, false, 0, ""⟩
    (by rw [htable]; decide +kernel) "m" ["f", "f", "g"]
  simp only [htable, load_eq, hm] at hlog htable₁
  obtain ⟨e₂, hlog₁, htable₂, hstart₂⟩ := openings_cons hstart₁ ⟨1, 0, false, 0, ""⟩
    (by rw [htable₁]; decide +kernel) "f" ["f", "g"]
  simp only [htable₁, load_eq, hf] at hlog₁ htable₂
  obtain ⟨e₃, hlog₂, htable₃, hstart₃⟩ := openings_cons hstart₂ ⟨3, 0, false, 0, ""⟩
    (by rw [htable₂]; decide +kernel) "f" ["g"]
  simp only [htable₂, load_eq, hf] at hlog₂ htable₃
  obtain ⟨e₄, hlog₃, -, -⟩ := openings_cons hstart₃ ⟨5, 0, false, 0, ""⟩
    (by rw [htable₃]; decide +kernel) "g" []
  simp only [htable₃, load_eq, hg] at hlog₃
  have hanswers : (e.openings names).map (fun o => (o.name, o.segment, o.answer)) =
        [("m", 1, .error (.notFound "m")), ("f", 1, .ok ⟨6, 6, [1, 2]⟩),
          ("f", 3, .ok ⟨6, 6, [3, 4]⟩), ("g", 5, .error .outOfSegments)] := by
    rw [hlog, hlog₁, hlog₂, hlog₃, openings]
    decide +kernel
  clear hlog hlog₁ hlog₂ hlog₃ htable₁ htable₂ htable₃
  obtain ⟨-, -, ⟨first, later, hfirst, hactive⟩, hall, -⟩ :=
    openFiles_spec hconfig hcreate (List.cons_ne_nil "m" ["f", "f", "g"])
  -- an answer of the log is what one file came to, and the segments hold what that file has
  have hholds : ∀ (segment : Nat) (report : LoadReport),
      ("f", segment, .ok report) ∈ (e.openings names).map (fun o => (o.name, o.segment, o.answer)) →
        (e.openFiles names).session.table.Holds "f" file report.segments := by
    intro segment report hmem
    obtain ⟨o, ho, heq⟩ := List.mem_map.mp hmem
    obtain ⟨hname, -, hok⟩ : o.name = "f" ∧ o.segment = segment ∧ o.answer = .ok report := by
      simpa using heq
    obtain ⟨file', hfile', hholds⟩ := (hall o ho).2 report hok
    rw [hname] at hfile' hholds
    obtain rfl := Except.ok.inj (hfile.symm.trans hfile')
    exact hholds
  have hsegment : first.segment = 1 := by
    rw [hfirst, List.map_cons] at hanswers
    exact (Prod.mk.inj (Prod.mk.inj (List.cons.inj hanswers).1).2).1
  rw [hanswers] at hholds
  exact ⟨e, hcreate, hanswers, hactive.trans hsegment, hholds 1 ⟨6, 6, [1, 2]⟩ (by simp),
    hholds 3 ⟨6, 6, [3, 4]⟩ (by simp)⟩

end Editor
end ScreenEditor
