import ScreenEditor.Proofs.Session.Chains
import ScreenEditor.Proofs.Transfer.Insert
import ScreenEditor.Proofs.Transfer.Replace
import ScreenEditor.Storage.Memory

/-!
# Part numbers

A number tells the parts of a chain apart: they have the numbers from 1 on, each once.  Opening,
inserting and saving keep this as long as no document joins the chain of another one
(`Session.numbered_course`).  One that does brings its own numbers with it
(`Session.not_numbered_joined`).

What carries this through a session is that parts do not count as unused, so that none is taken for
another document (`SegmentTable.Ordered`).  A part without a name could be, so files are named.

## Main results

* `Session.ordered_perform`: one operation.
* `Session.numbered_course`: every course of a new session.
-/

namespace ScreenEditor

/-! ## Tables in order -/

/-- Every chain is numbered, and parts count as used. -/
structure SegmentTable.Ordered (t : SegmentTable) : Prop where
  wellFormed : t.WellFormed
  numbered : ∀ name, t.Numbered name
  inUse : ∀ {name : String} {id : Nat}, t.IsPart name id → (t.document id).isUnused = false

/-- A document with a name is in use, and so is one that was changed. -/
theorem Document.isUnused_of_named {d : Document} (h : d.header.name ≠ "") : d.isUnused = false :=
  Bool.eq_false_iff.mpr fun hunused => h (isUnused_iff.mp hunused).1

theorem Document.isUnused_of_modified {d : Document} (h : d.header.modified = true) :
    d.isUnused = false := by
  refine Bool.eq_false_iff.mpr fun hunused => ?_
  rw [(isUnused_iff.mp hunused).2.2] at h
  cases h

namespace SegmentTable.Ordered

variable {t t' : SegmentTable} {name m : String} {ids : List Nat} {id : Nat}

/-- A part that a load takes is the document at hand. -/
theorem eq_active_of_mem {mode : LoadMode} (h : t.Ordered) (hs : Load.Spread t name mode ids t')
    (hmem : id ∈ ids) (hid : t.IsPart m id) : id = t.active := by
  rcases (hs.fresh id hmem).2 with he | hunused
  · exact he
  · rw [h.inUse hid] at hunused
    cases hunused

theorem kept (h : t.Ordered) (hk : Kept t t') : t'.Ordered := by
  have hpart : ∀ m id, t.IsPart m id →
      (t'.document id).header.part = (t.document id).header.part := by
    intro m id hid
    rcases hk.part id hid.1 with hsame | ⟨-, hunused⟩
    · exact hsame
    · rw [h.inUse hid] at hunused
      cases hunused
  refine ⟨hk.wellFormed, fun m => ?_, ?_⟩
  · refine (h.numbered m).congr (fun id => ⟨hk.isPart, fun hid => ?_⟩) fun id hid => ?_
    · exact ⟨(hk.has id).trans hid.1, hpart m id hid ▸ hid.2.1, (hk.name id hid.1).trans hid.2.2⟩
    · rw [partNumber, hpart m id hid, partNumber]
  · intro m id hid
    have hold := hk.isPart hid
    refine Bool.eq_false_iff.mpr fun hunused => ?_
    have hused := h.inUse hold
    rw [hk.isUnused hold.1 hunused] at hused
    cases hused

/-- A chain stays numbered that keeps its parts with their numbers, or loses all of them, which is
what happens to the chain of the document at hand. -/
theorem numbered_of_gone (h : t.Ordered) {gone : Nat → Prop}
    (hgone : ∀ id, t.IsPart m id → (gone id ↔ t.IsPart m t.active))
    (hpart : ∀ id, t'.IsPart m id ↔ ¬ gone id ∧ t.IsPart m id)
    (hnumber : ∀ id, t.IsPart m id → ¬ gone id → t'.partNumber id = t.partNumber id) :
    t'.Numbered m := by
  by_cases hown : t.IsPart m t.active
  · refine numbered_of_none fun id hid => ?_
    obtain ⟨hnot, hold⟩ := (hpart id).mp hid
    exact hnot ((hgone id hold).mpr hown)
  · have hkept : ∀ id, t.IsPart m id → ¬ gone id := fun id hold hmem =>
      hown ((hgone id hold).mp hmem)
    exact (h.numbered m).congr
      (fun id => (hpart id).trans ⟨fun hid => hid.2, fun hold => ⟨hkept id hold, hold⟩⟩)
      fun id hold => hnumber id hold (hkept id hold)

/-! ## Opening a file -/

/-- Segments that are neither taken nor given up keep their documents. -/
theorem document_of_opened (hs : Load.Spread t name .replace ids t') (hid : t.has id = true)
    (hnot : id ∉ ids) (hstale : id ∉ Load.stale t .replace) : t'.document id = t.document id := by
  have hlater : id ∉ Load.later t .replace := List.not_mem_nil
  rw [hs.others id hid hnot, if_neg hstale, if_neg hlater]

/-- The parts with the name of the file are those that took it. -/
theorem numbered_of_mem (h : t.Ordered) (hs : Load.Spread t name .replace ids t')
    (hread : ReadFrom t' name ids) (hj : ¬ t.JoinsChain t') (hid : id ∈ ids)
    (hpart : t'.IsPart m id) : t'.Numbered m := by
  have hmany : ids.length ≠ 1 := by
    intro hone
    obtain ⟨i, hi⟩ := List.mem_iff_getElem?.mp hid
    have hzero := hread.number i id hi
    rw [if_pos hone] at hzero
    exact hpart.2.1 (UInt8.toNat_inj.mp hzero)
  have hnumber : ∀ i a, ids[i]? = some a → t'.partNumber a = i + 1 := by
    intro i a hi
    rw [hread.number i a hi, if_neg hmany]
  refine numbered_of_place
    (fun a => ⟨hs.mem_of_not_joinsChain h.wellFormed hj hid hpart, fun ha => ?_⟩) hnumber
  obtain ⟨i, hi⟩ := List.mem_iff_getElem?.mp ha
  refine ⟨(has_congr hs.count a).trans (hs.fresh a ha).1, fun hzero => ?_, ?_⟩
  · have hnum := hnumber i a hi
    rw [partNumber, hzero] at hnum
    exact absurd hnum (by simp)
  · rw [hread.name a ha, ← hread.name id hid]
    exact hpart.2.2

/-- The parts with another name are those that there were, or they are given up. -/
theorem numbered_of_notMem (h : t.Ordered) (hs : Load.Spread t name .replace ids t')
    (hnone : ∀ id ∈ ids, ¬ t'.IsPart m id) : t'.Numbered m := by
  have hwf := h.wellFormed
  have hgone : ∀ id, t.IsPart m id →
      (id ∈ ids ∨ id ∈ Load.stale t .replace ↔ t.IsPart m t.active) := by
    intro id hold
    constructor
    · rintro (hmem | hstale)
      · rwa [h.eq_active_of_mem hs hmem hold] at hold
      · obtain ⟨hchain, -, hsame⟩ := (Load.mem_stale_iff hwf id).mp hstale
        exact isPart_active.mpr ⟨hchain, hsame.2.2.symm.trans hold.2.2⟩
    · intro hown
      obtain ⟨hchain, rfl⟩ := isPart_active.mp hown
      by_cases hne : id = t.active
      · exact .inl (hne ▸ hs.active_mem)
      · exact .inr ((Load.mem_stale_iff hwf id).mpr ⟨hchain, hne, hold⟩)
  refine h.numbered_of_gone hgone (fun id => ⟨fun hid => ?_, fun hold => ?_⟩) fun id hold hnot => ?_
  · have hnot : id ∉ ids := fun hmem => hnone id hmem hid
    obtain ⟨hstale, hold⟩ := hs.isPart_of_notMem hwf hnot hid
    exact ⟨not_or.mpr ⟨hnot, hstale⟩, hold⟩
  · obtain ⟨hnot, hstale⟩ := not_or.mp hold.1
    exact (hs.isPart_iff hwf).mpr (.inr ⟨hnot, hstale, hold.2⟩)
  · obtain ⟨hnot, hstale⟩ := not_or.mp hnot
    rw [partNumber, document_of_opened hs hold.1 hnot hstale, partNumber]

theorem opened (h : t.Ordered) (hs : Load.Spread t name .replace ids t')
    (hread : ReadFrom t' name ids) (hname : name ≠ "") (hj : ¬ t.JoinsChain t') : t'.Ordered := by
  refine ⟨hs.wellFormed, fun m => ?_, ?_⟩
  · by_cases hnew : ∃ id ∈ ids, t'.IsPart m id
    · obtain ⟨id, hid, hpart⟩ := hnew
      exact h.numbered_of_mem hs hread hj hid hpart
    · exact h.numbered_of_notMem hs fun id hid hpart => hnew ⟨id, hid, hpart⟩
  · intro m id hid
    by_cases hmem : id ∈ ids
    · refine Document.isUnused_of_named ?_
      rw [hread.name id hmem]
      exact Header.clipName_ne_empty hname
    · obtain ⟨hstale, hold⟩ := hs.isPart_of_notMem h.wellFormed hmem hid
      rw [document_of_opened hs hold.1 hmem hstale]
      exact h.inUse hold

/-! ## Inserting a file -/

/-- The document at hand is the whole of the parts with its name, if it is part of a chain or there
is no chain with its name. -/
theorem spelledBy_active (h : t.Ordered)
    (hown : t.current.header.part ≠ 0 ∨ ∀ id, ¬ t.IsPart t.current.header.name id) :
    ∃ l r, t.SpelledBy t.current.header.name (l ++ t.active :: r) ∧
      ∀ id ∈ l ++ r, (t.document id).isUnused = false := by
  by_cases hpart : t.current.header.part = 0
  · have hnone := hown.resolve_left fun hne => hne hpart
    exact ⟨[], [], spelledBy_alone hpart hnone, fun id hid => absurd hid List.not_mem_nil⟩
  · have hmem : t.active ∈ t.chain t.current.header.name :=
      mem_chain.mpr (isPart_active.mpr ⟨hpart, rfl⟩)
    obtain ⟨l, r, hsplit⟩ := List.append_of_mem hmem
    have hspelled := (h.numbered t.current.header.name).spelledBy
    refine ⟨l, r, hsplit ▸ hspelled, fun id hid => ?_⟩
    have hin : id ∈ t.chain t.current.header.name := by
      rw [hsplit]
      rcases List.mem_append.mp hid with hl | hr
      · exact List.mem_append_left _ hl
      · exact List.mem_append_right _ (List.mem_cons_of_mem _ hr)
    exact h.inUse (mem_chain.mp hin)

/-- The parts with another name are those that there were. -/
theorem numbered_of_inserted (h : t.Ordered) (hs : Load.Spread t name .insert ids t')
    (hother : t.current.header.name = m →
      t.current.header.part = 0 ∧ t'.current.header.part = 0) : t'.Numbered m := by
  have hwf := h.wellFormed
  have hnone : ∀ id, id ∉ Load.stale t .insert := fun id => List.not_mem_nil
  have hkept : ∀ id, t.IsPart m id → id ∉ ids := by
    intro id hold hmem
    rw [h.eq_active_of_mem hs hmem hold] at hold
    obtain ⟨hchain, hname⟩ := isPart_active.mp hold
    exact hchain (hother hname).1
  refine (h.numbered m).congr (fun id => ⟨fun hid => ?_, fun hold => ?_⟩) ?_
  · refine (hs.isPart_of_notMem hwf (fun hmem => ?_) hid).2
    obtain ⟨hchain, hname⟩ := hs.isPart_active hwf hmem hid
    exact hchain (hother ((hs.current_name hwf).symm.trans hname)).2
  · exact (hs.isPart_iff hwf).mpr (.inr ⟨hkept id hold, hnone id, hold⟩)
  · intro id hold
    have hlater : id ∉ Load.later t .insert := fun hmem => by
      obtain ⟨hchain, -, -, hname⟩ := Load.isPart_of_mem_later hwf hmem
      exact hchain (hother (hname.symm.trans hold.2.2)).1
    rw [partNumber, hs.others id hold.1 (hkept id hold), if_neg (hnone id), if_neg hlater,
      partNumber]

theorem inserted (h : t.Ordered) (hs : Load.Spread t name .insert ids t')
    (hspelled : ∀ l r, t.SpelledBy t.current.header.name (l ++ t.active :: r) →
      (∀ id ∈ l ++ r, (t.document id).isUnused = false) →
        t'.SpelledBy t.current.header.name (l ++ ids ++ r))
    (hj : ¬ t.JoinsChain t') : t'.Ordered := by
  have hwf := h.wellFormed
  refine ⟨hs.wellFormed, fun m => ?_, ?_⟩
  · by_cases hother : t.current.header.name = m →
        t.current.header.part = 0 ∧ t'.current.header.part = 0
    · exact h.numbered_of_inserted hs hother
    · obtain ⟨rfl, hchain⟩ := Classical.not_imp.mp hother
      have hname : t'.current.header.name = t.current.header.name := hs.current_name hwf
      have hown : t.current.header.part ≠ 0 ∨ ∀ id, ¬ t.IsPart t.current.header.name id := by
        by_cases hpart : t.current.header.part = 0
        · refine .inr fun id hold => ?_
          have hjoined : t'.current.header.part ≠ 0 := fun hzero => hchain ⟨hpart, hzero⟩
          have hactive := isPart_active_of_not_joinsChain hj hs.active hjoined (hname ▸ hold)
          exact (isPart_active.mp hactive).1 hpart
        · exact .inl hpart
      obtain ⟨l, r, hdoc, hused⟩ := h.spelledBy_active hown
      exact (hspelled l r hdoc hused).numbered
  · intro m id hid
    by_cases hmem : id ∈ ids
    · exact Document.isUnused_of_modified (hs.modified rfl id hmem)
    · obtain ⟨hstale, hold⟩ := hs.isPart_of_notMem hwf hmem hid
      have hused := h.inUse hold
      rw [hs.others id hold.1 hmem, if_neg hstale]
      split
      · exact hused
      · exact hused

/-! ## Saving -/

theorem partNumber_of_saved (hs : Save.Renamed t name t') (hid : t.has id = true) :
    t'.partNumber id = t.partNumber id := by
  rw [partNumber, hs.part_eq hid, partNumber]

/-- The parts with the new name are those that were written, with the numbers that they had. -/
theorem numbered_of_mem_wholeDocument (h : t.Ordered) (hs : Save.Renamed t name t')
    (hj : ¬ t.JoinsChain t') (hid : id ∈ t.wholeDocument) (hpart : t'.IsPart m id) :
    t'.Numbered m := by
  obtain ⟨hchain, -, rfl⟩ := hs.isPart_of_mem hid hpart
  refine (h.numbered t.current.header.name).congr (fun a => ⟨fun ha => ?_, fun ha => ?_⟩)
    fun a ha => partNumber_of_saved hs ha.1
  · exact (hs.isPart_of_mem (hs.mem_of_not_joinsChain hj hid hpart ha) ha).2.1
  · have hmem := (mem_wholeDocument_iff ha.2.1).mpr ⟨hchain, ha⟩
    exact hs.isPart_iff.mpr (.inl ⟨hmem, ha.2.1, rfl⟩)

/-- The parts with another name are those that there were, or they have the new name. -/
theorem numbered_of_notMem_wholeDocument (h : t.Ordered) (hs : Save.Renamed t name t')
    (hnone : ∀ id ∈ t.wholeDocument, ¬ t'.IsPart m id) : t'.Numbered m := by
  have hgone : ∀ id, t.IsPart m id → (id ∈ t.wholeDocument ↔ t.IsPart m t.active) := by
    intro id hold
    rw [mem_wholeDocument_iff hold.2.1, isPart_active]
    refine and_congr_right fun _ => ⟨fun hsame => hsame.2.2.symm.trans hold.2.2, ?_⟩
    rintro rfl
    exact hold
  refine h.numbered_of_gone hgone (fun id => ⟨fun hid => ?_, fun hold => ?_⟩)
    fun id hold _ => partNumber_of_saved hs hold.1
  · have hnot : id ∉ t.wholeDocument := fun hmem => hnone id hmem hid
    exact ⟨hnot, hs.isPart_of_notMem hnot hid⟩
  · exact hs.isPart_iff.mpr (.inr hold)

theorem saved (h : t.Ordered) (hs : Save.Renamed t name t') (hname : name ≠ "")
    (hj : ¬ t.JoinsChain t') : t'.Ordered := by
  refine ⟨hs.wellFormed, fun m => ?_, ?_⟩
  · by_cases hnew : ∃ id ∈ t.wholeDocument, t'.IsPart m id
    · obtain ⟨id, hid, hpart⟩ := hnew
      exact h.numbered_of_mem_wholeDocument hs hj hid hpart
    · exact h.numbered_of_notMem_wholeDocument hs fun id hid hpart => hnew ⟨id, hid, hpart⟩
  · intro m id hid
    have hhas : t.has id = true := (has_congr hs.count id).symm.trans hid.1
    have hold : t.IsPart _ id := ⟨hhas, hs.part_eq hhas ▸ hid.2.1, rfl⟩
    rw [hs.document id hhas]
    split
    · exact Document.isUnused_of_named (Header.clipName_ne_empty hname)
    · exact h.inUse hold

end SegmentTable.Ordered

/-! ## Courses -/

/-- The name that an operation gives to the document at hand: that of a file that is opened, or that
the document is saved under. -/
def SessionOp.fileName? : SessionOp → Option String
  | .openFile name => some name
  | .saveAs name _ => some name
  | _ => none

/-- No document is given an empty name. -/
def SessionOp.NamesFile (op : SessionOp) : Prop := op.fileName? ≠ some ""

instance : DecidablePred SessionOp.NamesFile := fun _ => instDecidableNot

/-- The documents that a file event names have a name then. -/
def FileEvent.Names : FileEvent → Prop
  | .opened name _ => name ≠ ""
  | .saved name => name ≠ ""
  | _ => True

namespace Session

variable {σ : Type} {s : Session σ}

/-- In a new session no document is part of a chain. -/
theorem ordered_create {options : SessionOptions} {storage : σ} {rows cols : Nat}
    (hcap : options.capacity < 2 ^ 32) (h : create options storage rows cols = .ok s) :
    s.table.Ordered := by
  have hlayout := ofLayout_of_create h
  have hpart : ∀ id, s.table.has id = true → (s.table.document id).header.part = 0 := by
    intro id hid
    rw [SegmentTable.document_ofLayout hcap hlayout hid]
    rfl
  exact ⟨SegmentTable.wellFormed_ofLayout hcap hlayout,
    fun name => SegmentTable.numbered_of_none fun id hid => hid.2.1 (hpart id hid.1),
    fun hid => absurd (hpart _ hid.1) hid.2.1⟩

variable [Storage σ]

/-- A document without a name is not saved unless it is given one. -/
theorem names_fileEvent {op : SessionOp} (hop : op.NamesFile) : (s.fileEvent op).Names := by
  cases op with
  | openFile name =>
      rw [fileEvent]
      split
      · exact fun hempty => hop (congrArg some hempty)
      · trivial
  | saveAs name force =>
      rw [fileEvent]
      split
      · exact fun hempty => hop (congrArg some hempty)
      · trivial
  | save =>
      rw [fileEvent]
      split
      · next written hsave => exact named_of_save_ok hsave
      · trivial
  | insertFile name =>
      rw [fileEvent]
      split <;> trivial
  | paste =>
      rw [fileEvent]
      split <;> trivial
  | _ => trivial

/-- **Every operation keeps the chains numbered**, if the document at hand joins no chain. -/
theorem ordered_perform (h : s.table.Ordered) {op : SessionOp} (hop : op.NamesFile)
    (hj : ¬ s.table.JoinsChain (s.perform op).table) : (s.perform op).table.Ordered := by
  have hmakes := makes_fileEvent h.wellFormed op
  have hnames := names_fileEvent (s := s) hop
  cases hevent : s.fileEvent op with
  | none =>
      rw [hevent] at hmakes
      exact h.kept hmakes
  | opened name ids =>
      rw [hevent] at hmakes hnames
      obtain ⟨report, hload, rfl, htable⟩ := hmakes
      rw [htable] at hj ⊢
      have hread := readFrom_of_load_ok h.wellFormed
        (fun _ id hid _ hne => h.inUse ⟨hid, hne, rfl⟩) hnames hload
      exact h.opened (spread_of_load_ok h.wellFormed hload) hread hnames hj
  | inserted name ids =>
      rw [hevent] at hmakes
      obtain ⟨report, hload, rfl, htable⟩ := hmakes
      rw [htable] at hj ⊢
      exact h.inserted (spread_of_load_ok h.wellFormed hload)
        (fun l r hdoc hused => spelledBy_of_load_ok h.wellFormed hdoc hused hload) hj
  | saved name =>
      rw [hevent] at hmakes hnames
      obtain ⟨written, hsave, htable⟩ := hmakes
      rw [htable] at hj ⊢
      exact h.saved (renamed_of_save_ok h.wellFormed hsave) hnames hj

/-- **Part numbers tell the parts of a chain apart.**  Wherever a course of operations leads on
which no document joins the chain of another one, the parts with any name have the numbers from 1 to
as many as there are, each once. -/
theorem numbered_course {options : SessionOptions} {storage : σ} {rows cols : Nat}
    (hcap : options.capacity < 2 ^ 32) (h : create options storage rows cols = .ok s)
    {ops : List SessionOp}
    (hops : s.Along (fun s op => op.NamesFile ∧ ¬ s.table.JoinsChain (s.perform op).table) ops) :
    ∀ s' ∈ s.course ops, ∀ name, s'.table.Numbered name := by
  have hstep : ∀ (s : Session σ) (op : SessionOp), s.table.Ordered →
      (op.NamesFile ∧ ¬ s.table.JoinsChain (s.perform op).table) → (s.perform op).table.Ordered :=
    fun _ _ hs hop => ordered_perform hs hop.1 hop.2
  intro s' hs'
  exact (forall_mem_course hstep (ordered_create hcap h) hops s' hs').numbered

/-- A file in two parts, and a document without a name that takes the same file. -/
theorem numbered_course_inserting :
    let config := { Config.standard "" with
      segmentCapacity := 4, segmentCount := 4, loadChunkSize := 1 }
    let storage := Memory.empty.putFile "f" [97, 98, 99, 100, 101, 102]
    let ops : List SessionOp := [.openFile "f", .switchTo 3, .insertByte 120, .insertFile "f"]
    config.complaint? = none ∧
      ∃ s : Session Memory, create config.sessionOptions storage 2 3 = .ok s ∧
        s.Along (fun s op => op.NamesFile ∧ ¬ s.table.JoinsChain (s.perform op).table) ops ∧
        ∃ s' ∈ s.course ops,
          [1, 2, 3, 4].map (fun id => (s'.table.document id).header)
              = [⟨"f", false, false, 1⟩, ⟨"f", false, false, 2⟩, ⟨"", true, false, 1⟩,
                ⟨"", true, false, 2⟩] ∧
            s'.table.Numbered "f" ∧ s'.table.Numbered "" := by
  intro config storage ops
  have hnone : config.complaint? = none := by decide
  obtain ⟨s, hcreate, hops, s', hs', hheaders⟩ : ∃ s : Session Memory,
      create config.sessionOptions storage 2 3 = .ok s ∧
        s.Along (fun s op => op.NamesFile ∧ ¬ s.table.JoinsChain (s.perform op).table) ops ∧
        ∃ s' ∈ s.course ops,
          [1, 2, 3, 4].map (fun id => (s'.table.document id).header)
            = [⟨"f", false, false, 1⟩, ⟨"f", false, false, 2⟩, ⟨"", true, false, 1⟩,
              ⟨"", true, false, 2⟩] :=
    ⟨_, rfl, by decide +kernel, _, List.mem_of_getElem? (i := 4) rfl, by decide +kernel⟩
  have hnumbered := numbered_course (capacity_sessionOptions_lt hnone) hcreate hops s' hs'
  exact ⟨hnone, s, hcreate, hops, s', hs', hheaders, hnumbered "f", hnumbered ""⟩

/-- The condition is needed: a file that is opened at two places leaves two parts of each number. -/
theorem not_numbered_joined :
    let config := { Config.standard "" with
      segmentCapacity := 4, segmentCount := 4, loadChunkSize := 1 }
    let storage := Memory.empty.putFile "f" [97, 98, 99, 100, 101, 102]
    let ops : List SessionOp := [.openFile "f", .switchTo 3, .openFile "f"]
    config.complaint? = none ∧
      ∃ s : Session Memory, create config.sessionOptions storage 2 3 = .ok s ∧
        ∃ s' ∈ s.course ops,
          [1, 2, 3, 4].map (fun id => (s'.table.document id).header)
              = [⟨"f", false, false, 1⟩, ⟨"f", false, false, 2⟩, ⟨"f", false, false, 1⟩,
                ⟨"f", false, false, 2⟩] ∧
            ¬ s'.table.Numbered "f" := by
  intro config storage ops
  obtain ⟨s, hcreate, s', hs', hheaders, hfirst, hsecond, heq⟩ : ∃ s : Session Memory,
      create config.sessionOptions storage 2 3 = .ok s ∧
        ∃ s' ∈ s.course ops,
          [1, 2, 3, 4].map (fun id => (s'.table.document id).header)
              = [⟨"f", false, false, 1⟩, ⟨"f", false, false, 2⟩, ⟨"f", false, false, 1⟩,
                ⟨"f", false, false, 2⟩] ∧
            s'.table.IsPart "f" 1 ∧ s'.table.IsPart "f" 3 ∧
            s'.table.partNumber 1 = s'.table.partNumber 3 :=
    ⟨_, rfl, _, List.mem_of_getElem? (i := 3) rfl, by decide +kernel⟩
  refine ⟨by decide, s, hcreate, s', hs', hheaders, fun hnumbered => ?_⟩
  exact absurd (hnumbered.eq_of_partNumber hfirst hsecond heq) (by decide)

end Session
end ScreenEditor
