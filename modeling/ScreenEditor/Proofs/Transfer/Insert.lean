import ScreenEditor.Proofs.Segment.Chain
import ScreenEditor.Proofs.Transfer.Reattach
import ScreenEditor.Proofs.Transfer.Settling
import ScreenEditor.Storage.Memory

/-!
# Inserting a file

A load that inserts a file splices the translated file into the document at the caret.  The text
behind the caret waits as the tail while further parts are begun and is put back at the end,
possibly into parts of its own; then the numbers of the later parts are raised by as many parts as
came in between.

## Main results

* `load_insert_spec`: what a load at the caret leaves.
-/

namespace ScreenEditor

namespace Load

variable {t : SegmentTable}

/-! ## The parts of the document -/

/-- The number of the first part that was filled is its place in the chain. -/
theorem first_number {l r : List Nat}
    (hdoc : t.SpelledBy t.current.header.name (l ++ t.active :: r)) :
    (l = [] ∧ r = [] ∧ t.partNumber t.active = 0) ∨
      (t.partNumber t.active = l.length + 1 ∧
        ∀ i id, (l ++ t.active :: r)[i]? = some id → t.partNumber id = i + 1) := by
  rcases hdoc.number with ⟨id, hid, hzero⟩ | hnumber
  · have hlen := congrArg List.length hid
    simp only [List.length_append, List.length_cons, List.length_nil] at hlen
    obtain rfl := List.length_eq_zero_iff.mp (by omega : l.length = 0)
    obtain rfl := List.length_eq_zero_iff.mp (by omega : r.length = 0)
    obtain rfl : t.active = id := List.singleton_inj.mp hid
    exact .inl ⟨rfl, rfl, hzero⟩
  · exact .inr ⟨hnumber l.length t.active (by simp), hnumber⟩

/-- The later parts of the chain are those behind the active one. -/
theorem later_eq (h : t.WellFormed) {l r : List Nat}
    (hdoc : t.SpelledBy t.current.header.name (l ++ t.active :: r)) : later t .insert = r := by
  have hpart : t.partNumber t.active = t.current.header.part.toNat := by
    rw [SegmentTable.partNumber, SegmentTable.document_active]
  unfold later laterParts
  rcases first_number hdoc with ⟨-, rfl, hzero⟩ | ⟨hnum, hnumber⟩
  · have hblank : t.current.header.part = 0 := UInt8.toNat_inj.mp (hpart.symm.trans hzero)
    rw [if_pos hblank]
  · have hne : t.current.header.part ≠ 0 := by
      intro hzero
      rw [hpart, hzero] at hnum
      exact absurd hnum (by simp)
    obtain ⟨-, -, -, -, hactive⟩ := SegmentTable.parts_spec h t.current.header.name
    have hnot : t.active ∉ l := by
      intro hmem
      exact (List.nodup_append.mp hdoc.nodup).2.2 _ hmem _ List.mem_cons_self rfl
    have hskip : (l ++ t.active :: r).dropWhile (· != t.active) = t.active :: r := by
      rw [List.dropWhile_append_of_pos, List.dropWhile_cons_of_neg (by simp)]
      intro id hid
      exact bne_iff_ne.mpr fun he => hnot (he ▸ hid)
    simp only [if_neg hne, hdoc.parts_eq h hnumber, hactive, hskip, List.drop_succ_cons,
      List.drop_zero]

/-- A document is ready to be filled at its caret. -/
theorem filling_firstSink_insert (h : t.WellFormed) (hcap : 0 < t.capacity) (name : String)
    (settings : TransferSettings) :
    Sink.Filling (ready t .insert name) t.current.buffer.after t.current.buffer.before
      (firstSink t name .insert settings) := by
  have hparts : Sink.Parts (ready t .insert name) (firstSink t name .insert settings) :=
    parts_firstSink h (fun hm => by cases hm) settings
  obtain ⟨-, hreadyCap, -⟩ := ready_frame h .insert name
  have hcurrent : (firstSink t name .insert settings).table.current = t.current :=
    current_listed h .insert
  refine ⟨hparts.confined, by omega, hparts.named, hparts.nodup, fun hcut => ?_, ?_, ?_,
    hparts.name, hparts.awaits, hparts.number, hparts.closedAs, ?_, ?_⟩
  · rcases hcut with hm | hbegun
    · cases hm
    · exact absurd rfl hbegun
  · exact congrArg (·.buffer.before) hcurrent
  · have htail : (firstSink t name .insert settings).tail.getD [] = [] := rfl
    rw [htail, List.append_nil, hcurrent]
  · intro htail
    exact absurd rfl htail
  · intro _ _ hbegun
    exact absurd rfl hbegun

/-- The table `t'` holds the parts of the finished sink `s` in place of the active document of `t`;
the parts `r` behind it have moved back and nothing else has changed. -/
structure Inserted (t t' : SegmentTable) (l r : List Nat) (s : Sink) : Prop where
  active : t'.active = t.active
  count : t'.count = t.count
  header : ∀ id ∈ s.segments, (t'.document id).header = (s.table.document id).header
  content : ∀ id ∈ s.segments,
    (t'.document id).buffer.content = (s.table.document id).buffer.content
  others : ∀ id, t.has id = true → id ∉ s.segments → t'.document id
    = if id ∈ r then raised s.begun.length (t.document id) else t.document id
  apart : ∀ id ∈ l ++ r, id ∉ s.segments

variable {t' p : SegmentTable} {l r : List Nat} {s : Sink} {text : List UInt8}

theorem Inserted.document_earlier (hi : Inserted t t' l r s)
    (hdoc : t.SpelledBy t.current.header.name (l ++ t.active :: r)) {id : Nat} (hid : id ∈ l) :
    t'.document id = t.document id := by
  have hnot : id ∉ r := by
    intro hr
    exact (List.nodup_append.mp hdoc.nodup).2.2 _ hid _ (List.mem_cons_of_mem _ hr) rfl
  rw [hi.others id (hdoc.has id (List.mem_append_left _ hid))
    (hi.apart id (List.mem_append_left _ hid)), if_neg hnot]

theorem Inserted.document_later (hi : Inserted t t' l r s)
    (hdoc : t.SpelledBy t.current.header.name (l ++ t.active :: r)) {id : Nat} (hid : id ∈ r) :
    t'.document id = raised s.begun.length (t.document id) := by
  rw [hi.others id (hdoc.has id (List.mem_append_right _ (List.mem_cons_of_mem _ hid)))
    (hi.apart id (List.mem_append_right _ hid)), if_pos hid]

theorem Inserted.textOf_earlier (hi : Inserted t t' l r s)
    (hdoc : t.SpelledBy t.current.header.name (l ++ t.active :: r)) : t'.textOf l = t.textOf l :=
  SegmentTable.textOf_congr fun id hid => by rw [hi.document_earlier hdoc hid]

/-- **The parts spell the old text with the inserted one in it.** -/
theorem Inserted.textOf_eq (hi : Inserted t t' l r s)
    (hdoc : t.SpelledBy t.current.header.name (l ++ t.active :: r))
    (hs : Sink.Finished p text s) :
    t'.textOf (l ++ s.segments ++ r) = t.textOf l ++ text ++ t.textOf r := by
  have hl := hi.textOf_earlier hdoc
  have hr : t'.textOf r = t.textOf r := SegmentTable.textOf_congr fun id hid => by
    rw [hi.document_later hdoc hid]
    rfl
  have hmid : t'.textOf s.segments = text := by
    rw [SegmentTable.textOf_congr hi.content, hs.text_eq]
  rw [SegmentTable.textOf_append, SegmentTable.textOf_append, hl, hmid, hr]

theorem Inserted.nodup (hi : Inserted t t' l r s)
    (hdoc : t.SpelledBy t.current.header.name (l ++ t.active :: r))
    (hs : Sink.Finished p text s) : (l ++ s.segments ++ r).Nodup := by
  obtain ⟨hl, hr, hlr⟩ := List.nodup_append.mp hdoc.nodup
  rw [List.nodup_append, List.nodup_append]
  refine ⟨⟨hl, hs.nodup, ?_⟩, (List.nodup_cons.mp hr).2, ?_⟩
  · rintro a ha b hb rfl
    exact hi.apart a (List.mem_append_left _ ha) hb
  · rintro a ha b hb rfl
    rcases List.mem_append.mp ha with ha | ha
    · exact hlr a ha a (List.mem_cons_of_mem _ hb) rfl
    · exact hi.apart a (List.mem_append_right _ hb) ha

theorem Inserted.has (hi : Inserted t t' l r s)
    (hdoc : t.SpelledBy t.current.header.name (l ++ t.active :: r))
    (hs : Sink.Finished p text s) (hp : p.count = t.count) :
    ∀ id ∈ l ++ s.segments ++ r, t'.has id = true := by
  intro id hid
  rw [SegmentTable.has_congr hi.count]
  rw [List.mem_append, List.mem_append] at hid
  rcases hid with (hid | hid) | hid
  · exact hdoc.has id (List.mem_append_left _ hid)
  · rw [← SegmentTable.has_congr hp, ← hs.confined.has]
    exact hs.confined.has_of_mem hid
  · exact hdoc.has id (List.mem_append_right _ (List.mem_cons_of_mem _ hid))

/-- **The parts are numbered from 1 again**, unless the document is still in one segment of its
own. -/
theorem Inserted.number (hi : Inserted t t' l r s)
    (hdoc : t.SpelledBy t.current.header.name (l ++ t.active :: r))
    (hs : Sink.Finished p text s) (hp : p.partNumber p.active = t.partNumber t.active)
    (hcount : p.count = t.count) (hmax : t.count ≤ maxSlots)
    (hchain : t.partNumber t.active ≠ 0 ∨ s.begun ≠ []) (i id : Nat)
    (hid : (l ++ s.segments ++ r)[i]? = some id) : t'.partNumber id = i + 1 := by
  have hlen : s.segments.length = s.begun.length + 1 := by simp [Sink.segments]
  have htotal := SegmentTable.length_le_count (hi.nodup hdoc hs) (hi.has hdoc hs hcount)
  simp only [List.length_append, hlen, hi.count] at htotal
  have hslots : maxSlots = 128 := rfl
  have hfirst := first_number hdoc
  rcases Nat.lt_or_ge i l.length with hlt | hge
  · rw [List.append_assoc, List.getElem?_append_left hlt] at hid
    rcases hfirst with ⟨rfl, -, -⟩ | ⟨-, hnumber⟩
    · exact absurd hlt (Nat.not_lt_zero i)
    · rw [SegmentTable.partNumber, hi.document_earlier hdoc (List.mem_of_getElem? hid)]
      exact hnumber i id (by rwa [List.getElem?_append_left hlt])
  · rcases Nat.lt_or_ge i (l.length + s.segments.length) with hlt | hge'
    · rw [List.append_assoc, List.getElem?_append_right hge,
        List.getElem?_append_left (by omega)] at hid
      have hnum := hs.number (by rw [hp]; omega) _ id hid
      rw [SegmentTable.partNumber, hi.header id (List.mem_of_getElem? hid),
        ← SegmentTable.partNumber, hnum, hp]
      rcases hfirst with ⟨rfl, -, hzero⟩ | ⟨hplace, -⟩
      · have hpos : 0 < s.begun.length := by
          rcases hchain with hne | hne
          · exact absurd hzero hne
          · exact List.length_pos_iff.mpr hne
        rw [Sink.numberAt_of_pos hpos, hzero, List.length_nil]
        omega
      · rcases Nat.eq_zero_or_pos s.begun.length with hone | hpos
        · rw [Sink.numberAt, if_pos hone]
          omega
        · rw [Sink.numberAt_of_pos hpos]
          omega
    · rw [List.getElem?_append_right (by rw [List.length_append]; omega),
        List.length_append] at hid
      rcases hfirst with ⟨-, rfl, -⟩ | ⟨-, hnumber⟩
      · cases hid
      · have hlt := (List.getElem?_eq_some_iff.mp hid).1
        generalize hj : i - (l.length + s.segments.length) = j at hid hlt
        have hold := hnumber (l.length + (j + 1)) id (by
          rwa [List.getElem?_append_right (by omega), Nat.add_sub_cancel_left,
            List.getElem?_cons_succ])
        rw [SegmentTable.partNumber] at hold
        rw [SegmentTable.partNumber, hi.document_later hdoc (List.mem_of_getElem? hid), raised,
          toNat_raisePart (by omega), hold]
        omega

/-- **The parts are one document again.** -/
theorem Inserted.spelledBy_of_ready (hi : Inserted t t' l r s)
    (hdoc : t.SpelledBy t.current.header.name (l ++ t.active :: r))
    (hs : Sink.Finished p text s) (hp : p.partNumber p.active = t.partNumber t.active)
    (hname : p.current.header.name = t.current.header.name) (hactive : t.active ∈ s.segments)
    (hcount : p.count = t.count) (hmax : t.count ≤ maxSlots) :
    t'.SpelledBy t.current.header.name (l ++ s.segments ++ r) where
  has := hi.has hdoc hs hcount
  named := by
    intro id hid
    rw [List.mem_append, List.mem_append] at hid
    rcases hid with (hid | hid) | hid
    · rw [hi.document_earlier hdoc hid]
      exact hdoc.named id (List.mem_append_left _ hid)
    · rw [hi.header id hid, hs.name id hid, hname]
    · rw [hi.document_later hdoc hid]
      exact hdoc.named id (List.mem_append_right _ (List.mem_cons_of_mem _ hid))
  number := by
    by_cases hchain : t.partNumber t.active ≠ 0 ∨ s.begun ≠ []
    · exact .inr fun i id hid => hi.number hdoc hs hp hcount hmax hchain i id hid
    · rw [not_or, not_not, not_not] at hchain
      obtain ⟨hzero, hbegun⟩ := hchain
      rcases first_number hdoc with ⟨rfl, rfl, -⟩ | ⟨hplace, -⟩
      · have honly : s.segments = [s.origin] := by rw [Sink.segments, hbegun]; rfl
        have horigin : t.active = s.origin := List.mem_singleton.mp (honly ▸ hactive)
        refine .inl ⟨s.origin, by rw [honly]; rfl, ?_⟩
        have hnum := hs.number (by rw [hp, hzero]; exact Nat.zero_le _) 0 s.origin
          (by rw [honly]; rfl)
        rw [hbegun, hp, hzero] at hnum
        rw [SegmentTable.partNumber, hi.header _ (horigin ▸ hactive)]
        exact hnum
      · omega
  whole := by
    rintro id ⟨hid, hpart, hname'⟩
    rw [SegmentTable.has_congr hi.count] at hid
    by_cases hmem : id ∈ s.segments
    · exact List.mem_append_left _ (List.mem_append_right _ hmem)
    · by_cases hr : id ∈ r
      · exact List.mem_append_right _ hr
      · rw [hi.others id hid hmem, if_neg hr] at hpart hname'
        have hold := hdoc.whole id ⟨hid, hpart, hname'⟩
        rcases List.mem_append.mp hold with hl | hl
        · exact List.mem_append_left _ (List.mem_append_left _ hl)
        · rcases List.mem_cons.mp hl with rfl | hl
          · exact absurd hactive hmem
          · exact absurd hl hr

/-! ## The documents after an insertion -/

/-- The segments that were filled are no other parts of the document, and no other segments in
use. -/
theorem notMem_segments (h : t.WellFormed) {name : String}
    (hs : Sink.Confined (ready t .insert name) s) {id : Nat} (hid : t.has id = true)
    (hne : id ≠ t.active) (hused : (t.document id).isUnused = false) : id ∉ s.segments := by
  obtain ⟨-, -, -, hactive, hothers⟩ := ready_frame h .insert name
  intro hmem
  rcases List.mem_cons.mp hmem with rfl | hmem
  · exact hne (hs.origin.trans hactive)
  · rcases (hs.fresh id (List.mem_reverse.mp hmem)).2 with he | hunused
    · exact hne (he.trans hactive)
    · rw [hothers id hid hne, hused] at hunused
      exact Bool.false_ne_true hunused

/-- What is settled holds the parts in place of the active document, and has moved back those behind
it. -/
theorem inserted_of_settled (h : t.WellFormed)
    (hdoc : t.SpelledBy t.current.header.name (l ++ t.active :: r))
    (hunused : ∀ id ∈ l ++ r, (t.document id).isUnused = false) {name : String}
    (hs : Sink.Finished (ready t .insert name) text s.finishPart)
    (hresume : ∀ j caret, s.resume = some (j, caret) → j ∈ s.finishPart.segments)
    (hsettled : Settled (ready t .insert name) s [] r t') :
    Inserted t t' l r s.finishPart ∧
      ∀ id ∈ s.finishPart.segments,
        t'.document id = resumed s.resume id (s.finishPart.table.document id) := by
  obtain ⟨-, -, hcount, hactive, -⟩ := ready_frame h .insert name
  have hhas : ∀ id, (ready t .insert name).has id = t.has id := SegmentTable.has_congr hcount
  have hsegHas : ∀ id ∈ s.finishPart.segments, (ready t .insert name).has id = true := by
    intro id hid
    rw [← hs.confined.has]
    exact hs.confined.has_of_mem hid
  have hapart : ∀ id ∈ l ++ r, id ∉ s.finishPart.segments := by
    intro id hid
    have hmem : id ∈ l ++ t.active :: r := by
      rcases List.mem_append.mp hid with hl | hr
      · exact List.mem_append_left _ hl
      · exact List.mem_append_right _ (List.mem_cons_of_mem _ hr)
    refine notMem_segments h hs.confined (hdoc.has id hmem) ?_ (hunused id hid)
    rintro rfl
    obtain ⟨-, hr, hlr⟩ := List.nodup_append.mp hdoc.nodup
    rcases List.mem_append.mp hid with hl | hr'
    · exact hlr _ hl _ List.mem_cons_self rfl
    · exact (List.nodup_cons.mp hr).1 hr'
  have hdocument : ∀ id, (ready t .insert name).has id = true →
      t'.document id = resumed s.resume id
        (if id ∈ r then raised s.begun.length (s.finishPart.table.document id)
          else s.finishPart.table.document id) := hsettled.document
  have hbegun := Sink.begun_finishPart s
  have hfilled : ∀ id ∈ s.finishPart.segments, t'.document id
      = resumed s.resume id (s.finishPart.table.document id) := by
    intro id hid
    rw [hdocument id (hsegHas id hid),
      if_neg fun hr => hapart id (List.mem_append_right _ hr) hid]
  refine ⟨⟨hsettled.active.trans hactive, hsettled.count.trans hcount, ?_, ?_, ?_, hapart⟩, hfilled⟩
  · intro id hid
    rw [hfilled id hid, header_resumed]
  · intro id hid
    rw [hfilled id hid, content_resumed]
  · intro id hid hnot
    have hsame := document_of_notMem h hs.confined hid hnot
    have hstay := resumed_eq_self fun j caret hj => by
      rintro rfl
      exact hnot (hresume id caret hj)
    rw [hdocument id (by rwa [hhas]), hsame, hstay, hbegun]

/-- The end of an insertion. -/
theorem settled_insert (h : t.WellFormed)
    (hdoc : t.SpelledBy t.current.header.name (l ++ t.active :: r)) {name : String}
    (hs : Sink.Confined (ready t .insert name) s.finishPart)
    (hresume : ∀ j caret, s.resume = some (j, caret) → j ∈ s.finishPart.segments) :
    Settled (ready t .insert name) s [] r (settle s [] r) := by
  obtain ⟨-, -, hcount, -, -⟩ := ready_frame h .insert name
  have hhas : ∀ id, (ready t .insert name).has id = t.has id := SegmentTable.has_congr hcount
  refine settled_settle hs (fun id hid => absurd hid List.not_mem_nil)
    (List.nodup_cons.mp (List.nodup_append.mp hdoc.nodup).2.1).2 ?_ ?_
  · intro id hid
    rw [hhas]
    exact hdoc.has id (List.mem_append_right _ (List.mem_cons_of_mem _ hid))
  · intro j caret hj
    rw [← hs.has]
    exact hs.has_of_mem (hresume j caret hj)

/-- Closing the last part moves no byte. -/
theorem endsAt_finishPart {pre rest : List UInt8} {id caret : Nat}
    (h : Sink.Filling p rest text s) (hends : s.EndsAt pre id caret) :
    s.finishPart.EndsAt pre id caret := by
  have hseg := Sink.segments_finishPart s
  refine hends.grow h.confined.segments_eq ⟨[], by rw [hseg, List.append_nil]⟩ ?_ ⟨[], ?_⟩
  · intro j hj
    rw [Sink.finishPart_eq, SegmentTable.document_modifyCurrent _
      (h.confined.has_of_mem (Sink.mem_of_dropLast hj)), if_neg (h.parts.ne_active hj)]
  · rw [Sink.finishPart_eq, SegmentTable.document_modifyCurrent _ SegmentTable.has_active,
      if_pos rfl, Sink.content_finished, SegmentTable.document_active, List.append_nil]

/-- The caret of one of the segments stands where the inserted text ends. -/
theorem caret_settled {pre rest whole : List UInt8} {s₀ : Sink} (h₀ : Sink.Filling p rest pre s₀)
    (hm : s₀.mode = .insert) (hr₀ : s₀.resume = none) (hre : Sink.Reattached p pre whole s₀ s)
    (hdoc : ∀ id ∈ s.finishPart.segments,
      t'.document id = resumed s.resume id (s.finishPart.table.document id)) :
    ∃ earlier id later, s.finishPart.segments = earlier ++ id :: later ∧
      t'.textOf earlier ++ (t'.document id).buffer.before = pre := by
  rcases hre.resume with ⟨hbegun, rfl⟩ | ⟨-, id, caret, hr, hends⟩
  · have honly : s.segments = [s.table.active] := by
      rw [Sink.segments, hbegun, h₀.confined.active, h₀.confined.origin, hbegun]
      rfl
    have hseg : s.finishPart.segments = [s.table.active] := by
      rw [← honly, Sink.finishPart_eq]
      rfl
    refine ⟨[], s.table.active, [], hseg, ?_⟩
    have htext := h₀.text_eq
    rw [honly] at htext
    have hmarked : s.finishPart.table.document s.table.active = s.table.current.markModified := by
      rw [Sink.finishPart_eq, SegmentTable.document_modifyCurrent _ SegmentTable.has_active,
        if_pos rfl, hm]
      rfl
    rw [hdoc s.table.active (by rw [hseg]; exact List.mem_cons_self), hr₀, resumed, hmarked]
    exact htext
  · obtain ⟨text', rest', hfill, -⟩ := hre.filling
    obtain ⟨earlier, later, hseg, hpre, hle⟩ := endsAt_finishPart hfill hends
    have hmem : id ∈ s.finishPart.segments := by
      rw [hseg]
      exact List.mem_append_right _ List.mem_cons_self
    refine ⟨earlier, id, later, hseg, ?_⟩
    have hearlier : t'.textOf earlier = s.finishPart.table.textOf earlier :=
      SegmentTable.textOf_congr fun j hj => by
        rw [hdoc j (by rw [hseg]; exact List.mem_append_left _ hj), content_resumed]
    rw [hearlier, hdoc id hmem, hr, resumed, if_pos rfl, GapBuffer.before_seek _ hle, hpre]

/-! ## The document that was inserted into -/

/-- What a file owes at the caret depends on the caret's column. -/
theorem owed_firstSink_insert (h : t.WellFormed) (name : String) (settings : TransferSettings)
    (file : List UInt8) : (firstSink t name .insert settings).owed file
      = translate (max settings.tabWidth 1) t.current.buffer.lineColumn file := by
  have hcolumn : (firstSink t name .insert settings).column = t.current.buffer.lineColumn :=
    congrArg (·.buffer.lineColumn) (current_listed h .insert)
  rw [Sink.owed, hcolumn]
  rfl

/-- The segment to go back to is one of those that were filled. -/
theorem resume_mem_segments {pre whole : List UInt8} {s₀ : Sink} (hr₀ : s₀.resume = none)
    (hre : Sink.Reattached p pre whole s₀ s) {j caret : Nat} (hj : s.resume = some (j, caret)) :
    j ∈ s.finishPart.segments := by
  have hseg := Sink.segments_finishPart s
  rcases hre.resume with ⟨-, rfl⟩ | ⟨-, id, caret', hr, earlier, later, hends, -⟩
  · rw [hr₀] at hj
    cases hj
  · rw [hr] at hj
    obtain ⟨rfl, -⟩ := Prod.mk.inj (Option.some.inj hj)
    rw [hseg, hends]
    exact List.mem_append_right _ List.mem_cons_self

variable {name : String}

theorem partNumber_ready_insert (h : t.WellFormed) (name : String) :
    (ready t .insert name).partNumber (ready t .insert name).active = t.partNumber t.active := by
  rw [SegmentTable.partNumber, SegmentTable.partNumber, SegmentTable.document_active,
    SegmentTable.document_active]
  exact congrArg (·.header.part.toNat) (current_listed h .insert)

theorem Inserted.spelledBy (hi : Inserted t t' l r s)
    (hdoc : t.SpelledBy t.current.header.name (l ++ t.active :: r))
    (hs : Sink.Finished (ready t .insert name) text s) (h : t.WellFormed) :
    t'.SpelledBy t.current.header.name (l ++ s.segments ++ r) := by
  obtain ⟨-, -, hcount, -, -⟩ := ready_frame h .insert name
  have hname := congrArg (·.header.name) (current_listed h .insert)
  exact hi.spelledBy_of_ready hdoc hs (partNumber_ready_insert h name) hname
    (active_mem_segments h hs.confined) hcount h.count_le

/-- A document that stays in its segment keeps its place in the chain. -/
theorem Inserted.number_of_one (hi : Inserted t t' l r s) (h : t.WellFormed)
    (hdoc : t.SpelledBy t.current.header.name (l ++ t.active :: r))
    (hs : Sink.Finished (ready t .insert name) text s) (hone : s.segments = [t.active]) :
    t'.partNumber t.active = t.partNumber t.active := by
  have hnumber := partNumber_ready_insert h name
  have hbound : (ready t .insert name).partNumber (ready t .insert name).active ≤ maxSlots := by
    have hle := (SegmentTable.length_le_count hdoc.nodup hdoc.has).trans h.count_le
    rw [List.length_append, List.length_cons] at hle
    rw [hnumber]
    rcases first_number hdoc with ⟨-, -, hzero⟩ | ⟨hnum, -⟩ <;> omega
  have hnone : s.begun.length = 0 := by
    have hlen := congrArg List.length hone
    simpa [Sink.segments] using hlen
  have hnum := hs.number hbound 0 t.active (by rw [hone]; rfl)
  rw [SegmentTable.partNumber, hi.header t.active (active_mem_segments h hs.confined),
    ← SegmentTable.partNumber, hnum, Sink.numberAt, if_pos hnone, hnumber]

/-- Segments in use that are no parts of the document are as they were. -/
theorem Inserted.document_other (hi : Inserted t t' l r s) (h : t.WellFormed)
    (hs : Sink.Confined (ready t .insert name) s) {id : Nat} (hid : t.has id = true)
    (hout : id ∉ l ++ t.active :: r) (hused : (t.document id).isUnused = false) :
    t'.document id = t.document id := by
  have hne : id ≠ t.active := by
    rintro rfl
    exact hout (List.mem_append_right _ List.mem_cons_self)
  rw [hi.others id hid (notMem_segments h hs hid hne hused), if_neg fun hr => hout
    (List.mem_append_right _ (List.mem_cons_of_mem _ hr))]

/-- In a document that stays in its segment the caret stands behind the inserted text. -/
theorem Inserted.caret_of_one {pre : List UInt8} (hi : Inserted t t' l r s)
    (hends : ∃ earlier id later, s.segments = earlier ++ id :: later ∧
      t'.textOf earlier ++ (t'.document id).buffer.before = pre)
    (hone : s.segments = [t.active]) : t'.current.buffer.before = pre := by
  obtain ⟨earlier, id, later, hsplit, htext⟩ := hends
  rw [hone] at hsplit
  cases earlier with
  | nil =>
      obtain ⟨rfl, -⟩ := List.cons.inj hsplit
      have hcurrent := SegmentTable.document_active t'
      rw [hi.active] at hcurrent
      rw [← hcurrent, ← htext]
      rfl
  | cons j earlier =>
      have hlen := congrArg List.length hsplit
      simp at hlen

end Load

/-- **The parts of a document that a file is inserted into stay one document**, whatever the storage
gives for the bytes of the file. -/
theorem spelledBy_of_load_ok {σ : Type} [Storage σ] {t : SegmentTable} (h : t.WellFormed)
    {l r : List Nat} (hdoc : t.SpelledBy t.current.header.name (l ++ t.active :: r))
    (hunused : ∀ id ∈ l ++ r, (t.document id).isUnused = false) {store : σ} {name : String}
    {settings : TransferSettings} {report : LoadReport}
    (hload : (t.load store name .insert settings).1 = .ok report) :
    (t.load store name .insert settings).2.1.SpelledBy t.current.header.name
      (l ++ report.segments ++ r) := by
  have hparts : Sink.Parts (Load.ready t .insert name) (Load.firstSink t name .insert settings) :=
    Load.parts_firstSink h (fun hm => by cases hm) settings
  obtain ⟨s, hs, hland⟩ := landed_of_load_ok h (Sink.lasting_parts _) hparts hload
  have hsettled := hland.settled
  rw [Load.later_eq h hdoc] at hsettled
  obtain ⟨hins, -⟩ := Load.inserted_of_settled h hdoc hunused hs.finished hland.resume_mem hsettled
  rw [hland.segments_eq]
  exact hins.spelledBy hdoc hs.finished h

variable {σ : Type} [HonestStorage σ] {t : SegmentTable}

/-- The text of the parts, cut at the caret of the active one. -/
theorem SegmentTable.textOf_split (t : SegmentTable) (l r : List Nat) :
    t.textOf (l ++ t.active :: r) = (t.textOf l ++ t.current.buffer.before)
      ++ (t.current.buffer.after ++ t.textOf r) := by
  rw [textOf_append, ← List.singleton_append (l := r), textOf_append, textOf_singleton,
    document_active, GapBuffer.content]
  simp only [List.append_assoc]

/-- The parts of a document that a file is inserted into spell the text before the caret, the
translated file and the text behind the caret. -/
theorem textOf_load_insert (h : t.WellFormed) (hcap : 0 < t.capacity) {l r : List Nat}
    (hdoc : t.SpelledBy t.current.header.name (l ++ t.active :: r))
    (hunused : ∀ id ∈ l ++ r, (t.document id).isUnused = false)
    {store : σ} {name : String} {file : List UInt8}
    (hfile : HonestStorage.file? store name = some file) {settings : TransferSettings}
    {report : LoadReport} (hload : (t.load store name .insert settings).1 = .ok report) :
    let t' := (t.load store name .insert settings).2.1
    t'.textOf (l ++ report.segments ++ r) = (t.textOf l ++ t.current.buffer.before)
        ++ translate (max settings.tabWidth 1) t.current.buffer.lineColumn file
        ++ (t.current.buffer.after ++ t.textOf r) ∧
      t'.active = t.active ∧ t.active ∈ report.segments := by
  have hbegin := Load.filling_firstSink_insert h hcap name settings
  obtain ⟨taken, sink, htaken, htail, rfl, hsettled⟩ := taken_of_load_ok hbegin hfile hload
  have howed := Load.owed_firstSink_insert h name settings file
  have hre := htaken.filling.reattached htaken.mode_eq htaken.resume htail
  obtain ⟨text', rest', hfill, hwhole⟩ := hre.filling
  have hfinished := hfill.finished hre.tail
  rw [hwhole, howed] at hfinished
  have hresume : ∀ j caret, sink.resume = some (j, caret) → j ∈ sink.finishPart.segments :=
    fun j caret => Load.resume_mem_segments htaken.resume hre
  obtain ⟨hins, -⟩ := Load.inserted_of_settled h hdoc hunused hfinished hresume
    (Load.settled_insert h hdoc hfinished.confined hresume)
  have hmem := Load.active_mem_segments h hfinished.confined
  have htext := hins.textOf_eq hdoc hfinished
  have hstale : Load.stale t .insert = [] := rfl
  rw [Load.later_eq h hdoc, hstale] at hsettled
  simp only [hsettled, ← Sink.segments_finishPart sink]
  refine ⟨?_, hins.active, hmem⟩
  rw [htext]
  simp only [List.append_assoc]

/-- **A file inserted at the caret.**  If the load succeeds, the parts of the document spell the old
text with the translated file at the place of the caret, whatever the chunk size, the capacity and
the places of the cuts; they are numbered from 1 again, or still one segment of its own.  The
segments that took bytes are modified, the caret of the one in which the inserted text ends stands
behind it, and no other segment in use has changed. -/
theorem load_insert_spec (h : t.WellFormed) (hcap : 0 < t.capacity) {l r : List Nat}
    (hdoc : t.SpelledBy t.current.header.name (l ++ t.active :: r))
    (hunused : ∀ id ∈ l ++ r, (t.document id).isUnused = false)
    {store : σ} {name : String} {file : List UInt8}
    (hfile : HonestStorage.file? store name = some file) {settings : TransferSettings}
    {report : LoadReport} (hload : (t.load store name .insert settings).1 = .ok report) :
    let t' := (t.load store name .insert settings).2.1
    let text := translate (max settings.tabWidth 1) t.current.buffer.lineColumn file
    let old := t.textOf (l ++ t.active :: r)
    let offset := (t.textOf l).length + t.current.buffer.caret
    let ids := l ++ report.segments ++ r
    t'.textOf ids = old.take offset ++ text ++ old.drop offset ∧
      t'.SpelledBy t.current.header.name ids ∧
      (report.segments = [t.active] → t'.partNumber t.active = t.partNumber t.active) ∧
      report.segments.head? = some t.active ∧
      report.bytesRead = file.length ∧ report.bytesStored = text.length ∧
      (∀ id ∈ report.segments, (t'.document id).header.modified = true) ∧
      (∀ id, t.has id = true → id ∉ l ++ t.active :: r → (t.document id).isUnused = false →
        t'.document id = t.document id) ∧
      t'.active = t.active ∧
      (report.segments = [t.active] →
        t'.current.buffer.before = t.current.buffer.before ++ text) ∧
      ∃ earlier id later, report.segments = earlier ++ id :: later ∧
        t'.textOf (l ++ earlier) ++ (t'.document id).buffer.before = old.take offset ++ text := by
  have hbegin := Load.filling_firstSink_insert h hcap name settings
  obtain ⟨taken, sink, htaken, htail, rfl, hsettled⟩ := taken_of_load_ok hbegin hfile hload
  rw [Load.later_eq h hdoc] at hsettled
  have howed := Load.owed_firstSink_insert h name settings file
  have hre := htaken.filling.reattached htaken.mode_eq htaken.resume htail
  obtain ⟨text', rest', hfill, hwhole⟩ := hre.filling
  have hfinished := hfill.finished hre.tail
  rw [hwhole, howed] at hfinished
  have hseg := Sink.segments_finishPart sink
  have hmode : sink.finishPart.mode = .insert :=
    (Sink.sameReader_finishPart sink).mode.trans (hre.mode.trans htaken.mode_eq)
  have hstored : sink.stored = (translate (max settings.tabWidth 1)
      t.current.buffer.lineColumn file).length := by
    rw [hre.stored, htaken.stored, howed]
  have hresume : ∀ j caret, sink.resume = some (j, caret) → j ∈ sink.finishPart.segments :=
    fun j caret => Load.resume_mem_segments htaken.resume hre
  obtain ⟨hins, hfilled⟩ := Load.inserted_of_settled h hdoc hunused hfinished hresume
    (Load.settled_insert h hdoc hfinished.confined hresume)
  have hends := Load.caret_settled htaken.filling htaken.mode_eq htaken.resume hre hfilled
  rw [howed] at hends
  have hspelled := hins.spelledBy hdoc hfinished h
  have hsplit := SegmentTable.textOf_split t l r
  have hbefore : (t.textOf l).length + t.current.buffer.caret
      = (t.textOf l ++ t.current.buffer.before).length := by
    rw [List.length_append, GapBuffer.length_before, GapBuffer.caret_eq]
  have hstale : Load.stale t .insert = [] := rfl
  rw [hstale] at hsettled
  simp only [hsettled, hsplit, hbefore, List.take_left, List.drop_left, ← hseg]
  refine ⟨?_, hspelled, hins.number_of_one h hdoc hfinished, ?_, trivial, hstored, ?_, ?_,
    hins.active, ?_, ?_⟩
  · rw [hins.textOf_eq hdoc hfinished]
    simp only [List.append_assoc]
  · rw [Sink.segments, Load.origin_eq h hfinished.confined]
    rfl
  · intro id hid
    have hclosed := hfinished.closedAs id hid
    rw [hmode] at hclosed
    rw [hins.header id hid]
    exact hclosed
  · intro id hid hout hused
    exact hins.document_other h hfinished.confined hid hout hused
  · exact hins.caret_of_one hends
  · obtain ⟨earlier, id, later, hparts, htext⟩ := hends
    have hl := hins.textOf_earlier hdoc
    refine ⟨earlier, id, later, hparts, ?_⟩
    rw [SegmentTable.textOf_append, hl, List.append_assoc, htext, List.append_assoc]

/-- A text that is cut at its caret by a file too long for its segment. -/
theorem load_insert_two_parts :
    let t := (SegmentTable.unused 4 0 [1, 2]).modifyBuffer fun g => (g.insertAll [97, 98]).seek 1
    let store := Memory.empty.putFile "f" [120, 9, 121]
    let settings : TransferSettings := ⟨2, 1, 1, .lf⟩
    (t.load store "f" .insert settings).1 = .ok ⟨3, 4, [1, 2]⟩ ∧
      (t.load store "f" .insert settings).2.1.textOf [1, 2] = [97, 120, 32, 32, 121, 98] := by
  intro t store settings
  have hfresh : (SegmentTable.unused 4 0 [1, 2]).WellFormed :=
    SegmentTable.wellFormed_unused (by decide) (by decide)
  have hwf : t.WellFormed := hfresh.modifyBuffer (by decide)
  have hheader : ∀ id, t.has id = true → (t.document id).header = Header.blank := by
    intro id hid
    by_cases ha : id = t.active
    · rw [ha, SegmentTable.document_active]
      rfl
    · have hother : t.document id = (SegmentTable.unused 4 0 [1, 2]).document id :=
        SegmentTable.document_modifyBuffer_of_ne _ hid ha
      rw [hother, SegmentTable.document_unused (by decide) hid]
      rfl
  have hdoc : t.SpelledBy t.current.header.name ([] ++ t.active :: []) := by
    refine SegmentTable.spelledBy_alone rfl ?_
    rintro id ⟨hid, hpart, -⟩
    rw [hheader id hid] at hpart
    exact absurd rfl hpart
  have hload : (t.load store "f" .insert settings).1 = .ok ⟨3, 4, [1, 2]⟩ := by decide +kernel
  have hfile : HonestStorage.file? store "f" = some [120, 9, 121] := by decide +kernel
  have hspec := load_insert_spec hwf (by decide) hdoc (fun id hid => absurd hid List.not_mem_nil)
    hfile hload
  exact ⟨hload, hspec.1.trans (by decide +kernel)⟩

end ScreenEditor
