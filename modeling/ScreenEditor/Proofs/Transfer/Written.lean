import ScreenEditor.Proofs.Segment.Refinement
import ScreenEditor.Proofs.Storage.Writing
import ScreenEditor.Proofs.Transfer.Saving

/-!
# What saving writes

A text goes into a file through loops within loops: part by part, the two sides of each gap, piece
by piece, and again whatever a write did not take.  All of these put bytes behind those that the
file holds already, so each has a lemma of one form: if the file held `done` before, it holds `done`
and the converted text after.  Converting is done byte by byte and does not notice the seams.

## Main results

* `save_written`: the file holds the converted text, and the count is its length.
* `save_documents`: only headers change, of the segments that were written.
* `save_writes_document`: both, and what stays.
-/

namespace ScreenEditor

/-! ## The text that is saved -/

/-- The text in a range, clipped to the content, or all of it. -/
def GapBuffer.textIn (g : GapBuffer) : Option Span → List UInt8
  | none => g.content
  | some range => (g.content.take range.hi).drop range.lo

/-- All of a text is the range from its start to its end. -/
theorem GapBuffer.textIn_getD (g : GapBuffer) (range : Option Span) :
    g.textIn (some (range.getD ⟨0, g.length⟩)) = g.textIn range := by
  cases range with
  | none =>
      show (g.content.take g.length).drop 0 = g.content
      rw [List.drop_zero, ← length_content, List.take_length]
  | some range => rfl

namespace SegmentTable

/-- The segments of the active document, in the order of their parts. -/
def wholeDocument (t : SegmentTable) : List Nat :=
  if t.current.header.part = 0 then [t.active] else t.chain t.current.header.name

theorem has_of_mem_wholeDocument {t : SegmentTable} {id : Nat} (h : id ∈ t.wholeDocument) :
    t.has id = true := by
  rw [wholeDocument] at h
  split at h
  · rw [List.mem_singleton.mp h]
    exact has_active
  · exact (mem_chain.mp h).1

theorem nodup_wholeDocument (t : SegmentTable) : t.wholeDocument.Nodup := by
  rw [wholeDocument]
  split
  · exact List.pairwise_singleton _ _
  · exact t.nodup_chain _

/-- The texts of segments, each in the range. -/
def textsIn (t : SegmentTable) (range : Option Span) (ids : List Nat) : List UInt8 :=
  ids.flatMap fun id => (t.document id).buffer.textIn range

/-- The text that is saved: the whole document, or a range of the active segment. -/
def savedText (t : SegmentTable) : Option Span → List UInt8
  | none => t.textOf t.wholeDocument
  | some range => t.current.buffer.textIn (some range)

end SegmentTable

/-- A document that was saved under a name. -/
def Document.savedAs (d : Document) (name : String) : Document :=
  ⟨⟨Header.clipName name, false, false, d.header.part⟩, d.buffer⟩

namespace LineEnding

@[simp] theorem convert_nil (e : LineEnding) : e.convert [] = [] := rfl

theorem convert_append (e : LineEnding) (text text' : List UInt8) :
    e.convert (text ++ text') = e.convert text ++ e.convert text' := List.flatMap_append

end LineEnding

namespace Save

variable {σ : Type} [FaithfulStorage σ] {t : SegmentTable} {name : String}
  {settings : TransferSettings} {done : List UInt8} {w w' : Writer σ}

/-! ## Runs of text -/

/-- Two steps succeed when the first does and then the second. -/
theorem of_bind_ok {ε α β : Type} {x : Except ε α} {f : α → Except ε β} {b : β}
    (h : x >>= f = .ok b) : ∃ a, x = .ok a ∧ f a = .ok b := by
  cases x with
  | error e => cases h
  | ok a => exact ⟨a, rfl, h⟩

/-- The pieces of a text are the text. -/
theorem flatten_pieces (size : Nat) (text : List UInt8) : (pieces size text).flatten = text := by
  fun_induction pieces size text with
  | case1 => rfl
  | case2 a as ih => rw [List.flatten_cons, ih, List.cons_append, List.take_append_drop]

/-- The open file holds these bytes. -/
def Writer.Holds (w : Writer σ) (name : String) (done : List UInt8) : Prop :=
  FaithfulStorage.Wrote w.store w.stream name done

/-- However few bytes a write takes, all are written in the end. -/
theorem writeBytes_spec {expected : Nat} {bytes : List UInt8} (hw : w.Holds name done)
    (hok : writeBytes name expected w bytes = .ok w') :
    w'.Holds name (done ++ bytes) ∧ w'.written = w.written + bytes.length := by
  fun_induction writeBytes name expected w bytes generalizing done w' with
  | case1 w =>
      obtain rfl := Except.ok.inj hok
      rw [List.append_nil]
      exact ⟨hw, rfl⟩
  | case2 => cases hok
  | case3 => cases hok
  | case4 w bytes hne count stream store hwrite next hpos hlt =>
      rename_i ih
      obtain ⟨hle, hnext⟩ := FaithfulStorage.wrote_write hw hwrite
      obtain ⟨hholds, hcount⟩ := ih hnext hok
      rw [List.append_assoc, List.take_append_drop] at hholds
      refine ⟨hholds, hcount.trans ?_⟩
      rw [List.length_drop]
      show w.written + count + (bytes.length - count) = w.written + bytes.length
      omega

theorem writePieces_spec {ps : List (List UInt8)} (hw : w.Holds name done)
    (hok : ps.foldlM (writePiece name settings) w = .ok w') :
    w'.Holds name (done ++ settings.lineEnding.convert ps.flatten) ∧
      w'.written = w.written + (settings.lineEnding.convert ps.flatten).length := by
  induction ps generalizing done w with
  | nil =>
      obtain rfl := Except.ok.inj hok
      rw [List.flatten_nil, LineEnding.convert_nil, List.append_nil]
      exact ⟨hw, rfl⟩
  | cons piece ps ih =>
      rw [List.foldlM_cons] at hok
      obtain ⟨next, hpiece, hrest⟩ := of_bind_ok hok
      obtain ⟨hnext, hcount⟩ := writeBytes_spec hw hpiece
      obtain ⟨hholds, hmore⟩ := ih hnext hrest
      rw [List.flatten_cons, LineEnding.convert_append, ← List.append_assoc]
      refine ⟨hholds, ?_⟩
      rw [hmore, hcount, List.length_append, Nat.add_assoc]

/-- A run of text is written as its conversion, wherever it is cut into pieces. -/
theorem writeRun_spec {text : List UInt8} (hw : w.Holds name done)
    (hok : writeRun name settings w text = .ok w') :
    w'.Holds name (done ++ settings.lineEnding.convert text) ∧
      w'.written = (settings.lineEnding.convert text).length := by
  obtain ⟨hholds, hcount⟩ := writePieces_spec (w := { w with written := 0 }) hw hok
  rw [flatten_pieces] at hholds hcount
  exact ⟨hholds, hcount.trans (Nat.zero_add _)⟩

/-- A clipped range of a text in two pieces, piece by piece. -/
theorem drop_take_append {α : Type} (before after : List α) (lo hi : Nat) :
    ((before ++ after).take hi).drop lo
      = (before.take hi).drop lo
        ++ (after.take (hi - before.length)).drop (lo - before.length) := by
  rw [List.take_append, List.drop_append, List.length_take]
  by_cases hle : hi ≤ before.length
  · rw [Nat.sub_eq_zero_of_le hle, List.take_zero, List.drop_nil, List.drop_nil]
  · rw [Nat.min_eq_right (by omega)]

/-- Ends of a range that are moved into the text leave what the range covers. -/
theorem drop_take_clip {α : Type} (text : List α) (lo hi : Nat) :
    (text.take (max (min hi text.length) (min lo text.length))).drop (min lo text.length)
      = (text.take hi).drop lo := by
  apply List.ext_getElem?
  intro i
  simp only [List.getElem?_drop, List.getElem?_take]
  split
  · rw [if_pos (by omega), Nat.min_eq_left (by omega)]
  · split
    · rw [List.getElem?_eq_none (by omega)]
    · rfl

/-- A range of a buffer is written as one text, on whichever sides of the gap it lies. -/
theorem writeRange_spec {g : GapBuffer} {range : Span} {count : Nat} (hw : w.Holds name done)
    (hok : writeRange name settings w g range = .ok (w', count)) :
    w'.Holds name (done ++ settings.lineEnding.convert (g.textIn (some range))) ∧
      count = (settings.lineEnding.convert (g.textIn (some range))).length := by
  have htext : g.textIn (some range)
      = (g.before.take (max (min range.hi g.length) (min range.lo g.length))).drop
          (min range.lo g.length)
        ++ (g.after.take (max (min range.hi g.length) (min range.lo g.length) - g.gapBegin)).drop
          (min range.lo g.length - g.gapBegin) := by
    have hclip := drop_take_clip g.content range.lo range.hi
    have hsplit := drop_take_append g.before g.after (min range.lo g.length)
      (max (min range.hi g.length) (min range.lo g.length))
    rw [GapBuffer.length_before] at hsplit
    rw [GapBuffer.length_content] at hclip
    rw [GapBuffer.textIn, ← hclip, GapBuffer.content, hsplit]
  obtain ⟨middle, hfirst, hok⟩ := of_bind_ok hok
  obtain ⟨last, hsecond, hok⟩ := of_bind_ok hok
  obtain ⟨rfl, rfl⟩ := Prod.mk.inj (Except.ok.inj hok)
  obtain ⟨hmiddle, hcount⟩ := writeRun_spec hw hfirst
  obtain ⟨hlast, hmore⟩ := writeRun_spec hmiddle hsecond
  rw [htext, LineEnding.convert_append, ← List.append_assoc]
  refine ⟨hlast, ?_⟩
  rw [hcount, hmore, List.length_append]

/-! ## Parts -/

/-- Parts are written one after the other, as the conversion of their texts. -/
theorem writeParts_spec (h : t.WellFormed) {range : Option Span} {ids : List Nat}
    (hids : ∀ id ∈ ids, t.has id = true) {t' : SegmentTable} {count : Nat}
    (hw : w.Holds name done)
    (hok : writeParts name settings range t w ids = (t', .ok (w', count))) :
    w'.Holds name (done ++ settings.lineEnding.convert (t.textsIn range ids)) ∧
      count = (settings.lineEnding.convert (t.textsIn range ids)).length := by
  induction ids generalizing t w done count with
  | nil =>
      simp only [writeParts, Prod.mk.injEq, Except.ok.injEq] at hok
      obtain ⟨-, rfl, rfl⟩ := hok
      rw [SegmentTable.textsIn, List.flatMap_nil, LineEnding.convert_nil, List.append_nil]
      exact ⟨hw, rfl⟩
  | cons id ids ih =>
      have hswitch := h.agrees_switch id
      have hrest : (t.switch id).textsIn range ids = t.textsIn range ids :=
        List.flatMap_congr fun j hj => by
          rw [hswitch.document j (hids j (List.mem_cons_of_mem _ hj))]
      simp only [writeParts] at hok
      cases hfirst : writeRange name settings w (t.switch id).current.buffer
          (range.getD ⟨0, (t.switch id).current.buffer.length⟩) with
      | error failed => simp [hfirst] at hok
      | ok written =>
          obtain ⟨middle, first⟩ := written
          obtain ⟨hmiddle, hcount⟩ := writeRange_spec hw hfirst
          rw [GapBuffer.textIn_getD, SegmentTable.current_switch] at hmiddle hcount
          cases hothers : writeParts name settings range (t.switch id) middle ids with
          | mk last result =>
              cases result with
              | error failed => simp [hfirst, hothers] at hok
              | ok written =>
                  obtain ⟨final, more⟩ := written
                  simp only [hfirst, hothers, Prod.mk.injEq, Except.ok.injEq] at hok
                  obtain ⟨rfl, rfl, rfl⟩ := hok
                  obtain ⟨hfinal, hmore⟩ := ih hswitch.wellFormed
                    (fun j hj => (hswitch.has j).trans (hids j (List.mem_cons_of_mem _ hj)))
                    hmiddle hothers
                  rw [hrest] at hfinal hmore
                  rw [SegmentTable.textsIn, List.flatMap_cons, LineEnding.convert_append,
                    ← List.append_assoc]
                  refine ⟨hfinal, ?_⟩
                  rw [hcount, hmore, List.length_append]
                  rfl

/-- Of a chain all parts are written, in their order. -/
theorem savedParts_of_chain (h : t.WellFormed) (hpart : t.current.header.part ≠ 0) :
    savedParts t none = (t.chain t.current.header.name, t.list.2) := by
  rw [savedParts, if_pos ⟨rfl, hpart⟩]
  exact Prod.ext (SegmentTable.parts_eq_chain h _) rfl

/-- The segments that are written. -/
theorem savedParts_eq (h : t.WellFormed) (range : Option Span) :
    (savedParts t range).1 = if range = none then t.wholeDocument else [t.active] := by
  rw [SegmentTable.wholeDocument]
  cases range with
  | some range => rfl
  | none =>
      by_cases hpart : t.current.header.part = 0
      · rw [savedParts, if_neg (by simp [hpart]), if_pos rfl, if_pos hpart]
      · rw [savedParts_of_chain h hpart, if_pos rfl, if_neg hpart]

/-- They have the text that is saved. -/
theorem textsIn_savedParts (h : t.WellFormed) (range : Option Span) :
    t.textsIn range (savedParts t range).1 = t.savedText range := by
  rw [savedParts_eq h]
  cases range with
  | none => rfl
  | some range =>
      rw [if_neg (by simp), SegmentTable.textsIn, List.flatMap_singleton,
        SegmentTable.document_active]
      rfl

theorem has_savedParts (h : t.WellFormed) (range : Option Span) :
    ∀ id ∈ (savedParts t range).1, t.has id = true := by
  intro id hid
  rw [savedParts_eq h] at hid
  split at hid
  · exact SegmentTable.has_of_mem_wholeDocument hid
  · rw [List.mem_singleton.mp hid]
    exact SegmentTable.has_active

/-- Renaming different segments gives each the name, and changes no others. -/
theorem document_rename (h : t.WellFormed) {ids : List Nat} (hn : ids.Nodup)
    (hids : ∀ id ∈ ids, t.has id = true) {id : Nat} (hid : t.has id = true) :
    (rename t ids name).document id
      = if id ∈ ids then (t.document id).savedAs name else t.document id :=
  SegmentTable.document_modifyHeaders h
    (f := fun header => { header.setName name with modified := false, awaitsOverwrite := false })
    (fun header _ => Header.nameFits_setName header name) hn hids hid

end Save

/-! ## The course of a save -/

variable {σ : Type} {t : SegmentTable} {name : String}

/-- What a save that succeeds went through. -/
structure Saved [Storage σ] (t : SegmentTable) (store : σ) (name : String) (range : Option Span)
    (settings : TransferSettings) (count : Nat) (t' : SegmentTable) (store' : σ) : Prop where
  run : ∃ stream opened written w,
    Storage.openStream store name .write = .ok (stream, opened) ∧
    Save.writeParts name settings range (Save.savedParts t range).2 ⟨stream, opened, 0⟩
      (Save.savedParts t range).1 = (written, .ok (w, count)) ∧
    Storage.close w.store w.stream = .ok store' ∧
    t' = (if range = none then Save.rename written (Save.savedParts t range).1 name
      else written).switch t.active

theorem of_save_ok [Storage σ] {store : σ} {range : Option Span} {settings : TransferSettings}
    {count : Nat} (hsave : (t.save store name range settings).1 = .ok count) :
    Saved t store name range settings count (t.save store name range settings).2.1
      (t.save store name range settings).2.2 := by
  simp only [SegmentTable.save] at hsave ⊢
  cases hopen : Storage.openStream store name .write with
  | error fault =>
      simp only [hopen] at hsave
      cases hsave
  | ok opening =>
      obtain ⟨stream, opened⟩ := opening
      simp only [hopen] at hsave ⊢
      cases hwrite : Save.writeParts name settings range (Save.savedParts t range).2
          ⟨stream, opened, 0⟩ (Save.savedParts t range).1 with
      | mk written result =>
          cases result with
          | error failed =>
              simp only [hwrite] at hsave
              cases hsave
          | ok done =>
              obtain ⟨w, total⟩ := done
              simp only [hwrite] at hsave ⊢
              cases hclose : Storage.close w.store w.stream with
              | error fault =>
                  simp only [hclose] at hsave
                  cases hsave
              | ok store' =>
                  simp only [hclose, Except.ok.injEq] at hsave ⊢
                  subst hsave
                  exact ⟨stream, opened, written, w, hopen, hwrite, hclose, rfl⟩

/-- The file holds the converted text, and as many bytes as were counted. -/
theorem save_written [FaithfulStorage σ] (h : t.WellFormed) {store : σ} {range : Option Span}
    {settings : TransferSettings} {count : Nat}
    (hsave : (t.save store name range settings).1 = .ok count) :
    HonestStorage.file? (t.save store name range settings).2.2 name
        = some (settings.lineEnding.convert (t.savedText range)) ∧
      count = (settings.lineEnding.convert (t.savedText range)).length := by
  obtain ⟨stream, opened, written, w, hopen, hwrite, hclose, -⟩ := (of_save_ok hsave).run
  obtain ⟨hagrees, -⟩ := Save.agrees_savedParts h range
  have hids := Save.has_savedParts h range
  have htexts : (Save.savedParts t range).2.textsIn range (Save.savedParts t range).1
      = t.savedText range := by
    rw [← Save.textsIn_savedParts h]
    exact List.flatMap_congr fun id hid => by rw [hagrees.document id (hids id hid)]
  have hbegin : (⟨stream, opened, 0⟩ : Save.Writer σ).Holds name [] :=
    FaithfulStorage.wrote_open hopen
  obtain ⟨hholds, hcount⟩ := Save.writeParts_spec hagrees.wellFormed
    (fun id hid => (hagrees.has id).trans (hids id hid)) hbegin hwrite
  rw [htexts] at hholds hcount
  exact ⟨FaithfulStorage.file?_close hholds hclose, hcount⟩

/-- Of the segments that were written the headers are changed when the whole document was saved,
and nothing else. -/
theorem save_documents [Storage σ] (h : t.WellFormed) {store : σ} {range : Option Span}
    {settings : TransferSettings} {count : Nat}
    (hsave : (t.save store name range settings).1 = .ok count) {id : Nat} (hid : t.has id = true) :
    (t.save store name range settings).2.1.document id
      = if range = none ∧ id ∈ t.wholeDocument then (t.document id).savedAs name
        else t.document id := by
  obtain ⟨stream, opened, written, w, -, hwrite, -, hdone⟩ := (of_save_ok hsave).run
  obtain ⟨hlisted, -⟩ := Save.agrees_savedParts h range
  have hids := Save.has_savedParts h range
  have hagrees := hlisted.trans (Save.agrees_writeParts hlisted.wellFormed name settings range
    ⟨stream, opened, 0⟩ (Save.savedParts t range).1)
  rw [hwrite] at hagrees
  simp only at hagrees
  rw [hdone]
  by_cases hrange : range = none
  · have hparts := Save.savedParts_eq h range
    rw [if_pos hrange] at hparts
    rw [hparts] at hids
    have hname := Save.sameTexts_rename hagrees.wellFormed t.wholeDocument name
    rw [if_pos hrange, hparts, SegmentTable.document_switch hname.wellFormed _
        (by rwa [hname.has, hagrees.has]),
      Save.document_rename hagrees.wellFormed t.nodup_wholeDocument
        (fun j hj => (hagrees.has j).trans (hids j hj)) ((hagrees.has id).trans hid),
      hagrees.document id hid]
    simp only [hrange, true_and]
  · rw [if_neg hrange, SegmentTable.document_switch hagrees.wellFormed _ (by rwa [hagrees.has]),
      hagrees.document id hid, if_neg (fun hand => hrange hand.1)]

/-- **Saving writes the document and nothing else.**  The file holds the text of the whole document,
whichever part is active, or of the range, with its terminators written as the line ending; neither
gaps nor pieces nor short writes leave a mark in it.  The parts of a whole document bear the name
and count as unmodified; their texts, carets and numbers are as they were, and so is everything
else. -/
theorem save_writes_document [FaithfulStorage σ] (h : t.WellFormed) {store : σ}
    {range : Option Span} {settings : TransferSettings} {count : Nat}
    (hsave : (t.save store name range settings).1 = .ok count) :
    let t' := (t.save store name range settings).2.1
    let text := settings.lineEnding.convert (t.savedText range)
    HonestStorage.file? (t.save store name range settings).2.2 name = some text ∧
      count = text.length ∧ t'.active = t.active ∧ t'.count = t.count ∧
      ∀ id, t.has id = true → t'.document id =
        if range = none ∧ id ∈ t.wholeDocument then (t.document id).savedAs name
        else t.document id := by
  obtain ⟨hfile, hcount⟩ := save_written h hsave
  obtain ⟨hsame, hactive⟩ := save_spec h store name range settings
  exact ⟨hfile, hcount, hactive, hsame.count, fun _ hid => save_documents h hsave hid⟩

/-- Two parts with their gaps inside, the second one active, into a storage that takes one byte at a
time. -/
theorem save_writes_two_parts :
    let ops : List TableOp := [.change (.rename "f"), .change (.modified true),
      .edit (.insertAll [97, 98, 10]), .edit (.seek 1), .continueInNext,
      .edit (.insertAll [10, 99]), .edit (.seek 1)]
    let t := (performAll SegmentTable.perform (SegmentTable.unused 4 0 [1, 2]) ops).2
    let store : Memory := { Memory.empty with writeLimit := some 1 }
    let settings : TransferSettings := ⟨4, 4, 2, .crlf⟩
    (t.save store "g" none settings).1 = .ok 7 ∧
      (t.save store "g" none settings).2.2.file? "g" = some [97, 98, 13, 10, 13, 10, 99] ∧
      ((t.save store "g" none settings).2.1.document 1).header = ⟨"g", false, false, 1⟩ ∧
      (t.save store "g" none settings).2.1.active = 2 := by
  intro ops t store settings
  have hwf : t.WellFormed :=
    (SegmentTable.wellFormed_unused (by decide) (by decide)).performAll ops
  have hsave : (t.save store "g" none settings).1 = .ok 7 := by
    rw [SegmentTable.save, Save.savedParts_of_chain hwf (by decide +kernel)]
    decide +kernel
  obtain ⟨hfile, -, hactive, -, hdocs⟩ := save_writes_document hwf hsave
  refine ⟨hsave, hfile.trans (by decide +kernel), ?_, hactive.trans (by decide +kernel)⟩
  exact (congrArg Document.header (hdocs 1 (by decide +kernel))).trans (by decide +kernel)

end ScreenEditor
