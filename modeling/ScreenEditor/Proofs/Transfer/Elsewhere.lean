import ScreenEditor.Proofs.Storage.Separate
import ScreenEditor.Proofs.Transfer.OneSegment

/-!
# What saving leaves elsewhere

A save opens one file, writes to it and closes it.  Whatever every write keeps of a stream and its
storage is kept by all the loops of the writing (`Save.writeParts_keeps`).  So in a storage that
keeps its files apart, a save that succeeds changes the file at one place, where the name leads to
afterwards, and leaves what is at every other place (`save_elsewhere`).
-/

namespace ScreenEditor

namespace Save

variable {σ : Type} [Storage σ] {Inv : Stream → σ → Prop} {w w' : Writer σ} {name : String}
  {settings : TransferSettings}

/-- What is kept, of a stream and its storage, by every write to the stream. -/
def KeptByWrites (Inv : Stream → σ → Prop) : Prop :=
  ∀ {store store' : σ} {stream stream' : Stream} {bytes : List UInt8} {count : Nat},
    Inv stream store → Storage.write store stream bytes = .ok (count, stream', store') →
      Inv stream' store'

/-- Bytes are written by single writes, so what these keep is kept. -/
theorem writeBytes_keeps (hkept : KeptByWrites Inv) {expected : Nat} {bytes : List UInt8}
    (hw : Inv w.stream w.store) (hok : writeBytes name expected w bytes = .ok w') :
    Inv w'.stream w'.store := by
  fun_induction writeBytes name expected w bytes generalizing w' with
  | case1 w =>
      obtain rfl := Except.ok.inj hok
      exact hw
  | case2 => cases hok
  | case3 => cases hok
  | case4 w bytes hne count stream store hwrite next hpos hlt =>
      rename_i ih
      exact ih (hkept hw hwrite) hok

/-- Pieces are written one after the other. -/
theorem writePieces_keeps (hkept : KeptByWrites Inv) {ps : List (List UInt8)}
    (hw : Inv w.stream w.store) (hok : ps.foldlM (writePiece name settings) w = .ok w') :
    Inv w'.stream w'.store := by
  induction ps generalizing w with
  | nil =>
      obtain rfl := Except.ok.inj hok
      exact hw
  | cons piece ps ih =>
      rw [List.foldlM_cons] at hok
      obtain ⟨next, hpiece, hrest⟩ := of_bind_ok hok
      exact ih (writeBytes_keeps hkept hw hpiece) hrest

/-- A range is written in pieces. -/
theorem writeRange_keeps (hkept : KeptByWrites Inv) {g : GapBuffer} {range : Span} {count : Nat}
    (hw : Inv w.stream w.store) (hok : writeRange name settings w g range = .ok (w', count)) :
    Inv w'.stream w'.store := by
  obtain ⟨middle, hfirst, hok⟩ := of_bind_ok hok
  obtain ⟨last, hsecond, hok⟩ := of_bind_ok hok
  obtain ⟨rfl, rfl⟩ := Prod.mk.inj (Except.ok.inj hok)
  have hmiddle : Inv middle.stream middle.store :=
    writePieces_keeps hkept (w := { w with written := 0 }) hw hfirst
  exact writePieces_keeps hkept (w := { middle with written := 0 }) hmiddle hsecond

/-- **What every write keeps, all of the writing keeps.** -/
theorem writeParts_keeps (hkept : KeptByWrites Inv) {t t' : SegmentTable} {range : Option Span}
    {ids : List Nat} {count : Nat} (hw : Inv w.stream w.store)
    (hok : writeParts name settings range t w ids = (t', .ok (w', count))) :
    Inv w'.stream w'.store := by
  induction ids generalizing t t' w count with
  | nil =>
      simp only [writeParts, Prod.mk.injEq, Except.ok.injEq] at hok
      obtain ⟨-, rfl, -⟩ := hok
      exact hw
  | cons id ids ih =>
      simp only [writeParts] at hok
      cases hfirst : writeRange name settings w (t.switch id).current.buffer
          (range.getD ⟨0, (t.switch id).current.buffer.length⟩) with
      | error failed => simp [hfirst] at hok
      | ok written =>
          obtain ⟨middle, first⟩ := written
          have hmiddle := writeRange_keeps hkept hw hfirst
          cases hothers : writeParts name settings range (t.switch id) middle ids with
          | mk last result =>
              cases result with
              | error failed => simp [hfirst, hothers] at hok
              | ok written =>
                  obtain ⟨final, more⟩ := written
                  simp only [hfirst, hothers, Prod.mk.injEq, Except.ok.injEq] at hok
                  obtain ⟨-, rfl, -⟩ := hok
                  exact ih hmiddle hothers

end Save

open SeparateStorage in
/-- **A save writes one file and no other.**  Its name leads to a place that holds the converted
text, and what is at the other places is as it was. -/
theorem save_elsewhere {σ : Type} [SeparateStorage σ] {t : SegmentTable} (h : t.Orderly)
    {store : σ} {name : String} {range : Option Span} {settings : TransferSettings} {count : Nat}
    (hsave : (t.save store name range settings).1 = .ok count) :
    ∃ place, place? (t.save store name range settings).2.2 name = some place ∧
      stored (t.save store name range settings).2.2 place
        = some (settings.lineEnding.convert (t.savedText range)) ∧
      ∀ other, other ≠ place →
        stored (t.save store name range settings).2.2 other = stored store other := by
  have hfile := file?_of_save_ok h hsave
  obtain ⟨stream, opened, written, w, hopen, hwrite, hclose, -⟩ := (of_save_ok hsave).run
  obtain ⟨hleads, hothers⟩ := apart_open hopen
  -- What every write keeps: the stream's place, where the name leads to, and the other places.
  have hkept : Save.KeptByWrites fun (stream' : Stream) (store' : σ) =>
      stream'.name = stream.name ∧ place? store' name = some stream.name ∧
        ∀ other, other ≠ stream.name → stored store' other = stored store other := by
    intro before after stream₁ stream₂ bytes count₁ ⟨hname, hplace, hkeeps⟩ hstep
    obtain ⟨hname', hplace', hkeeps'⟩ := apart_write hstep
    rw [hname] at hname' hplace' hkeeps'
    exact ⟨hname', hplace' name hplace,
      fun other hne => (hkeeps' other hne).trans (hkeeps other hne)⟩
  obtain ⟨-, hplace, hkeeps⟩ := Save.writeParts_keeps hkept
    (w := ⟨stream, opened, 0⟩) ⟨rfl, hleads, hothers⟩ hwrite
  obtain ⟨hsame, hsame'⟩ := apart_close hclose
  rw [file?_eq, hsame, hplace, Option.bind_some] at hfile
  exact ⟨stream.name, (hsame name).trans hplace, hfile,
    fun other hne => (hsame' other).trans (hkeeps other hne)⟩

end ScreenEditor
