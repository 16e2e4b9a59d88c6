import ScreenEditor.Proofs.Session.Course
import ScreenEditor.Proofs.Session.Refusals
import ScreenEditor.Proofs.Transfer.Room
import ScreenEditor.Proofs.View.OneRow

/-!
# Tabs

A tab that is typed becomes blanks up to a tab stop of the screen: columns are counted from the
start of the caret's row.  A tab in a file that is inserted at the caret becomes blanks up to a tab
stop of the line.  Both are the same just if the row begins at a tab stop of its line
(`Session.setsTabs_course`), which it does on the first row of every line, and on all rows of a
window that begins at a row of the text if they are a number of whole tabs wide.
-/

namespace ScreenEditor

namespace GapBuffer

/-- The column of the caret is its distance from the start of its line. -/
theorem lineColumn_eq (g : GapBuffer) : g.lineColumn = g.caret - g.lineStart 0 g.caret := by
  have hcount : ∀ k ≤ g.content.length,
      ((g.content.take k).reverse.takeWhile (· != lineFeed)).length = k - g.lineStart 0 k := by
    intro k hk
    induction k with
    | zero => rfl
    | succ k ih =>
      have hlt : k < g.content.length := hk
      have hle := g.lineStart_le 0 k
      rw [List.take_succ_eq_append_getElem hlt, List.reverse_append, List.reverse_singleton,
        List.singleton_append, List.takeWhile_cons, lineStart, g.byteAt?_eq,
        List.getElem?_eq_getElem hlt]
      by_cases hfeed : g.content[k] = lineFeed
      · simp [hfeed]
      · simp only [bne_iff_ne, ne_eq, hfeed, not_false_eq_true, if_true, List.length_cons,
          ih (Nat.le_of_lt hlt), Option.some.injEq, and_true, Nat.succ_pos]
        omega
  rw [lineColumn, before_eq_take]
  exact hcount _ (by rw [length_content]; exact g.caret_le_length)

/-- Different numbers of blanks at the caret make different texts. -/
theorem content_eq_iff_of_blanks {g g₁ g₂ : GapBuffer} {n₁ n₂ : Nat}
    (h₁ : g₁.before = g.before ++ List.replicate n₁ blankByte ∧ g₁.after = g.after)
    (h₂ : g₂.before = g.before ++ List.replicate n₂ blankByte ∧ g₂.after = g.after) :
    g₁.content = g₂.content ↔ n₁ = n₂ := by
  rw [GapBuffer.content, GapBuffer.content, h₁.1, h₁.2, h₂.1, h₂.2]
  constructor
  · intro h
    have hlength := congrArg List.length h
    simp only [List.length_append, List.length_replicate] at hlength
    omega
  · rintro rfl
    rfl

end GapBuffer

namespace Session

variable {σ : Type} {s : Session σ}

/-- The column of its line at which the caret's row begins. -/
def rowColumn (s : Session σ) : Nat :=
  let start := s.view.rowStart s.view.cursor.1
  start - s.buffer.lineStart 0 start

/-- The caret's row begins within its line. -/
theorem Synced.lineColumn_eq (h : s.Synced) :
    s.buffer.lineColumn = s.rowColumn + s.view.cursor.2 := by
  have hcols := h.view.fits.cols_pos
  obtain ⟨-, -, hplace, hlast⟩ := (h.view.laidOut.locate_eq_some_iff hcols
    s.table.current.buffer.caret_le_length).mp
      (show s.view.locate s.table.current.buffer.caret = some (s.view.cursor.1, s.view.cursor.2)
        from h.view.locate_eq)
  have hshown := Nat.le_trans hlast (Row.lastColumn_le _ _)
  have hline : s.table.current.buffer.lineStart 0 s.table.current.buffer.caret
      = s.table.current.buffer.lineStart 0 (s.view.rowStart s.view.cursor.1) := by
    rw [← hplace]
    refine GapBuffer.lineStart_add fun i hi => ?_
    rw [← List.getElem?_drop]
    exact ne_lineFeed_of_lt_firstRow (Nat.lt_of_lt_of_le hi hshown)
  have hle := s.table.current.buffer.lineStart_le 0 (s.view.rowStart s.view.cursor.1)
  rw [rowColumn, buffer, GapBuffer.lineColumn_eq, hline]
  omega

/-- In a window that begins at a row of the text the caret's row begins whole rows behind the start
of its line. -/
theorem Synced.cols_dvd_rowColumn (h : s.Synced)
    (hstart : s.view.windowStart ∈ rowStarts s.view.cols s.buffer.content) :
    s.view.cols ∣ s.rowColumn := by
  have hcols := h.view.fits.cols_pos
  obtain ⟨hrow, hclosed, -, -⟩ := (h.view.laidOut.locate_eq_some_iff hcols
    s.table.current.buffer.caret_le_length).mp h.view.locate_eq
  exact GapBuffer.inLineGrid_of_mem hcols
    (h.view.laidOut.rowStart_mem hcols hstart (Nat.le_of_lt hrow) hclosed)

/-- How many blanks a typed tab becomes. -/
def typedBlanks (s : Session σ) : Nat := blanksToStop s.transfer s.view.cursor.2

/-- How many blanks a tab becomes that is read from a file at the caret. -/
def loadedBlanks (s : Session σ) : Nat := blanksToStop s.transfer s.buffer.lineColumn

/-! ## Tabs at the caret -/

/-- A tab that is typed, and one in a file that is inserted, become blanks at the caret: the first
up to a tab stop of the screen, the second up to a tab stop of the line.  Both make the same text
just if the caret's row begins at a tab stop of its line. -/
structure SetsTabs [Storage σ] (s : Session σ) (name : String) : Prop where
  typed : s.insertTab.1 = true
  typed_text : s.insertTab.2.buffer.before
      = s.buffer.before ++ List.replicate s.typedBlanks blankByte ∧
    s.insertTab.2.buffer.after = s.buffer.after
  loaded : (s.insertFile name).1 = .ok ⟨1, s.loadedBlanks, [s.active]⟩
  loaded_text : (s.insertFile name).2.buffer.before
      = s.buffer.before ++ List.replicate s.loadedBlanks blankByte ∧
    (s.insertFile name).2.buffer.after = s.buffer.after
  stop : 0 < s.loadedBlanks ∧ s.loadedBlanks ≤ max s.transfer.tabWidth 1 ∧
    max s.transfer.tabWidth 1 ∣ s.buffer.lineColumn + s.loadedBlanks
  column : s.buffer.lineColumn = s.rowColumn + s.view.cursor.2
  same_iff : s.insertTab.2.buffer.content = (s.insertFile name).2.buffer.content ↔
    max s.transfer.tabWidth 1 ∣ s.rowColumn
  same_of_dvd_cols : s.view.windowStart ∈ rowStarts s.view.cols s.buffer.content →
    max s.transfer.tabWidth 1 ∣ s.view.cols →
      s.insertTab.2.buffer.content = (s.insertFile name).2.buffer.content

theorem Synced.setsTabs [HonestStorage σ] (h : s.Synced) {name : String}
    (htab : OffersTab s.storage name s.transfer) (htyped : s.typedBlanks ≤ s.buffer.free)
    (hloaded : s.loadedBlanks ≤ s.buffer.free) : s.SetsTabs name := by
  -- the two texts
  obtain ⟨hanswer, hbefore, hafter⟩ := s.insertBytes_spec (s.typedBytes .insertTab)
  rw [← insertTab_eq] at hanswer hbefore hafter
  have hbytes : s.typedBytes .insertTab = List.replicate s.typedBlanks blankByte := rfl
  have hlength : (s.typedBytes .insertTab).length ≤ s.buffer.free := by
    rw [hbytes, List.length_replicate]
    exact htyped
  rw [List.take_of_length_le hlength] at hbefore
  obtain ⟨hresult, htable⟩ := s.insertFile_eq name
  obtain ⟨hreport, hbuffer⟩ := load_tab h.wellFormed htab rfl hloaded
  rw [← htable] at hbuffer
  have htext : (s.insertFile name).2.buffer.before
      = s.buffer.before ++ List.replicate s.loadedBlanks blankByte ∧
      (s.insertFile name).2.buffer.after = s.buffer.after := by
    have hinserted : (s.insertFile name).2.buffer
        = s.buffer.insertAll (List.replicate s.loadedBlanks blankByte) := hbuffer
    rw [hinserted, GapBuffer.before_insertAll _ (by rwa [List.length_replicate]),
      GapBuffer.after_insertAll]
    exact ⟨rfl, rfl⟩
  -- where they differ
  have hcolumn := h.lineColumn_eq
  have hsame := (GapBuffer.content_eq_iff_of_blanks ⟨hbefore, hafter⟩ htext).trans
    (hcolumn ▸ blanksToStop_eq_iff s.transfer s.rowColumn s.view.cursor.2)
  exact ⟨hanswer.trans (decide_eq_true hlength), ⟨hbefore, hafter⟩, hresult.trans hreport, htext,
    blanksToStop_spec s.transfer _, hcolumn, hsame,
    fun hstart hdvd => hsame.mpr (Nat.dvd_trans hdvd (h.cols_dvd_rowColumn hstart))⟩

/-- **Tabs along every course of a new session**, wherever there is room for them. -/
theorem setsTabs_course [HonestStorage σ] {options : SessionOptions} {storage : σ}
    {rows cols : Nat} {ops : List SessionOp} (hcap : options.capacity < 2 ^ 32)
    (hrows : 0 < coordinate rows) (hcols : 0 < coordinate cols) (hops : ∀ op ∈ ops, op.Sized)
    (h : create options storage rows cols = .ok s) :
    ∀ s' ∈ s.course ops, ∀ name, OffersTab s'.storage name s'.transfer →
      s'.typedBlanks ≤ s'.buffer.free → s'.loadedBlanks ≤ s'.buffer.free → s'.SetsTabs name := by
  intro s' hs' name htab htyped hloaded
  exact ((synced_create hcap hrows hcols h).course hops s' hs').setsTabs htab htyped hloaded

/-- On the second row of a line that is two tabs wide a tab is the same typed and loaded. -/
theorem setsTabs_course_second_row :
    let config := { Config.standard "" with
      segmentCapacity := 16, loadChunkSize := 4, tabWidth := 2 }
    let ops : List SessionOp := [97, 98, 99, 100, 101].map .insertByte
    config.complaint? = none ∧
      ∃ s : Session Memory, create config.sessionOptions
          (Memory.empty.putFile "t" [tabByte]) 3 4 = .ok s ∧
        ∃ s' ∈ s.course ops, s'.SetsTabs "t" ∧
          s'.insertTab.2.buffer.content = [97, 98, 99, 100, 101, 32] := by
  intro config ops
  have hnone : config.complaint? = none := by decide
  obtain ⟨s, hcreate, s', hs', hfile, hreads, htyped, hloaded, hcontent⟩ :
      ∃ s : Session Memory, create config.sessionOptions
          (Memory.empty.putFile "t" [tabByte]) 3 4 = .ok s ∧
        ∃ s' ∈ s.course ops, s'.storage.file? "t" = some [tabByte] ∧
          s'.storage.readsLeft = none ∧ s'.typedBlanks ≤ s'.buffer.free ∧
          s'.loadedBlanks ≤ s'.buffer.free ∧
          s'.insertTab.2.buffer.content = [97, 98, 99, 100, 101, 32] :=
    ⟨_, rfl, _, List.mem_of_getElem? (i := 5) rfl, by decide +kernel, by decide +kernel,
      by decide +kernel, by decide +kernel, by decide +kernel⟩
  have hsized : ∀ op ∈ ops, op.Sized := by simp [ops, SessionOp.Sized]
  exact ⟨hnone, s, hcreate, s', hs', setsTabs_course (capacity_sessionOptions_lt hnone) (by decide)
    (by decide) hsized hcreate s' hs' "t" (offersTab_memory hfile hreads _) htyped hloaded,
    hcontent⟩

/-- Five letters on a screen of five columns, and tab stops every four: a typed tab is four blanks
long, counted from the row below the letters, and one that is loaded is three. -/
theorem not_same_tabs_wrapped :
    let config := { Config.standard "" with
      segmentCapacity := 16, loadChunkSize := 4, tabWidth := 4 }
    let ops : List SessionOp := [97, 98, 99, 100, 101].map .insertByte
    config.complaint? = none ∧
      ∃ s : Session Memory, create config.sessionOptions
          (Memory.empty.putFile "t" [tabByte]) 3 5 = .ok s ∧
        ∃ s' ∈ s.course ops, s'.buffer.free = 11 ∧
          (s'.insertFile "t").1 = .ok ⟨1, 3, [1]⟩ ∧
          (s'.insertFile "t").2.buffer.content = [97, 98, 99, 100, 101, 32, 32, 32] ∧
          s'.insertTab.2.buffer.content = [97, 98, 99, 100, 101, 32, 32, 32, 32] := by
  intro config ops
  exact ⟨by decide, _, rfl, _, List.mem_of_getElem? (i := 5) rfl, by decide +kernel,
    by decide +kernel, by decide +kernel, by decide +kernel⟩

end Session
end ScreenEditor
