import ScreenEditor.Proofs.Storage.Reading

/-!
# What writing leaves in a file

A storage writes faithfully when a file that is opened for writing is emptied, every write puts the
bytes that it accepts behind those written before, and a file that is closed holds just these.
Writes may be short, and they may fail.

Files in memory, with any limit on writes, and files in a directory are written faithfully.
-/

namespace ScreenEditor

/-- A storage whose files hold what was written to them.  `Wrote store stream name bytes` says that
the stream is open on the file `name`, to which `bytes` were written. -/
class FaithfulStorage (σ : Type) extends HonestStorage σ where
  Wrote : σ → Stream → String → List UInt8 → Prop
  wrote_open : ∀ {store store' : σ} {name : String} {stream : Stream},
    openStream store name .write = .ok (stream, store') → Wrote store' stream name []
  wrote_write : ∀ {store store' : σ} {stream stream' : Stream} {name : String}
    {done bytes : List UInt8} {count : Nat}, Wrote store stream name done →
      write store stream bytes = .ok (count, stream', store') →
        count ≤ bytes.length ∧ Wrote store' stream' name (done ++ bytes.take count)
  file?_close : ∀ {store store' : σ} {stream : Stream} {name : String} {done : List UInt8},
    Wrote store stream name done → close store stream = .ok store' →
      file? store' name = some done

/-- Bytes that are written at the end of a file come behind the others. -/
theorem FileBytes.writeAt_toArray (done bytes : List UInt8) :
    FileBytes.writeAt done.toArray done.length bytes = (done ++ bytes).toArray := by
  rw [writeAt]
  simp

namespace Memory

/-- The file holds the bytes written so far, and the stream stands at its end. -/
structure Wrote (m : Memory) (stream : Stream) (path : String) (done : List UInt8) : Prop where
  name : stream.name = path
  position : stream.position = done.length
  file : m.files.find? path = some done.toArray

/-- A write puts a start of the bytes where the stream stands. -/
theorem of_write_ok {m m' : Memory} {stream stream' : Stream} {bytes : List UInt8} {count : Nat}
    (h : m.write stream bytes = .ok (count, stream', m')) :
    ∃ accepted, accepted <+: bytes ∧ count = accepted.length ∧
      stream' = stream.advance accepted.length ∧
      m'.files = m.files.insert stream.name
        ((m.bytesOf stream.name).writeAt stream.position accepted) := by
  rw [write] at h
  split at h
  · simp at h
  · simp only [Except.ok.injEq, Prod.mk.injEq] at h
    obtain ⟨rfl, rfl, rfl⟩ := h
    refine ⟨_, ?_, rfl, rfl, rfl⟩
    split
    · exact List.prefix_rfl
    · exact List.take_prefix _ bytes

theorem wrote_open {m m' : Memory} {name : String} {stream : Stream}
    (h : m.openStream name .write = .ok (stream, m')) : m'.Wrote stream name [] := by
  simp only [openStream, Except.ok.injEq, Prod.mk.injEq] at h
  obtain ⟨rfl, rfl⟩ := h
  exact ⟨rfl, rfl, Named.find?_insert_self _ _ _⟩

theorem wrote_write {m m' : Memory} {stream stream' : Stream} {name : String}
    {done bytes : List UInt8} {count : Nat} (hw : m.Wrote stream name done)
    (h : m.write stream bytes = .ok (count, stream', m')) :
    count ≤ bytes.length ∧ m'.Wrote stream' name (done ++ bytes.take count) := by
  obtain ⟨rfl, hposition, hfile⟩ := hw
  obtain ⟨accepted, hstart, rfl, rfl, hfiles⟩ := of_write_ok h
  rw [← List.prefix_iff_eq_take.mp hstart]
  refine ⟨hstart.length_le, rfl, ?_, ?_⟩
  · rw [List.length_append, ← hposition]
    rfl
  · rw [hfiles, bytesOf, hfile, hposition, Option.getD_some, FileBytes.writeAt_toArray]
    exact Named.find?_insert_self _ _ _

instance : FaithfulStorage Memory where
  Wrote := Wrote
  wrote_open := wrote_open
  wrote_write := wrote_write
  file?_close := by
    intro m m' stream name done hw hclose
    obtain rfl := Except.ok.inj hclose
    show m.file? name = some done
    rw [file?, hw.file, Option.map_some]

end Memory

namespace Directory

/-- The name leads to the stream's file, which holds the bytes written so far, and the stream stands
at its end. -/
structure Wrote (d : Directory) (stream : Stream) (name : String) (done : List UInt8) : Prop where
  mode : stream.mode = .write
  leads : d.resolve name = .ok (.file stream.name)
  position : stream.position = done.length
  file : d.files.find? stream.name = some done.toArray

/-- Where a file was or could be put, there is the file that is put there. -/
theorem lastPlace_putFile {d : Directory} {step path place : String} (bytes : FileBytes)
    (h : d.lastPlace step place = .ok (.file path) ∨ d.lastPlace step place = .ok (.absent path)) :
    (d.putFile path bytes).lastPlace step place = .ok (.file path) := by
  have hplace : place = path ∧ ¬ maxFileName < step.utf8ByteSize := by
    by_cases hlong : maxFileName < step.utf8ByteSize
    · simp [lastPlace, faultAt, hlong] at h
    · cases hfind : (d.files.find? place).isSome <;> simp [lastPlace, faultAt, hlong, hfind] at h
      · exact ⟨h, hlong⟩
      · exact ⟨h, hlong⟩
  obtain ⟨rfl, hshort⟩ := hplace
  have hfound : (d.putFile place bytes).files.find? place = some bytes :=
    Named.find?_insert_self _ _ _
  rw [lastPlace, faultAt, if_neg hshort, hfound]
  rfl

/-- A path that leads to a file, or to a place where nothing is, leads to the file that is put
there. -/
theorem follow_putFile {d : Directory} {path : String} {above steps : List String}
    (bytes : FileBytes) (h : d.follow above steps = .ok (.file path) ∨
      d.follow above steps = .ok (.absent path)) :
    (d.putFile path bytes).follow above steps = .ok (.file path) := by
  have hfolders : (d.putFile path bytes).folders = d.folders := rfl
  induction steps generalizing above with
  | nil => simp [follow] at h
  | cons step rest ih =>
      simp only [follow, hfolders] at h ⊢
      by_cases hskip : step = "" ∨ step = "."
      · rw [if_pos hskip] at h ⊢
        exact ih h
      rw [if_neg hskip] at h ⊢
      by_cases hup : step = ".."
      · rw [if_pos hup] at h ⊢
        exact ih h
      rw [if_neg hup] at h ⊢
      by_cases hfolder : d.folders.contains (pathOf (step :: above)) = true
      · rw [if_pos hfolder] at h ⊢
        exact ih h
      rw [if_neg hfolder] at h ⊢
      by_cases hlast : rest = []
      · rw [if_pos hlast] at h ⊢
        exact lastPlace_putFile bytes h
      · rw [if_neg hlast] at h
        split at h <;> simp at h

/-- So does a name. -/
theorem resolve_putFile {d : Directory} {path name : String} (bytes : FileBytes)
    (h : d.resolve name = .ok (.file path) ∨ d.resolve name = .ok (.absent path)) :
    (d.putFile path bytes).resolve name = .ok (.file path) := by
  rw [resolve] at h ⊢
  by_cases hnul : name.contains '\x00' = true
  · rw [if_pos hnul] at h
    simp at h
  rw [if_neg hnul] at h ⊢
  by_cases hlong : maxPath < name.utf8ByteSize
  · rw [if_pos hlong] at h
    simp at h
  rw [if_neg hlong] at h ⊢
  by_cases hempty : name = ""
  · rw [if_pos hempty] at h
    split at h <;> simp at h
  rw [if_neg hempty] at h ⊢
  exact follow_putFile bytes h

/-- A file that is put where its name leads is what its stream has written. -/
theorem wrote_putFile {d : Directory} {path name : String} (done : List UInt8)
    (h : d.resolve name = .ok (.file path) ∨ d.resolve name = .ok (.absent path)) :
    (d.putFile path done.toArray).Wrote ⟨path, .write, done.length⟩ name done :=
  ⟨rfl, resolve_putFile _ h, rfl, Named.find?_insert_self _ _ _⟩

/-- A file that is opened for writing is where the name leads to, and empty. -/
theorem of_open_write {d d' : Directory} {name : String} {stream : Stream}
    (h : d.openStream name .write = .ok (stream, d')) :
    ∃ path, (d.resolve name = .ok (.file path) ∨ d.resolve name = .ok (.absent path)) ∧
      stream = ⟨path, .write, 0⟩ ∧ d' = d.putFile path #[] := by
  cases hr : d.resolve name with
  | error fault => simp [openStream, hr] at h
  | ok place =>
      cases place with
      | folder => simp [openStream, hr] at h
      | noFolder fault => simp [openStream, hr] at h
      | absent path =>
          simp only [openStream, hr, Except.ok.injEq, Prod.mk.injEq] at h
          exact ⟨path, .inr rfl, h.1.symm, h.2.symm⟩
      | file path =>
          simp only [openStream, hr, Except.ok.injEq, Prod.mk.injEq] at h
          exact ⟨path, .inl rfl, h.1.symm, h.2.symm⟩

theorem wrote_open {d d' : Directory} {name : String} {stream : Stream}
    (h : d.openStream name .write = .ok (stream, d')) : d'.Wrote stream name [] := by
  obtain ⟨path, hleads, rfl, rfl⟩ := of_open_write h
  exact wrote_putFile [] hleads

theorem wrote_write {d d' : Directory} {stream stream' : Stream} {name : String}
    {done bytes : List UInt8} {count : Nat} (hw : d.Wrote stream name done)
    (h : d.write stream bytes = .ok (count, stream', d')) :
    count ≤ bytes.length ∧ d'.Wrote stream' name (done ++ bytes.take count) := by
  obtain ⟨hmode, hleads, hposition, hfile⟩ := hw
  rw [write, hmode, if_neg (by decide)] at h
  split at h
  · simp only [Except.ok.injEq, Prod.mk.injEq] at h
    obtain ⟨rfl, rfl, rfl⟩ := h
    rw [List.take_zero, List.append_nil]
    exact ⟨Nat.zero_le _, hmode, hleads, hposition, hfile⟩
  · simp only [reduceCtorEq, if_false, hposition, bytesOf, hfile, Option.getD_some,
      FileBytes.writeAt_toArray, Except.ok.injEq, Prod.mk.injEq] at h
    obtain ⟨rfl, rfl, rfl⟩ := h
    rw [List.take_length]
    obtain ⟨path, mode, position⟩ := stream
    obtain rfl := hmode
    have hwrote := wrote_putFile (done ++ bytes) (.inl hleads)
    rw [List.length_append] at hwrote
    exact ⟨Nat.le_refl _, hwrote⟩

instance : FaithfulStorage Directory where
  Wrote := Wrote
  wrote_open := wrote_open
  wrote_write := wrote_write
  file?_close := by
    intro d d' stream name done hw hclose
    obtain rfl := Except.ok.inj hclose
    show (d.contents name).toOption = some done
    rw [contents, hw.leads]
    simp only [bytesOf, hw.file, Option.getD_some, Except.toOption]

end Directory
end ScreenEditor
