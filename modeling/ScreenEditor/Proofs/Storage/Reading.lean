import ScreenEditor.Storage.Directory
import ScreenEditor.Storage.Memory

/-!
# What reading a file gives

A storage reads honestly when a stream that was opened for reading has the bytes of its file before
it, every read takes bytes from their front, and a read that asks for something and gets nothing
has come to their end.  Reads may be short, and they may fail.

Files in memory and files in a directory are read honestly.
-/

namespace ScreenEditor

/-- A storage whose streams give the bytes of their files in order.  `file?` is what a name stands
for and `pending` what a stream has not given yet. -/
class HonestStorage (σ : Type) extends Storage σ where
  file? : σ → String → Option (List UInt8)
  pending : σ → Stream → List UInt8
  pending_open : ∀ {store store' : σ} {name : String} {stream : Stream} {file : List UInt8},
    openStream store name .read = .ok (stream, store') → file? store name = some file →
      pending store' stream = file
  pending_read : ∀ {store store' : σ} {stream stream' : Stream} {count : Nat}
    {bytes : List UInt8}, read store stream count = .ok (bytes, stream', store') → 0 < count →
      pending store stream = bytes ++ pending store' stream' ∧
        (bytes = [] → pending store stream = [])

/-- Reading from an offset takes bytes from the front of what lies behind it. -/
theorem FileBytes.drop_eq_readAt_append (file : FileBytes) (offset count : Nat) :
    file.toList.drop offset = file.readAt offset count
      ++ file.toList.drop (offset + (file.readAt offset count).length) := by
  have hread : file.readAt offset count = (file.toList.drop offset).take count := by
    simp only [readAt, Array.toList_extract, List.extract_eq_take_drop, Nat.add_sub_cancel_left]
  rw [hread, ← List.drop_drop]
  generalize file.toList.drop offset = l
  rcases Nat.le_total count l.length with hle | hle
  · rw [List.length_take, Nat.min_eq_left hle, List.take_append_drop]
  · rw [List.take_of_length_le hle, List.drop_length, List.append_nil]

/-- Nothing is read only at the end. -/
theorem FileBytes.drop_eq_nil_of_readAt {file : FileBytes} {offset count : Nat} (hc : 0 < count)
    (h : file.readAt offset count = []) : file.toList.drop offset = [] := by
  rw [List.drop_eq_nil_iff, Array.length_toList]
  have hsize := congrArg List.length h
  simp only [readAt, Array.length_toList, Array.size_extract, List.length_nil] at hsize
  omega

/-- A read in memory that is not made to fail. -/
theorem Memory.read_of_unlimited {m : Memory} (h : m.readsLeft = none) (stream : Stream)
    (count : Nat) : Storage.read m stream count =
      .ok ((m.bytesOf stream.name).readAt stream.position count,
        stream.advance ((m.bytesOf stream.name).readAt stream.position count).length, m) := by
  simp only [Storage.read, Memory.read, h, Memory.spend?]
  rw [← h]

instance : HonestStorage Memory where
  file? := Memory.file?
  pending m stream := (m.bytesOf stream.name).toList.drop stream.position
  pending_open := by
    intro m m' name stream file hopen hfile
    obtain ⟨bytes, hbytes, rfl⟩ := Option.map_eq_some_iff.mp hfile
    simp only [Storage.openStream, Memory.openStream, hbytes, Except.ok.injEq,
      Prod.mk.injEq] at hopen
    obtain ⟨rfl, rfl⟩ := hopen
    simp [Memory.bytesOf, hbytes]
  pending_read := by
    intro m m' stream stream' count bytes hread hc
    simp only [Storage.read, Memory.read] at hread
    split at hread
    · simp at hread
    · simp only [Except.ok.injEq, Prod.mk.injEq] at hread
      obtain ⟨rfl, rfl, rfl⟩ := hread
      exact ⟨FileBytes.drop_eq_readAt_append _ _ _, FileBytes.drop_eq_nil_of_readAt hc⟩

instance : HonestStorage Directory where
  file? d name := (d.contents name).toOption
  pending d stream := (d.bytesOf stream.name).toList.drop stream.position
  pending_open := by
    intro d d' name stream file hopen hfile
    simp only [Storage.openStream, Directory.openStream] at hopen
    simp only [Directory.contents] at hfile
    cases hr : d.resolve name with
    | error fault => simp [hr] at hopen
    | ok place =>
        cases place with
        | folder => simp [hr, Except.toOption] at hfile
        | noFolder fault => simp [hr] at hopen
        | absent path => simp [hr] at hopen
        | file path =>
            simp only [hr, Except.ok.injEq, Prod.mk.injEq] at hopen
            simp only [hr, Except.toOption, Option.some.injEq] at hfile
            obtain ⟨rfl, rfl⟩ := hopen
            simpa using hfile
  pending_read := by
    intro d d' stream stream' count bytes hread hc
    simp only [Storage.read, Directory.read] at hread
    split at hread
    · simp at hread
    · split at hread
      · simp at hread
      · simp only [Except.ok.injEq, Prod.mk.injEq] at hread
        obtain ⟨rfl, rfl, rfl⟩ := hread
        exact ⟨FileBytes.drop_eq_readAt_append _ _ _, FileBytes.drop_eq_nil_of_readAt hc⟩

end ScreenEditor
