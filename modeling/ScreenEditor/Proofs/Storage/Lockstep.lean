import ScreenEditor.Proofs.Storage.Client
import ScreenEditor.Proofs.Transfer.FromDirectory

/-!
# Files in memory and files in a directory

Two clients ask for the same operations, one of files in memory without limits and one of a
directory.  They begin without files, use names of one step, read only from streams for reading and
write only to others.

Both are answered the same and find the same files as long as no operation strays
(`FileClient.Strays`).  Three kinds do, and each of them is seen at once: an offset that no file in
a directory reaches; no bytes written to a place behind the end, where memory puts zeros; and bytes
written to a stream for appending that does not stand at the end, where memory puts them at the
stream's place and the directory at the end.  The last takes a seek, if there is never more than one
stream on a file.

## Main results

* `FileClient.Matches.step`: one operation that does not stray.
* `FileClient.Matches.not_same_of_strays`: one that does.
* `FileClient.AppendsAtEnd.perform`: streams for appending stay at the end when none is sought.
* `FileClient.lockstep`: any operations, on both clients.
-/

namespace ScreenEditor

/-! ## Files -/

namespace FileBytes

/-- A write past the end makes a file longer, and no other does. -/
theorem size_writeAt (file : FileBytes) (offset : Nat) (bytes : List UInt8) :
    (file.writeAt offset bytes).size = max file.size (offset + bytes.length) := by
  simp only [writeAt, Array.size_append, Array.size_extract, Array.size_replicate,
    List.size_toArray]
  omega

/-- Writing no bytes within a file leaves it as it is. -/
theorem writeAt_nil {file : FileBytes} {offset : Nat} (h : offset ≤ file.size) :
    file.writeAt offset [] = file := by
  simp [writeAt, Nat.sub_eq_zero_of_le h]

end FileBytes

namespace Named

variable {α : Type}

/-- A value that is put under a name is found there, and every other as before. -/
theorem find?_insert (name other : String) (a : α) (values : Named α) :
    find? other (insert name a values) = if other = name then some a else find? other values := by
  split
  · next heq => rw [heq, find?_insert_self]
  · next hne => exact find?_insert_of_ne hne a values

/-- What is there stays there. -/
theorem isSome_find?_insert (values : Named α) (name : String) (a : α) (other : String)
    (h : (find? other values).isSome = true) :
    (find? other (insert name a values)).isSome = true := by
  rw [find?_insert]
  split
  · rfl
  · exact h

end Named

namespace Memory

/-- A file that is put has the bytes that it was put with. -/
theorem bytesOf_insert_self (m : Memory) (name : String) (file : FileBytes) :
    ({ m with files := m.files.insert name file } : Memory).bytesOf name = file := by
  rw [bytesOf, Named.find?_insert_self, Option.getD_some]

/-- Other files keep theirs. -/
theorem bytesOf_insert_of_ne (m : Memory) {name other : String} (file : FileBytes)
    (hne : other ≠ name) :
    ({ m with files := m.files.insert name file } : Memory).bytesOf other = m.bytesOf other := by
  rw [bytesOf, Named.find?_insert_of_ne hne, bytesOf]

end Memory

/-- The directory that names start from, without any files. -/
def Directory.bare : Directory := ⟨[], [], true⟩

/-- Files in memory, without limits, and the same files in a directory without folders. -/
structure SameStore (m : Memory) (d : Directory) : Prop where
  readsLeft : m.readsLeft = none
  writesLeft : m.writesLeft = none
  writeLimit : m.writeLimit = none
  folders : d.folders = []
  files : ∀ name, d.files.find? name = m.files.find? name

namespace SameStore

open Directory (IsStep)

variable {m : Memory} {d : Directory} {name : String}

/-- Both storages have the same bytes under every name. -/
theorem bytesOf_eq (h : SameStore m d) (name : String) : d.bytesOf name = m.bytesOf name := by
  rw [Directory.bytesOf, Memory.bytesOf, h.files]

/-- There are no folders to be in the way. -/
theorem folder_eq (h : SameStore m d) (name : String) : d.folders.contains name = false := by
  rw [h.folders]
  rfl

/-- **Both read the same** under a name of one step. -/
theorem contents_eq (h : SameStore m d) (hname : IsStep name) :
    (d.contents name).toOption = m.file? name := by
  rw [Directory.contents_of_isStep hname (h.folder_eq name), h.files, h.bytesOf_eq, Memory.file?,
    Memory.bytesOf]
  cases m.files.find? name <;> rfl

/-- Both say the same of what there is. -/
theorem contains_eq (h : SameStore m d) (hname : IsStep name) :
    Storage.contains d name = Storage.contains m name := by
  simp only [Storage.contains, Directory.contains,
    Directory.resolve_of_isStep hname (h.folder_eq name), h.files]
  cases m.files.find? name <;> rfl

/-- The same bytes are put in both. -/
theorem insert (h : SameStore m d) (name : String) (bytes : FileBytes) :
    SameStore { m with files := m.files.insert name bytes } (d.putFile name bytes) := by
  refine ⟨h.readsLeft, h.writesLeft, h.writeLimit, h.folders, fun other => ?_⟩
  simp only [Directory.putFile, Named.find?_insert, h.files]

/-- Memory puts a file again as it is. -/
theorem insert_bytesOf (h : SameStore m d) (hthere : (m.files.find? name).isSome = true) :
    SameStore { m with files := m.files.insert name (m.bytesOf name) } d := by
  refine ⟨h.readsLeft, h.writesLeft, h.writeLimit, h.folders, fun other => ?_⟩
  obtain ⟨file, hfile⟩ := Option.isSome_iff_exists.mp hthere
  simp only [Named.find?_insert, h.files, Memory.bytesOf, hfile, Option.getD_some]
  split
  · next heq => rw [heq, hfile]
  · rfl

end SameStore

/-! ## Streams -/

/-- Streams for the same on the same file, which is there.  They stand at the same place, unless
they are for appending. -/
structure SameStream (m : Memory) (s s' : Stream) : Prop where
  name_eq : s'.name = s.name
  mode_eq : s'.mode = s.mode
  position_eq : s.mode ≠ .append → s'.position = s.position
  isStep : Directory.IsStep s.name
  there : (m.files.find? s.name).isSome = true

namespace FileClient

open Directory (IsStep)

variable {m : FileClient Memory} {d : FileClient Directory} {handle : Nat} {name : String}

/-- The client uses names of one step, reads from streams for reading and writes to others, and has
one stream on a file at most. -/
def Keeps {σ : Type} (c : FileClient σ) : FileOp → Prop
  | .openFile _ name _ => IsStep name ∧ ∀ e ∈ c.streams, e.2.name ≠ name
  | .read handle _ => ∀ stream ∈ c.stream? handle, stream.mode = .read
  | .write handle _ => ∀ stream ∈ c.stream? handle, stream.mode ≠ .read
  | .contains name => IsStep name
  | .seek .. | .close .. => True

/-- The operation seeks an offset that no file in a directory reaches, writes no bytes to a place
behind the end of a file, or writes bytes to a stream for appending that is not at the end. -/
def Strays (m : FileClient Memory) : FileOp → Prop
  | .seek handle offset => (m.stream? handle).isSome = true ∧ Directory.offsetBound ≤ offset
  | .write handle bytes => ∃ stream ∈ m.stream? handle,
      if bytes = [] then (m.store.bytesOf stream.name).size < stream.position
      else stream.mode = .append ∧ stream.position ≠ (m.store.bytesOf stream.name).size
  | _ => False

/-- Both clients have the same files, and the same streams under the same handles. -/
structure Matches (m : FileClient Memory) (d : FileClient Directory) : Prop where
  store : SameStore m.store d.store
  streams : ∀ handle, (m.stream? handle = none ∧ d.stream? handle = none) ∨
    ∃ s s', m.stream? handle = some s ∧ d.stream? handle = some s' ∧ SameStream m.store s s'

/-- Every name leads to the same bytes in both, or to none. -/
def SameFiles (m : FileClient Memory) (d : FileClient Directory) : Prop :=
  ∀ name, IsStep name → m.store.file? name = (d.store.contents name).toOption

/-- The same files are of the same size. -/
theorem SameFiles.size_eq (h : SameFiles m d) (hname : IsStep name)
    (hfolder : d.store.folders.contains name = false) {file file' : FileBytes}
    (hm : m.store.files.find? name = some file) (hd : d.store.files.find? name = some file') :
    file.size = file'.size := by
  have heq := h name hname
  rw [Directory.contents_of_isStep hname hfolder, Memory.file?, hm, hd, Directory.bytesOf,
    hd] at heq
  have hlists : file.toList = file'.toList := Option.some.inj heq
  simpa using congrArg List.length hlists

/-- Clients that match leave the same files. -/
theorem Matches.sameFiles (h : Matches m d) : SameFiles m d := fun _ hname =>
  (h.store.contents_eq hname).symm

/-- A handle may be forgotten on both sides. -/
theorem Matches.drop (h : Matches m d) (handle : Nat) :
    Matches (m.drop handle) (d.drop handle) := by
  refine ⟨h.store, fun other => ?_⟩
  rw [stream?_drop, stream?_drop]
  split
  · exact .inl ⟨rfl, rfl⟩
  · exact h.streams other

/-- A stream is put back on stores that still have all files. -/
theorem Matches.put (h : Matches m d) {store : Memory} {store' : Directory}
    (hstore : SameStore store store')
    (hkept : ∀ name, (m.store.files.find? name).isSome = true →
      (store.files.find? name).isSome = true)
    (handle : Nat) {s s' : Stream} (hsame : SameStream store s s') :
    Matches (m.put store handle s) (d.put store' handle s') := by
  refine ⟨hstore, fun other => ?_⟩
  rw [stream?_put, stream?_put]
  split
  · exact .inr ⟨s, s', rfl, rfl, hsame⟩
  · rcases h.streams other with hnone | ⟨t, t', ht, ht', hsame'⟩
    · exact .inl hnone
    · exact .inr ⟨t, t', ht, ht', hsame'.name_eq, hsame'.mode_eq, hsame'.position_eq,
        hsame'.isStep, hkept _ hsame'.there⟩

/-! ## One operation -/

/-- Both clients give the same answer to the operation and match afterwards. -/
def MatchesAfter (m : FileClient Memory) (d : FileClient Directory) (op : FileOp) : Prop :=
  (m.perform op).1 = (d.perform op).1 ∧ Matches (m.perform op).2 (d.perform op).2

/-- A new stream stands on the same file in both. -/
theorem Matches.putNew (h : Matches m d) {store : Memory} {store' : Directory}
    (hstore : SameStore store store')
    (hkept : ∀ name, (m.store.files.find? name).isSome = true →
      (store.files.find? name).isSome = true)
    (hname : IsStep name) (hthere : (store.files.find? name).isSome = true) (mode : OpenMode)
    (offset : Nat) (hoffset : mode ≠ .append → offset = 0) :
    Matches (m.put store handle ⟨name, mode, offset⟩) (d.put store' handle ⟨name, mode, 0⟩) :=
  h.put hstore hkept handle ⟨rfl, rfl, fun hne => (hoffset hne).symm, hname, hthere⟩

/-- **Opening a file** answers the same and leaves matching streams. -/
theorem Matches.openFile (h : Matches m d) (hname : IsStep name) (mode : OpenMode) :
    MatchesAfter m d (.openFile handle name mode) := by
  have hresolve := Directory.resolve_of_isStep hname (h.store.folder_eq name)
  rw [h.store.files] at hresolve
  have hinsert : SameStore { m.store with files := m.store.files.insert name #[] }
      (d.store.putFile name #[]) := h.store.insert name #[]
  have hkept := Named.isSome_find?_insert m.store.files name #[]
  have hthere : ((m.store.files.insert name #[]).find? name).isSome = true := by
    rw [Named.find?_insert_self]
    rfl
  simp only [MatchesAfter, perform, Storage.openStream, Memory.openStream, Directory.openStream]
  cases hfind : m.store.files.find? name with
  | none =>
    simp only [hfind, Option.isSome_none, Bool.false_eq_true, if_false] at hresolve
    rw [hresolve]
    cases mode with
    | read => exact ⟨rfl, h⟩
    | write => exact ⟨rfl, h.putNew hinsert hkept hname hthere .write 0 fun _ => rfl⟩
    | append => exact ⟨rfl, h.putNew hinsert hkept hname hthere .append 0 fun _ => rfl⟩
  | some file =>
    have hfound : (m.store.files.find? name).isSome = true := by
      rw [hfind]
      rfl
    simp only [hfind, Option.isSome_some, if_true] at hresolve
    rw [hresolve]
    cases mode with
    | read => exact ⟨rfl, h.putNew h.store (fun _ => id) hname hfound .read 0 fun _ => rfl⟩
    | write => exact ⟨rfl, h.putNew hinsert hkept hname hthere .write 0 fun _ => rfl⟩
    | append =>
      exact ⟨rfl, h.putNew h.store (fun _ => id) hname hfound .append file.size
        fun hne => absurd rfl hne⟩

/-- **Reading** gives the same bytes. -/
theorem Matches.read (h : Matches m d) {count : Nat}
    (hkeeps : m.Keeps (.read handle count)) : MatchesAfter m d (.read handle count) := by
  rcases h.streams handle with ⟨hm, hd⟩ | ⟨s, s', hm, hd, hsame⟩
  · simp only [MatchesAfter, perform, hm, hd, true_and]
    exact h
  have hmode : s.mode = .read := hkeeps s hm
  have hposition : s'.position = s.position := hsame.position_eq (by simp [hmode])
  have hbytes : d.store.bytesOf s'.name = m.store.bytesOf s.name := by
    rw [hsame.name_eq, h.store.bytesOf_eq]
  have hnotName : s'.name ≠ "" := hsame.name_eq ▸ hsame.isStep.ne_here.1
  have hread : Storage.read d.store s' count =
      .ok ((m.store.bytesOf s.name).readAt s.position count,
        s'.advance ((m.store.bytesOf s.name).readAt s.position count).length, d.store) := by
    simp only [Storage.read, Directory.read]
    rw [if_neg (not_not.mpr (hsame.mode_eq.trans hmode)), if_neg hnotName, hbytes, hposition]
  simp only [MatchesAfter, perform, hm, hd, hread,
    Memory.read_of_unlimited h.store.readsLeft, true_and]
  refine h.put h.store (fun _ => id) handle ⟨hsame.name_eq, hsame.mode_eq, fun _ => ?_,
    hsame.isStep, hsame.there⟩
  simp only [Stream.advance, hposition]

/-- A write in memory that nothing limits. -/
theorem write_memory (h : SameStore m.store d.store) (s : Stream) (bytes : List UInt8) :
    Storage.write m.store s bytes = .ok (bytes.length, s.advance bytes.length,
      { m.store with files :=
          m.store.files.insert s.name ((m.store.bytesOf s.name).writeAt s.position bytes) }) := by
  simp only [Storage.write, Memory.write, h.writesLeft, h.writeLimit, Memory.spend?]

/-- An empty write does nothing in a directory. -/
theorem write_nil_directory {s : Stream} (store : Directory) (hmode : s.mode ≠ .read) :
    Storage.write store s [] = .ok (0, s, store) := by
  simp only [Storage.write, Directory.write]
  rw [if_neg hmode, if_pos trivial]

/-- Where a stream puts bytes in a directory. -/
theorem write_directory {s : Stream} {bytes : List UInt8} (store : Directory)
    (hmode : s.mode ≠ .read) (hbytes : bytes ≠ []) :
    Storage.write store s bytes =
      let offset := if s.mode = .append then (store.bytesOf s.name).size else s.position
      .ok (bytes.length, s.atOffset (offset + bytes.length),
        store.putFile s.name ((store.bytesOf s.name).writeAt offset bytes)) := by
  simp only [Storage.write, Directory.write]
  rw [if_neg hmode, if_neg hbytes]

/-- **Writing** leaves the same files, unless it strays. -/
theorem Matches.write (h : Matches m d) {bytes : List UInt8}
    (hkeeps : m.Keeps (.write handle bytes)) (hstays : ¬ m.Strays (.write handle bytes)) :
    MatchesAfter m d (.write handle bytes) := by
  rcases h.streams handle with ⟨hm, hd⟩ | ⟨s, s', hm, hd, hsame⟩
  · simp only [MatchesAfter, perform, hm, hd, true_and]
    exact h
  have hmode : s.mode ≠ .read := hkeeps s hm
  have hmode' : s'.mode ≠ .read := hsame.mode_eq ▸ hmode
  have hplace := fun hstrays => hstays ⟨s, hm, hstrays⟩
  have hkept := Named.isSome_find?_insert m.store.files s.name
  simp only [MatchesAfter, perform, hm, hd, write_memory h.store s bytes]
  by_cases hbytes : bytes = []
  · subst hbytes
    -- memory writes the file again as it is
    have hwithin : s.position ≤ (m.store.bytesOf s.name).size :=
      Nat.le_of_not_lt fun hlt => hplace ((if_pos rfl).mpr hlt)
    rw [FileBytes.writeAt_nil hwithin, write_nil_directory d.store hmode']
    exact ⟨rfl, h.put (h.store.insert_bytesOf hsame.there) (hkept _) handle
      ⟨hsame.name_eq, hsame.mode_eq, hsame.position_eq, hsame.isStep, hkept _ _ hsame.there⟩⟩
  · have hoffset : (if s'.mode = .append then (d.store.bytesOf s'.name).size else s'.position)
        = s.position := by
      rw [hsame.mode_eq, hsame.name_eq, h.store.bytesOf_eq]
      split
      · next happend =>
        by_contra hne
        exact hplace ((if_neg hbytes).mpr ⟨happend, fun heq => hne heq.symm⟩)
      · next happend => exact hsame.position_eq happend
    rw [write_directory d.store hmode' hbytes, hoffset, hsame.name_eq, h.store.bytesOf_eq]
    exact ⟨rfl, h.put (h.store.insert s.name _) (hkept _) handle
      ⟨hsame.name_eq, hsame.mode_eq, fun _ => rfl, hsame.isStep, hkept _ _ hsame.there⟩⟩

/-- **Seeking** is taken by both, unless the offset is too large for a directory. -/
theorem Matches.seek (h : Matches m d) {offset : Nat}
    (hstays : ¬ m.Strays (.seek handle offset)) : MatchesAfter m d (.seek handle offset) := by
  rcases h.streams handle with ⟨hm, hd⟩ | ⟨s, s', hm, hd, hsame⟩
  · simp only [MatchesAfter, perform, hm, hd, true_and]
    exact h
  have hbound : offset < Directory.offsetBound :=
    Nat.lt_of_not_le fun hle => hstays ⟨by rw [hm]; rfl, hle⟩
  simp only [MatchesAfter, perform, hm, hd, Storage.seek, Directory.seek, if_pos hbound, true_and]
  exact h.put h.store (fun _ => id) handle
    ⟨hsame.name_eq, hsame.mode_eq, fun _ => rfl, hsame.isStep, hsame.there⟩

/-- **Closing** ends the streams and changes no file. -/
theorem Matches.close (h : Matches m d) : MatchesAfter m d (.close handle) := by
  rcases h.streams handle with ⟨hm, hd⟩ | ⟨s, s', hm, hd, -⟩
  · simp only [MatchesAfter, perform, hm, hd, true_and]
    exact h
  · simp only [MatchesAfter, perform, hm, hd, Storage.close, true_and]
    exact h.drop handle

/-- **An operation that does not stray is answered alike by both**, and they still have the same
files and streams. -/
theorem Matches.step (h : Matches m d) {op : FileOp} (hkeeps : m.Keeps op)
    (hstays : ¬ m.Strays op) : MatchesAfter m d op := by
  cases op with
  | openFile handle name mode => exact h.openFile hkeeps.1 mode
  | read handle count => exact h.read hkeeps
  | write handle bytes => exact h.write hkeeps hstays
  | seek handle offset => exact h.seek hstays
  | close handle => exact h.close
  | contains name =>
    exact ⟨congrArg FileAnswer.whether (h.store.contains_eq hkeeps).symm, h⟩

/-- A write that strays leaves files of different sizes. -/
theorem Matches.not_sameFiles_of_strays (h : Matches m d) {bytes : List UInt8}
    (hkeeps : m.Keeps (.write handle bytes)) (hstrays : m.Strays (.write handle bytes)) :
    ¬ SameFiles (m.perform (.write handle bytes)).2 (d.perform (.write handle bytes)).2 := by
  obtain ⟨s, hm, hplace⟩ := hstrays
  rcases h.streams handle with ⟨hnone, -⟩ | ⟨t, s', hm', hd, hsame⟩
  · rw [hnone] at hm
    cases hm
  obtain rfl : t = s := Option.some.inj (hm'.symm.trans hm)
  intro hfiles
  have hmode : s'.mode ≠ .read := hsame.mode_eq ▸ hkeeps t hm'
  have hfolder := h.store.folder_eq t.name
  simp only [perform, hm', hd, write_memory h.store t bytes] at hfiles
  by_cases hbytes : bytes = []
  · rw [if_pos hbytes] at hplace
    subst hbytes
    obtain ⟨file, hfile⟩ := Option.isSome_iff_exists.mp hsame.there
    rw [write_nil_directory d.store hmode] at hfiles
    have hsize := hfiles.size_eq hsame.isStep hfolder (Named.find?_insert_self _ _ _)
      ((h.store.files t.name).trans hfile)
    rw [FileBytes.size_writeAt, Memory.bytesOf, hfile, Option.getD_some] at hsize
    rw [Memory.bytesOf, hfile, Option.getD_some] at hplace
    simp only [List.length_nil] at hsize
    omega
  · rw [if_neg hbytes] at hplace
    have hlength := List.length_pos_iff.mpr hbytes
    rw [write_directory d.store hmode hbytes, hsame.mode_eq, if_pos hplace.1, hsame.name_eq,
      h.store.bytesOf_eq] at hfiles
    have hsize := hfiles.size_eq hsame.isStep hfolder (Named.find?_insert_self _ _ _)
      (Named.find?_insert_self _ _ _)
    rw [FileBytes.size_writeAt, FileBytes.size_writeAt] at hsize
    have := hplace.2
    omega

/-- **An operation that strays is seen at once**: in the answer, or in a file. -/
theorem Matches.not_same_of_strays (h : Matches m d) {op : FileOp} (hkeeps : m.Keeps op)
    (hstrays : m.Strays op) :
    (m.perform op).1 ≠ (d.perform op).1 ∨ ¬ SameFiles (m.perform op).2 (d.perform op).2 := by
  cases op with
  | seek handle offset =>
    left
    obtain ⟨hsome, hbound⟩ := hstrays
    rcases h.streams handle with ⟨hnone, -⟩ | ⟨s, s', hm, hd, -⟩
    · rw [hnone] at hsome
      cases hsome
    · simp [perform, hm, hd, Storage.seek, Directory.seek, if_neg (Nat.not_lt.mpr hbound)]
  | write handle bytes => exact .inr (h.not_sameFiles_of_strays hkeeps hstrays)
  | openFile | read | close | contains => exact hstrays.elim

/-! ## Streams for appending that are not sought -/

/-- The operation seeks no stream for appending, nor an offset that no file in a directory reaches,
and writes at least one byte. -/
def IsSteady (m : FileClient Memory) : FileOp → Prop
  | .seek handle offset => offset < Directory.offsetBound ∧
      ∀ stream ∈ m.stream? handle, stream.mode ≠ .append
  | .write _ bytes => bytes ≠ []
  | _ => True

instance decidableIsSteady (m : FileClient Memory) : ∀ op, Decidable (m.IsSteady op)
  | .seek handle offset => inferInstanceAs (Decidable (offset < Directory.offsetBound ∧
      ∀ stream ∈ m.stream? handle, stream.mode ≠ .append))
  | .write _ bytes => inferInstanceAs (Decidable (bytes ≠ []))
  | .openFile .. | .read .. | .close .. | .contains .. => inferInstanceAs (Decidable True)

/-- No two streams are on one file, and those for appending stand at its end. -/
structure AppendsAtEnd (m : FileClient Memory) : Prop where
  apart : ∀ {handle other s t}, m.stream? handle = some s → m.stream? other = some t →
    handle ≠ other → s.name ≠ t.name
  atEnd : ∀ {handle s}, m.stream? handle = some s → s.mode = .append →
    s.position = (m.store.bytesOf s.name).size

namespace AppendsAtEnd

theorem new (store : Memory) : AppendsAtEnd (FileClient.new store) :=
  ⟨fun h => by simp at h, fun h => by simp at h⟩

/-- An operation that does not stray from the ends. -/
theorem not_strays (h : AppendsAtEnd m) {op : FileOp} (hsteady : m.IsSteady op) :
    ¬ m.Strays op := by
  cases op with
  | seek handle offset => exact fun hstrays => Nat.not_lt.mpr hstrays.2 hsteady.1
  | write handle bytes =>
    rintro ⟨s, hs, hplace⟩
    rw [if_neg hsteady] at hplace
    exact hplace.2 (h.atEnd hs hplace.1)
  | openFile | read | close | contains => exact id

/-- A handle that is forgotten is no append handle. -/
theorem drop (h : AppendsAtEnd m) (handle : Nat) : AppendsAtEnd (m.drop handle) := by
  have hstays : ∀ {other s}, (m.drop handle).stream? other = some s →
      m.stream? other = some s := by
    intro other s hs
    rw [stream?_drop] at hs
    split at hs
    · cases hs
    · exact hs
  exact ⟨fun hs ht => h.apart (hstays hs) (hstays ht), fun hs => h.atEnd (hstays hs)⟩

/-- A stream is put on its file, and no other file is touched. -/
theorem put (h : AppendsAtEnd m) {store : Memory} {s : Stream}
    (hapart : ∀ other t, other ≠ handle → m.stream? other = some t → t.name ≠ s.name)
    (hbytes : ∀ other, other ≠ s.name → store.bytesOf other = m.store.bytesOf other)
    (hend : s.mode = .append → s.position = (store.bytesOf s.name).size) :
    AppendsAtEnd (m.put store handle s) := by
  constructor
  · intro first second t u ht hu hne
    rw [stream?_put] at ht hu
    split at ht
    · next hfirst =>
      rw [if_neg fun hsecond => hne (hfirst.trans hsecond.symm)] at hu
      obtain rfl := Option.some.inj ht
      exact (hapart second u (fun hsecond => hne (hfirst.trans hsecond.symm)) hu).symm
    · next hfirst =>
      split at hu
      · obtain rfl := Option.some.inj hu
        exact hapart first t hfirst ht
      · exact h.apart ht hu hne
  · intro other t ht happend
    rw [stream?_put] at ht
    split at ht
    · obtain rfl := Option.some.inj ht
      exact hend happend
    · next hother =>
      exact (h.atEnd ht happend).trans
        (congrArg Array.size (hbytes _ (hapart other t hother ht))).symm

/-- A stream that is moved stays on its file. -/
theorem move (h : AppendsAtEnd m) {s : Stream} (hs : m.stream? handle = some s)
    (moved : Stream) (hname : moved.name = s.name) {store : Memory}
    (hbytes : ∀ other, other ≠ s.name → store.bytesOf other = m.store.bytesOf other)
    (hend : moved.mode = .append → moved.position = (store.bytesOf s.name).size) :
    AppendsAtEnd (m.put store handle moved) := by
  rw [← hname] at hbytes hend
  exact h.put (fun other t hne ht => hname ▸ h.apart ht hs hne) hbytes hend

/-- A new stream stands on a file that no stream stands on. -/
theorem openFile (h : AppendsAtEnd m) (hname : ∀ e ∈ m.streams, e.2.name ≠ name)
    (mode : OpenMode) : AppendsAtEnd (m.perform (.openFile handle name mode)).2 := by
  have hapart : ∀ other t, other ≠ handle → m.stream? other = some t → t.name ≠ name := by
    intro other t _ ht
    obtain ⟨e, he, rfl⟩ := exists_mem_of_stream? ht
    exact hname e he
  have hothers : ∀ other, other ≠ name →
      ({ m.store with files := m.store.files.insert name #[] } : Memory).bytesOf other
        = m.store.bytesOf other := fun _ => m.store.bytesOf_insert_of_ne #[]
  simp only [perform, Storage.openStream, Memory.openStream]
  cases hfind : m.store.files.find? name with
  | none =>
    cases mode with
    | read => exact h
    | write => exact h.put hapart hothers fun happend => by cases happend
    | append =>
      exact h.put hapart hothers fun _ =>
        (congrArg Array.size (m.store.bytesOf_insert_self name #[])).symm
  | some file =>
    cases mode with
    | read => exact h.put hapart (fun _ _ => rfl) fun happend => by cases happend
    | write => exact h.put hapart hothers fun happend => by cases happend
    | append =>
      refine h.put hapart (fun _ _ => rfl) fun _ => ?_
      rw [Memory.bytesOf, hfind]
      rfl

/-- What is written at the end of a file ends the file. -/
theorem write (h : AppendsAtEnd m) (hmatch : Matches m d) (bytes : List UInt8) :
    AppendsAtEnd (m.perform (.write handle bytes)).2 := by
  cases hs : m.stream? handle with
  | none => simpa only [perform, hs] using h
  | some s =>
    simp only [perform, hs, write_memory hmatch.store]
    refine h.move hs (s.advance _) rfl (fun _ => m.store.bytesOf_insert_of_ne _) fun happend => ?_
    rw [Memory.bytesOf_insert_self, FileBytes.size_writeAt, ← h.atEnd hs happend, Stream.advance,
      Nat.max_eq_right (Nat.le_add_right _ _)]

/-- Streams for appending stay at the end when no stream is sought that is for appending. -/
theorem perform (h : AppendsAtEnd m) (hmatch : Matches m d) {op : FileOp} (hkeeps : m.Keeps op)
    (hsteady : m.IsSteady op) : AppendsAtEnd (m.perform op).2 := by
  cases op with
  | openFile handle name mode => exact h.openFile hkeeps.2 mode
  | read handle count =>
    cases hs : m.stream? handle with
    | none => simpa only [FileClient.perform, hs] using h
    | some s =>
      have hmode : s.mode ≠ .append := by
        rw [hkeeps s hs]
        decide
      simp only [FileClient.perform, hs, Memory.read_of_unlimited hmatch.store.readsLeft]
      exact h.move hs (s.advance _) rfl (fun _ _ => rfl) fun happend => absurd happend hmode
  | write handle bytes => exact h.write hmatch bytes
  | seek handle offset =>
    cases hs : m.stream? handle with
    | none => simpa only [FileClient.perform, hs] using h
    | some s =>
      simp only [FileClient.perform, hs, Storage.seek]
      exact h.move hs (s.atOffset offset) rfl (fun _ _ => rfl)
        fun happend => absurd happend (hsteady.2 s hs)
  | close handle =>
    cases hs : m.stream? handle with
    | none => simpa only [FileClient.perform, hs] using h
    | some s =>
      simp only [FileClient.perform, hs, Storage.close]
      exact h.drop handle
  | contains name => exact h

end AppendsAtEnd

/-! ## Any operations -/

/-- Both clients give the same answers to the operations and have the same files afterwards. -/
def SameAfter (m : FileClient Memory) (d : FileClient Directory) (ops : List FileOp) : Prop :=
  (m.performAll ops).1 = (d.performAll ops).1 ∧ SameFiles (m.performAll ops).2 (d.performAll ops).2

/-- To be the same after a run is to be so after its first operation and the rest. -/
theorem sameAfter_cons {op : FileOp} {ops : List FileOp} : SameAfter m d (op :: ops) ↔
    (m.perform op).1 = (d.perform op).1 ∧
      SameAfter (m.perform op).2 (d.perform op).2 ops := by
  simp only [SameAfter, performAll, List.cons.injEq, and_assoc]

/-- Clients that match stay the same for as long as no operation strays. -/
theorem Matches.sameAfter_iff (h : Matches m d) {ops : List FileOp} (hkeeps : m.Along Keeps ops) :
    (∀ before, before <+: ops → SameAfter m d before) ↔
      m.Along (fun c op => ¬ c.Strays op) ops := by
  induction ops generalizing m d with
  | nil =>
    refine iff_of_true (fun before hbefore => ?_) trivial
    rw [List.prefix_nil.mp hbefore]
    exact ⟨rfl, h.sameFiles⟩
  | cons op ops ih =>
    by_cases hstrays : m.Strays op
    · refine iff_of_false (fun hsame => ?_) fun hstays => hstays.1 hstrays
      obtain ⟨hanswer, -, hfiles⟩ := sameAfter_cons.mp (hsame [op] (List.prefix_append [op] ops))
      rcases h.not_same_of_strays hkeeps.1 hstrays with hne | hne
      · exact hne hanswer
      · exact hne hfiles
    obtain ⟨hanswer, hmatch⟩ := h.step hkeeps.1 hstrays
    have hrest := ih hmatch hkeeps.2
    constructor
    · refine fun hsame => ⟨hstrays, hrest.mp fun before hbefore => ?_⟩
      exact (sameAfter_cons.mp (hsame (op :: before) (List.cons_prefix_cons.mpr ⟨rfl, hbefore⟩))).2
    · rintro ⟨-, hstays⟩ before hbefore
      rcases List.prefix_cons_iff.mp hbefore with rfl | ⟨rest, rfl, hprefix⟩
      · exact ⟨rfl, h.sameFiles⟩
      · exact sameAfter_cons.mpr ⟨hanswer, hrest.mpr hstays rest hprefix⟩

/-- Operations that are steady never stray. -/
theorem AppendsAtEnd.along_not_strays (h : AppendsAtEnd m) (hmatch : Matches m d)
    {ops : List FileOp} (hkeeps : m.Along Keeps ops) (hsteady : m.Along IsSteady ops) :
    m.Along (fun c op => ¬ c.Strays op) ops := by
  induction ops generalizing m d with
  | nil => trivial
  | cons op ops ih =>
    have hstays := h.not_strays hsteady.1
    exact ⟨hstays, ih (h.perform hmatch hkeeps.1 hsteady.1) (hmatch.step hkeeps.1 hstays).2
      hkeeps.2 hsteady.2⟩

/-- An empty memory and an empty directory match. -/
theorem matches_new : Matches (new Memory.empty) (new Directory.bare) :=
  ⟨⟨rfl, rfl, rfl, rfl, fun _ => rfl⟩, fun _ => .inl ⟨rfl, rfl⟩⟩

/-- **Files in memory and files in a directory are the same to a client** that has one stream on a
file at most, reads from streams for reading and writes to others: the answers to any operations are
the same and so are the files, up to the first operation that strays and no further.  None strays
when streams for appending are not sought, offsets are some that a file can reach, and no write is
without bytes. -/
theorem lockstep {ops : List FileOp} (hkeeps : (new Memory.empty).Along Keeps ops) :
    ((∀ before, before <+: ops → SameAfter (new Memory.empty) (new Directory.bare) before) ↔
      (new Memory.empty).Along (fun c op => ¬ c.Strays op) ops) ∧
    ((new Memory.empty).Along IsSteady ops →
      SameAfter (new Memory.empty) (new Directory.bare) ops) := by
  have hiff := matches_new.sameAfter_iff hkeeps
  refine ⟨hiff, fun hsteady => hiff.mpr ?_ ops List.prefix_rfl⟩
  exact (AppendsAtEnd.new _).along_not_strays matches_new hkeeps hsteady

theorem isStep_out : IsStep "out" :=
  Directory.isStep_of_not_mem (by decide) (by decide) (by decide) (by decide)

/-- A file is written past its end, appended to and read. -/
theorem lockstep_write_append_read :
    let ops : List FileOp := [.openFile 1 "out" .write, .write 1 [97, 98, 99], .seek 1 5,
      .write 1 [100], .close 1, .openFile 2 "out" .append, .write 2 [101], .close 2,
      .openFile 1 "out" .read, .seek 1 1, .read 1 9, .close 1, .contains "out"]
    (new Memory.empty).Along Keeps ops ∧ (new Memory.empty).Along IsSteady ops ∧
      ((new Memory.empty).performAll ops).1 = [.done, .count 3, .done, .count 1, .done, .done,
        .count 1, .done, .done, .done, .bytes [98, 99, 0, 0, 100, 101], .done, .whether true] ∧
      SameAfter (new Memory.empty) (new Directory.bare) ops := by
  intro ops
  have hkeeps : (new Memory.empty).Along Keeps ops := by
    refine ⟨⟨isStep_out, by decide⟩, ?_, trivial, ?_, trivial,
      ⟨isStep_out, by decide +kernel⟩, ?_, trivial, ⟨isStep_out, by decide +kernel⟩, trivial,
      ?_, trivial, isStep_out, trivial⟩
    all_goals
      unfold Keeps
      decide +kernel
  have hsteady : (new Memory.empty).Along IsSteady ops := by decide +kernel
  exact ⟨hkeeps, hsteady, by decide +kernel, (lockstep hkeeps).2 hsteady⟩

/-- A stream for appending is sought and written: memory puts the byte at the stream's place, the
directory at the end. -/
theorem not_lockstep_append_seek :
    let ops : List FileOp := [.openFile 1 "out" .write, .write 1 [97, 98, 99], .close 1,
      .openFile 1 "out" .append, .write 1 [100, 101, 102], .seek 1 1, .write 1 [88], .close 1]
    (new Memory.empty).Along Keeps ops ∧
      ((new Memory.empty).performAll ops).2.store.file? "out"
        = some [97, 88, 99, 100, 101, 102] ∧
      ((new Directory.bare).performAll ops).2.store.contents "out"
        = .ok [97, 98, 99, 100, 101, 102, 88] ∧
      ¬ SameAfter (new Memory.empty) (new Directory.bare) ops := by
  intro ops
  have hkeeps : (new Memory.empty).Along Keeps ops := by
    refine ⟨⟨isStep_out, by decide⟩, ?_, trivial, ⟨isStep_out, by decide +kernel⟩, ?_,
      trivial, ?_, trivial, trivial⟩
    all_goals
      unfold Keeps
      decide +kernel
  have hmemory : ((new Memory.empty).performAll ops).2.store.file? "out"
      = some [97, 88, 99, 100, 101, 102] := by decide +kernel
  -- the directory when the stream for writing is open, when it is closed, and when the stream for
  -- appending is open
  let written : FileClient Directory := ⟨⟨[("out", #[])], [], true⟩, [(1, ⟨"out", .write, 0⟩)]⟩
  let closed : FileClient Directory := ⟨⟨[("out", #[97, 98, 99])], [], true⟩, []⟩
  let appending := closed.put closed.store 1 ⟨"out", .append, 0⟩
  have hopen : (new Directory.bare).perform (.openFile 1 "out" .write) = (.done, written) := by
    simp only [perform, new, Storage.openStream, Directory.openStream]
    rw [Directory.resolve_of_isStep isStep_out rfl]
    rfl
  have hreopen : closed.perform (.openFile 1 "out" .append) = (.done, appending) := by
    simp only [closed, perform, Storage.openStream, Directory.openStream]
    rw [Directory.resolve_of_isStep isStep_out rfl]
    rfl
  have hlast : ((new Directory.bare).performAll ops).2
      = (appending.performAll (ops.drop 4)).2 := by
    calc ((new Directory.bare).performAll ops).2
        = (((new Directory.bare).perform (.openFile 1 "out" .write)).2.performAll ops.tail).2 := rfl
      _ = ((closed.perform (.openFile 1 "out" .append)).2.performAll (ops.drop 4)).2 := by
          rw [hopen]
          rfl
      _ = (appending.performAll (ops.drop 4)).2 := by rw [hreopen]
  have hdirectory : ((new Directory.bare).performAll ops).2.store.contents "out"
      = .ok [97, 98, 99, 100, 101, 102, 88] := by
    rw [hlast, Directory.contents_of_isStep isStep_out (by decide +kernel)]
    decide +kernel
  refine ⟨hkeeps, hmemory, hdirectory, fun hsame => ?_⟩
  have hfiles := hsame.2 "out" isStep_out
  rw [hmemory, hdirectory] at hfiles
  cases hfiles

end FileClient
end ScreenEditor
