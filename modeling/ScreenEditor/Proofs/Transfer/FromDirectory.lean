import Mathlib.Data.String.Basic
import ScreenEditor.Proofs.Transfer.Loading

/-!
# Loads from a directory

A load reads one file and writes none, so the directory is afterwards as it was
(`store_of_load`).  A load that succeeds has read a file: a folder can be opened but not read, and
the empty name leads to a folder or to nothing (`contents_of_load_ok`).
-/

namespace ScreenEditor.Directory

variable {d d' : Directory} {name : String} {stream stream' : Stream}

/-- What can be opened for reading is a file or a folder, and the directory stays as it is. -/
theorem of_open_read (h : Storage.openStream d name .read = .ok (stream, d')) : d' = d ∧
    (stream.name = "" ∨ ∃ path, d.resolve name = .ok (.file path) ∧ stream = ⟨path, .read, 0⟩) := by
  simp only [Storage.openStream, openStream] at h
  cases hr : d.resolve name with
  | error fault => simp [hr] at h
  | ok place =>
      cases place with
      | noFolder fault => simp [hr] at h
      | absent path => simp [hr] at h
      | folder =>
          simp only [hr, Except.ok.injEq, Prod.mk.injEq] at h
          obtain ⟨rfl, rfl⟩ := h
          exact ⟨rfl, .inl rfl⟩
      | file path =>
          simp only [hr, Except.ok.injEq, Prod.mk.injEq] at h
          obtain ⟨rfl, rfl⟩ := h
          exact ⟨rfl, .inr ⟨path, rfl, rfl⟩⟩

/-- What can be read is a file, and the directory stays as it is. -/
theorem of_read {count : Nat} {bytes : List UInt8}
    (h : Storage.read d stream count = .ok (bytes, stream', d')) :
    d' = d ∧ stream.name ≠ "" := by
  simp only [Storage.read, read] at h
  split at h
  · cases h
  · split at h
    · cases h
    · next hne =>
      obtain ⟨-, -, rfl⟩ := Prod.mk.inj (Except.ok.inj h)
      exact ⟨rfl, hne⟩

/-- Reading to the end leaves the directory as it is, wherever it ends. -/
theorem store_readAll (name : String) (chunk : Nat) (r : Load.Reading Directory) :
    (∀ done, Load.readAll name chunk r = .ok done → done.store = r.store) ∧
      ∀ failed, Load.readAll name chunk r = .error failed → failed.store = r.store := by
  fun_induction Load.readAll name chunk r with
  | case1 r fault hread =>
      refine ⟨fun done h => (by cases h), fun failed h => ?_⟩
      obtain rfl := Except.error.inj h
      rfl
  | case2 r stream store hread =>
      refine ⟨fun done h => ?_, fun failed h => by cases h⟩
      obtain rfl := Except.ok.inj h
      exact (of_read hread).1
  | case3 r byte rest stream store hread sink hfeed =>
      refine ⟨fun done h => (by cases h), fun failed h => ?_⟩
      obtain rfl := Except.error.inj h
      exact (of_read hread).1
  | case4 r byte rest stream store hread sink hfeed hlt ih =>
      have hstore : store = r.store := (of_read hread).1
      exact ⟨fun done h => (ih.1 done h).trans hstore, fun failed h => (ih.2 failed h).trans hstore⟩

/-- **A load leaves the directory as it was**, whether it succeeds or not. -/
theorem store_of_load (t : SegmentTable) (d : Directory) (name : String) (mode : LoadMode)
    (settings : TransferSettings) : (t.load d name mode settings).2.2 = d := by
  rw [load_eq]
  cases hopen : Storage.openStream d name .read with
  | error fault => rfl
  | ok opened =>
      obtain ⟨stream, d'⟩ := opened
      obtain rfl : d' = d := (of_open_read hopen).1
      have hread := store_readAll name (max settings.readChunk 1)
        ⟨Load.firstSink t name mode settings, 0, stream, d'⟩
      simp only
      split
      · next failed hfailed => exact hread.2 failed hfailed
      · next done hdone =>
        split
        · exact hread.1 done hdone
        · exact hread.1 done hdone

/-- Only a name that is not empty leads to a file. -/
theorem ne_empty_of_resolve {path : String} (h : d.resolve name = .ok (.file path)) :
    name ≠ "" := by
  rintro rfl
  rw [resolve] at h
  split at h
  · cases h
  split at h
  · cases h
  rw [if_pos rfl] at h
  split at h <;> cases h

/-- The empty name has no contents. -/
theorem ne_empty_of_contents {file : List UInt8} (h : d.contents name = .ok file) :
    name ≠ "" := by
  rw [contents] at h
  split at h
  · cases h
  · cases h
  · cases h
  · cases h
  · next path hresolve => exact ne_empty_of_resolve hresolve

/-- **What was loaded is a file.** -/
theorem contents_of_load_ok {t : SegmentTable} {mode : LoadMode} {settings : TransferSettings}
    {report : LoadReport} (hload : (t.load d name mode settings).1 = .ok report) :
    name ≠ "" ∧ ∃ file, d.contents name = .ok file := by
  obtain ⟨stream, d', done, -, hopen, hread, -, -, -⟩ := (of_load_ok hload).run
  have hfirst : stream.name ≠ "" := by
    rw [Load.readAll] at hread
    split at hread
    · cases hread
    · next h => exact (of_read h).2
    · next h => exact (of_read h).2
  obtain ⟨-, hempty | ⟨path, hresolve, -⟩⟩ := of_open_read hopen
  · exact absurd hempty hfirst
  · exact ⟨ne_empty_of_resolve hresolve, (d.bytesOf path).toList, by rw [contents, hresolve]⟩

/-! ## Names of one step -/

/-- A name of one step that stays in the directory. -/
structure IsStep (name : String) : Prop where
  readable : name.contains '\x00' = false
  size : name.utf8ByteSize ≤ maxFileName
  split : name.splitOn "/" = [name]
  relative : name.startsWith "/" = false
  ne_here : name ≠ "" ∧ name ≠ "."
  ne_above : name ≠ ".."

/-- A search for a separator that does not occur goes on to the end and splits nothing. -/
theorem splitOnAux_of_not_mem {c : Char} {r : List Char} (h : c ∉ r) (l : List Char) :
    (String.ofList (l ++ r)).splitOnAux (String.singleton c) 0 ⟨String.utf8Len l⟩ 0 []
      = [String.ofList (l ++ r)] := by
  induction r generalizing l with
  | nil =>
      rw [String.splitOnAux, if_pos ((String.atEnd_of_valid l []).mpr rfl)]
      simpa using String.extract_of_valid [] l []
  | cons d r ih =>
      obtain ⟨hne, hrest⟩ := not_or.mp (mt List.mem_cons.mpr h)
      have hend : ¬ String.Pos.Raw.atEnd (String.ofList (l ++ d :: r)) ⟨String.utf8Len l⟩ = true :=
        fun hend => List.cons_ne_nil d r ((String.atEnd_of_valid l (d :: r)).mp hend)
      have hseparator : String.Pos.Raw.get (String.singleton c) 0 = c := by
        simpa using String.get_of_valid [] [c]
      have hother : ¬ (d == c) = true := fun heq => hne (eq_of_beq heq).symm
      have hlater := ih hrest (l ++ [d])
      rw [List.append_assoc, List.singleton_append, String.utf8Len_append, String.utf8Len_cons,
        String.utf8Len_nil, Nat.zero_add] at hlater
      rw [String.splitOnAux, if_neg hend, String.get_of_valid l (d :: r), hseparator,
        List.headD_cons, if_neg hother]
      exact (congrArg (String.splitOnAux _ _ 0 · 0 []) (String.next_of_valid l d r)).trans hlater

/-- **A name without a slash is one step**, if it is a name at all and not one of the two that lead
elsewhere. -/
theorem isStep_of_not_mem (hslash : '/' ∉ name.toList) (hzero : '\x00' ∉ name.toList)
    (hsize : name.utf8ByteSize ≤ maxFileName) (hnames : name ∉ ["", ".", ".."]) :
    IsStep name := by
  simp only [List.mem_cons, List.not_mem_nil, or_false, not_or] at hnames
  obtain ⟨hempty, hhere, habove⟩ := hnames
  refine ⟨by simp [hzero], hsize, ?_, ?_, ⟨hempty, hhere⟩, habove⟩
  · have hwhole := splitOnAux_of_not_mem hslash []
    rw [List.nil_append, String.ofList_toList] at hwhole
    exact hwhole
  · rw [Bool.eq_false_iff]
    intro hstart
    have hfirst : ['/'] <+: name.toList := by simpa using hstart
    exact hslash (hfirst.subset List.mem_cons_self)

/-- A name of one step leads to the file that has it, unless a folder has it. -/
theorem resolve_of_isStep (h : IsStep name) (hfolder : d.folders.contains name = false) :
    d.resolve name =
      if (d.files.find? name).isSome then .ok (.file name) else .ok (.absent name) := by
  have hpath : pathOf [name] = name := by simp [pathOf]
  have hsize : ¬ maxPath < name.utf8ByteSize := Nat.not_lt.mpr (h.size.trans (by decide))
  rw [resolve, h.readable, if_neg Bool.false_ne_true, if_neg hsize, if_neg h.ne_here.1, h.relative,
    if_neg Bool.false_ne_true, h.split, follow]
  simp only [hpath]
  rw [if_neg (not_or.mpr h.ne_here), if_neg h.ne_above, hfolder, if_neg Bool.false_ne_true,
    if_pos trivial, lastPlace, faultAt, if_neg (Nat.not_lt.mpr h.size)]
  cases (d.files.find? name).isSome <;> rfl

theorem openStream_of_isStep (h : IsStep name) (hfolder : d.folders.contains name = false) :
    Storage.openStream d name .read =
      if (d.files.find? name).isSome then .ok (⟨name, .read, 0⟩, d) else .error .notFound := by
  simp only [Storage.openStream, openStream, resolve_of_isStep h hfolder]
  cases (d.files.find? name).isSome <;> rfl

theorem contents_of_isStep (h : IsStep name) (hfolder : d.folders.contains name = false) :
    d.contents name =
      if (d.files.find? name).isSome then .ok (d.bytesOf name).toList else .error .notFound := by
  rw [contents, resolve_of_isStep h hfolder]
  cases (d.files.find? name).isSome <;> rfl

end ScreenEditor.Directory
