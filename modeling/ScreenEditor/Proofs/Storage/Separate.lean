import ScreenEditor.Proofs.Storage.Writing

/-!
# Files that are kept apart

A name leads to a place, and at every place there is one file or none.  Several names may lead to
one place, as paths of a directory do.  A storage keeps its files apart when writing to a stream
changes no file but the one at the stream's place.

Files in memory and files in a directory are kept apart.
-/

namespace ScreenEditor

/-- A storage whose streams change one file each.  `place?` is the place of the file that a name
leads to, and `stored` what is kept at a place. -/
class SeparateStorage (σ : Type) extends FaithfulStorage σ where
  place? : σ → String → Option String
  stored : σ → String → Option (List UInt8)
  file?_eq : ∀ (store : σ) (name : String),
    file? store name = (place? store name).bind (stored store)
  apart_open : ∀ {store store' : σ} {name : String} {stream : Stream},
    openStream store name .write = .ok (stream, store') →
      place? store' name = some stream.name ∧
        ∀ other, other ≠ stream.name → stored store' other = stored store other
  apart_write : ∀ {store store' : σ} {stream stream' : Stream} {bytes : List UInt8} {count : Nat},
    write store stream bytes = .ok (count, stream', store') →
      stream'.name = stream.name ∧
        (∀ name, place? store name = some stream.name → place? store' name = some stream.name) ∧
        ∀ other, other ≠ stream.name → stored store' other = stored store other
  apart_close : ∀ {store store' : σ} {stream : Stream}, close store stream = .ok store' →
    (∀ name, place? store' name = place? store name) ∧
      ∀ other, stored store' other = stored store other

namespace Memory

instance : SeparateStorage Memory where
  place? m name := (m.files.find? name).map fun _ => name
  stored := Memory.file?
  file?_eq m name := by
    cases hfind : m.files.find? name with
    | none => exact congrArg (Option.map Array.toList) hfind
    | some bytes => rfl
  apart_open := by
    intro m m' name stream hopen
    simp only [Storage.openStream, openStream, Except.ok.injEq, Prod.mk.injEq] at hopen
    obtain ⟨rfl, rfl⟩ := hopen
    refine ⟨?_, fun other hne => ?_⟩
    · rw [Named.find?_insert_self, Option.map_some]
    · rw [file?, file?, Named.find?_insert_of_ne hne]
  apart_write := by
    intro m m' stream stream' bytes count hwrite
    obtain ⟨accepted, -, -, rfl, hfiles⟩ := of_write_ok hwrite
    refine ⟨rfl, fun name hleads => ?_, fun other hne => ?_⟩
    · obtain ⟨_, -, rfl⟩ := Option.map_eq_some_iff.mp hleads
      rw [hfiles, Named.find?_insert_self, Option.map_some]
    · rw [file?, file?, hfiles, Named.find?_insert_of_ne hne]
  apart_close := by
    intro m m' stream hclose
    obtain rfl := Except.ok.inj hclose
    exact ⟨fun _ => rfl, fun _ => rfl⟩

end Memory

namespace Directory

/-- The path that a name leads to, if there is a file. -/
def pathOf? (d : Directory) (name : String) : Option String :=
  match d.resolve name with
  | .ok (.file path) => some path
  | _ => none

theorem pathOf?_eq_some_iff {d : Directory} {name path : String} :
    d.pathOf? name = some path ↔ d.resolve name = .ok (.file path) := by
  rw [pathOf?]
  constructor
  · intro h
    split at h
    · next heq => rw [heq, Option.some.inj h]
    · cases h
  · intro h
    rw [h]

/-- The last step of a path leads to a file only if there is one. -/
theorem find?_of_lastPlace {d : Directory} {step place path : String}
    (h : d.lastPlace step place = .ok (.file path)) : (d.files.find? path).isSome = true := by
  rw [lastPlace, faultAt] at h
  split at h
  · next hfault =>
    obtain rfl := Place.file.inj (Except.ok.inj h)
    split at hfault
    · cases hfault
    · split at hfault
      · assumption
      · cases hfault
  · cases h
  · cases h

/-- A walk that ends at a file ends at one that is there. -/
theorem find?_of_follow {d : Directory} {path : String} {above steps : List String}
    (h : d.follow above steps = .ok (.file path)) : (d.files.find? path).isSome = true := by
  fun_induction follow d above steps with
  | case1 => cases h
  | case2 above step rest hskip ih => exact ih h
  | case3 above rest hskip ih => exact ih h
  | case4 above step rest place hskip hup hfolder ih => exact ih h
  | case5 => exact find?_of_lastPlace h
  | case6 => cases h
  | case7 => cases h

/-- A name that leads to a file leads to one that is there. -/
theorem find?_of_resolve {d : Directory} {name path : String}
    (h : d.resolve name = .ok (.file path)) : (d.files.find? path).isSome = true := by
  rw [resolve] at h
  split at h
  · cases h
  split at h
  · cases h
  split at h
  · split at h <;> cases h
  · exact find?_of_follow h

/-- The bytes of the file at a path. -/
def stored (d : Directory) (path : String) : Option (List UInt8) :=
  (d.files.find? path).map Array.toList

/-- A file that is written leaves every other path as it was. -/
theorem stored_putFile_of_ne {d : Directory} {path other : String} (hne : other ≠ path)
    (bytes : FileBytes) : (d.putFile path bytes).stored other = d.stored other := by
  rw [stored, stored, putFile, Named.find?_insert_of_ne hne]

instance : SeparateStorage Directory where
  place? := pathOf?
  stored := stored
  file?_eq d name := by
    show (d.contents name).toOption = _
    rw [contents, pathOf?]
    cases hr : d.resolve name with
    | error fault => rfl
    | ok place =>
        cases place with
        | folder => rfl
        | noFolder fault => rfl
        | absent path => rfl
        | file path =>
            obtain ⟨bytes, hbytes⟩ := Option.isSome_iff_exists.mp (find?_of_resolve hr)
            show some (d.bytesOf path).toList = d.stored path
            rw [bytesOf, stored, hbytes]
            rfl
  apart_open := by
    intro d d' name stream hopen
    obtain ⟨path, hleads, rfl, rfl⟩ := of_open_write hopen
    exact ⟨pathOf?_eq_some_iff.mpr (resolve_putFile _ hleads),
      fun other hne => stored_putFile_of_ne hne _⟩
  apart_write := by
    intro d d' stream stream' bytes count hwrite
    simp only [Storage.write, write] at hwrite
    split at hwrite
    · cases hwrite
    · split at hwrite
      · simp only [Except.ok.injEq, Prod.mk.injEq] at hwrite
        obtain ⟨-, rfl, rfl⟩ := hwrite
        exact ⟨rfl, fun _ h => h, fun _ _ => rfl⟩
      · simp only [Except.ok.injEq, Prod.mk.injEq] at hwrite
        obtain ⟨-, rfl, rfl⟩ := hwrite
        refine ⟨rfl, fun name hleads => ?_, fun other hne => stored_putFile_of_ne hne _⟩
        exact pathOf?_eq_some_iff.mpr (resolve_putFile _ (.inl (pathOf?_eq_some_iff.mp hleads)))
  apart_close := by
    intro d d' stream hclose
    obtain rfl := Except.ok.inj hclose
    exact ⟨fun _ => rfl, fun _ => rfl⟩

end Directory
end ScreenEditor
