import ScreenEditor.Storage.Basic

/-!
# Clients of a storage

A client keeps open streams under handles and asks for one operation after the other
(`FileClient.perform`).  The answers do not show what a stream looks like, so clients of different
storages can be compared.
-/

namespace ScreenEditor

/-- What a client can ask for. -/
inductive FileOp where
  | openFile (handle : Nat) (name : String) (mode : OpenMode)
  | read (handle count : Nat)
  | write (handle : Nat) (bytes : List UInt8)
  | seek (handle offset : Nat)
  | close (handle : Nat)
  | contains (name : String)
  deriving DecidableEq, Repr

/-- What a client is answered. -/
inductive FileAnswer where
  | done
  | bytes (read : List UInt8)
  | count (written : Nat)
  | whether (there : Bool)
  | fault (fault : FileFault)
  | noHandle
  deriving DecidableEq, Repr

/-- A storage and the streams that are open on it, by handle. -/
structure FileClient (σ : Type) where
  store : σ
  streams : List (Nat × Stream)

namespace FileClient

variable {σ : Type}

/-- A client without streams. -/
def new (store : σ) : FileClient σ := ⟨store, []⟩

/-- The stream under a handle. -/
def stream? (c : FileClient σ) (handle : Nat) : Option Stream :=
  (c.streams.find? (·.1 == handle)).map (·.2)

/-- Give a handle up. -/
def drop (c : FileClient σ) (handle : Nat) : FileClient σ :=
  { c with streams := c.streams.filter (·.1 != handle) }

/-- The storage as an operation left it, and the stream that stands under a handle now. -/
def put (c : FileClient σ) (store : σ) (handle : Nat) (stream : Stream) : FileClient σ :=
  ⟨store, (handle, stream) :: (c.drop handle).streams⟩

@[simp] theorem stream?_new (store : σ) (handle : Nat) : (new store).stream? handle = none := rfl

/-- A handle that is dropped has no stream any more, and the others keep theirs. -/
theorem stream?_drop (c : FileClient σ) (handle other : Nat) :
    (c.drop handle).stream? other = if other = handle then none else c.stream? other := by
  simp only [stream?, drop, List.find?_filter]
  split
  · next heq =>
    subst heq
    rw [List.find?_eq_none.mpr, Option.map_none]
    simp
  · next hne =>
    congr 2
    funext e
    by_cases he : e.1 = other
    · simp [he, hne]
    · simp [he]

/-- A handle takes its new stream, and the others keep theirs. -/
theorem stream?_put (c : FileClient σ) (store : σ) (handle : Nat) (stream : Stream)
    (other : Nat) : (c.put store handle stream).stream? other
      = if other = handle then some stream else c.stream? other := by
  have hdrop := c.stream?_drop handle other
  rw [stream?] at hdrop
  rw [stream?, put, List.find?_cons]
  by_cases h : other = handle
  · simp [h]
  · have hne : (handle == other) = false := beq_eq_false_iff_ne.mpr (Ne.symm h)
    rw [if_neg h] at hdrop ⊢
    simp only [hne]
    exact hdrop

/-- A stream that stands under a handle is one of those that are open. -/
theorem exists_mem_of_stream? {c : FileClient σ} {handle : Nat} {stream : Stream}
    (h : c.stream? handle = some stream) : ∃ e ∈ c.streams, e.2 = stream := by
  obtain ⟨e, he, rfl⟩ := Option.map_eq_some_iff.mp h
  exact ⟨e, List.mem_of_find?_eq_some he, rfl⟩

/-- The answer to an operation, and the client after it. -/
def perform [Storage σ] (c : FileClient σ) : FileOp → FileAnswer × FileClient σ
  | .openFile handle name mode =>
    match Storage.openStream c.store name mode with
    | .ok (stream, store) => (.done, c.put store handle stream)
    | .error fault => (.fault fault, c)
  | .read handle count =>
    match c.stream? handle with
    | none => (.noHandle, c)
    | some stream =>
      match Storage.read c.store stream count with
      | .ok (bytes, stream, store) => (.bytes bytes, c.put store handle stream)
      | .error fault => (.fault fault, c)
  | .write handle bytes =>
    match c.stream? handle with
    | none => (.noHandle, c)
    | some stream =>
      match Storage.write c.store stream bytes with
      | .ok (count, stream, store) => (.count count, c.put store handle stream)
      | .error fault => (.fault fault, c)
  | .seek handle offset =>
    match c.stream? handle with
    | none => (.noHandle, c)
    | some stream =>
      match Storage.seek c.store stream offset with
      | .ok stream => (.done, c.put c.store handle stream)
      | .error fault => (.fault fault, c)
  | .close handle =>
    match c.stream? handle with
    | none => (.noHandle, c)
    | some stream =>
      match Storage.close c.store stream with
      | .ok store => (.done, { c.drop handle with store := store })
      | .error fault => (.fault fault, c.drop handle)
  | .contains name => (.whether (Storage.contains c.store name), c)

/-- The answers to one operation after the other, and the client after all of them. -/
def performAll [Storage σ] : FileClient σ → List FileOp → List FileAnswer × FileClient σ
  | c, [] => ([], c)
  | c, op :: ops =>
    let (answers, last) := performAll (c.perform op).2 ops
    ((c.perform op).1 :: answers, last)

/-- A condition on every operation, at the client that the operation finds. -/
def Along [Storage σ] (P : FileClient σ → FileOp → Prop) : FileClient σ → List FileOp → Prop
  | _, [] => True
  | c, op :: ops => P c op ∧ Along P (c.perform op).2 ops

instance decidableAlong [Storage σ] {P : FileClient σ → FileOp → Prop}
    [∀ c op, Decidable (P c op)] :
    ∀ (c : FileClient σ) (ops : List FileOp), Decidable (Along P c ops)
  | _, [] => isTrue trivial
  | c, op :: ops =>
      have := decidableAlong (P := P) (c.perform op).2 ops
      inferInstanceAs (Decidable (P c op ∧ Along P (c.perform op).2 ops))

end FileClient
end ScreenEditor
