import ScreenEditor.Proofs.Storage.Reading
import ScreenEditor.Proofs.Transfer.Sink

/-!
# Reading a whole file into a sink

`Streamed` lists the bytes that the reads of a stream give up to its end, whatever storage they come
from, and `ReadTo` those up to a place where one of the reads ended.  Reading into a sink that
tracks a family of predicates takes the family over exactly these bytes (`Sink.Tracked.readAll`),
and in an honest storage they are the file (`Streamed.eq_pending`).
-/

namespace ScreenEditor

variable {σ : Type}

/-- Reading the stream to its end, so many bytes at a time, gives these bytes. -/
inductive Streamed [Storage σ] (chunk : Nat) : σ → Stream → List UInt8 → Prop
  | done {store store' : σ} {stream stream' : Stream}
      (h : Storage.read store stream chunk = .ok ([], stream', store')) :
      Streamed chunk store stream []
  | step {store store' : σ} {stream stream' : Stream} {bytes file : List UInt8}
      (h : Storage.read store stream chunk = .ok (bytes, stream', store'))
      (rest : Streamed chunk store' stream' file) : Streamed chunk store stream (bytes ++ file)

/-- So many reads of the stream, so many bytes at a time, give these bytes. -/
inductive ReadTo [Storage σ] (chunk : Nat) : σ → Stream → List UInt8 → Prop
  | none {store : σ} {stream : Stream} : ReadTo chunk store stream []
  | step {store store' : σ} {stream stream' : Stream} {bytes front : List UInt8}
      (h : Storage.read store stream chunk = .ok (bytes, stream', store'))
      (rest : ReadTo chunk store' stream' front) : ReadTo chunk store stream (bytes ++ front)

/-- In an honest storage the bytes are those that were before the stream. -/
theorem Streamed.eq_pending [HonestStorage σ] {chunk : Nat} (hc : 0 < chunk) {store : σ}
    {stream : Stream} {file : List UInt8} (h : Streamed chunk store stream file) :
    file = HonestStorage.pending store stream := by
  induction h with
  | done h => exact ((HonestStorage.pending_read h hc).2 rfl).symm
  | step h rest ih => rw [ih, (HonestStorage.pending_read h hc).1]

namespace Load

/-- The file from its beginning up to a place where a read of a load ends. -/
def ReadsTo [Storage σ] (store : σ) (name : String) (settings : TransferSettings)
    (front : List UInt8) : Prop :=
  ∃ stream opened, Storage.openStream store name .read = .ok (stream, opened) ∧
    ReadTo (max settings.readChunk 1) opened stream front

/-- Reading came to the end of the file or failed: in the first case `P` holds of the place
reached, in the second `Q` of the sink. -/
def Outcome (r : Except (Failure σ) (Reading σ)) (P : Reading σ → Prop) (Q : Sink → Prop) : Prop :=
  match r with
  | .ok r => P r
  | .error f => Q f.sink

end Load

/-- **Reading a whole file.**  The sink takes the bytes that the reads give.  When a read fails or
no segment is left, it has taken some of them. -/
theorem Sink.Tracked.readAll [Storage σ] {F : List UInt8 → Sink → Prop}
    {ended : List UInt8 → Prop} {stuck : Sink → Prop} (hF : Tracked F ended stuck) (name : String)
    (chunk : Nat) (r : Load.Reading σ) {text : List UInt8} (h : F text r.sink)
    (hended : ∀ front, ReadTo chunk r.store r.stream front → ended (text ++ r.sink.owed front)) :
    Load.Outcome (Load.readAll name chunk r)
      (fun r' => ∃ file output, Streamed chunk r.store r.stream file ∧
        F (text ++ output) r'.sink ∧ r.sink.Took file output r'.sink ∧
        r'.bytesRead = r.bytesRead + file.length)
      (fun s => stuck s ∨ ∃ text', F text' s) := by
  fun_induction Load.readAll name chunk r generalizing text with
  | case1 r fault hread => exact .inr ⟨text, h⟩
  | case2 r stream store hread =>
      exact ⟨[], [], .done hread, by rwa [List.append_nil], Took.refl _, rfl⟩
  | case3 r byte rest stream store hread sink hfeed =>
      have hspec := hF.feed h (byte :: rest)
        (by simpa using hended _ (.step hread .none))
      rw [hfeed] at hspec
      exact .inl hspec
  | case4 r byte rest stream store hread sink hfeed hlt ih =>
      have hspec := hF.feed h (byte :: rest)
        (by simpa using hended _ (.step hread .none))
      rw [hfeed] at hspec
      obtain ⟨first, hfirst, htook₁⟩ := hspec
      have hrest := ih hfirst fun front hfront => by
        have hnext := hended _ (.step hread hfront)
        rwa [htook₁.owed, ← List.append_assoc] at hnext
      generalize Load.readAll name chunk
        ⟨sink, r.bytesRead + (byte :: rest).length, stream, store⟩ = result at hrest ⊢
      cases result with
      | error f => exact hrest
      | ok r' =>
          obtain ⟨file, output, hstream, h', htook, hcount⟩ := hrest
          refine ⟨(byte :: rest) ++ file, first ++ output, .step hread hstream, ?_,
            htook₁.trans htook, ?_⟩
          · rwa [← List.append_assoc]
          · rw [hcount, List.length_append, Nat.add_assoc]

theorem Sink.Respected.readAll [Storage σ] {F : List UInt8 → Sink → Prop} {stuck : Sink → Prop}
    (hF : Respected F stuck) (name : String) (chunk : Nat) (r : Load.Reading σ)
    {text : List UInt8} (h : F text r.sink) :
    Load.Outcome (Load.readAll name chunk r)
      (fun r' => ∃ file output, Streamed chunk r.store r.stream file ∧
        F (text ++ output) r'.sink ∧ r.sink.Took file output r'.sink ∧
        r'.bytesRead = r.bytesRead + file.length)
      (fun s => stuck s ∨ ∃ text', F text' s) :=
  hF.tracked.readAll name chunk r h fun _ _ => trivial

end ScreenEditor
