import ScreenEditor.Search.Find
import ScreenEditor.Selection

/-!
# Searching and replacing

A search looks forward from the caret and may wrap once past the end of the text.  A replace run
offers one match after another.  Each offer is answered by replacing the match, skipping it or
aborting the run; after a replacement the run goes on behind the inserted text.  The pass that has
wrapped takes the matches that begin before the place where the run began, which moves with the
changes of length before it.

`ReplaceRun.offer?` finds the next match and `ReplaceRun.answer` takes the answer;
`ReplaceRun.all` answers every offer by replacing, and its recursion is on the text that is left.
-/

namespace ScreenEditor

/-- An answer to the question whether to replace a match. -/
inductive ReplaceDecision where
  | replace
  | skip
  | abort
  deriving DecidableEq, Repr

/-- What a replace run has done. -/
structure ReplaceSummary where
  offered : Nat
  replaced : Nat
  aborted : Bool
  outOfSpace : Bool
  deriving DecidableEq, Repr

/-- What a search or a replace run came to. -/
inductive SearchOutcome where
  | found (offset : Nat) (wrapped : Bool)
  | finished (summary : ReplaceSummary)
  | notFound
  deriving DecidableEq, Repr

/-- Where a search begins: at the caret, or one past it when a frozen selection begins there, so
that searching again advances. -/
def searchOrigin (g : GapBuffer) (selection : Selection) : Nat :=
  if selection.startsAt g.caret then g.caret + 1 else g.caret

/-- A text under search with the selection that shows the current match. -/
structure Searched where
  buffer : GapBuffer
  selection : Selection

namespace Searched

/-- Put the caret on a match and select it. -/
def showMatch (s : Searched) (needle : List UInt8) (offset : Nat) : Searched :=
  ⟨s.buffer.seek offset, Selection.span offset (offset + needle.length)⟩

/-- Put the caret on the next occurrence of a needle. -/
def search (s : Searched) (needle : List UInt8) : Searched × SearchOutcome :=
  match s.buffer.findWrapping needle (searchOrigin s.buffer s.selection) with
  | some (offset, wrapped) => (s.showMatch needle offset, .found offset wrapped)
  | none => (s, .notFound)

end Searched

/-- A replace run between two answers: where it looks on, where it began, and whether it has
wrapped. -/
structure ReplaceRun where
  needle : List UInt8
  replacement : List UInt8
  position : Nat
  origin : Nat
  wrapped : Bool
  summary : ReplaceSummary
  deriving Repr

namespace ReplaceRun

/-- A run that begins at the caret. -/
def start (s : Searched) (needle replacement : List UInt8) : ReplaceRun where
  needle := needle
  replacement := replacement
  position := searchOrigin s.buffer s.selection
  origin := searchOrigin s.buffer s.selection
  wrapped := false
  summary := ⟨0, 0, false, false⟩

/-- What the run came to so far. -/
def outcome (run : ReplaceRun) : SearchOutcome :=
  if run.summary.offered = 0 then .notFound else .finished run.summary

/-- The next match of a wrapped pass. -/
def nextBeforeOrigin? (run : ReplaceRun) (g : GapBuffer) : Option Nat :=
  (g.find run.needle run.position).filter (· < run.origin)

/-- The next match, and the run as it stands there. -/
def next? (run : ReplaceRun) (g : GapBuffer) : Option (Nat × ReplaceRun) :=
  let found (run : ReplaceRun) (offset : Nat) : Nat × ReplaceRun :=
    (offset, { run with summary := { run.summary with offered := run.summary.offered + 1 } })
  let wrappedRun := { run with wrapped := true, position := 0 }
  if run.wrapped then (run.nextBeforeOrigin? g).map (found run)
  else
    match g.find run.needle run.position with
    | some offset => some (found run offset)
    | none => (wrappedRun.nextBeforeOrigin? g).map (found wrappedRun)

/-- The text with a match replaced. -/
def substitute (run : ReplaceRun) (g : GapBuffer) (offset : Nat) : GapBuffer :=
  if run.replacement.length = run.needle.length then
    let written := run.replacement.zipIdx.foldl
      (fun g b => g.writeAt (g.rawIndex (offset + b.2)) b.1) g
    written.seek (offset + run.replacement.length)
  else
    (g.deleteRange offset (offset + run.needle.length)).insertAll run.replacement

/-- Whether the replacement fits. -/
def fits (run : ReplaceRun) (g : GapBuffer) : Bool :=
  run.replacement.length ≤ run.needle.length + g.free

/-- The run after a match was replaced. -/
def afterReplacing (run : ReplaceRun) (offset : Nat) : ReplaceRun :=
  { run with
    position := offset + run.replacement.length
    origin :=
      if run.wrapped then run.origin + run.replacement.length - run.needle.length else run.origin
    summary := { run.summary with replaced := run.summary.replaced + 1 } }

/-- A run that the user ends. -/
def aborted (run : ReplaceRun) : ReplaceRun :=
  { run with summary := { run.summary with aborted := true } }

/-- A run after an answer: as it goes on, or as it ends. -/
inductive Answered where
  | goOn (run : ReplaceRun) (s : Searched)
  | stop (run : ReplaceRun) (s : Searched)

/-- Take the answer to the offer at `offset`. -/
def answer (run : ReplaceRun) (s : Searched) (offset : Nat) : ReplaceDecision → Answered
  | .abort => .stop run.aborted s
  | .skip => .goOn { run with position := offset + 1 } s
  | .replace =>
    if run.fits s.buffer then
      .goOn (run.afterReplacing offset) ⟨run.substitute s.buffer offset, Selection.none⟩
    else .stop { run with summary := { run.summary with outOfSpace := true } } s

/-- How much of the text a run still has before it, and whether it still may wrap. -/
def remaining (run : ReplaceRun) (g : GapBuffer) : Nat :=
  if run.wrapped then run.origin - run.position
  else run.origin + (g.length - run.position) + 1

@[simp] theorem length_writeAll (bytes : List (UInt8 × Nat)) (g : GapBuffer) (offset : Nat) :
    (bytes.foldl (fun g b => g.writeAt (g.rawIndex (offset + b.2)) b.1) g).length = g.length := by
  induction bytes generalizing g with
  | nil => rfl
  | cons b bs ih => simp [ih]

/-- A replacement that fits changes the length by the difference of the two. -/
theorem length_substitute {run : ReplaceRun} {g : GapBuffer} {offset : Nat}
    (h : offset + run.needle.length ≤ g.length) (fit : run.fits g = true) :
    (run.substitute g offset).length + run.needle.length = g.length + run.replacement.length := by
  simp only [fits, decide_eq_true_eq] at fit
  unfold substitute
  split
  · simp
    omega
  · have hd := g.length_deleteRange (Nat.le_add_right offset run.needle.length) h
    have h1 := GapBuffer.length_add_free g
    have h2 := GapBuffer.length_add_free (g.deleteRange offset (offset + run.needle.length))
    simp only [GapBuffer.capacity_deleteRange] at h2
    rw [GapBuffer.length_insertAll _ (by omega)]
    omega

/-- A match lies behind the position of the run and inside the text, and the run is nearer to its
end there. -/
theorem next?_bounds {run next : ReplaceRun} {g : GapBuffer} {offset : Nat}
    (h : run.next? g = some (offset, next)) :
    next.position ≤ offset ∧ offset + next.needle.length ≤ g.length ∧ 0 < next.needle.length ∧
      next.remaining g ≤ run.remaining g ∧ (next.wrapped = true → offset < next.origin) := by
  simp only [next?, nextBeforeOrigin?] at h
  split at h
  · obtain ⟨k, hk, heq⟩ := Option.map_eq_some_iff.mp h
    obtain ⟨hk, hlt⟩ := Option.filter_eq_some_iff.mp hk
    have := GapBuffer.find_bounds hk
    simp only [Prod.mk.injEq] at heq
    obtain ⟨rfl, rfl⟩ := heq
    simp_all [remaining]
  · next hw =>
    split at h
    · next k hk =>
      have := GapBuffer.find_bounds hk
      simp only [Option.some.injEq, Prod.mk.injEq] at h
      obtain ⟨rfl, rfl⟩ := h
      simp_all [remaining]
    · obtain ⟨k, hk, heq⟩ := Option.map_eq_some_iff.mp h
      obtain ⟨hk, hlt⟩ := Option.filter_eq_some_iff.mp hk
      have := GapBuffer.find_bounds hk
      simp only [Prod.mk.injEq] at heq
      obtain ⟨rfl, rfl⟩ := heq
      simp_all [remaining]
      omega

/-- Replacing a match uses up text that the run had before it. -/
theorem remaining_afterReplacing {run next : ReplaceRun} {g g' : GapBuffer} {offset : Nat}
    (h : run.next? g = some (offset, next)) (hlen : g'.length = g.length)
    (fit : next.fits g' = true) :
    (next.afterReplacing offset).remaining (next.substitute g' offset) < run.remaining g := by
  have hb := next?_bounds h
  have hl := @length_substitute next g' offset (by omega) fit
  have := hb.2.2.2.1
  by_cases hw : next.wrapped
  · have := hb.2.2.2.2 hw
    simp only [remaining, afterReplacing, hw, if_true] at *
    omega
  · simp only [remaining, afterReplacing, hw] at *
    simp at *
    omega

/-- Replace every match. -/
def all (run : ReplaceRun) (s : Searched) : ReplaceRun × Searched :=
  match h : run.next? s.buffer with
  | none => (run, s)
  | some (offset, next) =>
    let shown := s.showMatch next.needle offset
    if fit : next.fits shown.buffer = true then
      have : (next.afterReplacing offset).remaining (next.substitute shown.buffer offset)
          < run.remaining s.buffer :=
        remaining_afterReplacing h (by simp [shown, Searched.showMatch]) fit
      (next.afterReplacing offset).all ⟨next.substitute shown.buffer offset, Selection.none⟩
    else ({ next with summary := { next.summary with outOfSpace := true } }, shown)
termination_by run.remaining s.buffer

/-- An offer as the user sees it. -/
structure Offer where
  run : ReplaceRun
  offset : Nat
  shown : Searched

/-- The next offer, with its match shown. -/
def offer? (run : ReplaceRun) (s : Searched) : Option Offer :=
  (run.next? s.buffer).map fun found =>
    ⟨found.2, found.1, s.showMatch run.needle found.1⟩

/-- Answer offers from a list, and abort at the first one past its end.  The third part of the
result holds what was shown at each question. -/
def answering (run : ReplaceRun) (s : Searched) :
    List ReplaceDecision → ReplaceRun × Searched × List Searched
  | [] =>
    match run.offer? s with
    | none => (run, s, [])
    | some offer => (offer.run.aborted, offer.shown, [offer.shown])
  | decision :: rest =>
    match run.offer? s with
    | none => (run, s, [])
    | some offer =>
      match offer.run.answer offer.shown offer.offset decision with
      | .stop run s => (run, s, [offer.shown])
      | .goOn run s =>
        let (run, s, asked) := answering run s rest
        (run, s, offer.shown :: asked)

end ReplaceRun

namespace Searched

/-- Replace every match of a needle; an empty needle has none. -/
def replaceAll (s : Searched) (needle replacement : List UInt8) : Searched × SearchOutcome :=
  let (run, s) := (ReplaceRun.start s needle replacement).all s
  (s, run.outcome)

/-- Replace the matches of a needle that the answers say to replace.  The third part of the result
holds what was shown at each question. -/
def queryReplace (s : Searched) (needle replacement : List UInt8)
    (decisions : List ReplaceDecision) : Searched × SearchOutcome × List Searched :=
  let (run, s, asked) := (ReplaceRun.start s needle replacement).answering s decisions
  (s, run.outcome, asked)

end Searched
end ScreenEditor
