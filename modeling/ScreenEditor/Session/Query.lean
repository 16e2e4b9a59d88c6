import ScreenEditor.Search.Replace
import ScreenEditor.Session.Basic

/-!
# Searching a session

Searching and replacing in the active document.  A replace run with questions stops at every match:
`beginQuery` and `answer` say whether another question is open or the run has come to its end.
-/

namespace ScreenEditor.Session

variable {σ : Type} [Storage σ]

/-- The text and selection that a search works on. -/
def searched (s : Session σ) : Searched := ⟨s.buffer, s.selection⟩

/-- Take over the text and selection that a search left. -/
def withSearched (s : Session σ) (found : Searched) : Session σ :=
  { s with table := s.table.modifyBuffer fun _ => found.buffer, selection := found.selection }

/-- Tell what a search came to, and show it. -/
def reportSearch (s : Session σ) (outcome : SearchOutcome) : Session σ :=
  let s := match outcome with
    | .notFound => s.alert.setStatus "Not found"
    | .found _ wrapped => if wrapped then s.setStatus "Search wrapped" else s
    | .finished summary =>
      let s := if summary.replaced = 0 then s
        else { s with table := s.table.modifyCurrent Document.markModified }
      let s := if summary.outOfSpace then s.alert else s
      s.setStatus ("Replaced " ++ toString summary.replaced ++ " of " ++ toString summary.offered
        ++ " matches")
  s.refresh

/-- Find the next occurrence of a needle. -/
def find (s : Session σ) (needle : List UInt8) : SearchOutcome × Session σ :=
  let (found, outcome) := s.searched.search needle
  (outcome, (s.withSearched found).reportSearch outcome)

/-- Replace every occurrence of a needle. -/
def replaceAll (s : Session σ) (needle replacement : List UInt8) : SearchOutcome × Session σ :=
  let (found, outcome) := s.searched.replaceAll needle replacement
  (outcome, (s.withSearched found).reportSearch outcome)

/-- The question whether to replace the match at `offset`, which the session shows. -/
structure Question where
  run : ReplaceRun
  offset : Nat

/-- A replace run with questions, as it goes on or ends. -/
inductive QueryStep where
  | ask (question : Question)
  | done (outcome : SearchOutcome)

/-- Show the next offer of a run, or end the run when there is none. -/
def askNext (s : Session σ) (run : ReplaceRun) : QueryStep × Session σ :=
  match run.offer? s.searched with
  | some offer => (.ask ⟨offer.run, offer.offset⟩, (s.withSearched offer.shown).refresh)
  | none => (.done run.outcome, s.reportSearch run.outcome)

/-- Begin to replace a needle with a question at every match. -/
def beginQuery (s : Session σ) (needle replacement : List UInt8) : QueryStep × Session σ :=
  s.askNext (ReplaceRun.start s.searched needle replacement)

/-- Answer a question. -/
def answer (s : Session σ) (question : Question) (decision : ReplaceDecision) :
    QueryStep × Session σ :=
  match question.run.answer s.searched question.offset decision with
  | .goOn run found => (s.withSearched found).askNext run
  | .stop run found => (.done run.outcome, (s.withSearched found).reportSearch run.outcome)

/-- End a run at a question. -/
def abortQuery (s : Session σ) (question : Question) : SearchOutcome × Session σ :=
  (question.run.aborted.outcome, s.reportSearch question.run.aborted.outcome)

/-- Aborting answers the question for good. -/
theorem answer_abort {σ : Type} (s : Session σ) (question : Question) :
    s.answer question .abort = (.done (s.abortQuery question).1, (s.abortQuery question).2) := rfl

/-- Answer questions from a list and abort at the first one past its end.  The last part of the
result holds the session as it was at each question. -/
def answerAll (s : Session σ) (question : Question) :
    List ReplaceDecision → SearchOutcome × Session σ × List (Session σ)
  | [] =>
    let (outcome, ended) := s.abortQuery question
    (outcome, ended, [s])
  | decision :: rest =>
    match s.answer question decision with
    | (.done outcome, ended) => (outcome, ended, [s])
    | (.ask next, shown) =>
      let (outcome, ended, asked) := shown.answerAll next rest
      (outcome, ended, s :: asked)

/-- Replace the occurrences of a needle that the answers say to replace.  The last part of the
result holds the session as it was at each question. -/
def queryReplace (s : Session σ) (needle replacement : List UInt8)
    (decisions : List ReplaceDecision) : SearchOutcome × Session σ × List (Session σ) :=
  match s.beginQuery needle replacement with
  | (.done outcome, ended) => (outcome, ended, [])
  | (.ask question, shown) => shown.answerAll question decisions

end ScreenEditor.Session
