import ScreenEditor.Proofs.Search.Replies
import ScreenEditor.Proofs.Search.Traced

/-!
# What a run knows of the text

A replace run is followed along the traced text: it can be said of each match that is offered that
it stood in the old text (`Moment.StoodAt`).

In its first pass a run looks only at bytes behind the last replacement, and these are all old.
Once it has wrapped it looks at old bytes up to the origin.  But a match may begin before the origin
and end behind it, where the first pass may have replaced something: it `Overreaches`.  Such a match
is made up of old bytes and of inserted ones, or of old bytes between which others were taken out.

`Stage` says what is known at every moment: the text is cut at the position of the run, and what a
run that has wrapped still has before it lies at the origin or behind it.  `Meeting` says it of a
run that makes an offer.  Skipping a match and taking one that does not overreach lead from one
stage to the next (`Meeting.skip`, `Meeting.replace`).
-/

namespace ScreenEditor
namespace ReplaceRun

open TracedText (ofText inserted)

/-! ## Moments of a run -/

/-- The traced text after a reply. -/
def Reply.retrace (r : Reply) (t : TracedText) : TracedText :=
  if r.taken then
    splice t r.offer.offset r.offer.run.needle.length (inserted r.offer.run.replacement)
  else t

/-- A reply with the text as it stood then and the replies before it. -/
structure Moment where
  text : TracedText
  earlier : List Reply
  reply : Reply

/-- The moments of a run that goes on from a text, after some replies. -/
def moments (t : TracedText) (earlier : List Reply) : List Reply → List Moment
  | [] => []
  | r :: log => ⟨t, earlier, r⟩ :: moments (r.retrace t) (earlier ++ [r]) log

/-- The first match that a run replaced before it wrapped. -/
def firstTaken? (log : List Reply) : Option Offer :=
  (log.find? fun r => r.taken && !r.offer.run.wrapped).map (·.offer)

theorem firstTaken?_append (log : List Reply) (r : Reply) :
    firstTaken? (log ++ [r]) = if r.taken && !r.offer.run.wrapped
      then (firstTaken? log).or (some r.offer) else firstTaken? log := by
  rw [firstTaken?, List.find?_append, firstTaken?]
  cases hfind : log.find? fun r => r.taken && !r.offer.run.wrapped with
  | none => by_cases htaken : (r.taken && !r.offer.run.wrapped) = true <;> simp [htaken]
  | some first => simp

namespace Moment

/-- The match stood at this offset of the old text. -/
def StoodAt (m : Moment) (source : Nat) : Prop :=
  m.text.Stood m.reply.offer.offset m.reply.offer.run.needle.length source

/-- The match contains a byte that the run inserted. -/
def HoldsInserted (m : Moment) : Prop :=
  m.text.HoldsInserted m.reply.offer.offset m.reply.offer.run.needle.length

/-- The run has wrapped, and the match reaches over the place where the run first replaced
something.  That place moves along with the origin. -/
def Overreaches (m : Moment) : Prop :=
  m.reply.offer.run.wrapped = true ∧ ∃ first, firstTaken? m.earlier = some first ∧
    m.reply.offer.run.origin + (first.offset - first.run.origin)
      < m.reply.offer.offset + m.reply.offer.run.needle.length

/-- The text of a moment is the text under search.  The match stood in the old text unless it
overreaches.  If it does, it holds an inserted byte as soon as the replacement has one. -/
structure Sound (m : Moment) : Prop where
  bytes_eq : m.text.bytes = m.reply.offer.shown.buffer.content
  stood_iff : (∃ source, m.StoodAt source) ↔ ¬ m.Overreaches
  inserted_iff : m.HoldsInserted ↔ m.Overreaches ∧ m.reply.offer.run.replacement ≠ []

/-- After a match that overreaches was taken, the run is past its origin. -/
theorem Overreaches.origin_le_position {t : TracedText} {earlier : List Reply} {offer : Offer}
    {decision : ReplaceDecision} (h : (Moment.mk t earlier ⟨offer, decision⟩).Overreaches) :
    (offer.run.afterReplacing offer.offset).origin
      ≤ (offer.run.afterReplacing offer.offset).position := by
  obtain ⟨hwrapped, first, -, hlt⟩ := h
  have hwrapped : offer.run.wrapped = true := hwrapped
  have hlt : offer.run.origin + (first.offset - first.run.origin)
      < offer.offset + offer.run.needle.length := hlt
  simp only [afterReplacing, if_pos hwrapped]
  omega

end Moment

/-! ## Stages -/

/-- How the text of a run came from the old text, with `position` as the place at which it is cut.
The places behind were replaced in the same pass as that in which the run is, and those ahead in the
first pass of a run that has wrapped. -/
structure Stage (needle replacement old : List UInt8) (origin : Nat) (run : ReplaceRun)
    (t : TracedText) (earlier : List Reply) (position reached : Nat) (behind ahead : List Nat) :
    Prop where
  needle_eq : run.needle = needle
  replacement_eq : run.replacement = replacement
  cut : Cut needle replacement old t position reached behind ahead
  first : run.wrapped = false → ahead = [] ∧ run.origin = origin ∧ origin ≤ reached ∧
    (∀ place ∈ behind, origin ≤ place) ∧ (behind = [] → position = reached)
  second : run.wrapped = true →
    (∀ place ∈ ahead, origin ≤ place) ∧ run.origin - position = origin - reached
  lead : (firstTaken? earlier).map (fun offer => (offer.offset, offer.run.origin))
    = (if run.wrapped then ahead else behind).head?.map fun place => (place, origin)

/-- A run begins with the old text. -/
theorem stage_start (s : Searched) (needle replacement : List UInt8) :
    Stage needle replacement s.buffer.content (searchOrigin s.buffer s.selection)
      (start s needle replacement) (ofText s.buffer.content) []
      (start s needle replacement).position (searchOrigin s.buffer s.selection) [] [] where
  needle_eq := rfl
  replacement_eq := rfl
  cut := cut_ofText needle replacement s.buffer.content _
  first := fun _ => ⟨rfl, rfl, Nat.le_refl _, by simp, fun _ => rfl⟩
  second := fun h => by cases h
  lead := rfl

section Stage

variable {needle replacement old : List UInt8} {origin position reached x : Nat} {run : ReplaceRun}
  {t : TracedText} {earlier : List Reply} {behind ahead : List Nat} {offer : Offer}

/-- Where a run wraps, what it replaced is ahead again. -/
theorem Stage.wrap
    (h : Stage needle replacement old origin run t earlier position reached behind ahead)
    (hfirst : run.wrapped = false) :
    Stage needle replacement old origin run.wrap t earlier 0 0 [] behind := by
  obtain ⟨rfl, horigin, -, hbehind, -⟩ := h.first hfirst
  have hlead := h.lead
  rw [if_neg (Bool.eq_false_iff.mp hfirst)] at hlead
  exact {
    needle_eq := h.needle_eq
    replacement_eq := h.replacement_eq
    cut := h.cut.again
    first := fun h => by cases h
    second := fun _ => ⟨hbehind, congrArg (· - 0) horigin⟩
    lead := hlead }

/-- The places ahead of a run that has wrapped lie at the origin or behind it. -/
theorem Stage.lt_ahead
    (h : Stage needle replacement old origin run t earlier position reached behind ahead)
    (hbefore : run.wrapped = true → position + x < run.origin) :
    ∀ place ∈ ahead, reached + x < place := by
  intro place hplace
  cases hwrapped : run.wrapped with
  | false =>
      rw [(h.first hwrapped).1] at hplace
      cases hplace
  | true =>
      obtain ⟨hahead, horigin⟩ := h.second hwrapped
      have hle := hahead place hplace
      have hlt := hbefore hwrapped
      omega

/-- The cut moves on over old text. -/
theorem Stage.advance
    (h : Stage needle replacement old origin run t earlier position reached behind ahead)
    (hclear : ∀ place ∈ ahead, reached + x ≤ place) :
    Stage needle replacement old origin run t earlier (position + x) (reached + x) behind ahead where
  needle_eq := h.needle_eq
  replacement_eq := h.replacement_eq
  cut := h.cut.advance hclear
  first := fun hwrapped => by
    obtain ⟨hnil, horigin, hle, hbehind, hnone⟩ := h.first hwrapped
    exact ⟨hnil, horigin, Nat.le_add_right_of_le hle, hbehind,
      fun hempty => congrArg (· + x) (hnone hempty)⟩
  second := fun hwrapped => by
    obtain ⟨hplaces, horigin⟩ := h.second hwrapped
    refine ⟨hplaces, ?_⟩
    rw [Nat.sub_add_eq, horigin, ← Nat.sub_add_eq]
  lead := h.lead

/-- A run that makes an offer, with the text cut where the match begins. -/
structure Meeting (needle replacement old : List UInt8) (origin : Nat) (offer : Offer)
    (t : TracedText) (earlier : List Reply) (reached : Nat) (behind ahead : List Nat) : Prop where
  stage : Stage needle replacement old origin offer.run t earlier offer.offset reached behind ahead
  found : Occurs needle t.bytes offer.offset
  before : offer.run.wrapped = true → offer.offset < offer.run.origin
  bytes_eq : t.bytes = offer.shown.buffer.content

/-- A run meets its next offer in its own pass, or it wraps before. -/
theorem Stage.meeting {s : Searched}
    (h : Stage needle replacement old origin run t earlier run.position reached behind ahead)
    (hbytes : t.bytes = s.buffer.content) (hoffer : run.offer? s = some offer) :
    ∃ reached' behind' ahead',
      Meeting needle replacement old origin offer t earlier reached' behind' ahead' ∧
        behind' ++ ahead' = behind ++ ahead := by
  obtain ⟨base, hbase, hrun, hshown, hleast, hbefore⟩ := offer?_eq_some hoffer
  obtain ⟨reached', behind', ahead', hstage, hplaces⟩ : ∃ reached' behind' ahead',
      Stage needle replacement old origin base t earlier base.position reached' behind' ahead' ∧
        behind' ++ ahead' = behind ++ ahead := by
    cases hbase with
    | same => exact ⟨reached, behind, ahead, h, rfl⟩
    | wrap hfirst =>
        refine ⟨0, [], behind, h.wrap hfirst, ?_⟩
        rw [(h.first hfirst).1, List.append_nil, List.nil_append]
  obtain ⟨x, hx⟩ := Nat.exists_eq_add_of_le hleast.1.1
  have hmoved := hstage.advance fun place hplace =>
    Nat.le_of_lt (hstage.lt_ahead (hx ▸ hbefore) place hplace)
  rw [h.needle_eq, ← hbytes] at hleast
  rw [← hx] at hmoved
  obtain ⟨offerRun, offset, shown⟩ := offer
  obtain rfl : offerRun = base.counted := hrun
  exact ⟨reached' + x, behind', ahead', {
    stage := { hmoved with }
    found := hleast.1.2
    before := hbefore
    bytes_eq := by rw [hbytes, hshown, Searched.content_showMatch] }, hplaces⟩

end Stage

/-! ## Standing at an offer -/

namespace Meeting

variable {needle replacement old : List UInt8} {origin reached : Nat} {offer : Offer}
  {t : TracedText} {earlier : List Reply} {behind ahead : List Nat} {decision : ReplaceDecision}

/-- A run makes its offers before the places that are ahead. -/
theorem lt_ahead (h : Meeting needle replacement old origin offer t earlier reached behind ahead) :
    ∀ place ∈ ahead, reached < place := h.stage.lt_ahead (x := 0) h.before

/-- Whether a match overreaches is told from the first place ahead. -/
theorem overreaches_iff
    (h : Meeting needle replacement old origin offer t earlier reached behind ahead) :
    (Moment.mk t earlier ⟨offer, decision⟩).Overreaches ↔
      ∃ place ∈ ahead.head?, place < reached + needle.length := by
  have hlead := h.stage.lead
  have hneedle := h.stage.needle_eq
  cases hwrapped : offer.run.wrapped with
  | false =>
      obtain ⟨rfl, -⟩ := h.stage.first hwrapped
      simp [Moment.Overreaches, hwrapped]
  | true =>
      obtain ⟨hahead, horigin⟩ := h.stage.second hwrapped
      have hbefore := h.before hwrapped
      rw [if_pos hwrapped] at hlead
      cases ahead with
      | nil =>
          have hnone := Option.map_eq_none_iff.mp hlead
          simp [Moment.Overreaches, hnone]
      | cons place rest =>
          obtain ⟨first, hfirst, heq⟩ := Option.map_eq_some_iff.mp hlead
          obtain ⟨hfirstOffset, hfirstRun⟩ := Prod.mk.inj heq
          have hplace := hahead place List.mem_cons_self
          simp only [Moment.Overreaches, hwrapped, hfirst, hneedle, hfirstOffset, hfirstRun,
            true_and, Option.some.injEq, exists_eq_left', List.head?_cons, Option.mem_def]
          omega

/-- A match that does not overreach ends before the places that are ahead. -/
theorem clear (h : Meeting needle replacement old origin offer t earlier reached behind ahead)
    (hnot : ¬ (Moment.mk t earlier ⟨offer, decision⟩).Overreaches) :
    ∀ place ∈ ahead, reached + needle.length ≤ place := by
  have hhead := mt h.overreaches_iff.mpr hnot
  cases ahead with
  | nil => simp
  | cons first rest =>
      have hle : reached + needle.length ≤ first :=
        Nat.le_of_not_lt fun hlt => hhead ⟨first, rfl, hlt⟩
      exact fun place hplace => Nat.le_trans hle (h.stage.cut.first_le place hplace)

/-- **A match that does not overreach** stood in the old text. -/
theorem stoodAt (h : Meeting needle replacement old origin offer t earlier reached behind ahead)
    (hnot : ¬ (Moment.mk t earlier ⟨offer, decision⟩).Overreaches) :
    (Moment.mk t earlier ⟨offer, decision⟩).StoodAt reached := by
  have hstood := h.stage.cut.stood h.found (h.clear hnot)
  rw [← h.stage.needle_eq] at hstood
  exact hstood

/-- **A match that overreaches** did not. -/
theorem not_stoodAt
    (h : Meeting needle replacement old origin offer t earlier reached behind ahead)
    (hover : (Moment.mk t earlier ⟨offer, decision⟩).Overreaches) :
    (∀ source, ¬ (Moment.mk t earlier ⟨offer, decision⟩).StoodAt source) ∧
      ((Moment.mk t earlier ⟨offer, decision⟩).HoldsInserted ↔ replacement ≠ []) := by
  obtain ⟨place, hhead, hreach⟩ := h.overreaches_iff.mp hover
  cases ahead with
  | nil => cases hhead
  | cons first rest =>
      obtain rfl := Option.some.inj hhead
      have hbefore := h.lt_ahead first List.mem_cons_self
      have hstood := h.stage.cut.not_stood hbefore hreach
      have hheld := h.stage.cut.holdsInserted_iff hbefore hreach
      rw [← h.stage.needle_eq] at hstood hheld
      exact ⟨hstood, hheld⟩

theorem sound (h : Meeting needle replacement old origin offer t earlier reached behind ahead) :
    (Moment.mk t earlier ⟨offer, decision⟩).Sound := by
  by_cases hover : (Moment.mk t earlier ⟨offer, decision⟩).Overreaches
  · obtain ⟨hstood, hheld⟩ := h.not_stoodAt hover
    refine ⟨h.bytes_eq, ?_, ?_⟩
    · exact iff_of_false (fun ⟨source, hsource⟩ => hstood source hsource) (not_not_intro hover)
    · rw [hheld, and_iff_right hover, ← h.stage.replacement_eq]
  · have hstood := h.stoodAt hover
    refine ⟨h.bytes_eq, iff_of_true ⟨_, hstood⟩ hover, ?_⟩
    exact iff_of_false hstood.not_holdsInserted fun hheld => hover hheld.1

/-- A match that is skipped is left as it is. -/
theorem skip (h : Meeting needle replacement old origin offer t earlier reached behind ahead) :
    Stage needle replacement old origin { offer.run with position := offer.offset + 1 } t
      (earlier ++ [⟨offer, .skip⟩]) (offer.offset + 1) (reached + 1) behind ahead := by
  have hmoved := h.stage.advance (x := 1) h.lt_ahead
  exact {
    needle_eq := hmoved.needle_eq
    replacement_eq := hmoved.replacement_eq
    cut := hmoved.cut
    first := hmoved.first
    second := hmoved.second
    lead := by
      rw [firstTaken?_append, if_neg (by simp)]
      exact hmoved.lead }

/-- A match that is taken is spliced out of the traced text. -/
theorem retrace_eq
    (h : Meeting needle replacement old origin offer t earlier reached behind ahead)
    (fit : offer.run.fits offer.shown.buffer = true) :
    Reply.retrace ⟨offer, .replace⟩ t
      = splice t offer.offset needle.length (inserted replacement) := by
  have htaken := (Reply.taken_replace offer).trans fit
  rw [Reply.retrace, if_pos htaken, h.stage.needle_eq, h.stage.replacement_eq]

/-- The first match that is taken in the first pass leads the places behind. -/
theorem lead_replace
    (h : Meeting needle replacement old origin offer t earlier reached behind ahead)
    (fit : offer.run.fits offer.shown.buffer = true) :
    (firstTaken? (earlier ++ [⟨offer, .replace⟩])).map (fun offer => (offer.offset, offer.run.origin))
      = (if offer.run.wrapped then ahead else behind ++ [reached]).head?.map
          fun place => (place, origin) := by
  have hlead := h.stage.lead
  rw [firstTaken?_append, Reply.taken_replace, fit]
  cases hwrapped : offer.run.wrapped with
  | true =>
      rw [if_pos hwrapped] at hlead
      exact hlead
  | false =>
      obtain ⟨-, horigin, -, -, hnone⟩ := h.stage.first hwrapped
      rw [if_neg (Bool.eq_false_iff.mp hwrapped)] at hlead
      cases behind with
      | nil =>
          rw [Option.map_eq_none_iff.mp hlead]
          simp [horigin, hnone rfl]
      | cons place rest =>
          obtain ⟨first, hfirst, heq⟩ := Option.map_eq_some_iff.mp hlead
          simp [hfirst, heq]

/-- A match that is taken is one more place behind, if it does not overreach. -/
theorem replace (h : Meeting needle replacement old origin offer t earlier reached behind ahead)
    (fit : offer.run.fits offer.shown.buffer = true)
    (hnot : ¬ (Moment.mk t earlier ⟨offer, .replace⟩).Overreaches) :
    Stage needle replacement old origin (offer.run.afterReplacing offer.offset)
      (Reply.retrace ⟨offer, .replace⟩ t) (earlier ++ [⟨offer, .replace⟩])
      (offer.run.afterReplacing offer.offset).position (reached + needle.length)
      (behind ++ [reached]) ahead := by
  have hstage := h.stage
  have hposition : (offer.run.afterReplacing offer.offset).position
      = offer.offset + replacement.length := by rw [afterReplacing, hstage.replacement_eq]
  exact {
    needle_eq := hstage.needle_eq
    replacement_eq := hstage.replacement_eq
    cut := by
      rw [hposition, h.retrace_eq fit]
      exact hstage.cut.replace h.found (h.clear hnot)
    first := fun hwrapped => by
      obtain ⟨hnil, horigin, hle, hbehind, -⟩ := hstage.first hwrapped
      refine ⟨hnil, ?_, Nat.le_add_right_of_le hle, ?_, fun hempty => by simp at hempty⟩
      · rw [← horigin]
        exact if_neg (Bool.eq_false_iff.mp hwrapped)
      · intro place hplace
        rcases List.mem_append.mp hplace with hmem | hmem
        · exact hbehind place hmem
        · rw [List.mem_singleton.mp hmem]
          exact hle
    second := fun hwrapped => by
      obtain ⟨hplaces, horigin⟩ := hstage.second hwrapped
      have hmoved : (offer.run.afterReplacing offer.offset).origin
          = offer.run.origin + replacement.length - needle.length := by
        rw [← hstage.needle_eq, ← hstage.replacement_eq]
        exact if_pos hwrapped
      refine ⟨hplaces, ?_⟩
      rw [hposition, hmoved]
      omega
    lead := h.lead_replace fit }

/-- Taking a match changes the traced text as it changes the text. -/
theorem bytes_retrace
    (h : Meeting needle replacement old origin offer t earlier reached behind ahead)
    (fit : offer.run.fits offer.shown.buffer = true) :
    (Reply.retrace ⟨offer, .replace⟩ t).bytes
      = (offer.run.substitute offer.shown.buffer offer.offset).content := by
  have hle := h.found.add_length_le
  rw [h.bytes_eq, GapBuffer.length_content, ← h.stage.needle_eq] at hle
  rw [content_substitute hle fit, ← h.bytes_eq, h.retrace_eq fit, TracedText.bytes, map_splice,
    h.stage.needle_eq, h.stage.replacement_eq]
  exact congrArg _ (TracedText.bytes_inserted replacement)

end Meeting
end ReplaceRun
end ScreenEditor
