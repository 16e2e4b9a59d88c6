import ScreenEditor.Proofs.Search.Occurrence
import ScreenEditor.Proofs.Search.Splice

/-!
# Where the bytes of a changed text come from

Every byte of a `TracedText` remembers the offset at which it stood in an older text, and a byte
that was inserted remembers that it has none.

A text that is changed from the front to the back is described by `Cut`: what lies before a position
is old text with some places replaced, and what lies behind it is old text with some further places
replaced.  A match at the position is told from the first of the places ahead.  When the match ends
there or before, it stood in the old text (`Cut.stood`), and when it reaches over that place it did
not (`Cut.not_stood`).  The position may move on over old text (`Cut.advance`) or over a match that
is replaced (`Cut.replace`), and from the end of the text it may go back to the start (`Cut.again`).
-/

namespace ScreenEditor

/-- Bytes with the offsets at which they stood in an older text.  Inserted bytes have none. -/
abbrev TracedText := List (UInt8 × Option Nat)

namespace TracedText

/-- A text before any change. -/
def ofText (text : List UInt8) : TracedText := text.zipIdx.map fun b => (b.1, some b.2)

/-- Bytes that did not stand in the older text. -/
def inserted (bytes : List UInt8) : TracedText := bytes.map fun b => (b, none)

/-- The text as it stands. -/
def bytes (t : TracedText) : List UInt8 := t.map Prod.fst

/-- The `width` bytes from an offset on stood side by side from `source` on. -/
def Stood (t : TracedText) (offset width source : Nat) : Prop :=
  ∀ i < width, ∃ b, t[offset + i]? = some (b, some (source + i))

/-- One of the `width` bytes from an offset on was inserted. -/
def HoldsInserted (t : TracedText) (offset width : Nat) : Prop :=
  ∃ i < width, ∃ b, t[offset + i]? = some (b, none)

@[simp] theorem bytes_ofText (text : List UInt8) : (ofText text).bytes = text := by
  rw [bytes, ofText, List.map_map]
  exact List.zipIdx_map_fst 0 text

@[simp] theorem bytes_inserted (bytes : List UInt8) : (inserted bytes).bytes = bytes := by
  rw [TracedText.bytes, inserted, List.map_map]
  exact List.map_id bytes

@[simp] theorem length_ofText (text : List UInt8) : (ofText text).length = text.length := by
  simp [ofText]

theorem getElem?_ofText (text : List UInt8) (k : Nat) :
    (ofText text)[k]? = text[k]?.map fun b => (b, some k) := by
  simp [ofText, List.getElem?_zipIdx, Function.comp_def]

/-- An old byte from an offset on stood there or behind it. -/
theorem of_mem_drop_ofText {text : List UInt8} {k : Nat} {b : UInt8 × Option Nat}
    (h : b ∈ (ofText text).drop k) : ∃ source, k ≤ source ∧ b.2 = some source := by
  obtain ⟨i, hi⟩ := List.mem_iff_getElem?.mp h
  rw [List.getElem?_drop, getElem?_ofText] at hi
  obtain ⟨c, -, rfl⟩ := Option.map_eq_some_iff.mp hi
  exact ⟨k + i, Nat.le_add_right k i, rfl⟩

/-- Bytes stood at one place only. -/
theorem Stood.unique {t : TracedText} {offset width source source' : Nat} (hwidth : 0 < width)
    (h : t.Stood offset width source) (h' : t.Stood offset width source') : source = source' := by
  obtain ⟨b, hb⟩ := h 0 hwidth
  obtain ⟨c, hc⟩ := h' 0 hwidth
  rw [hb] at hc
  exact Option.some.inj (Prod.mk.inj (Option.some.inj hc)).2

/-- What stood side by side holds nothing that was inserted. -/
theorem Stood.not_holdsInserted {t : TracedText} {offset width source : Nat}
    (h : t.Stood offset width source) : ¬ t.HoldsInserted offset width := by
  rintro ⟨i, hi, b, hb⟩
  obtain ⟨c, hc⟩ := h i hi
  rw [hb] at hc
  cases hc

end TracedText

/-- The new text is the old one with the needle replaced where it stands at the given places, which
do not overlap. -/
structure ReplacesExactly (needle replacement old : List UInt8) (places : List Nat)
    (new : List UInt8) : Prop where
  apart : places.Pairwise (· + needle.length ≤ ·)
  occurs : ∀ place ∈ places, Occurs needle old place
  text : new = splicedFrom needle.length replacement old 0 places

/-! ## A text cut at a position -/

open TracedText (ofText inserted)

/-- How a text came from an old text.  What lies before `position` came from what lay before
`reached`, with the places `behind` replaced.  The rest is as it was but for the places `ahead`,
which are replaced too. -/
structure Cut (needle replacement old : List UInt8) (t : TracedText) (position reached : Nat)
    (behind ahead : List Nat) : Prop where
  rest : t.drop position
    = splicedFrom needle.length (inserted replacement) (ofText old) reached ahead
  front : ∀ later, (∀ place ∈ later, reached ≤ place) →
    t.take position
        ++ splicedFrom needle.length (inserted replacement) (ofText old) reached later
      = splicedFrom needle.length (inserted replacement) (ofText old) 0 (behind ++ later)
  apart : (behind ++ ahead).Pairwise (· + needle.length ≤ ·)
  behind_le : ∀ place ∈ behind, place + needle.length ≤ reached
  le_ahead : ∀ place ∈ ahead, reached ≤ place
  occurs : ∀ place ∈ behind ++ ahead, Occurs needle old place

/-- The old text may be cut anywhere. -/
theorem cut_ofText (needle replacement old : List UInt8) (position : Nat) :
    Cut needle replacement old (ofText old) position position [] [] where
  rest := rfl
  front := by
    intro later hlater
    have hstart : ∀ place ∈ later, 0 + position ≤ place := by simpa using hlater
    rw [List.nil_append, splicedFrom_eq_append hstart, List.drop_zero, Nat.zero_add]
  apart := List.Pairwise.nil
  behind_le := by simp
  le_ahead := by simp
  occurs := by simp

namespace Cut

variable {needle replacement old : List UInt8} {t : TracedText} {position reached x place : Nat}
  {behind ahead rest : List Nat}

/-- A place lies inside the old text. -/
theorem le_length (h : Cut needle replacement old t position reached behind ahead)
    (hplace : place ∈ ahead) : place + needle.length ≤ (ofText old).length := by
  rw [TracedText.length_ofText]
  exact (h.occurs place (List.mem_append_right _ hplace)).add_length_le

theorem apart_ahead (h : Cut needle replacement old t position reached behind ahead) :
    ahead.Pairwise (· + needle.length ≤ ·) := (List.pairwise_append.mp h.apart).2.1

/-- The places ahead are in order. -/
theorem first_le (h : Cut needle replacement old t position reached behind (place :: rest)) :
    ∀ p ∈ place :: rest, place ≤ p := by
  intro p hp
  rcases List.mem_cons.mp hp with rfl | hrest
  · exact Nat.le_refl _
  · exact Nat.le_of_add_right_le ((List.pairwise_cons.mp h.apart_ahead).1 p hrest)

/-- The whole text. -/
theorem replacesExactly (h : Cut needle replacement old t position reached behind ahead) :
    ReplacesExactly needle replacement old (behind ++ ahead) t.bytes := by
  have hall := h.front ahead h.le_ahead
  rw [← h.rest, List.take_append_drop] at hall
  refine ⟨h.apart, h.occurs, ?_⟩
  rw [TracedText.bytes, hall, map_splicedFrom]
  exact congrArg₂ (fun new l => splicedFrom needle.length new l 0 (behind ++ ahead))
    (TracedText.bytes_inserted replacement) (TracedText.bytes_ofText old)

/-! ### Before the first place ahead -/

/-- A byte before the first place ahead stands as it stood. -/
theorem getElem?_eq (h : Cut needle replacement old t position reached behind ahead)
    (hclear : ∀ place ∈ ahead, reached + x < place) :
    t[position + x]? = (ofText old)[reached + x]? := by
  rw [← List.getElem?_drop, h.rest]
  refine getElem?_splicedFrom fun place hplace => ⟨hclear place hplace, ?_⟩
  exact Nat.le_of_add_right_le (h.le_length hplace)

/-- A match before the first place ahead is a match of the old text. -/
theorem occurs_old (h : Cut needle replacement old t position reached behind ahead)
    (hocc : Occurs needle t.bytes position)
    (hclear : ∀ place ∈ ahead, reached + needle.length ≤ place) : Occurs needle old reached := by
  have hplaces : ∀ place ∈ ahead,
      reached + needle.length ≤ place ∧ place ≤ (ofText old).length :=
    fun place hplace => ⟨hclear place hplace, Nat.le_of_add_right_le (h.le_length hplace)⟩
  have hsame : (t.bytes.drop position).take needle.length
      = (old.drop reached).take needle.length := by
    rw [TracedText.bytes, ← List.map_drop, ← List.map_take, h.rest, take_splicedFrom hplaces,
      List.map_take, List.map_drop]
    exact congrArg (fun l => (l.drop reached).take needle.length) (TracedText.bytes_ofText old)
  exact (occurs_congr hsame).mp hocc

/-- A match before the first place ahead stood in the old text. -/
theorem stood (h : Cut needle replacement old t position reached behind ahead)
    (hocc : Occurs needle t.bytes position)
    (hclear : ∀ place ∈ ahead, reached + needle.length ≤ place) :
    t.Stood position needle.length reached := by
  have hle := (h.occurs_old hocc hclear).add_length_le
  intro i hi
  have hbefore : ∀ place ∈ ahead, reached + i < place := fun place hplace =>
    Nat.lt_of_lt_of_le (Nat.add_lt_add_left hi reached) (hclear place hplace)
  rw [h.getElem?_eq hbefore, TracedText.getElem?_ofText, List.getElem?_eq_getElem (by omega)]
  exact ⟨_, rfl⟩

/-! ### Over the first place ahead -/

/-- At the first place ahead stand bytes that were inserted, or bytes that stood behind it. -/
theorem of_getElem?_place {b : UInt8 × Option Nat}
    (h : Cut needle replacement old t position reached behind (place :: rest))
    (hb : t[position + (place - reached)]? = some b) :
    b.2 = none ∨ ∃ source, place + needle.length ≤ source ∧ b.2 = some source := by
  have hplace : place ∈ place :: rest := List.mem_cons_self
  rw [← List.getElem?_drop, h.rest, getElem?_splicedFrom_cons (h.le_ahead place hplace)
    (Nat.le_of_add_right_le (h.le_length hplace))] at hb
  obtain ⟨hfirst, hrest⟩ := List.pairwise_cons.mp h.apart_ahead
  have hmem : b ∈ inserted replacement ∨ b ∈ (ofText old).drop (place + needle.length) :=
    (List.mem_append.mp (List.mem_of_getElem? hb)).elim .inl (mem_splicedFrom hrest hfirst)
  rcases hmem with hnew | hold
  · obtain ⟨c, -, rfl⟩ := List.mem_map.mp hnew
    exact .inl rfl
  · exact .inr (TracedText.of_mem_drop_ofText hold)

/-- **A match that reaches over the first place ahead** did not stand in the old text. -/
theorem not_stood (h : Cut needle replacement old t position reached behind (place :: rest))
    (hbefore : reached < place) (hreach : place < reached + needle.length) (source : Nat) :
    ¬ t.Stood position needle.length source := by
  intro hstood
  -- its first byte says where it stood, and the byte at the place comes from further behind
  obtain ⟨b, hb⟩ := hstood 0 (by omega)
  rw [h.getElem?_eq fun p hp => Nat.lt_of_lt_of_le hbefore (h.first_le p hp),
    TracedText.getElem?_ofText, Nat.add_zero, Nat.add_zero] at hb
  obtain ⟨c, -, heq⟩ := Option.map_eq_some_iff.mp hb
  obtain rfl := Option.some.inj (Prod.mk.inj heq).2
  obtain ⟨d, hd⟩ := hstood (place - reached) (by omega)
  rcases h.of_getElem?_place hd with hnone | ⟨origin, horigin, hsome⟩
  · cases hnone
  · have heq := Option.some.inj hsome
    omega

/-- Such a match holds an inserted byte unless the replacement has none. -/
theorem holdsInserted_iff (h : Cut needle replacement old t position reached behind (place :: rest))
    (hbefore : reached < place) (hreach : place < reached + needle.length) :
    t.HoldsInserted position needle.length ↔ replacement ≠ [] := by
  have hplace : place ∈ place :: rest := List.mem_cons_self
  constructor
  · rintro ⟨i, -, b, hb⟩ rfl
    have hmem : (b, none) ∈ t.drop position := by
      rw [← List.getElem?_drop] at hb
      exact List.mem_of_getElem? hb
    rw [h.rest] at hmem
    rcases mem_splicedFrom h.apart_ahead h.le_ahead hmem with hnew | hold
    · cases hnew
    · obtain ⟨source, -, hsome⟩ := TracedText.of_mem_drop_ofText hold
      cases hsome
  · intro hne
    obtain ⟨b, bytes, rfl⟩ := List.exists_cons_of_ne_nil hne
    refine ⟨place - reached, by omega, b, ?_⟩
    rw [← List.getElem?_drop, h.rest, getElem?_splicedFrom_cons (h.le_ahead place hplace)
      (Nat.le_of_add_right_le (h.le_length hplace))]
    rfl

/-! ### Moving the position -/

/-- The position moves on over old text. -/
theorem advance (h : Cut needle replacement old t position reached behind ahead)
    (hclear : ∀ place ∈ ahead, reached + x ≤ place) :
    Cut needle replacement old t (position + x) (reached + x) behind ahead := by
  have hplaces : ∀ place ∈ ahead, reached + x ≤ place ∧ place ≤ (ofText old).length :=
    fun place hplace => ⟨hclear place hplace, Nat.le_of_add_right_le (h.le_length hplace)⟩
  exact {
    rest := by rw [← List.drop_drop, h.rest, drop_splicedFrom hplaces]
    front := fun later hlater => by
      rw [List.take_add, h.rest, take_splicedFrom hplaces, List.append_assoc,
        ← splicedFrom_eq_append hlater]
      exact h.front later fun place hplace => Nat.le_of_add_right_le (hlater place hplace)
    apart := h.apart
    behind_le := fun place hplace => Nat.le_add_right_of_le (h.behind_le place hplace)
    le_ahead := hclear
    occurs := h.occurs }

/-- A match at the position is replaced. -/
theorem replace (h : Cut needle replacement old t position reached behind ahead)
    (hocc : Occurs needle t.bytes position)
    (hclear : ∀ place ∈ ahead, reached + needle.length ≤ place) :
    Cut needle replacement old (splice t position needle.length (inserted replacement))
      (position + replacement.length) (reached + needle.length) (behind ++ [reached]) ahead := by
  have hlength : position ≤ t.length := by
    have hle := hocc.add_length_le
    rw [TracedText.bytes, List.length_map] at hle
    omega
  have hinserted : (inserted replacement).length = replacement.length := List.length_map _
  rw [← hinserted]
  exact {
    rest := by
      rw [drop_splice _ hlength]
      exact (h.advance hclear).rest
    front := fun later hlater => by
      have hfront := h.front (reached :: later) (by
        intro place hplace
        rcases List.mem_cons.mp hplace with rfl | hmem
        · exact Nat.le_refl _
        · exact Nat.le_of_add_right_le (hlater place hmem))
      rw [splicedFrom, Nat.sub_self, List.take_zero, List.nil_append] at hfront
      rw [take_splice _ hlength]
      simpa only [List.append_assoc, List.singleton_append] using hfront
    apart := by
      obtain ⟨hbehind, hahead, -⟩ := List.pairwise_append.mp h.apart
      rw [List.append_assoc, List.singleton_append]
      refine List.pairwise_append.mpr ⟨hbehind, List.pairwise_cons.mpr ⟨hclear, hahead⟩, ?_⟩
      intro place hplace later hlater
      rcases List.mem_cons.mp hlater with rfl | hmem
      · exact h.behind_le place hplace
      · exact Nat.le_trans (h.behind_le place hplace) (h.le_ahead later hmem)
    behind_le := by
      intro place hplace
      rcases List.mem_append.mp hplace with hmem | hmem
      · exact Nat.le_add_right_of_le (h.behind_le place hmem)
      · rw [List.mem_singleton.mp hmem]
    le_ahead := hclear
    occurs := by
      intro place hplace
      rw [List.append_assoc, List.singleton_append, List.perm_middle.mem_iff] at hplace
      rcases List.mem_cons.mp hplace with rfl | hmem
      · exact h.occurs_old hocc hclear
      · exact h.occurs place hmem }

/-- Back at the start, all that was replaced is ahead. -/
theorem again (h : Cut needle replacement old t position reached behind []) :
    Cut needle replacement old t 0 0 [] behind := by
  have hall := h.front [] (by simp)
  have hapart := h.apart
  have hoccurs := h.occurs
  rw [← h.rest, List.take_append_drop, List.append_nil] at hall
  rw [List.append_nil] at hapart hoccurs
  exact {
    rest := hall
    front := fun later _ => rfl
    apart := hapart
    behind_le := by simp
    le_ahead := fun place _ => Nat.zero_le place
    occurs := hoccurs }

end Cut
end ScreenEditor
