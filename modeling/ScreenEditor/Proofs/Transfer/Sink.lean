import ScreenEditor.Proofs.Transfer.Translate

/-!
# How a sink takes a file

A sink stores bytes one at a time and remembers where the conversion stands.  `Took` relates a sink
before and after it took some bytes of a file: what it stored meanwhile is exactly what these bytes
owe, wherever the file is cut into chunks.

What a sink does to the documents is kept apart from this.  A family of predicates, indexed by the
text stored so far, is *tracked* if storing one byte takes it one byte further (`Tracked`); then
feeding any bytes takes it as far as the bytes that were stored (`Tracked.feed`).  A family that
does not speak of the marks of the conversion need only say what putting a byte does (`Respected`).

## Main results

* `Tracked.feedByte`: one byte of the file.
* `Tracked.feed`: a chunk of the file.
-/

namespace ScreenEditor.Sink

/-! ## Outcomes -/

/-- A sink that was filled has `P`, and one that found no segment left has `Q`. -/
def Filled.Spec (r : Filled) (P Q : Sink → Prop) : Prop :=
  match r with
  | .ok s => P s
  | .error s => Q s

/-- What is promised may be weakened. -/
theorem Filled.Spec.mono {r : Filled} {P P' Q Q' : Sink → Prop} (h : r.Spec P Q)
    (hP : ∀ s, P s → P' s) (hQ : ∀ s, Q s → Q' s) : r.Spec P' Q' := by
  cases r with
  | ok s => exact hP s h
  | error s => exact hQ s h

/-- A change that cannot fail carries the promise on. -/
theorem Filled.Spec.map {r : Filled} {P P' Q : Sink → Prop} {f : Sink → Sink}
    (h : r.Spec P Q) (hf : ∀ s, P s → P' (f s)) : Filled.Spec (r.map f) P' Q := by
  cases r with
  | ok s => exact hf s h
  | error s => exact h

/-- One step after another promises what the second does. -/
theorem Filled.Spec.bind {r : Filled} {P P' Q : Sink → Prop} {f : Sink → Filled}
    (h : r.Spec P Q) (hf : ∀ s, P s → (f s).Spec P' Q) : Filled.Spec (r >>= f) P' Q := by
  cases r with
  | ok s => exact hf s h
  | error s => exact h

/-- Two promises hold together. -/
theorem Filled.Spec.and {r : Filled} {P P' Q Q' : Sink → Prop} (h : r.Spec P Q)
    (h' : r.Spec P' Q') : r.Spec (fun s => P s ∧ P' s) (fun s => Q s ∧ Q' s) := by
  cases r with
  | ok s => exact ⟨h, h'⟩
  | error s => exact ⟨h, h'⟩

/-! ## Where the conversion stands -/

/-- Two sinks for which the conversion stands at the same place. -/
structure SameReader (s s' : Sink) : Prop where
  mode : s'.mode = s.mode
  threshold : s'.threshold = s.threshold
  tabWidth : s'.tabWidth = s.tabWidth
  column : s'.column = s.column
  pendingReturn : s'.pendingReturn = s.pendingReturn
  stored : s'.stored = s.stored
  origin : s'.origin = s.origin
  resume : s'.resume = s.resume

/-- Taking out the tail leaves what is known of the reader. -/
theorem sameReader_detachTail (s : Sink) : s.SameReader s.detachTail := by
  unfold detachTail
  split <;> exact ⟨rfl, rfl, rfl, rfl, rfl, rfl, rfl, rfl⟩

/-- So does closing a part. -/
theorem sameReader_finishPart (s : Sink) : s.SameReader s.finishPart := by
  unfold finishPart
  split <;> exact ⟨rfl, rfl, rfl, rfl, rfl, rfl, rfl, rfl⟩

/-- This goes from sink to sink. -/
theorem SameReader.trans {s s' s'' : Sink} (h : s.SameReader s') (h' : s'.SameReader s'') :
    s.SameReader s'' :=
  ⟨h'.mode.trans h.mode, h'.threshold.trans h.threshold, h'.tabWidth.trans h.tabWidth,
    h'.column.trans h.column, h'.pendingReturn.trans h.pendingReturn, h'.stored.trans h.stored,
    h'.origin.trans h.origin, h'.resume.trans h.resume⟩

theorem sameReader_closed (s : Sink) : s.SameReader s.detachTail.finishPart :=
  (sameReader_detachTail s).trans (sameReader_finishPart _)

/-- Going on in another segment leaves the conversion where it stands. -/
theorem sameReader_overflow (s : Sink) : s.overflow.Spec s.SameReader s.SameReader := by
  have h := sameReader_closed s
  unfold overflow
  cases hc : s.detachTail.finishPart.table.continueInNext with
  | none => simpa [Filled.Spec, hc] using h
  | some next =>
      simp only [hc, Filled.Spec]
      exact ⟨h.mode, h.threshold, h.tabWidth, h.column, h.pendingReturn, h.stored, h.origin,
        h.resume⟩

/-- So does storing a byte. -/
theorem sameReader_place (s : Sink) (b : UInt8) :
    (s.place b).Spec s.SameReader s.SameReader := by
  unfold place
  split
  · refine (sameReader_overflow s).map ?_
    intro s' h
    exact ⟨h.mode, h.threshold, h.tabWidth, h.column, h.pendingReturn, h.stored, h.origin,
      h.resume⟩
  · exact ⟨rfl, rfl, rfl, rfl, rfl, rfl, rfl, rfl⟩

/-! ## Storing bytes -/

/-- The column after a text that begins at a column. -/
def columnAfter (column : Nat) : List UInt8 → Nat
  | [] => column
  | b :: rest => columnAfter (if b = lineFeed then 0 else column + 1) rest

/-- Blanks move the column by their number. -/
theorem columnAfter_blanks (column n : Nat) :
    columnAfter column (List.replicate n blankByte) = column + n := by
  induction n generalizing column with
  | zero => rfl
  | succ n ih =>
      rw [List.replicate_succ, columnAfter, if_neg (by decide), ih]
      omega

/-- The sink `s'` is the sink `s` after it stored `output`. -/
structure Emitted (s : Sink) (output : List UInt8) (s' : Sink) : Prop where
  mode : s'.mode = s.mode
  tabWidth : s'.tabWidth = s.tabWidth
  origin : s'.origin = s.origin
  resume : s'.resume = s.resume
  pendingReturn : s'.pendingReturn = s.pendingReturn
  stored : s'.stored = s.stored + output.length
  column : s'.column = columnAfter s.column output

/-- A byte is stored, and counted, after the sink stood at the same place. -/
theorem emitted_count {s s' : Sink} (h : s.SameReader s') (b : UInt8) :
    s.Emitted [b] (s'.count b) := by
  unfold count
  split
  · next hb =>
    exact ⟨h.mode, h.tabWidth, h.origin, h.resume, h.pendingReturn, by simp [h.stored],
      by simp [columnAfter, hb]⟩
  · next hb =>
    exact ⟨h.mode, h.tabWidth, h.origin, h.resume, h.pendingReturn, by simp [h.stored],
      by simp [columnAfter, hb, h.column]⟩

/-- Storing a byte, whatever it leads to. -/
theorem emitted_emit (s : Sink) (b : UInt8) : (s.emit b).Spec (s.Emitted [b]) fun _ => True :=
  ((sameReader_place s b).mono (fun _ => id) (fun _ _ => trivial)).map
    fun _ hsame => emitted_count hsame b

/-- The sink `s'` is the sink `s` after it took `input` from the file and stored `output`. -/
structure Took (s : Sink) (input output : List UInt8) (s' : Sink) : Prop where
  owed : ∀ rest, s.owed (input ++ rest) = output ++ s'.owed rest
  mode : s'.mode = s.mode
  tabWidth : s'.tabWidth = s.tabWidth
  origin : s'.origin = s.origin
  resume : s'.resume = s.resume
  stored : s'.stored = s.stored + output.length

/-- Nothing read, nothing owed. -/
theorem Took.refl (s : Sink) : s.Took [] [] s := ⟨fun _ => rfl, rfl, rfl, rfl, rfl, rfl⟩

/-- What is taken in two goes is taken in order. -/
theorem Took.trans {s s' s'' : Sink} {input input' output output' : List UInt8}
    (h : s.Took input output s') (h' : s'.Took input' output' s'') :
    s.Took (input ++ input') (output ++ output') s'' where
  owed := by
    intro rest
    rw [List.append_assoc, h.owed, h'.owed, List.append_assoc]
  mode := h'.mode.trans h.mode
  tabWidth := h'.tabWidth.trans h.tabWidth
  origin := h'.origin.trans h.origin
  resume := h'.resume.trans h.resume
  stored := by rw [h'.stored, h.stored, List.length_append, Nat.add_assoc]

/-- What is owed depends on the conversion only. -/
theorem owed_congr {s s' : Sink} (htab : s'.tabWidth = s.tabWidth) (hcol : s'.column = s.column)
    (hret : s'.pendingReturn = s.pendingReturn) (rest : List UInt8) :
    s'.owed rest = s.owed rest := by
  rw [owed, owed, htab, hcol, hret]

/-- A byte that does not complete a pair is taken by storing what it owes. -/
theorem Emitted.took {s s' s'' : Sink} {b : UInt8} {output : List UInt8}
    (he : Emitted { s with pendingReturn := false } output s')
    (hpair : ¬ (s.pendingReturn && b == lineFeed) = true)
    (hs'' : s'' = { s' with pendingReturn := s''.pendingReturn })
    (howed : ∀ rest, owed { s with pendingReturn := false } (b :: rest) = output ++ owed
      { s with column := columnAfter s.column output, pendingReturn := s''.pendingReturn } rest) :
    s.Took [b] output s'' := by
  have htab : s''.tabWidth = s.tabWidth := by
    rw [hs'']
    exact he.tabWidth
  have hcol : s''.column = columnAfter s.column output := by
    rw [hs'']
    exact he.column
  refine ⟨?_, ?_, htab, ?_, ?_, ?_⟩
  · intro rest
    rw [List.singleton_append, owed_forget hpair, howed]
    refine congrArg (output ++ ·) ?_
    apply owed_congr
    · exact htab.symm
    · exact hcol.symm
    · exact rfl
  · rw [hs'']
    exact he.mode
  · rw [hs'']
    exact he.origin
  · rw [hs'']
    exact he.resume
  · rw [hs'']
    exact he.stored

/-- When the file is at its end, what was stored is all that was owed. -/
theorem Took.output_eq {s s' : Sink} {input output : List UInt8} (h : s.Took input output s') :
    output = s.owed input := by
  have howed := h.owed []
  rwa [List.append_nil, owed_nil, List.append_nil, eq_comm] at howed

/-! ## What taking bytes tracks -/

/-- A family of predicates on sinks, by the text stored so far.  A byte that is stored and counted
takes it one byte further, and the end of a chunk keeps it when `ended` holds of the text.  A sink
that found no segment left is `stuck`. -/
structure Tracked (F : List UInt8 → Sink → Prop) (ended : List UInt8 → Prop)
    (stuck : Sink → Prop) : Prop where
  emit : ∀ {text : List UInt8} {s : Sink} (b : UInt8), F text s →
    (s.emit b).Spec (F (text ++ [b])) stuck
  remember : ∀ {text : List UInt8} {s : Sink} (ret : Bool), F text s →
    F text { s with pendingReturn := ret }
  chunkEnd : ∀ {text : List UInt8} {s : Sink}, F text s → ended text →
    F text { s with overflowDue := s.overflowDue || s.lowOnSpace }

namespace Tracked

variable {F : List UInt8 → Sink → Prop} {ended : List UInt8 → Prop} {stuck : Sink → Prop}
variable (hF : Tracked F ended stuck) {text : List UInt8} {s : Sink}

include hF

/-- A byte that is emitted is put, with its column and its count. -/
theorem emitted (h : F text s) (b : UInt8) :
    (s.emit b).Spec (fun s' => F (text ++ [b]) s' ∧ s.Emitted [b] s') stuck :=
  ((hF.emit b h).and (emitted_emit s b)).mono (fun _ => id) (fun _ h => h.1)

/-- So are blanks, one after the other. -/
theorem emitBlanks (h : F text s) (n : Nat) :
    (s.emitBlanks n).Spec
      (fun s' => F (text ++ List.replicate n blankByte) s' ∧
        s.Emitted (List.replicate n blankByte) s') stuck := by
  induction n generalizing text s with
  | zero =>
      rw [List.replicate_zero, List.append_nil]
      exact ⟨h, rfl, rfl, rfl, rfl, rfl, rfl, rfl⟩
  | succ n ih =>
      refine (hF.emitted h blankByte).bind ?_
      intro s₁ h₁
      refine (ih h₁.1).mono ?_ (fun _ => id)
      intro s' h'
      have hfirst := h₁.2
      have hrest := h'.2
      refine ⟨?_, hrest.mode.trans hfirst.mode, hrest.tabWidth.trans hfirst.tabWidth,
        hrest.origin.trans hfirst.origin, hrest.resume.trans hfirst.resume,
        hrest.pendingReturn.trans hfirst.pendingReturn, ?_, ?_⟩
      · have htext := h'.1
        rwa [List.append_assoc, List.singleton_append, ← List.replicate_succ] at htext
      · rw [hrest.stored, hfirst.stored, List.length_replicate, List.length_replicate,
          List.length_singleton, Nat.add_assoc, Nat.add_comm 1]
      · rw [hrest.column, hfirst.column]
        rfl

/-- **One byte of the file.**  What is stored is what the byte owes. -/
theorem feedByte (h : F text s) (b : UInt8) :
    (s.feedByte b).Spec
      (fun s' => ∃ output, F (text ++ output) s' ∧ s.Took [b] output s') stuck := by
  unfold Sink.feedByte
  split
  · next hpair =>
    obtain ⟨hret, hb⟩ : s.pendingReturn = true ∧ b = lineFeed := by simpa using hpair
    subst hb
    refine ⟨[], ?_, fun rest => owed_pair hret rest, rfl, rfl, rfl, rfl, rfl⟩
    rw [List.append_nil]
    exact hF.remember false h
  · next hpair =>
    have h₀ : F text { s with pendingReturn := false } := hF.remember false h
    simp only
    split
    · next hreturn =>
      subst hreturn
      refine (hF.emitted h₀ lineFeed).map ?_
      intro s' hs'
      exact ⟨[lineFeed], hF.remember true hs'.1,
        hs'.2.took hpair rfl fun rest => owed_return rfl rest⟩
    · next hreturn =>
      split
      · next htab =>
        subst htab
        refine (hF.emitBlanks h₀ _).mono ?_ (fun _ => id)
        intro s' hs'
        refine ⟨_, hs'.1, hs'.2.took hpair rfl fun rest => ?_⟩
        rw [hs'.2.pendingReturn, owed_tab rfl, columnAfter_blanks]
      · next htab =>
        refine (hF.emitted h₀ b).mono ?_ (fun _ => id)
        intro s' hs'
        refine ⟨[b], hs'.1, hs'.2.took hpair rfl fun rest => ?_⟩
        rw [hs'.2.pendingReturn, List.singleton_append]
        by_cases hb : b = lineFeed
        · subst hb
          rw [owed_lineFeed rfl]
          rfl
        · rw [owed_other rfl rest hreturn htab hb, columnAfter, if_neg hb]
          rfl

/-- A run over the bytes of a chunk, before its end is marked. -/
theorem feedBytes (h : F text s) (chunk : List UInt8) :
    Filled.Spec (chunk.foldlM Sink.feedByte s)
      (fun s' => ∃ output, F (text ++ output) s' ∧ s.Took chunk output s') stuck := by
  induction chunk generalizing text s with
  | nil => exact ⟨[], by rwa [List.append_nil], Took.refl s⟩
  | cons b chunk ih =>
      rw [List.foldlM_cons]
      refine (hF.feedByte h b).bind ?_
      rintro s₁ ⟨first, h₁, htook₁⟩
      refine (ih h₁).mono ?_ (fun _ => id)
      rintro s' ⟨output, h', htook⟩
      exact ⟨first ++ output, by rwa [← List.append_assoc], htook₁.trans htook⟩

/-- **A chunk of the file.**  What is stored is what its bytes owe, and where the chunk ends does
not matter to the conversion. -/
theorem feed (h : F text s) (chunk : List UInt8) (hended : ended (text ++ s.owed chunk)) :
    (s.feed chunk).Spec
      (fun s' => ∃ output, F (text ++ output) s' ∧ s.Took chunk output s') stuck := by
  refine (hF.feedBytes h chunk).map ?_
  rintro s' ⟨output, h', htook⟩
  rw [← htook.output_eq] at hended
  exact ⟨output, hF.chunkEnd h' hended, htook.owed, htook.mode, htook.tabWidth, htook.origin,
    htook.resume, htook.stored⟩

end Tracked

/-! ## What storing respects -/

/-- A family of predicates on sinks, by the text stored so far, that storing a byte respects,
wherever the conversion stands. -/
structure Respected (F : List UInt8 → Sink → Prop) (stuck : Sink → Prop) : Prop where
  place : ∀ {text : List UInt8} {s : Sink} (b : UInt8), F text s →
    (s.place b).Spec (F (text ++ [b])) stuck
  marks : ∀ {text : List UInt8} {s : Sink} (column stored : Nat) (ret due : Bool), F text s →
    F text { s with column := column, stored := stored, pendingReturn := ret, overflowDue := due }

namespace Respected

variable {F : List UInt8 → Sink → Prop} {stuck : Sink → Prop} (hF : Respected F stuck)
variable {text : List UInt8} {s : Sink}

include hF

/-- Counting changes no text. -/
theorem count (h : F text s) (b : UInt8) : F text (s.count b) := by
  unfold Sink.count
  split
  · exact hF.marks _ _ _ _ h
  · exact hF.marks _ _ s.pendingReturn s.overflowDue h

/-- Where chunks end plays no role. -/
theorem tracked : Tracked F (fun _ => True) stuck where
  emit b h := (hF.place b h).map fun _ h' => hF.count h' b
  remember {_ s} ret h := hF.marks s.column s.stored ret s.overflowDue h
  chunkEnd {_ s} h _ := hF.marks s.column s.stored s.pendingReturn _ h

/-- Bytes stored as they are, without conversion. -/
theorem placeAll (h : F text s) (bytes : List UInt8) :
    Filled.Spec (bytes.foldlM Sink.place s)
      (fun s' => F (text ++ bytes) s' ∧ s.SameReader s') stuck := by
  induction bytes generalizing text s with
  | nil => exact ⟨by rwa [List.append_nil], rfl, rfl, rfl, rfl, rfl, rfl, rfl, rfl⟩
  | cons b bytes ih =>
      rw [List.foldlM_cons]
      have hplace := ((hF.place b h).and (sameReader_place s b)).mono
        (fun _ => id) (fun _ h => h.1)
      refine hplace.bind ?_
      rintro s₁ ⟨h₁, hsame₁⟩
      refine (ih h₁).mono ?_ (fun _ => id)
      rintro s' ⟨h', hsame⟩
      rw [List.append_assoc] at h'
      exact ⟨h', hsame₁.trans hsame⟩

end Respected
end ScreenEditor.Sink
