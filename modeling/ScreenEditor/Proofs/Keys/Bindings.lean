import ScreenEditor.Proofs.Keys.Names

/-!
# Bindings

What a key press does under a list of bindings, told from the bindings alone (`Keymap.Intends`):
the last binding that says the press has its way, else the press does what it does of itself, and
else a character types itself.

A keymap resolves every press so, for the bindings as they are read.  For the bindings as they are
written it does unless one is on a character that is not its own lower case
(`Binding.IsMiscased`): such a binding misses its own character, and takes the lower case of it.
-/

namespace ScreenEditor

namespace Binding

/-- The binding says that a key press has an action. -/
def Takes (b : Binding) (press : KeyPress) (action : Action) : Prop :=
  Keymap.NamesKey b.key press.code ∧ (Modifiers.heldBy b.modifiers).alone = press.modifiers ∧
    Action.ofName? b.action b.args = some action

/-- The binding, with its character as it is read. -/
def asRead (b : Binding) : Binding := { b with key := Keymap.asRead b.key }

/-- The binding is on a character that is not its own lower case, and the press is of the
character or of its lower case. -/
def IsMiscased (b : Binding) (press : KeyPress) : Prop :=
  ∃ c, b.key = String.singleton c ∧ lowerChar c ≠ [c] ∧
    (press.code = .char c ∨ ∃ lower, lowerChar c = [lower] ∧ press.code = .char lower) ∧
    (Modifiers.heldBy b.modifiers).alone = press.modifiers ∧
    (Action.ofName? b.action b.args).isSome = true

/-- The binding names no key, or no action. -/
def IsUnknown (b : Binding) : Prop :=
  (∀ code, ¬ Keymap.NamesKey b.key code) ∨ Action.ofName? b.action b.args = none

end Binding

namespace Keymap

variable {bindings : List Binding} {press : KeyPress} {answer : Option Action}

/-! ## What the bindings say -/

/-- What a key press should do, if anything. -/
inductive Intends (bindings : List Binding) (press : KeyPress) : Option Action → Prop where
  | bound {before after : List Binding} {b : Binding} {action : Action}
      (split : bindings = before ++ b :: after) (takes : b.Takes press action)
      (last : ∀ later ∈ after, ∀ action, ¬ later.Takes press action) :
      Intends bindings press (some action)
  | standard {action : Action} (free : ∀ b ∈ bindings, ∀ action, ¬ b.Takes press action)
      (default : (press, action) ∈ Keymap.standard) : Intends bindings press (some action)
  | typed {c : Char} (free : ∀ b ∈ bindings, ∀ action, ¬ b.Takes press action)
      (noDefault : ∀ action, (press, action) ∉ Keymap.standard) (char : press.code = .char c)
      (plain : press.modifiers = .none ∨ press.modifiers = .shifted) :
      Intends bindings press (some (.insertChar c))
  | nothing (free : ∀ b ∈ bindings, ∀ action, ¬ b.Takes press action)
      (noDefault : ∀ action, (press, action) ∉ Keymap.standard)
      (noText : ∀ c, press.code = .char c →
        press.modifiers ≠ .none ∧ press.modifiers ≠ .shifted) :
      Intends bindings press none

/-- If any binding in a list is as wanted, there is a last one. -/
theorem exists_last_binding {P : Binding → Prop} {bindings : List Binding}
    (h : ∃ b ∈ bindings, P b) :
    ∃ before b after, bindings = before ++ b :: after ∧ P b ∧ ∀ later ∈ after, ¬ P later := by
  induction bindings with
  | nil =>
    obtain ⟨b, hb, -⟩ := h
    cases hb
  | cons first rest ih =>
    by_cases hrest : ∃ b ∈ rest, P b
    · obtain ⟨before, b, after, rfl, hb, hlast⟩ := ih hrest
      exact ⟨first :: before, b, after, rfl, hb, hlast⟩
    · obtain ⟨b, hb, hP⟩ := h
      rcases List.mem_cons.mp hb with rfl | hmem
      · exact ⟨[], b, rest, rfl, hP, fun later hlater hP' => hrest ⟨later, hlater, hP'⟩⟩
      · exact absurd ⟨b, hmem, hP⟩ hrest

/-- The bindings say something of every key press. -/
theorem exists_intends (bindings : List Binding) (press : KeyPress) :
    ∃ answer, Intends bindings press answer := by
  by_cases hbound : ∃ b ∈ bindings, ∃ action, b.Takes press action
  · obtain ⟨before, b, after, hsplit, ⟨action, htakes⟩, hlast⟩ := exists_last_binding hbound
    exact ⟨_, .bound hsplit htakes fun later hlater action' h => hlast later hlater ⟨action', h⟩⟩
  have hfree : ∀ b ∈ bindings, ∀ action, ¬ b.Takes press action :=
    fun b hb action h => hbound ⟨b, hb, action, h⟩
  by_cases hstandard : ∃ action, (press, action) ∈ Keymap.standard
  · obtain ⟨action, hmem⟩ := hstandard
    exact ⟨_, .standard hfree hmem⟩
  have hnone : ∀ action, (press, action) ∉ Keymap.standard :=
    fun action h => hstandard ⟨action, h⟩
  by_cases htext : ∃ c, press.code = .char c ∧
      (press.modifiers = .none ∨ press.modifiers = .shifted)
  · obtain ⟨c, hc, hplain⟩ := htext
    exact ⟨_, .typed hfree hnone hc hplain⟩
  · refine ⟨_, .nothing hfree hnone fun c hc => ?_⟩
    exact not_or.mp fun hplain => htext ⟨c, hc, hplain⟩

/-! ## How a press is resolved -/

/-- Only a press with no modifier, or with shift alone, types its character. -/
theorem typesText_iff {h : Held} : h.typesText = true ↔ h = .none ∨ h = .shifted := by
  simp [Held.typesText]

/-- What a binding enters: its key, its modifiers and its action, all three read. -/
theorem entry?_eq_some_iff {b : Binding} {action : Action} :
    entry? b = some (press, action) ↔ keyOfName? b.key = some press.code ∧
      (modifiersOfNames b.modifiers).alone = press.modifiers ∧
      Action.ofName? b.action b.args = some action := by
  obtain ⟨code, modifiers⟩ := press
  unfold entry?
  simp only [Option.bind_eq_some_iff, Option.map_eq_some_iff, Prod.mk.injEq, KeyPress.mk.injEq]
  constructor
  · rintro ⟨_, hcode, _, haction, ⟨rfl, rfl⟩, rfl⟩
    exact ⟨hcode, rfl, haction⟩
  · rintro ⟨hcode, rfl, haction⟩
    exact ⟨code, hcode, action, haction, ⟨rfl, rfl⟩, rfl⟩

/-- A binding has its entry as it is read. -/
theorem entry?_eq_some_iff_asRead {b : Binding} {action : Action} :
    entry? b = some (press, action) ↔ b.asRead.Takes press action := by
  rw [entry?_eq_some_iff, keyOfName?_eq_some_iff_asRead, modifiersOfNames_eq]
  rfl

/-- A binding has its entry as it is written, unless its character is miscased. -/
theorem entry?_eq_some_iff_takes {b : Binding} {action : Action} (hcased : ¬ b.IsMiscased press) :
    entry? b = some (press, action) ↔ b.Takes press action := by
  rw [entry?_eq_some_iff, modifiersOfNames_eq]
  refine and_congr_left fun ⟨hmodifiers, haction⟩ => ?_
  by_cases hlower : ∀ c, b.key = String.singleton c → lowerChar c = [c]
  · exact keyOfName?_eq_some_iff_namesKey hlower
  -- neither the character nor its lower case is pressed
  push Not at hlower
  obtain ⟨c, hkey, hne⟩ := hlower
  have hmiss : ∀ lower, lowerChar c = [lower] → press.code ≠ .char lower := fun lower hc hcode =>
    hcased ⟨c, hkey, hne, .inr ⟨lower, hc, hcode⟩, hmodifiers, Option.isSome_of_eq_some haction⟩
  have hmiss' : press.code ≠ .char c := fun hcode =>
    hcased ⟨c, hkey, hne, .inl hcode, hmodifiers, Option.isSome_of_eq_some haction⟩
  rw [hkey, keyOfName?_singleton, namesKey_singleton_iff]
  exact iff_of_false (fun ⟨lower, hc, hcode⟩ => hmiss lower hc hcode) hmiss'

/-- Bindings without an entry for a press leave it alone. -/
theorem find?_entries_eq_none {bindings : List Binding}
    (h : ∀ b ∈ bindings, ∀ action, entry? b ≠ some (press, action)) :
    (bindings.filterMap entry?).reverse.find? (·.1 == press) = none := by
  rw [List.find?_eq_none]
  intro e he hpress
  obtain ⟨b, hb, hentry⟩ := List.mem_filterMap.mp (List.mem_reverse.mp he)
  obtain ⟨press', action⟩ := e
  obtain rfl : press' = press := eq_of_beq hpress
  exact h b hb action hentry

/-- No press stands twice among the standard keys. -/
theorem find?_standard {action : Action} : (press, action) ∈ standard ↔
    standard.find? (·.1 == press) = some (press, action) := by
  have hdistinct : ∀ e ∈ standard, standard.find? (·.1 == e.1) = some e := by decide +kernel
  exact ⟨hdistinct (press, action), List.mem_of_find?_eq_some⟩

/-- The last binding that has an entry for a press resolves it. -/
theorem resolve_of_entry {before after : List Binding} {b : Binding} {action : Action}
    (hentry : entry? b = some (press, action))
    (hlast : ∀ later ∈ after, ∀ action, entry? later ≠ some (press, action)) :
    (ofBindings (before ++ b :: after)).resolve press = some action := by
  have hfind : (ofBindings (before ++ b :: after)).find? (·.1 == press) = some (press, action) := by
    rw [ofBindings, List.filterMap_append, List.filterMap_cons_some hentry, List.reverse_append,
      List.reverse_cons, List.append_assoc, List.append_assoc, List.find?_append,
      find?_entries_eq_none hlast]
    simp
  rw [resolve, hfind]

/-- Where no binding has an entry for a press, it is as if there were none. -/
theorem resolve_of_no_entry
    (hfree : ∀ b ∈ bindings, ∀ action, entry? b ≠ some (press, action)) :
    (ofBindings bindings).resolve press = standard.resolve press := by
  rw [resolve, ofBindings, List.find?_append, find?_entries_eq_none hfree, Option.none_or]
  rfl

/-- A standard key answers with its action. -/
theorem resolve_standard {action : Action} (h : (press, action) ∈ standard) :
    standard.resolve press = some action := by
  rw [resolve, find?_standard.mp h]

theorem find?_standard_eq_none (h : ∀ action, (press, action) ∉ standard) :
    standard.find? (·.1 == press) = none := by
  rw [List.find?_eq_none]
  rintro ⟨press', action⟩ hmem hpress
  obtain rfl : press' = press := eq_of_beq hpress
  exact h action hmem

/-- A character types itself, where it does nothing else. -/
theorem resolve_char_of_no_default (h : ∀ action, (press, action) ∉ standard) {c : Char}
    (hc : press.code = .char c) : standard.resolve press
      = if press.modifiers.typesText then some (.insertChar c) else none := by
  rw [resolve, find?_standard_eq_none h, hc]

/-- A key that is neither standard nor a character does nothing. -/
theorem resolve_of_not_char (h : ∀ action, (press, action) ∉ standard)
    (hother : ∀ c, press.code ≠ .char c) : standard.resolve press = none := by
  rw [resolve, find?_standard_eq_none h]
  cases hcode : press.code with
  | char c => exact absurd hcode (hother c)
  | _ => rfl

/-- What bindings that have the same entries say of a press is how it is resolved. -/
theorem resolve_of_intends (told : Binding → Binding)
    (hentries : ∀ b ∈ bindings, ∀ action,
      entry? b = some (press, action) ↔ (told b).Takes press action)
    (h : Intends (bindings.map told) press answer) :
    (ofBindings bindings).resolve press = answer := by
  have hfree : (∀ b ∈ bindings.map told, ∀ action, ¬ b.Takes press action) →
      (ofBindings bindings).resolve press = standard.resolve press := by
    refine fun hfree => resolve_of_no_entry fun b hb action hentry => ?_
    exact hfree (told b) (List.mem_map_of_mem hb) action ((hentries b hb action).mp hentry)
  cases h with
  | bound hsplit htakes hlast =>
    obtain ⟨before, rest, rfl, rfl, hrest⟩ := List.map_eq_append_iff.mp hsplit
    obtain ⟨b, after, rfl, rfl, rfl⟩ := List.map_eq_cons_iff.mp hrest
    refine resolve_of_entry ((hentries b (by simp) _).mpr htakes)
      fun later hlater action hentry => ?_
    exact hlast (told later) (List.mem_map_of_mem hlater) action
      ((hentries later (by simp [hlater]) action).mp hentry)
  | standard free hdefault => rw [hfree free, resolve_standard hdefault]
  | typed free noDefault hc hplain =>
    rw [hfree free, resolve_char_of_no_default noDefault hc]
    exact if_pos (typesText_iff.mpr hplain)
  | nothing free noDefault noText =>
    rw [hfree free]
    by_cases hchar : ∃ c, press.code = .char c
    · obtain ⟨c, hc⟩ := hchar
      rw [resolve_char_of_no_default noDefault hc]
      refine if_neg fun htext => ?_
      rcases typesText_iff.mp htext with hplain | hplain
      · exact (noText c hc).1 hplain
      · exact (noText c hc).2 hplain
    · exact resolve_of_not_char noDefault fun c hc => hchar ⟨c, hc⟩

/-- If the entries are what the bindings as told take, the answers are what they intend: the last
taker counts, and a press nobody takes falls to the standard keys. -/
theorem resolve_eq_iff_intends (told : Binding → Binding)
    (hentries : ∀ b ∈ bindings, ∀ action,
      entry? b = some (press, action) ↔ (told b).Takes press action) :
    (ofBindings bindings).resolve press = answer ↔ Intends (bindings.map told) press answer := by
  constructor
  · rintro rfl
    obtain ⟨answer, h⟩ := exists_intends (bindings.map told) press
    rw [resolve_of_intends told hentries h]
    exact h
  · exact resolve_of_intends told hentries

/-- A binding that is not understood may as well not be there. -/
theorem ofBindings_of_isUnknown {before after : List Binding} {b : Binding} (h : b.IsUnknown) :
    ofBindings (before ++ b :: after) = ofBindings (before ++ after) := by
  have hentry : entry? b = none := by
    unfold entry?
    rcases h with hkey | haction
    · rw [keyOfName?_eq_none hkey]
      rfl
    · rw [haction]
      simp
  rw [ofBindings, List.filterMap_append, List.filterMap_cons_none hentry, ← List.filterMap_append]
  rfl

/-- **Bindings take effect.**  Under any list of bindings a key press is resolved as they say with
their characters as they are read, and as they say themselves unless one of them is miscased for
the press.  Bindings of unknown keys and actions have no effect. -/
theorem resolve_as_bound (bindings : List Binding) (press : KeyPress) :
    (∀ answer, (ofBindings bindings).resolve press = answer ↔
      Intends (bindings.map Binding.asRead) press answer) ∧
    ((∀ b ∈ bindings, ¬ b.IsMiscased press) →
      ∀ answer, (ofBindings bindings).resolve press = answer ↔ Intends bindings press answer) ∧
    ∀ before b after, bindings = before ++ b :: after → b.IsUnknown →
      (ofBindings bindings).resolve press = (ofBindings (before ++ after)).resolve press := by
  refine ⟨fun answer => ?_, fun hcased answer => ?_, ?_⟩
  · exact resolve_eq_iff_intends Binding.asRead fun b _ action => entry?_eq_some_iff_asRead
  · have hiff : (ofBindings bindings).resolve press = answer ↔
        Intends (bindings.map id) press answer :=
      resolve_eq_iff_intends id fun b hb action => entry?_eq_some_iff_takes (hcased b hb)
    rwa [List.map_id] at hiff
  · rintro before b after rfl hunknown
    rw [ofBindings_of_isUnknown hunknown]

/-- The last of two bindings for control and s has its way, beside one for another press and one
that names no key. -/
theorem resolve_as_bound_control_s :
    let bindings : List Binding := [⟨"s", ["Ctrl"], "find", []⟩, ⟨"S", ["shift"], "quit", []⟩,
      ⟨"s", ["control"], "copy", []⟩, ⟨"F256", ["ctrl"], "paste", []⟩]
    let press : KeyPress := ⟨.char 's', .ctrl⟩
    (∀ b ∈ bindings, ¬ b.IsMiscased press) ∧ (ofBindings bindings).resolve press = some .copy ∧
      Intends bindings press (some .copy) := by
  intro bindings press
  have hresolve : (ofBindings bindings).resolve press = some .copy := by decide +kernel
  have hcased : ∀ b ∈ bindings, ¬ b.IsMiscased press := by
    rintro b hb ⟨c, hkey, hne, -, hmodifiers, -⟩
    have hchars := congrArg String.toList hkey
    rw [String.toList_singleton] at hchars
    simp only [bindings, List.mem_cons, List.not_mem_nil, or_false] at hb
    rcases hb with rfl | rfl | rfl | rfl
    · obtain rfl : c = 's' := by simpa [eq_comm] using hchars
      exact hne (by decide +kernel)
    · exact absurd hmodifiers (by decide +kernel)
    · obtain rfl : c = 's' := by simpa [eq_comm] using hchars
      exact hne (by decide +kernel)
    · simp at hchars
  exact ⟨hcased, hresolve, ((resolve_as_bound bindings press).2.1 hcased _).mp hresolve⟩

/-- A binding on a capital letter has no effect on the letter, and takes the small one. -/
theorem not_resolve_as_bound_capital :
    let bindings : List Binding := [⟨"S", ["shift"], "save", []⟩]
    (Intends bindings ⟨.char 'S', .shifted⟩ (some .save) ∧
      (ofBindings bindings).resolve ⟨.char 'S', .shifted⟩ = some (.insertChar 'S')) ∧
    (Intends bindings ⟨.char 's', .shifted⟩ (some (.insertChar 's')) ∧
      (ofBindings bindings).resolve ⟨.char 's', .shifted⟩ = some .save) := by
  intro bindings
  refine ⟨⟨?_, by decide +kernel⟩, ?_, by decide +kernel⟩
  · have htakes : (⟨"S", ["shift"], "save", []⟩ : Binding).Takes ⟨.char 'S', .shifted⟩ .save :=
      ⟨.single 'S', by decide +kernel, by decide +kernel⟩
    exact .bound (show bindings = [] ++ _ :: [] from rfl) htakes (by simp)
  · refine .typed ?_ ?_ rfl (.inr rfl)
    · rintro b hb action ⟨hkey, -⟩
      obtain rfl := List.mem_singleton.mp hb
      have hchar : KeyCode.char 's' = .char 'S' := namesKey_singleton_iff.mp hkey
      exact absurd hchar (by decide)
    · intro action hmem
      have hnone : standard.find? (·.1 == ⟨.char 's', .shifted⟩) = none := by decide +kernel
      rw [find?_standard.mp hmem] at hnone
      cases hnone

end Keymap
end ScreenEditor
