import Mathlib.Data.Nat.Digits.Defs
import ScreenEditor.Keys.Keymap

/-!
# Names of keys

What the texts of a binding say (`Keymap.NamesKey`, `Modifiers.heldBy`), told without how they are
read: a single character is the key as it is written, and the names of other keys, of function keys
and of modifiers count in any case.

A text is read as the key that it names (`Keymap.keyOfName?_eq_some_iff_namesKey`), but for single
characters that are not their own lower case: those are read as their lower case
(`Keymap.asRead`, `Keymap.keyOfName?_eq_some_iff_asRead`).
-/

namespace ScreenEditor

/-! ## Lower case -/

/-- All characters but one have a lower case of one character. -/
theorem lowerChar_cases (c : Char) :
    (∃ lower, lowerChar c = [lower]) ∨ lowerChar c = ['i', '\u0307'] := by
  unfold lowerChar
  simp only
  split
  · exact .inr rfl
  · left
    split
    · exact ⟨_, rfl⟩
    · exact ⟨c, rfl⟩

theorem toList_lowerCase (name : String) :
    (lowerCase name).toList = name.toList.flatMap lowerChar := by
  rw [lowerCase, String.toList_ofList]

theorem toList_lowerCase_singleton (c : Char) :
    (lowerCase (String.singleton c)).toList = lowerChar c := by
  rw [toList_lowerCase, String.toList_singleton, List.flatMap_singleton]

/-- No character is lost in lower case. -/
theorem length_le_length_flatMap_lowerChar (chars : List Char) :
    chars.length ≤ (chars.flatMap lowerChar).length := by
  induction chars with
  | nil => simp
  | cons c chars ih =>
    have hpos : 1 ≤ (lowerChar c).length := by
      rcases lowerChar_cases c with ⟨lower, h⟩ | h <;> simp [h]
    rw [List.flatMap_cons, List.length_append, List.length_cons]
    omega

/-- What is one character in lower case is one character. -/
theorem exists_singleton_of_lowerCase {name : String} {lower : Char}
    (h : (lowerCase name).toList = [lower]) : ∃ c, name = String.singleton c := by
  have hlength := length_le_length_flatMap_lowerChar name.toList
  rw [← toList_lowerCase, h] at hlength
  cases hname : name.toList with
  | nil =>
    rw [toList_lowerCase, hname] at h
    cases h
  | cons c rest =>
    rw [hname] at hlength
    obtain rfl : rest = [] := List.length_eq_zero_iff.mp (by simpa using hlength)
    refine ⟨c, String.toList_inj.mp ?_⟩
    rw [hname, String.toList_singleton]

/-! ## Numbers -/

/-- A number in decimal digits, which a plus sign may precede. -/
def SpellsNumber (chars : List Char) (n : Nat) : Prop :=
  ∃ sign digits, (sign = [] ∨ sign = ['+']) ∧ chars = sign ++ digits ∧ digits ≠ [] ∧
    digits.all Char.isDigit = true ∧
    n = Nat.ofDigits 10 (digits.reverse.map fun c => c.toNat - '0'.toNat)

/-- Digits read from the left. -/
theorem foldl_digits (digits : List Char) :
    digits.foldl (fun n c => n * 10 + (c.toNat - '0'.toNat)) 0
      = Nat.ofDigits 10 (digits.reverse.map fun c => c.toNat - '0'.toNat) := by
  rw [Nat.ofDigits_eq_foldr, List.foldr_map, List.foldr_reverse]
  congr 1
  funext n c
  simp [Nat.mul_comm, Nat.add_comm]

/-- A spelled number is an optional plus sign and digits, at least one. -/
theorem spellsNumber_iff {chars : List Char} {n : Nat} :
    SpellsNumber chars n ↔
      let digits := if chars.head? = some '+' then chars.drop 1 else chars
      digits ≠ [] ∧ digits.all Char.isDigit = true ∧
        n = digits.foldl (fun n c => n * 10 + (c.toNat - '0'.toNat)) 0 := by
  simp only [foldl_digits]
  constructor
  · rintro ⟨sign, digits, rfl | rfl, hchars, hne, hall, hn⟩
    · obtain rfl : chars = digits := hchars
      have hhead : chars.head? ≠ some '+' := by
        cases chars with
        | nil => exact absurd rfl hne
        | cons c rest =>
          rintro hc
          obtain rfl := Option.some.inj hc
          simp [Char.isDigit] at hall
      rw [if_neg hhead]
      exact ⟨hne, hall, hn⟩
    · subst hchars
      exact ⟨hne, hall, hn⟩
  · rintro ⟨hne, hall, hn⟩
    by_cases hplus : chars.head? = some '+'
    · rw [if_pos hplus] at hne hall hn
      obtain ⟨digits, rfl⟩ := List.head?_eq_some_iff.mp hplus
      exact ⟨['+'], digits, .inr rfl, rfl, hne, hall, hn⟩
    · rw [if_neg hplus] at hne hall hn
      exact ⟨[], chars, .inl rfl, rfl, hne, hall, hn⟩

/-- No digits spell no number. -/
theorem not_spellsNumber_nil (n : Nat) : ¬ SpellsNumber [] n := by
  rw [spellsNumber_iff]
  simp

/-! ## Modifiers -/

/-- The keys that names hold: control, shift and alt, in any case, in any order and more than
once. -/
def Modifiers.heldBy (names : List String) : Modifiers where
  control := names.any fun name => ["ctrl", "control"].contains (lowerCase name)
  shift := names.any fun name => lowerCase name == "shift"
  alt := names.any fun name => lowerCase name == "alt"

namespace Keymap

/-- The number of a function key is read when it is spelled and fits into a byte. -/
theorem byteNumber?_eq_some_iff {chars : List Char} {n : Nat} :
    byteNumber? chars = some n ↔ SpellsNumber chars n ∧ n ≤ 255 := by
  rw [spellsNumber_iff, byteNumber?]
  simp only
  generalize (if chars.head? = some '+' then chars.drop 1 else chars) = digits
  split
  · next hbad =>
    refine iff_of_false (by simp) ?_
    rintro ⟨⟨hne, hall, -⟩, -⟩
    simp [hne, hall] at hbad
  · next hgood =>
    obtain ⟨hne, hall⟩ := not_or.mp hgood
    have hall : digits.all Char.isDigit = true := by simpa using hall
    split
    · next hle =>
      refine ⟨fun h => ?_, ?_⟩
      · obtain rfl := Option.some.inj h
        exact ⟨⟨hne, hall, rfl⟩, hle⟩
      · rintro ⟨⟨-, -, rfl⟩, -⟩
        rfl
    · next hlt =>
      refine iff_of_false (by simp) ?_
      rintro ⟨⟨-, -, rfl⟩, hle⟩
      exact hlt hle

/-! ## Keys -/

/-- No name in the list is of one character or of a function key, or the lower case of one
character. -/
theorem long_of_mem_namedKeys : ∀ e ∈ namedKeys, 1 < e.1.toList.length ∧
    e.1.toList.head? ≠ some 'f' ∧ e.1.toList ≠ ['i', '\u0307'] := by
  decide +kernel

/-- The names of keys are distinct, so a look-up finds every one of them. -/
theorem find?_namedKeys {name : String} {code : KeyCode} :
    namedKeys.find? (·.1 == name) = some (name, code) ↔ (name, code) ∈ namedKeys := by
  have hdistinct : ∀ e ∈ namedKeys, namedKeys.find? (·.1 == e.1) = some e := by decide +kernel
  exact ⟨List.mem_of_find?_eq_some, hdistinct (name, code)⟩

/-- A named key is found under any case of its name. -/
theorem keyOfName?_of_named {name : String} {code : KeyCode}
    (h : (lowerCase name, code) ∈ namedKeys) : keyOfName? name = some code := by
  rw [keyOfName?, find?_namedKeys.mpr h]

/-- What a name is read as that is none of the list. -/
theorem keyOfName?_eq_some_iff_of_not_named {name : String} {code : KeyCode}
    (h : ∀ known, (lowerCase name, known) ∉ namedKeys) :
    keyOfName? name = some code ↔ (∃ c, (lowerCase name).toList = [c] ∧ code = .char c) ∨
      ∃ digits n, (lowerCase name).toList = 'f' :: digits ∧ SpellsNumber digits n ∧ n ≤ 255 ∧
        code = .function n := by
  have hfind : namedKeys.find? (·.1 == lowerCase name) = none := by
    refine List.find?_eq_none.mpr fun e he heq => h e.2 ?_
    rw [← eq_of_beq heq]
    exact he
  rw [keyOfName?, hfind]
  simp only
  split
  · next c hc =>
    constructor
    · intro hcode
      exact .inl ⟨c, hc, (Option.some.inj hcode).symm⟩
    · rintro (⟨c', hc', rfl⟩ | ⟨digits, n, hf, hspells, -⟩)
      · obtain rfl : c = c' := by simpa using hc.symm.trans hc'
        rfl
      · obtain ⟨-, rfl⟩ : 'f' = c ∧ digits = [] := by simpa [eq_comm] using hf.symm.trans hc
        exact absurd hspells (not_spellsNumber_nil n)
  · next rest hrest hf =>
    rw [Option.map_eq_some_iff]
    constructor
    · rintro ⟨n, hn, rfl⟩
      obtain ⟨hspells, hle⟩ := byteNumber?_eq_some_iff.mp hn
      exact .inr ⟨rest, n, hf, hspells, hle, rfl⟩
    · rintro (⟨c, hc, -⟩ | ⟨digits, n, hf', hspells, hle, rfl⟩)
      · obtain ⟨-, hnil⟩ : 'f' = c ∧ rest = [] := by simpa using hf.symm.trans hc
        exact absurd hnil hrest
      · obtain rfl : rest = digits := by simpa using hf.symm.trans hf'
        exact ⟨n, byteNumber?_eq_some_iff.mpr ⟨hspells, hle⟩, rfl⟩
  · next hnotOne hnotFunction =>
    refine iff_of_false (by simp) ?_
    rintro (⟨c, hc, -⟩ | ⟨digits, n, hf, -⟩)
    · exact hnotOne c hc
    · exact hnotFunction digits hf

/-- What a name is read as. -/
theorem keyOfName?_eq_some_iff {name : String} {code : KeyCode} :
    keyOfName? name = some code ↔ (lowerCase name, code) ∈ namedKeys ∨
      (∃ c, (lowerCase name).toList = [c] ∧ code = .char c) ∨
      ∃ digits n, (lowerCase name).toList = 'f' :: digits ∧ SpellsNumber digits n ∧ n ≤ 255 ∧
        code = .function n := by
  by_cases hnamed : ∃ known, (lowerCase name, known) ∈ namedKeys
  · obtain ⟨known, hmem⟩ := hnamed
    obtain ⟨hlong, hletter, -⟩ := long_of_mem_namedKeys _ hmem
    simp only at hlong hletter
    rw [keyOfName?_of_named hmem]
    constructor
    · intro hcode
      obtain rfl := Option.some.inj hcode
      exact .inl hmem
    · rintro (h | ⟨c, hc, -⟩ | ⟨digits, n, hf, -⟩)
      · exact (keyOfName?_of_named hmem).symm.trans (keyOfName?_of_named h)
      · simp [hc] at hlong
      · simp [hf] at hletter
  · have hnone : ∀ known, (lowerCase name, known) ∉ namedKeys :=
      fun known h => hnamed ⟨known, h⟩
    rw [keyOfName?_eq_some_iff_of_not_named hnone, or_iff_right (hnone code)]

/-- What the text of a key says: a single character is the key as it is written, and the names of
other keys and of function keys count in any case. -/
inductive NamesKey : String → KeyCode → Prop where
  | single (c : Char) : NamesKey (String.singleton c) (.char c)
  | named {name : String} {code : KeyCode} (h : (lowerCase name, code) ∈ namedKeys) :
      NamesKey name code
  | function {name : String} {digits : List Char} {n : Nat}
      (hname : (lowerCase name).toList = 'f' :: digits) (hnumber : SpellsNumber digits n)
      (hbyte : n ≤ 255) : NamesKey name (.function n)

/-- No key name is a single character. -/
theorem notMem_namedKeys_singleton (c : Char) (code : KeyCode) :
    (lowerCase (String.singleton c), code) ∉ namedKeys := by
  intro h
  obtain ⟨hlong, -, hdotted⟩ := long_of_mem_namedKeys _ h
  simp only [toList_lowerCase_singleton] at hlong hdotted
  rcases lowerChar_cases c with ⟨lower, hc⟩ | hc
  · simp [hc] at hlong
  · exact hdotted hc

/-- A single character never reads as a function key. -/
theorem not_spellsNumber_of_singleton {c : Char} {digits : List Char} {n : Nat}
    (h : (lowerCase (String.singleton c)).toList = 'f' :: digits) : ¬ SpellsNumber digits n := by
  rw [toList_lowerCase_singleton] at h
  rcases lowerChar_cases c with ⟨lower, hc⟩ | hc
  · rw [hc] at h
    obtain ⟨-, rfl⟩ := List.cons.inj h
    exact not_spellsNumber_nil n
  · rw [hc] at h
    cases h

/-- A single character names no other key. -/
theorem namesKey_singleton_iff {c : Char} {code : KeyCode} :
    NamesKey (String.singleton c) code ↔ code = .char c := by
  constructor
  · intro h
    generalize hname : String.singleton c = name at h
    cases h with
    | single c' => rw [String.singleton_inj.mp hname]
    | named h =>
      subst hname
      exact absurd h (notMem_namedKeys_singleton c code)
    | function h hnumber =>
      subst hname
      exact absurd hnumber (not_spellsNumber_of_singleton h)
  · rintro rfl
    exact .single c

/-- A single character is read as its lower case, if that is one character. -/
theorem keyOfName?_singleton {c : Char} {code : KeyCode} :
    keyOfName? (String.singleton c) = some code ↔
      ∃ lower, lowerChar c = [lower] ∧ code = .char lower := by
  rw [keyOfName?_eq_some_iff]
  constructor
  · rintro (h | ⟨lower, h, rfl⟩ | ⟨digits, n, h, hnumber, -⟩)
    · exact absurd h (notMem_namedKeys_singleton c code)
    · exact ⟨lower, (toList_lowerCase_singleton c).symm.trans h, rfl⟩
    · exact absurd hnumber (not_spellsNumber_of_singleton h)
  · rintro ⟨lower, h, rfl⟩
    exact .inr (.inl ⟨lower, (toList_lowerCase_singleton c).trans h, rfl⟩)

/-- **A text is read as what it says**, unless it is a character that is not its own lower case. -/
theorem keyOfName?_eq_some_iff_namesKey {name : String} {code : KeyCode}
    (hlower : ∀ c, name = String.singleton c → lowerChar c = [c]) :
    keyOfName? name = some code ↔ NamesKey name code := by
  by_cases hsingle : ∃ c, name = String.singleton c
  · obtain ⟨c, rfl⟩ := hsingle
    rw [keyOfName?_singleton, namesKey_singleton_iff, hlower c rfl]
    simp
  rw [keyOfName?_eq_some_iff]
  constructor
  · rintro (h | ⟨lower, h, -⟩ | ⟨digits, n, h, hnumber, hbyte, rfl⟩)
    · exact .named h
    · exact absurd (exists_singleton_of_lowerCase h) hsingle
    · exact .function h hnumber hbyte
  · intro h
    cases h with
    | single c => exact absurd ⟨c, rfl⟩ hsingle
    | named h => exact .inl h
    | function h hnumber hbyte => exact .inr (.inr ⟨_, _, h, hnumber, hbyte, rfl⟩)

/-- A character as it is read. -/
def asRead (name : String) : String :=
  if name.toList.length = 1 then lowerCase name else name

/-- Every text is read as what its reading says. -/
theorem keyOfName?_eq_some_iff_asRead {name : String} {code : KeyCode} :
    keyOfName? name = some code ↔ NamesKey (asRead name) code := by
  by_cases hsingle : ∃ c, name = String.singleton c
  · obtain ⟨c, rfl⟩ := hsingle
    have hread : asRead (String.singleton c) = String.ofList (lowerChar c) := by
      rw [asRead, if_pos (by rw [String.toList_singleton]; rfl), ← toList_lowerCase_singleton,
        String.ofList_toList]
    rw [keyOfName?_singleton, hread]
    rcases lowerChar_cases c with ⟨lower, hc⟩ | hc
    · have hone : String.ofList [lower] = String.singleton lower :=
        String.toList_inj.mp (by rw [String.toList_ofList, String.toList_singleton])
      rw [hc, hone, namesKey_singleton_iff]
      simp
    · -- the two characters are no name of a key
      have hunknown : keyOfName? (String.ofList ['i', '\u0307']) = none := by decide +kernel
      rw [hc, ← keyOfName?_eq_some_iff_namesKey, hunknown]
      · simp
      · intro c' hc'
        have htwo := congrArg String.toList hc'
        rw [String.toList_ofList, String.toList_singleton] at htwo
        cases htwo
  · have hread : asRead name = name := by
      refine if_neg fun hlength => hsingle ?_
      obtain ⟨c, hc⟩ := List.length_eq_one_iff.mp hlength
      exact ⟨c, String.toList_inj.mp (by rw [hc, String.toList_singleton])⟩
    rw [hread]
    exact keyOfName?_eq_some_iff_namesKey fun c hc => absurd ⟨c, hc⟩ hsingle

/-- What says no key is read as none. -/
theorem keyOfName?_eq_none {name : String} (h : ∀ code, ¬ NamesKey name code) :
    keyOfName? name = none := by
  have hlower : ∀ c, name = String.singleton c → lowerChar c = [c] := by
    rintro c rfl
    exact absurd (.single c) (h (.char c))
  exact Option.eq_none_iff_forall_ne_some.mpr fun code hread =>
    h code ((keyOfName?_eq_some_iff_namesKey hlower).mp hread)

/-! ## Modifiers -/

/-- One more name holds its key beside those that are held. -/
theorem addModifier_eq (m : Modifiers) (name : String) : addModifier m name =
    ⟨m.control || ["ctrl", "control"].contains (lowerCase name),
      m.shift || lowerCase name == "shift", m.alt || lowerCase name == "alt"⟩ := by
  unfold addModifier
  generalize lowerCase name = lower
  simp only
  split
  · next h => rcases h with rfl | rfl <;> simp
  · next hcontrol =>
    have hnot : ["ctrl", "control"].contains lower = false := by simpa using hcontrol
    rw [hnot, Bool.or_false]
    split
    · next h =>
      subst h
      simp
    · next hshift =>
      rw [beq_false_of_ne hshift, Bool.or_false]
      split
      · next h =>
        subst h
        simp
      · next halt => rw [beq_false_of_ne halt, Bool.or_false]

/-- The modifiers of a binding are those that its names hold down. -/
theorem modifiersOfNames_eq (names : List String) :
    modifiersOfNames names = .heldBy names := by
  -- the fold, from any keys that are held before
  have hfold : ∀ m : Modifiers, names.foldl addModifier m =
      ⟨m.control || (Modifiers.heldBy names).control, m.shift || (Modifiers.heldBy names).shift,
        m.alt || (Modifiers.heldBy names).alt⟩ := by
    induction names with
    | nil => simp [Modifiers.heldBy]
    | cons name names ih =>
      intro m
      rw [List.foldl_cons, ih, addModifier_eq]
      simp [Modifiers.heldBy, Bool.or_assoc]
  rw [modifiersOfNames, hfold]
  rfl

end Keymap
end ScreenEditor
