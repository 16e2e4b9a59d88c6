import ScreenEditor.Proofs.Json.Structure
import ScreenEditor.Proofs.Named

/-!
# Reading back a value

A value is *readable* within a number of levels if its numbers are whole and fit 64 bits, the
members of its objects are sorted, and containers nest no deeper (`Value.Readable`).  Values without
floating-point numbers that were read from a text are readable (`Tree.readable_toValue?`), and the
tree of a readable value has that value (`Value.Readable.toValue?_tree`).
-/

namespace ScreenEditor.Json

/-! ## Numbers -/

namespace Number

/-- A whole number that fits 64 bits, with or without a sign. -/
def Whole : Number → Prop
  | .int i => -(2 ^ 63) ≤ i ∧ i < 2 ^ 64
  | .float _ => False

/-- Digits that all fit are read as if what follows came next. -/
theorem readWhole_append {start m : Nat} {digits : List Nat} (h : readWhole start digits = ⟨m, 0⟩)
    (more : List Nat) : readWhole start (digits ++ more) = readWhole m more := by
  induction digits generalizing start with
  | nil =>
      rw [readWhole, Scaled.mk.injEq] at h
      rw [List.nil_append, h.1]
  | cons d rest ih =>
      rw [readWhole] at h
      split at h
      · next hfits => rw [List.cons_append, readWhole, if_pos hfits, ih h]
      · rw [Scaled.mk.injEq] at h
        omega

/-- The digits of a number that fits are all kept, and read as that number. -/
theorem readWhole_digitsOf {n : Nat} (h : n < significandBound) :
    readWhole 0 (digitsOf n) = ⟨n, 0⟩ := by
  induction n using Nat.strongRecOn with
  | ind n ih =>
    rcases Nat.lt_or_ge n 10 with hlt | hge
    · rw [digitsOf_of_lt hlt, readWhole, if_pos (by omega), readWhole]
      congr 1
      omega
    · have hdiv : n / 10 * 10 + n % 10 = n := by omega
      rw [digitsOf_of_ge hge, readWhole_append (ih (n / 10) (by omega) (by omega)),
        readWhole, hdiv, if_pos h, readWhole]

/-- A significand never outgrows its bound: digits past it only raise the exponent. -/
theorem significand_readWhole_lt {start : Nat} (h : start < significandBound) (digits : List Nat) :
    (readWhole start digits).significand < significandBound := by
  fun_induction readWhole start digits with
  | case1 => exact h
  | case2 start d rest hfits ih => exact ih hfits
  | case3 => exact h

/-- A whole number is read back. -/
theorem Whole.ofNumeral?_numeral {n : Number} (h : n.Whole) : ofNumeral? n.numeral = some n := by
  cases n with
  | float bits => exact h.elim
  | int i =>
      obtain ⟨hlow, hhigh⟩ := h
      have hbound : significandBound = 2 ^ 64 := rfl
      have hhalf : Nat.pow 2 63 = 2 ^ 63 := rfl
      have hwhole := readWhole_digitsOf (n := i.natAbs) (by omega)
      rw [ofNumeral?, numeral]
      simp only [hwhole, and_self, if_true]
      rcases Int.lt_or_le i 0 with hneg | hpos
      · have habs : -(i.natAbs : Int) = i := by omega
        simp only [decide_eq_true hneg, Bool.not_true, Bool.false_eq_true, if_false]
        rw [if_pos (by omega), habs]
      · have habs : (i.natAbs : Int) = i := by omega
        simp only [decide_eq_false (Int.not_lt.mpr hpos), Bool.not_false, if_true, habs]

theorem hasFloat_ofFloat (negative : Bool) (f : Float) :
    (Value.number (ofFloat negative f)).hasFloat = true := by
  rw [ofFloat, Value.hasFloat]

/-- A numeral that is read as a float is a float in the value. -/
theorem hasFloat_of_readFloat? {numeral : Numeral} {n : Number} (h : readFloat? numeral = some n) :
    (Value.number n).hasFloat = true := by
  rw [readFloat?] at h
  simp only at h
  split at h
  · split at h
    · cases h
    · obtain rfl := Option.some.inj h
      exact hasFloat_ofFloat _ _
  · obtain ⟨f, -, rfl⟩ := Option.map_eq_some_iff.mp h
    exact hasFloat_ofFloat _ f

/-- A number that is not read as a floating-point number is whole. -/
theorem whole_of_ofNumeral? {numeral : Numeral} {n : Number} (h : ofNumeral? numeral = some n)
    (hint : (Value.number n).hasFloat = false) : n.Whole := by
  have hbound : significandBound = 2 ^ 64 := rfl
  have hhalf : Nat.pow 2 63 = 2 ^ 63 := rfl
  have hlt := significand_readWhole_lt (show 0 < significandBound by decide) numeral.whole
  rw [ofNumeral?] at h
  split at h
  · split at h
    · obtain rfl := Option.some.inj h
      exact ⟨by omega, by omega⟩
    · split at h
      · next hsmall =>
        obtain rfl := Option.some.inj h
        exact ⟨by omega, by omega⟩
      · obtain rfl := Option.some.inj h
        rw [hasFloat_ofFloat] at hint
        cases hint
  · rw [hasFloat_of_readFloat? h] at hint
    cases hint

end Number

/-- A whole number of at most 64 bits reads back from its numeral. -/
theorem Numeral.toNat?_numeral {n : Nat} (h : n < 2 ^ 64) :
    (Number.int n).numeral.toNat? = some n := by
  have hwhole := Number.readWhole_digitsOf h
  rw [toNat?, Number.numeral]
  simp [hwhole]

/-! ## Strings -/

/-- A code unit that is no surrogate stands for itself, whatever follows. -/
theorem decodePieces?_unit {code : Nat} (h : code < 0xD800) (rest : List Piece) :
    decodePieces? (.unit code :: rest) = (decodePieces? rest).map (Char.ofNat code :: ·) := by
  have hhigh : isHighSurrogate code = false := by
    rw [isHighSurrogate, Bool.and_eq_false_iff]
    exact .inl (decide_eq_false (by omega))
  have hlow : isLowSurrogate code = false := by
    rw [isLowSurrogate, Bool.and_eq_false_iff]
    exact .inl (decide_eq_false (by omega))
  cases rest with
  | nil => simp [decodePieces?, hhigh, hlow]
  | cons piece rest => cases piece <;> simp [decodePieces?, hhigh, hlow]

/-- **Every string is read back.** -/
theorem text?_piecesOf (s : String) : text? (piecesOf s) = some s := by
  have hall : ∀ chars : List Char, decodePieces? (chars.map Piece.ofChar) = some chars := by
    intro chars
    induction chars with
    | nil => rfl
    | cons c rest ih =>
        rw [List.map_cons, Piece.ofChar]
        split
        · next hcontrol =>
          rw [decodePieces?_unit (by omega), ih, Option.map_some, Char.ofNat_toNat]
        · rw [decodePieces?, ih, Option.map_some]
  rw [text?, piecesOf, hall, Option.map_some, String.ofList_toList]

/-! ## Values -/

mutual

/-- A value that can be read back where containers may nest so many levels deep. -/
def Value.Readable (room : Nat) : Value → Prop
  | .number n => n.Whole
  | .array items => room ≠ 0 ∧ itemsReadable (room - 1) items
  | .object members => room ≠ 0 ∧ Named.Sorted members ∧ membersReadable (room - 1) members
  | _ => True

def itemsReadable (room : Nat) : List Value → Prop
  | [] => True
  | v :: vs => v.Readable room ∧ itemsReadable room vs

def membersReadable (room : Nat) : List (String × Value) → Prop
  | [] => True
  | (_, v) :: rest => v.Readable room ∧ membersReadable room rest

end

/-- An array is readable when each of its items is. -/
theorem itemsReadable_iff {room : Nat} {items : List Value} :
    itemsReadable room items ↔ ∀ v ∈ items, v.Readable room := by
  induction items with
  | nil => simp [itemsReadable]
  | cons v vs ih => simp [itemsReadable, ih]

/-- An object is readable when each of its values is. -/
theorem membersReadable_iff {room : Nat} {members : List (String × Value)} :
    membersReadable room members ↔ ∀ m ∈ members, m.2.Readable room := by
  induction members with
  | nil => simp [membersReadable]
  | cons m rest ih => simp [membersReadable, ih]

theorem itemsHaveFloat_eq_false_iff {items : List Value} :
    itemsHaveFloat items = false ↔ ∀ v ∈ items, v.hasFloat = false := by
  induction items with
  | nil => simp [itemsHaveFloat]
  | cons v vs ih => simp [itemsHaveFloat, ih]

theorem membersHaveFloat_eq_false_iff {members : List (String × Value)} :
    membersHaveFloat members = false ↔ ∀ m ∈ members, m.2.hasFloat = false := by
  induction members with
  | nil => simp [membersHaveFloat]
  | cons m rest ih => simp [membersHaveFloat, ih]

mutual

/-- **A value that was read from a text can be read back**, if it has no floating-point number. -/
theorem Tree.readable_toValue? {room : Nat} : ∀ (t : Tree) {v : Value},
    t.toValue? room = some v → v.hasFloat = false → v.Readable room
  | .null, v, h, _ => by
      rw [Tree.toValue?] at h
      obtain rfl := Option.some.inj h
      trivial
  | .bool b, v, h, _ => by
      rw [Tree.toValue?] at h
      obtain rfl := Option.some.inj h
      trivial
  | .number n, v, h, hint => by
      rw [Tree.toValue?] at h
      obtain ⟨m, hm, rfl⟩ := Option.map_eq_some_iff.mp h
      exact Number.whole_of_ofNumeral? hm hint
  | .string pieces, v, h, _ => by
      rw [Tree.toValue?] at h
      obtain ⟨s, -, rfl⟩ := Option.map_eq_some_iff.mp h
      trivial
  | .array items, v, h, hint => by
      rw [Tree.toValue?] at h
      split at h
      · cases h
      · next hroom =>
        obtain ⟨vs, hvs, rfl⟩ := Option.map_eq_some_iff.mp h
        rw [Value.hasFloat, itemsHaveFloat_eq_false_iff] at hint
        rw [Value.Readable, itemsReadable_iff]
        exact ⟨hroom, fun v hv => readable_itemsToValues? items hvs v hv (hint v hv)⟩
  | .object members, v, h, hint => by
      rw [Tree.toValue?] at h
      split at h
      · cases h
      · next hroom =>
        obtain ⟨ms, hms, rfl⟩ := Option.map_eq_some_iff.mp h
        rw [Value.hasFloat, membersHaveFloat_eq_false_iff] at hint
        rw [Value.Readable, membersReadable_iff]
        refine ⟨hroom, Named.sorted_ofList ms, fun m hm => ?_⟩
        exact readable_membersToValues? members hms m (Named.mem_of_mem_ofList hm) (hint m hm)

/-- Accepted items without floats are readable, at any depth. -/
theorem readable_itemsToValues? {room : Nat} : ∀ (items : List Tree) {vs : List Value},
    itemsToValues? room items = some vs → ∀ v ∈ vs, v.hasFloat = false → v.Readable room
  | [], vs, h => by
      rw [itemsToValues?] at h
      obtain rfl := Option.some.inj h
      exact List.forall_mem_nil _
  | t :: ts, vs, h => by
      rw [itemsToValues?] at h
      obtain ⟨v, hv, h⟩ := Option.bind_eq_some_iff.mp h
      obtain ⟨rest, hrest, rfl⟩ := Option.map_eq_some_iff.mp h
      exact List.forall_mem_cons.mpr ⟨t.readable_toValue? hv, readable_itemsToValues? ts hrest⟩

/-- Accepted members without floats are readable, at any depth. -/
theorem readable_membersToValues? {room : Nat} : ∀ (members : List (List Piece × Tree))
    {ms : List (String × Value)}, membersToValues? room members = some ms →
    ∀ m ∈ ms, m.2.hasFloat = false → m.2.Readable room
  | [], ms, h => by
      rw [membersToValues?] at h
      obtain rfl := Option.some.inj h
      exact List.forall_mem_nil _
  | (name, t) :: rest, ms, h => by
      rw [membersToValues?] at h
      obtain ⟨s, -, h⟩ := Option.bind_eq_some_iff.mp h
      obtain ⟨v, hv, h⟩ := Option.bind_eq_some_iff.mp h
      obtain ⟨others, hothers, rfl⟩ := Option.map_eq_some_iff.mp h
      exact List.forall_mem_cons.mpr
        ⟨t.readable_toValue? hv, readable_membersToValues? rest hothers⟩

end

mutual

/-- **A readable value is read back from its tree.** -/
theorem Value.Readable.toValue?_tree {room : Nat} : ∀ {v : Value}, v.Readable room →
    v.tree.toValue? room = some v
  | .null, _ => by rw [Value.tree, Tree.toValue?]
  | .bool b, _ => by rw [Value.tree, Tree.toValue?]
  | .number n, h => by
      rw [Value.Readable] at h
      rw [Value.tree, Tree.toValue?, h.ofNumeral?_numeral, Option.map_some]
  | .string s, _ => by rw [Value.tree, Tree.toValue?, text?_piecesOf, Option.map_some]
  | .array items, h => by
      rw [Value.Readable] at h
      rw [Value.tree, Tree.toValue?, if_neg h.1, itemsToValues?_trees h.2, Option.map_some]
  | .object members, h => by
      rw [Value.Readable] at h
      rw [Value.tree, Tree.toValue?, if_neg h.1, membersToValues?_trees h.2.2, Option.map_some,
        h.2.1.ofList_eq_of_perm (.refl _)]

/-- Readable items come back from their trees. -/
theorem itemsToValues?_trees {room : Nat} : ∀ {items : List Value}, itemsReadable room items →
    itemsToValues? room (itemTrees items) = some items
  | [], _ => by rw [itemTrees, itemsToValues?]
  | v :: vs, h => by
      rw [itemsReadable] at h
      rw [itemTrees, itemsToValues?, h.1.toValue?_tree, Option.bind_some,
        itemsToValues?_trees h.2, Option.map_some]

/-- Readable members come back from their trees, in order. -/
theorem membersToValues?_trees {room : Nat} : ∀ {members : List (String × Value)},
    membersReadable room members → membersToValues? room (memberTrees members) = some members
  | [], _ => by rw [memberTrees, membersToValues?]
  | (name, v) :: rest, h => by
      rw [membersReadable] at h
      rw [memberTrees, membersToValues?, text?_piecesOf, Option.bind_some, h.1.toValue?_tree,
        Option.bind_some, membersToValues?_trees h.2, Option.map_some]

end

end ScreenEditor.Json
