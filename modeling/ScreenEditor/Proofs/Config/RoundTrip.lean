import Mathlib.Data.List.Forall2
import ScreenEditor.Proofs.Config.Fields
import ScreenEditor.Proofs.Text.Utf8

/-!
# Reading back a configuration

The options that were loaded from some file are loaded again, all of them the same, from the text
that they are written as (`Config.load_toText`), whichever standard options apply by then.  In the
text the arguments of every binding may come in any order, since reading them sorts them.

Not every configuration is read back: numbers are read only below 2^64, arguments only if they nest
no deeper than a file may, and the written form of a floating-point number is another question.
That is `Config.Readable`, and options that were read have it (`readable_ofTree?`) if they have no
floating-point number.  What is readable is read back field by field (`ofTree?_toValue`): no field
has the text of another, and those that were left out (`optional_of_skipped`) are left out because
their defaults say the same.
-/

namespace ScreenEditor

open Json

/-! ## Bindings -/

/-- The binding `b'` is `b` with its arguments in any order. -/
structure Binding.Reorders (b b' : Binding) : Prop where
  key : b'.key = b.key
  modifiers : b'.modifiers = b.modifiers
  action : b'.action = b.action
  args : List.Perm b'.args b.args

/-- The arguments of the binding can be read back. -/
structure Binding.Readable (b : Binding) : Prop where
  sorted : Named.Sorted b.args
  args : membersReadable (Config.maxDepth - Config.argsDepth) b.args

namespace Config

/-- Arguments are read back in their order, which is that of their names. -/
theorem readArgs?_tree {args shuffled : Named Value} (hsorted : args.Sorted)
    (hargs : membersReadable (maxDepth - argsDepth) args) (hperm : shuffled.Perm args) :
    readArgs? (Value.object shuffled).tree = some args := by
  have hshuffled : membersReadable (maxDepth - argsDepth) shuffled := by
    rw [membersReadable_iff] at hargs ⊢
    exact fun m hm => hargs m (hperm.mem_iff.mp hm)
  rw [Value.tree, readArgs?, membersToValues?_trees hshuffled, Option.map_some,
    hsorted.ofList_eq_of_perm hperm]

/-- Lists that are empty are left out, and nothing else. -/
theorem fields?_bindingValue (b : Binding) :
    fields? ["key", "modifiers", "action", "args"] (bindingValue b).tree
      = some [some (Value.string b.key).tree,
          if b.modifiers = [] then none else some (Value.array (b.modifiers.map .string)).tree,
          some (Value.string b.action).tree,
          if b.args.isEmpty then none else some (Value.object b.args).tree] := by
  rw [bindingValue, fields?_object (by decide)]
  · split <;> split <;> simp [Named.find?]
  · split <;> split <;> simp

/-- A field that is given is read and not left to its default. -/
theorem optional_of_given {α : Type} {default a : α} {read : Tree → Option α} {fields : Fields}
    {i : Nat} {t : Tree} (hfield : fields.getD i none = some t) (hread : read t = some a) :
    optional default read fields i = some a := by
  rw [optional, hfield]
  exact hread

/-- A field that was left out only if that says the same is read back. -/
theorem optional_of_skipped {α : Type} {default a : α} {read : Tree → Option α} {fields : Fields}
    {i : Nat} {skip : Prop} [Decidable skip] {t : Tree}
    (hfield : fields.getD i none = if skip then none else some t) (hskip : skip → default = a)
    (hread : read t = some a) : optional default read fields i = some a := by
  by_cases h : skip
  · rw [if_pos h] at hfield
    rw [optional, hfield, hskip h]
  · rw [if_neg h] at hfield
    exact optional_of_given hfield hread

/-- **A binding is read back**, whatever the order of its arguments in the text. -/
theorem readBinding?_tree {b b' : Binding} (h : b.Readable) (hb : b.Reorders b') :
    readBinding? (bindingValue b').tree = some b := by
  obtain ⟨hsorted, hreadable⟩ := h
  obtain ⟨_, _, _, args⟩ := b
  obtain ⟨key, modifiers, action, args'⟩ := b'
  obtain ⟨rfl, rfl, rfl, hargs⟩ := hb
  have hempty : args'.isEmpty = true → [] = args := fun hempty =>
    (List.isEmpty_iff.mp hempty ▸ hargs).nil_eq
  have hstrings : readArray? readString? (Value.array (modifiers.map .string)).tree
      = some modifiers := readArray?_tree (List.forall₂_same.mpr fun s _ => readString?_tree s)
  rw [readBinding?, fields?_bindingValue]
  simp only [Option.bind_eq_bind, Option.bind_some]
  rw [optional_of_skipped (a := modifiers) rfl Eq.symm hstrings,
    optional_of_skipped (a := args) rfl hempty (readArgs?_tree hsorted hreadable hargs)]
  simp only [required, List.getD_cons_zero, List.getD_cons_succ, Option.bind_some,
    readString?_tree]
  rfl

/-- The options have numbers that can be read back, and so do the arguments of the bindings. -/
structure Readable (c : Config) : Prop where
  numbers : ∀ n ∈ [c.segmentCapacity, c.segmentCount, c.preferredRow, c.tabWidth, c.loadChunkSize,
    c.saveChunkSize], n < 2 ^ 64
  slots : ∀ n ∈ c.missingSlots, n < 2 ^ 64
  bindings : ∀ b ∈ c.keybindings, b.Readable

/-- **Options that can be read back are read back.** -/
theorem ofTree?_toValue {c : Config} (h : c.Readable) (standard : Config) {bindings : List Binding}
    (hbindings : List.Forall₂ Binding.Reorders c.keybindings bindings) :
    ofTree? standard (toValue { c with keybindings := bindings }).tree = some c := by
  have hnumbers := fun n hn => readNat?_tree (h.numbers n hn)
  simp only [List.forall_mem_cons] at hnumbers
  obtain ⟨hcapacity, hcount, hrow, htab, hload, hsave, -⟩ := hnumbers
  have hslots : readArray? readNat? (Value.array (c.missingSlots.map natValue)).tree
      = some c.missingSlots :=
    readArray?_tree (List.forall₂_same.mpr fun n hn => readNat?_tree (h.slots n hn))
  have hkeys : readArray? readBinding? (Value.array (bindings.map bindingValue)).tree
      = some c.keybindings := readArray?_tree
    (((List.forall₂_and_left _ _).mpr ⟨h.bindings, hbindings⟩).imp fun _ _ hb =>
      readBinding?_tree hb.1 hb.2)
  have hnames : optionNames.Nodup := by decide
  rw [ofTree?, toValue, fields?_zip hnames rfl]
  simp only [Option.bind_eq_bind, Option.bind_some, optional, List.map_cons, List.getD_cons_zero,
    List.getD_cons_succ, readString?_tree, readLineEnding?_tree, hslots, hkeys, hcapacity, hcount,
    hrow, htab, hload, hsave]
  rfl

/-! ## What was loaded -/

/-- Whether there is a floating-point number in the arguments of a binding. -/
def hasFloat (c : Config) : Bool := c.keybindings.any fun b => membersHaveFloat b.args

/-- Floats can only stand in the arguments of key bindings. -/
theorem hasFloat_eq_false_iff {c : Config} :
    c.hasFloat = false ↔ ∀ b ∈ c.keybindings, membersHaveFloat b.args = false := by
  simp only [hasFloat, List.any_eq_false, Bool.not_eq_true]

/-- Arguments that were read can be read back. -/
theorem readable_readArgs? (t : Tree) (args : Named Value) (h : readArgs? t = some args) :
    Named.Sorted args ∧ (membersHaveFloat args = false →
      membersReadable (maxDepth - argsDepth) args) := by
  cases t with
  | object members =>
      rw [readArgs?] at h
      obtain ⟨ms, hms, rfl⟩ := Option.map_eq_some_iff.mp h
      refine ⟨Named.sorted_ofList ms, fun hint => ?_⟩
      rw [membersHaveFloat_eq_false_iff] at hint
      rw [membersReadable_iff]
      intro m hm
      exact readable_membersToValues? members hms m (Named.mem_of_mem_ofList hm) (hint m hm)
  | _ => cases h

/-- An accepted binding without floats is readable. -/
theorem readable_readBinding? (t : Tree) (b : Binding) (h : readBinding? t = some b) :
    membersHaveFloat b.args = false → b.Readable := by
  rw [readBinding?] at h
  obtain ⟨fields, -, h⟩ := Option.bind_eq_some_iff.mp h
  obtain ⟨key, -, h⟩ := Option.bind_eq_some_iff.mp h
  obtain ⟨modifiers, -, h⟩ := Option.bind_eq_some_iff.mp h
  obtain ⟨action, -, h⟩ := Option.bind_eq_some_iff.mp h
  obtain ⟨args, hargs, h⟩ := Option.bind_eq_some_iff.mp h
  obtain rfl := Option.some.inj h
  have hread := of_optional (P := fun args => Named.Sorted args ∧ (membersHaveFloat args = false →
    membersReadable (maxDepth - argsDepth) args)) ⟨List.Pairwise.nil, fun _ => trivial⟩
    readable_readArgs? hargs
  exact fun hint => ⟨hread.1, hread.2 hint⟩

/-- **Options that were read can be read back**, if no binding has a floating-point number. -/
theorem readable_ofTree? {temporary : String} {t : Tree} {c : Config}
    (h : ofTree? (standard temporary) t = some c) (hint : c.hasFloat = false) : c.Readable := by
  rw [ofTree?] at h
  obtain ⟨fields, -, h⟩ := Option.bind_eq_some_iff.mp h
  obtain ⟨segmentCapacity, hcapacity, h⟩ := Option.bind_eq_some_iff.mp h
  obtain ⟨segmentCount, hcount, h⟩ := Option.bind_eq_some_iff.mp h
  obtain ⟨missingSlots, hslots, h⟩ := Option.bind_eq_some_iff.mp h
  obtain ⟨preferredRow, hrow, h⟩ := Option.bind_eq_some_iff.mp h
  obtain ⟨tabWidth, htab, h⟩ := Option.bind_eq_some_iff.mp h
  obtain ⟨loadChunkSize, hload, h⟩ := Option.bind_eq_some_iff.mp h
  obtain ⟨saveChunkSize, hsave, h⟩ := Option.bind_eq_some_iff.mp h
  obtain ⟨clipboardFile, -, h⟩ := Option.bind_eq_some_iff.mp h
  obtain ⟨lineEnding, -, h⟩ := Option.bind_eq_some_iff.mp h
  obtain ⟨keybindings, hkeys, h⟩ := Option.bind_eq_some_iff.mp h
  obtain rfl := Option.some.inj h
  have hnat : ∀ {default n i : Nat}, default < 2 ^ 64 →
      optional default readNat? fields i = some n → n < 2 ^ 64 := fun hdefault hread =>
    of_optional (P := (· < 2 ^ 64)) hdefault (fun _ _ => readNat?_lt) hread
  refine ⟨?_, ?_, ?_⟩
  · simp only [List.forall_mem_cons]
    exact ⟨hnat (by simp [standard]) hcapacity, hnat (by simp [standard]) hcount,
      hnat (by simp [standard]) hrow, hnat (by simp [standard]) htab,
      hnat (by simp [standard]) hload, hnat (by simp [standard]) hsave, List.forall_mem_nil _⟩
  · exact of_optional (P := fun slots => ∀ n ∈ slots, n < 2 ^ 64) (List.forall_mem_nil _)
      (forall_mem_of_readArray? fun _ _ => readNat?_lt) hslots
  · have hread := of_optional (P := fun bindings : List Binding => ∀ b ∈ bindings,
      membersHaveFloat b.args = false → b.Readable) (List.forall_mem_nil _)
      (forall_mem_of_readArray? readable_readBinding?) hkeys
    exact fun b hb => hread b hb (hasFloat_eq_false_iff.mp hint b hb)

/-! ## What is written -/

/-- A binding without floats is written without them. -/
theorem hasFloat_bindingValue {b : Binding} (h : membersHaveFloat b.args = false) :
    (bindingValue b).hasFloat = false := by
  have hmodifiers : itemsHaveFloat (b.modifiers.map .string) = false := by
    rw [itemsHaveFloat_eq_false_iff, List.forall_mem_map]
    exact fun s _ => rfl
  rw [bindingValue, Value.hasFloat]
  split <;> split <;> simp [membersHaveFloat, Value.hasFloat, hmodifiers, h]

/-- Arguments in another order are the same arguments. -/
theorem forall_hasFloat_of_reorders {bs bs' : List Binding}
    (hbindings : List.Forall₂ Binding.Reorders bs bs')
    (h : ∀ b ∈ bs, membersHaveFloat b.args = false) :
    ∀ b ∈ bs', membersHaveFloat b.args = false := by
  induction hbindings with
  | nil => exact List.forall_mem_nil _
  | cons hfirst _ ih =>
      obtain ⟨hint, hrest⟩ := List.forall_mem_cons.mp h
      refine List.forall_mem_cons.mpr ⟨?_, ih hrest⟩
      rw [membersHaveFloat_eq_false_iff] at hint ⊢
      exact fun m hm => hint m (hfirst.args.mem_iff.mp hm)

/-- A configuration without floats is written without them. -/
theorem hasFloat_toValue {c : Config} (h : c.hasFloat = false) : c.toValue.hasFloat = false := by
  have hslots : itemsHaveFloat (c.missingSlots.map natValue) = false := by
    rw [itemsHaveFloat_eq_false_iff, List.forall_mem_map]
    exact fun n _ => rfl
  have hkeys : itemsHaveFloat (c.keybindings.map bindingValue) = false := by
    rw [itemsHaveFloat_eq_false_iff, List.forall_mem_map]
    exact fun b hb => hasFloat_bindingValue (hasFloat_eq_false_iff.mp h b hb)
  simp [toValue, optionNames, natValue, membersHaveFloat, Value.hasFloat, hslots, hkeys]

/-- Options that were loaded were read and found acceptable. -/
theorem accepted_of_load {standard : Config} {bytes : Option (List UInt8)} {c : Config}
    (h : load standard bytes = .ok c) :
    (∃ t, ofTree? standard t = some c) ∧ c.validate = .ok c := by
  rw [load] at h
  split at h
  · cases h
  · split at h
    · cases h
    · next config hread =>
      obtain ⟨t, -, ht⟩ := Option.bind_eq_some_iff.mp hread
      have hsame : config = c := by
        rw [validate] at h
        split at h
        · cases h
        · exact Except.ok.inj h
      subst hsame
      exact ⟨⟨t, ht⟩, h⟩

/-- **A dumped configuration loads back unchanged.** -/
theorem load_toText {temporary temporary' : String} {bytes : Option (List UInt8)} {c : Config}
    (h : load (standard temporary) bytes = .ok c) (hint : c.hasFloat = false)
    {bindings : List Binding} (hbindings : List.Forall₂ Binding.Reorders c.keybindings bindings) :
    load (standard temporary')
      (some (Utf8.encode (toText { c with keybindings := bindings }))) = .ok c := by
  obtain ⟨⟨t, ht⟩, hvalid⟩ := accepted_of_load h
  have hwritten : hasFloat { c with keybindings := bindings } = false :=
    hasFloat_eq_false_iff.mpr
      (forall_hasFloat_of_reorders hbindings (hasFloat_eq_false_iff.mp hint))
  simp only [load, Option.bind_some, Utf8.decode?_encode]
  rw [toText, Value.parse?_pretty (hasFloat_toValue hwritten), Option.bind_some,
    ofTree?_toValue (readable_ofTree? ht hint) _ hbindings]
  exact hvalid

/-- A file that leaves most options out; some of its text is spelled with escapes. -/
def oneBinding : String :=
  "\x7b\"missing_slots\": [5, 2], \"line_end\\u0069ng\": \"CRLF\",\r\n\"keybindings\": [\x7b"
    ++ "\"action\": \"find\", \"key\": \"F2\", \"args\": "
    ++ "\x7b\"b\": \"\\\"\\n\\uD83D\\uDE00\", \"a\": [-3, \x7b\x7d]\x7d\x7d]\x7d"

theorem load_toText_oneBinding : ∃ c,
    load (standard "/tmp") (some (Utf8.encode oneBinding)) = .ok c ∧ c.hasFloat = false
      ∧ c.keybindings.map (·.args.length) = [2]
      ∧ load (standard "/home") (some (Utf8.encode (toText { c with
        keybindings := c.keybindings.map fun b => { b with args := b.args.reverse } })))
          = .ok c := by
  have hread : (((Tree.parse? oneBinding).bind (ofTree? (standard "/tmp"))).any fun c =>
      c.complaint?.isNone && !c.hasFloat && c.keybindings.map (·.args.length) == [2]) = true := by
    decide +kernel
  cases hparsed : (Tree.parse? oneBinding).bind (ofTree? (standard "/tmp")) with
  | none =>
      rw [hparsed] at hread
      cases hread
  | some c =>
      simp only [hparsed, Option.any_some, Bool.and_eq_true, Option.isNone_iff_eq_none,
        Bool.not_eq_true', beq_iff_eq] at hread
      obtain ⟨⟨hcomplaint, hint⟩, hargs⟩ := hread
      have hload : load (standard "/tmp") (some (Utf8.encode oneBinding)) = .ok c := by
        simp only [load, Option.bind_some, Utf8.decode?_encode, hparsed, validate, hcomplaint]
      exact ⟨c, hload, hint, hargs, load_toText hload hint
        (List.forall₂_map_right_iff.mpr (List.forall₂_same.mpr fun b _ =>
          ⟨rfl, rfl, rfl, List.reverse_perm _⟩))⟩

end Config
end ScreenEditor
