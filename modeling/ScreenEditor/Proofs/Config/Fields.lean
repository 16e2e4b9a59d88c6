import ScreenEditor.Config.Encode
import ScreenEditor.Proofs.Json.Values

/-!
# Reading back the fields of a record

A record is written as an object with its fields for members, of which some may be left out.  Read
by the names of the fields, every field has the member of its name and no other
(`Config.fields?_object`).  What is read into a field is read back from what it is written as:
`readNat?_tree`, `readString?_tree`, `readLineEnding?_tree`, and for lists `readArray?_tree`.
-/

namespace ScreenEditor.Config

open Json

/-! ## Fields -/

/-- The first place of a name is its only one. -/
theorem set_map {names : List String} (hnames : names.Nodup) {name : String} {i : Nat}
    (hi : names.idxOf? name = some i) (f : String → Option Tree) (value : Tree) :
    (names.map f).set i (some value)
      = names.map fun n => if n = name then some value else f n := by
  obtain ⟨hlt, hget, -⟩ := List.idxOf?_eq_some_iff.mp hi
  refine List.ext_getElem (by simp) fun j hj hj' => ?_
  rw [List.length_set, List.length_map] at hj
  rw [List.getElem_set, List.getElem_map, List.getElem_map]
  by_cases hsame : i = j
  · subst hsame
    rw [if_pos rfl, if_pos hget]
  · have hne : names[j] ≠ name := fun heq =>
      hsame ((List.getElem_inj hnames).mp (hget.trans heq.symm))
    rw [if_neg hsame, if_neg hne]

/-- Members with different names go into their fields, as far as there are fields of their names. -/
theorem fieldsOfMembers?_map {names : List String} (hnames : names.Nodup)
    {members : List (String × Value)} (hmembers : (members.map Prod.fst).Nodup)
    {f : String → Option Tree} (hfree : ∀ m ∈ members, f m.1 = none) :
    fieldsOfMembers? names (names.map f) (memberTrees members)
      = some (names.map fun n => (f n).or ((Named.find? n members).map Value.tree)) := by
  induction members generalizing f with
  | nil => simp [memberTrees, fieldsOfMembers?, Named.find?]
  | cons m rest ih =>
      obtain ⟨name, value⟩ := m
      obtain ⟨hname, hrest⟩ := List.forall_mem_cons.mp hfree
      rw [List.map_cons, List.nodup_cons] at hmembers
      have hother : ∀ m ∈ rest, m.1 ≠ name := fun m hm heq =>
        hmembers.1 (List.mem_map.mpr ⟨m, hm, heq⟩)
      rw [memberTrees, fieldsOfMembers?, text?_piecesOf]
      simp only
      cases hi : names.idxOf? name with
      | none =>
          have habsent := List.idxOf?_eq_none_iff.mp hi
          simp only [ih hmembers.2 hrest, Option.some.injEq]
          refine List.map_congr_left fun n hn => ?_
          have hne : name ≠ n := fun heq => habsent (heq ▸ hn)
          rw [Named.find?, if_neg hne]
      | some i =>
          obtain ⟨hlt, hget, -⟩ := List.idxOf?_eq_some_iff.mp hi
          have hempty : (names.map f).getD i none = none := by
            rw [List.getD_eq_getElem?_getD, List.getElem?_map, List.getElem?_eq_getElem hlt, hget]
            exact hname
          have hothers := ih (f := fun n => if n = name then some value.tree else f n) hmembers.2
            fun m hm => (if_neg (hother m hm)).trans (hrest m hm)
          simp only [hempty, Option.isSome_none, Bool.false_eq_true, if_false,
            set_map hnames hi, hothers, Option.some.injEq]
          refine List.map_congr_left fun n hn => ?_
          rw [Named.find?]
          by_cases heq : n = name
          · rw [if_pos heq, if_pos heq.symm, heq, hname]
            rfl
          · rw [if_neg heq, if_neg (Ne.symm heq)]

/-- **Every field has the member of its name.** -/
theorem fields?_object {names : List String} (hnames : names.Nodup)
    {members : List (String × Value)} (hmembers : (members.map Prod.fst).Nodup) :
    fields? names (Value.object members).tree
      = some (names.map fun n => (Named.find? n members).map Value.tree) := by
  have hall := fieldsOfMembers?_map hnames hmembers (f := fun _ => none) fun _ _ => rfl
  rw [Value.tree, fields?, hall]
  simp only [Option.none_or]

/-- Values named in order are found in order. -/
theorem map_find?_zip {α : Type} {names : List String} (hnames : names.Nodup) {values : List α}
    (hlen : values.length = names.length) :
    (names.map fun n => Named.find? n (names.zip values)) = values.map some := by
  induction names generalizing values with
  | nil =>
      rw [List.length_nil, List.length_eq_zero_iff] at hlen
      rw [hlen]
      rfl
  | cons name rest ih =>
      obtain ⟨value, values, rfl⟩ := List.exists_cons_of_length_eq_add_one hlen
      obtain ⟨hname, hrest⟩ := List.nodup_cons.mp hnames
      have hothers := ih hrest (Nat.succ.inj hlen)
      rw [List.zip_cons_cons, List.map_cons, List.map_cons, Named.find?, if_pos rfl, ← hothers]
      congr 1
      refine List.map_congr_left fun n hn => ?_
      have hne : name ≠ n := fun heq => hname (heq ▸ hn)
      rw [Named.find?, if_neg hne]

/-- A record that is written with all its fields in order. -/
theorem fields?_zip {names : List String} (hnames : names.Nodup) {values : List Value}
    (hlen : values.length = names.length) :
    fields? names (Value.object (names.zip values)).tree
      = some (values.map fun v => some v.tree) := by
  have hmembers : ((names.zip values).map Prod.fst).Nodup := by
    rwa [List.map_fst_zip (Nat.le_of_eq hlen.symm)]
  have hall := congrArg (List.map (Option.map Value.tree)) (map_find?_zip hnames hlen)
  rw [List.map_map, List.map_map] at hall
  rw [fields?_object hnames hmembers]
  exact congrArg some hall

/-- What holds of a default and of all that can be read holds of a field. -/
theorem of_optional {α : Type} {P : α → Prop} {default a : α} {read : Tree → Option α}
    {fields : Fields} {i : Nat} (hdefault : P default) (hread : ∀ t a, read t = some a → P a)
    (h : optional default read fields i = some a) : P a := by
  rw [optional] at h
  split at h
  · exact Option.some.inj h ▸ hdefault
  · next t _ => exact hread t a h

/-! ## What is read into a field -/

/-- A number that is accepted has 64 bits. -/
theorem readNat?_lt {t : Tree} {n : Nat} (h : readNat? t = some n) : n < 2 ^ 64 := by
  cases t with
  | number numeral =>
      have hlt := Number.significand_readWhole_lt (show 0 < Number.significandBound by decide)
        numeral.whole
      rw [readNat?, Numeral.toNat?] at h
      split at h
      · exact Option.some.inj h ▸ hlt
      · cases h
  | _ => cases h

/-- Such a number reads back. -/
theorem readNat?_tree {n : Nat} (h : n < 2 ^ 64) : readNat? (natValue n).tree = some n := by
  rw [natValue, Value.tree, readNat?, Numeral.toNat?_numeral h]

/-- Every string reads back. -/
theorem readString?_tree (s : String) : readString? (Value.string s).tree = some s := by
  rw [Value.tree, readString?, text?_piecesOf]

/-- A line ending reads back from its name. -/
theorem readLineEnding?_tree (e : LineEnding) :
    readLineEnding? (Value.string e.name).tree = some e := by
  rw [Value.tree, readLineEnding?, text?_piecesOf]
  cases e <;> rfl

/-- The items of an array that was read were read from its items. -/
theorem forall_mem_of_mapM {α : Type} {P : α → Prop} {read : Tree → Option α}
    (hread : ∀ t a, read t = some a → P a) {items : List Tree} {as : List α}
    (h : items.mapM read = some as) : ∀ a ∈ as, P a := by
  induction items generalizing as with
  | nil =>
      obtain rfl := Option.some.inj h
      exact List.forall_mem_nil _
  | cons t rest ih =>
      rw [List.mapM_cons] at h
      obtain ⟨a, ha, h⟩ := Option.bind_eq_some_iff.mp h
      obtain ⟨others, hothers, h⟩ := Option.bind_eq_some_iff.mp h
      obtain rfl := Option.some.inj h
      exact List.forall_mem_cons.mpr ⟨hread t a ha, ih hothers⟩

/-- What holds of everything that is read holds of every item of an array. -/
theorem forall_mem_of_readArray? {α : Type} {P : α → Prop} {read : Tree → Option α}
    (hread : ∀ t a, read t = some a → P a) (t : Tree) (as : List α)
    (h : readArray? read t = some as) : ∀ a ∈ as, P a := by
  cases t with
  | array items => exact forall_mem_of_mapM hread h
  | _ => cases h

/-- **A list is read back** if every item is. -/
theorem readArray?_tree {α β : Type} {read : Tree → Option α} {write : β → Value} {as : List α}
    {bs : List β} (h : List.Forall₂ (fun a b => read (write b).tree = some a) as bs) :
    readArray? read (Value.array (bs.map write)).tree = some as := by
  rw [Value.tree, readArray?]
  induction h with
  | nil => rfl
  | cons hfirst _ ih =>
      rw [List.map_cons, itemTrees, List.mapM_cons, hfirst, ih]
      rfl

end ScreenEditor.Config
