import Mathlib.Tactic.IntervalCases
import ScreenEditor.Json.Printer

/-!
# Reading the tokens of a written value

The tokens of a value are written down first (`Value.tokens`), and then the machine is followed
through the text of the value.  A number or a bare word ends only where the next token begins, so
behind a value the machine need not stand between tokens: it stands *behind* tokens if it finishes
with them and reads on with what may come next as if it stood between tokens (`Lexer.Behind`).

The headline is `Value.ofChars?_pretty`: the text of a value without floating-point numbers has its
tokens, however deep the value nests and whatever characters its strings hold.
-/

namespace ScreenEditor.Json

/-! ## Tokens of a value -/

/-- The decimal digits of a number. -/
def digitsOf (n : Nat) : List Nat := (Nat.toDigits 10 n).map fun c => c.toNat - '0'.toNat

theorem toNat_digitChar {d : Nat} (h : d < 10) : d.digitChar.toNat - '0'.toNat = d := by
  revert h d
  decide

theorem digitsOf_of_lt {n : Nat} (h : n < 10) : digitsOf n = [n] := by
  rw [digitsOf, Nat.toDigits_of_lt_base h, List.map_singleton, toNat_digitChar h]

/-- The digits of a longer number, the last one split off. -/
theorem digitsOf_of_ge {n : Nat} (h : 10 ≤ n) : digitsOf n = digitsOf (n / 10) ++ [n % 10] := by
  rw [digitsOf, Nat.toDigits_eq_if (by decide), if_neg (Nat.not_lt.mpr h), List.map_append,
    List.map_singleton, toNat_digitChar (Nat.mod_lt n (by decide)), digitsOf]

/-- A whole number as it is written. -/
def Number.numeral : Number → Numeral
  | .int i => { negative := decide (i < 0), whole := digitsOf i.natAbs }
  | .float _ => {}

/-- A character as it is read back: control characters without an escape of their own are written as
code units. -/
def Piece.ofChar (c : Char) : Piece :=
  if c.toNat < 0x20 ∧ c ∉ ['\x08', '\x0c', '\n', '\r', '\t'] then .unit c.toNat else .char c

def piecesOf (s : String) : List Piece := s.toList.map Piece.ofChar

mutual

/-- The tokens of a value as it is written. -/
def Value.tokens : Value → List Token
  | .null => [.null]
  | .bool b => [.bool b]
  | .number n => [.number n.numeral]
  | .string s => [.string (piecesOf s)]
  | .array items => .openArray :: itemTokens true items ++ [.closeArray]
  | .object members => .openObject :: memberTokens true members ++ [.closeObject]

def itemTokens (first : Bool) : List Value → List Token
  | [] => []
  | v :: vs => (if first then [] else [.comma]) ++ v.tokens ++ itemTokens false vs

def memberTokens (first : Bool) : List (String × Value) → List Token
  | [] => []
  | (name, v) :: rest =>
    (if first then [] else [.comma]) ++ [.string (piecesOf name), .colon] ++ v.tokens
      ++ memberTokens false rest

end

mutual

/-- Whether there is a floating-point number in a value. -/
def Value.hasFloat : Value → Bool
  | .number (.float _) => true
  | .array items => itemsHaveFloat items
  | .object members => membersHaveFloat members
  | _ => false

def itemsHaveFloat : List Value → Bool
  | [] => false
  | v :: vs => v.hasFloat || itemsHaveFloat vs

def membersHaveFloat : List (String × Value) → Bool
  | [] => false
  | (_, v) :: rest => v.hasFloat || membersHaveFloat rest

end

namespace Token.Lexer

/-! ## Reading on -/

/-- The machine reads a text and comes to stand elsewhere. -/
def Reads (l : Lexer) (text : String) (l' : Lexer) : Prop := text.toList.foldlM step l = some l'

variable {l l' l'' : Lexer} {tokens : List Token} {pieces : List Piece}

/-- Two texts read one behind the other. -/
theorem Reads.append {text more : String} (h : l.Reads text l') (h' : l'.Reads more l'') :
    l.Reads (text ++ more) l'' := by
  rw [Reads, String.toList_append, List.foldlM_append, h]
  exact h'

/-- The machine has read tokens, if it may have to see the next character to know the last one. -/
structure Behind (l : Lexer) (tokens : List Token) : Prop where
  finish_eq : l.finish = some tokens.reverse
  comma : l.step ',' = some ⟨.comma :: tokens, .between⟩
  newLine : l.step '\n' = some ⟨tokens, .between⟩

theorem behind_between (tokens : List Token) : Behind ⟨tokens, .between⟩ tokens := ⟨rfl, rfl, rfl⟩

/-- Indentation is passed over. -/
theorem foldlM_blanks (tokens : List Token) (n : Nat) :
    (List.replicate n ' ').foldlM step ⟨tokens, .between⟩ = some ⟨tokens, .between⟩ := by
  induction n with
  | zero => rfl
  | succ n ih => rwa [List.replicate_succ, List.foldlM_cons]

/-- A line break and its indentation only separate what stands around them. -/
theorem Behind.reads_newLine (h : l.Behind tokens) (level : Nat) :
    l.Reads (Json.newLine level) ⟨tokens, .between⟩ := by
  rw [Reads, Json.newLine, String.toList_ofList, List.foldlM_cons, h.newLine]
  exact foldlM_blanks tokens (2 * level)

/-- Before every item but the first there is a comma. -/
theorem Behind.reads_separator (h : l.Behind tokens) (first : Bool) (level : Nat) :
    l.Reads ((if first then "" else ",") ++ Json.newLine level)
      ⟨(if first then [] else [.comma]) ++ tokens, .between⟩ := by
  cases first with
  | true => exact Reads.append (show l.Reads "" l from rfl) (h.reads_newLine level)
  | false =>
      have hcomma : l.Reads "," ⟨.comma :: tokens, .between⟩ := by
        have hchars : ",".toList = [','] := rfl
        rw [Reads, hchars, List.foldlM_cons, h.comma]
        rfl
      exact hcomma.append ((behind_between _).reads_newLine level)

/-! ## Strings -/

/-- A written hex digit reads back. -/
theorem hexDigit?_hexChar {n : Nat} (h : n < 16) : hexDigit? (hexChar n) = some n := by
  revert h n
  decide

/-- What a character is written as is read as one piece. -/
theorem foldlM_escapeChar (tokens : List Token) (pieces : List Piece) (c : Char) :
    (escapeChar c).foldlM step ⟨tokens, .text pieces⟩
      = some ⟨tokens, .text (Piece.ofChar c :: pieces)⟩ := by
  unfold escapeChar
  split
  · next hc => subst hc; rfl
  split
  · next hc => subst hc; rfl
  split
  · next hc => subst hc; rfl
  split
  · next hc => subst hc; rfl
  split
  · next hc => subst hc; rfl
  split
  · next hc => subst hc; rfl
  split
  · next hc => subst hc; rfl
  -- no escape of its own
  next hquote hbackslash hback hform hline hreturn htab =>
  have hshort : c ∉ ['\x08', '\x0c', '\n', '\r', '\t'] := by
    simp [hback, hform, hline, hreturn, htab]
  split
  · next hcontrol =>
    have hhigh := hexDigit?_hexChar (n := c.toNat / 16) (by omega)
    have hlow := hexDigit?_hexChar (n := c.toNat % 16) (by omega)
    have hcode : c.toNat / 16 * 16 + c.toNat % 16 = c.toNat := by omega
    have hopen : ['\\', 'u', '0', '0'].foldlM step ⟨tokens, .text pieces⟩
        = some ⟨tokens, .hex pieces 2 0⟩ := rfl
    have hdigits : [hexChar (c.toNat / 16), hexChar (c.toNat % 16)].foldlM step
        ⟨tokens, .hex pieces 2 0⟩ = some ⟨tokens, .text (.unit c.toNat :: pieces)⟩ := by
      simp [step, hhigh, hlow, hcode]
    have happend :
        (['\\', 'u', '0', '0'] ++ [hexChar (c.toNat / 16), hexChar (c.toNat % 16)]).foldlM step
          ⟨tokens, .text pieces⟩ = some ⟨tokens, .text (.unit c.toNat :: pieces)⟩ := by
      rw [List.foldlM_append, hopen]
      exact hdigits
    rw [Piece.ofChar, if_pos ⟨hcontrol, hshort⟩]
    exact happend
  · next hplain =>
    rw [Piece.ofChar, if_neg fun h => hplain h.1, List.foldlM_cons, step]
    simp only [if_neg hquote, if_neg hbackslash, if_neg hplain]
    rfl

/-- Escaped characters are read as those characters, each one behind the last. -/
theorem foldlM_escapeChars (tokens : List Token) (pieces : List Piece) (chars : List Char) :
    (chars.flatMap escapeChar).foldlM step ⟨tokens, .text pieces⟩
      = some ⟨tokens, .text ((chars.map Piece.ofChar).reverse ++ pieces)⟩ := by
  induction chars generalizing pieces with
  | nil => rfl
  | cons c rest ih =>
      rw [List.flatMap_cons, List.foldlM_append, foldlM_escapeChar]
      simp only [Option.bind_eq_bind, Option.bind_some, ih, List.map_cons, List.reverse_cons,
        List.append_assoc, List.singleton_append]

/-- A string in quotes is one token. -/
theorem reads_quote (tokens : List Token) (s : String) :
    Reads ⟨tokens, .between⟩ (quote s) ⟨.string (piecesOf s) :: tokens, .between⟩ := by
  have hopen : step ⟨tokens, .between⟩ '\"' = some ⟨tokens, .text []⟩ := rfl
  have hclose : ['\"'].foldlM step ⟨tokens, .text (piecesOf s).reverse⟩
      = some ⟨.string (piecesOf s).reverse.reverse :: tokens, .between⟩ := rfl
  rw [List.reverse_reverse] at hclose
  rw [Reads, quote, String.toList_ofList, List.cons_append, List.foldlM_cons, hopen]
  simp only [Option.bind_eq_bind, Option.bind_some]
  rw [List.foldlM_append, foldlM_escapeChars, List.append_nil]
  exact hclose

/-! ## Numbers -/

/-- A written digit reads back. -/
theorem digit?_digitChar {d : Nat} (h : d < 10) : digit? d.digitChar = some d := by
  revert h d
  decide

/-- Where the machine stands behind the digits of a number. -/
def digitStage (n : Nat) : NumberStage := if n = 0 then .zero else .whole

/-- The digits of a number are read one after the other.  No number but zero begins with a zero. -/
theorem foldlM_toDigits (numeral : Numeral) (hfirst : ∀ d < 10, l.step d.digitChar
      = some ⟨tokens, .number (digitStage d) { numeral with whole := [d] }⟩) (n : Nat) :
    (Nat.toDigits 10 n).foldlM step l = some ⟨tokens, .number (digitStage n)
      { numeral with whole := (digitsOf n).reverse }⟩ := by
  induction n using Nat.strongRecOn with
  | ind n ih =>
    rcases Nat.lt_or_ge n 10 with hlt | hge
    · rw [Nat.toDigits_of_lt_base hlt, digitsOf_of_lt hlt, List.foldlM_cons, hfirst n hlt]
      rfl
    · have hmod : n % 10 < 10 := Nat.mod_lt n (by decide)
      have hdiv : digitStage (n / 10) = .whole := if_neg (by omega)
      have hwhole : digitStage n = .whole := if_neg (by omega)
      rw [Nat.toDigits_eq_if (by decide), if_neg (Nat.not_lt.mpr hge), List.foldlM_append,
        ih (n / 10) (by omega), hdiv, hwhole, digitsOf_of_ge hge]
      simp [step, stepNumber?, digit?_digitChar hmod]

/-- Behind the digits of a number the number may end. -/
theorem behind_number (tokens : List Token) (n : Nat) (numeral : Numeral) :
    Behind ⟨tokens, .number (digitStage n) numeral⟩ (ofNumeral numeral :: tokens) := by
  rw [digitStage]
  split <;> exact ⟨rfl, rfl, rfl⟩

/-- What is read of a number begins with its first digit. -/
theorem step_digit (tokens : List Token) {d : Nat} (h : d < 10) :
    step ⟨tokens, .between⟩ d.digitChar
      = some ⟨tokens, .number (digitStage d) { whole := [d] }⟩ := by
  interval_cases d <;> rfl

theorem step_digit_sign (tokens : List Token) {d : Nat} (h : d < 10) :
    step ⟨tokens, .number .sign { negative := true }⟩ d.digitChar
      = some ⟨tokens, .number (digitStage d) { negative := true, whole := [d] }⟩ := by
  interval_cases d <;> rfl

/-- A whole number is one token. -/
theorem reads_int (tokens : List Token) (i : Int) : ∃ l,
    Reads ⟨tokens, .between⟩ (Number.int i).text l ∧
      l.Behind (.number (Number.int i).numeral :: tokens) := by
  have hnumeral : ofNumeral { negative := decide (i < 0), whole := (digitsOf i.natAbs).reverse }
      = .number (Number.int i).numeral := by
    rw [ofNumeral, List.reverse_reverse]
    rfl
  refine ⟨_, ?_, hnumeral ▸ behind_number tokens i.natAbs _⟩
  rw [Number.text, Int.toString_eq_repr]
  cases i with
  | ofNat n =>
      have hdigits := foldlM_toDigits {} (fun d hd => step_digit tokens hd) n
      have htext : (Int.repr (.ofNat n)).toList = Nat.toDigits 10 n := String.toList_ofList
      rw [Reads, htext, hdigits]
      rfl
  | negSucc n =>
      have hdigits := foldlM_toDigits { negative := true }
        (fun d hd => step_digit_sign tokens hd) (n + 1)
      have htext : (Int.repr (.negSucc n)).toList = '-' :: Nat.toDigits 10 (n + 1) := by
        simp [Int.repr, Nat.repr]
      have hnegative : decide (Int.negSucc n < 0) = true := decide_eq_true (Int.negSucc_lt_zero n)
      have hsign : step ⟨tokens, .between⟩ '-'
          = some ⟨tokens, .number .sign { negative := true }⟩ := rfl
      rw [Reads, htext, List.foldlM_cons, hsign, hnegative, Int.natAbs_negSucc]
      exact hdigits

/-! ## Values -/

/-- A bare word is one token. -/
theorem reads_word (tokens : List Token) :
    (∃ l, Reads ⟨tokens, .between⟩ "null" l ∧ l.Behind (.null :: tokens)) ∧
      ∀ b : Bool, ∃ l, Reads ⟨tokens, .between⟩ (if b then "true" else "false") l ∧
        l.Behind (.bool b :: tokens) := by
  refine ⟨⟨_, rfl, rfl, rfl, rfl⟩, fun b => ?_⟩
  cases b with
  | true => exact ⟨_, rfl, rfl, rfl, rfl⟩
  | false => exact ⟨_, rfl, rfl, rfl, rfl⟩

/-- What stands between brackets is closed on a line of its own. -/
theorem Behind.reads_close {opened closed : Token} (left right : String) {inner : String}
    (level : Nat)
    (hleft : Reads ⟨tokens, .between⟩ left ⟨opened :: tokens, .between⟩)
    (hinner : Reads ⟨opened :: tokens, .between⟩ inner l) {entries : List Token}
    (h : l.Behind (entries ++ opened :: tokens))
    (hright : Reads ⟨entries ++ opened :: tokens, .between⟩ right
      ⟨closed :: (entries ++ opened :: tokens), .between⟩) :
    Reads ⟨tokens, .between⟩ (left ++ inner ++ Json.newLine level ++ right)
      ⟨closed :: (entries ++ opened :: tokens), .between⟩ :=
  ((hleft.append hinner).append (h.reads_newLine level)).append hright

mutual

/-- **The text of a value is read as its tokens.** -/
theorem reads_prettyAt (tokens : List Token) (level : Nat) : ∀ (v : Value), v.hasFloat = false →
    ∃ l, Reads ⟨tokens, .between⟩ (v.prettyAt level) l ∧ l.Behind (v.tokens.reverse ++ tokens)
  | .null, _ => by
      rw [Value.prettyAt, Value.tokens]
      exact (reads_word tokens).1
  | .bool b, _ => by
      rw [Value.prettyAt, Value.tokens]
      exact (reads_word tokens).2 b
  | .number (.int i), _ => by
      rw [Value.prettyAt, Value.tokens]
      exact reads_int tokens i
  | .number (.float bits), hfloat => by
      rw [Value.hasFloat] at hfloat
      cases hfloat
  | .string s, _ => by
      rw [Value.prettyAt, Value.tokens]
      exact ⟨_, reads_quote tokens s, behind_between _⟩
  | .array [], _ => by
      rw [Value.prettyAt, Value.tokens, itemTokens]
      exact ⟨_, rfl, behind_between _⟩
  | .array (v :: vs), hfloat => by
      rw [Value.hasFloat] at hfloat
      obtain ⟨l, hreads, hbehind⟩ := reads_prettyItems true level
        (behind_between (.openArray :: tokens)) (v :: vs) hfloat
      have hclosed := Behind.reads_close "[" "]" level rfl hreads hbehind rfl
      rw [Value.prettyAt, Value.tokens]
      · refine ⟨_, hclosed, ?_⟩
        simp only [List.cons_append, List.reverse_cons, List.reverse_append, List.append_assoc,
          List.reverse_nil, List.nil_append]
        exact behind_between _
      · intro heq
        cases heq
  | .object [], _ => by
      rw [Value.prettyAt, Value.tokens, memberTokens]
      exact ⟨_, rfl, behind_between _⟩
  | .object (m :: ms), hfloat => by
      rw [Value.hasFloat] at hfloat
      obtain ⟨l, hreads, hbehind⟩ := reads_prettyMembers true level
        (behind_between (.openObject :: tokens)) (m :: ms) hfloat
      have hclosed := Behind.reads_close "\x7b" "\x7d" level rfl hreads hbehind rfl
      rw [Value.prettyAt, Value.tokens]
      · refine ⟨_, hclosed, ?_⟩
        simp only [List.cons_append, List.reverse_cons, List.reverse_append, List.append_assoc,
          List.reverse_nil, List.nil_append]
        exact behind_between _
      · intro heq
        cases heq

/-- The items of an array, as they are laid out, are read as its tokens. -/
theorem reads_prettyItems (first : Bool) (level : Nat) {l : Lexer} {tokens : List Token}
    (h : l.Behind tokens) : ∀ (items : List Value), itemsHaveFloat items = false →
    ∃ l', l.Reads (prettyItems level first items) l' ∧
      l'.Behind ((itemTokens first items).reverse ++ tokens)
  | [], _ => by
      rw [prettyItems, itemTokens]
      exact ⟨l, rfl, h⟩
  | v :: vs, hfloat => by
      rw [itemsHaveFloat, Bool.or_eq_false_iff] at hfloat
      obtain ⟨l', hreads, hbehind⟩ := reads_prettyAt _ (level + 1) v hfloat.1
      obtain ⟨l'', hreads', hbehind'⟩ := reads_prettyItems false level hbehind vs hfloat.2
      have hall := ((h.reads_separator first (level + 1)).append hreads).append hreads'
      refine ⟨l'', ?_, ?_⟩
      · rw [prettyItems]
        exact hall
      · rw [itemTokens]
        cases first <;> simpa using hbehind'

/-- The members of an object, as they are laid out, are read as its tokens. -/
theorem reads_prettyMembers (first : Bool) (level : Nat) {l : Lexer} {tokens : List Token}
    (h : l.Behind tokens) : ∀ (members : List (String × Value)), membersHaveFloat members = false →
    ∃ l', l.Reads (prettyMembers level first members) l' ∧
      l'.Behind ((memberTokens first members).reverse ++ tokens)
  | [], _ => by
      rw [prettyMembers, memberTokens]
      exact ⟨l, rfl, h⟩
  | (name, v) :: rest, hfloat => by
      rw [membersHaveFloat, Bool.or_eq_false_iff] at hfloat
      have hname := (h.reads_separator first (level + 1)).append (reads_quote _ name)
      have hcolon : l.Reads (_ ++ ": ") ⟨.colon :: _, .between⟩ := hname.append rfl
      obtain ⟨l', hreads, hbehind⟩ := reads_prettyAt _ (level + 1) v hfloat.1
      obtain ⟨l'', hreads', hbehind'⟩ := reads_prettyMembers false level hbehind rest hfloat.2
      have hall := (hcolon.append hreads).append hreads'
      refine ⟨l'', ?_, ?_⟩
      · rw [prettyMembers]
        exact hall
      · rw [memberTokens]
        cases first <;> simpa using hbehind'

end

end Token.Lexer

/-- **A written value has its tokens.** -/
theorem Value.ofChars?_pretty {v : Value} (h : v.hasFloat = false) :
    Token.ofChars? v.pretty.toList = some v.tokens := by
  obtain ⟨l, hreads, hbehind⟩ := Token.Lexer.reads_prettyAt [] 0 v h
  rw [Token.Lexer.Reads] at hreads
  rw [Token.ofChars?, Value.pretty, hreads, Option.bind_some, hbehind.finish_eq, List.append_nil,
    List.reverse_reverse]

end ScreenEditor.Json
