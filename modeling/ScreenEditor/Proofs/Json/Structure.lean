import ScreenEditor.Proofs.Json.Lexing

/-!
# Reading the tree of a written value

The tokens of a value lead the builder from a value that is to come to the tree of the value
(`Value.tree`), whatever containers are open around it.  An array or object takes its entries one by
one, so the induction is on the entries, next to those that were taken before.

With the tokens of a written value this gives its tree: `Value.parse?_pretty`.
-/

namespace ScreenEditor.Json

mutual

/-- The tree of a value as it is written. -/
def Value.tree : Value → Tree
  | .null => .null
  | .bool b => .bool b
  | .number n => .number n.numeral
  | .string s => .string (piecesOf s)
  | .array items => .array (itemTrees items)
  | .object members => .object (memberTrees members)

def itemTrees : List Value → List Tree
  | [] => []
  | v :: vs => v.tree :: itemTrees vs

def memberTrees : List (String × Value) → List (List Piece × Tree)
  | [] => []
  | (name, v) :: rest => (piecesOf name, v.tree) :: memberTrees rest

end

namespace Tree.Builder

/-- The builder takes tokens and comes to stand elsewhere. -/
def Takes (b : Builder) (tokens : List Token) (b' : Builder) : Prop :=
  tokens.foldlM step b = some b'

variable {b b' b'' : Builder} {t : Token} {tokens more : List Token} {stack : List Frame}

theorem Takes.cons (h : b.step t = some b') (h' : b'.Takes tokens b'') :
    b.Takes (t :: tokens) b'' := by
  rw [Takes, List.foldlM_cons, h]
  exact h'

theorem Takes.append (h : b.Takes tokens b') (h' : b'.Takes more b'') :
    b.Takes (tokens ++ more) b'' := by
  rw [Takes, List.foldlM_append, h]
  exact h'

/-- A value begins an array as it begins anywhere else. -/
theorem Takes.firstItem {v : Value} (h : Takes (.value (.array [] :: stack)) v.tokens b) :
    Takes (.firstItem stack) v.tokens b := by
  cases v <;> rwa [Value.tokens] at h ⊢

mutual

/-- **The tokens of a value build its tree.** -/
theorem takes_tokens (stack : List Frame) :
    ∀ v : Value, Takes (.value stack) v.tokens (give v.tree stack)
  | .null => by rw [Value.tokens, Value.tree]; rfl
  | .bool b => by rw [Value.tokens, Value.tree]; rfl
  | .number n => by rw [Value.tokens, Value.tree]; rfl
  | .string s => by rw [Value.tokens, Value.tree]; rfl
  | .array [] => by rw [Value.tokens, itemTokens, Value.tree, itemTrees]; rfl
  | .array (v :: vs) => by
      have hfirst := (takes_tokens (.array [] :: stack) v).firstItem
      have hrest := takes_itemTokens [v.tree] stack vs
      have hclose : Takes (.afterItem ((itemTrees vs).reverse ++ [v.tree]) stack) [.closeArray]
          (give (.array ((itemTrees vs).reverse ++ [v.tree]).reverse) stack) := rfl
      rw [List.reverse_append, List.reverse_reverse] at hclose
      rw [Value.tokens, itemTokens, Value.tree, itemTrees]
      exact .cons rfl ((hfirst.append hrest).append hclose)
  | .object [] => by rw [Value.tokens, memberTokens, Value.tree, memberTrees]; rfl
  | .object ((name, v) :: rest) => by
      have hname : Takes (.firstName stack) [.string (piecesOf name), .colon]
          (.value (.object [] (piecesOf name) :: stack)) := rfl
      have hfirst := takes_tokens (.object [] (piecesOf name) :: stack) v
      have hrest := takes_memberTokens [(piecesOf name, v.tree)] stack rest
      have hclose : Takes (.afterMember ((memberTrees rest).reverse ++ [(piecesOf name, v.tree)])
          stack) [.closeObject] (give (.object ((memberTrees rest).reverse
            ++ [(piecesOf name, v.tree)]).reverse) stack) := rfl
      rw [List.reverse_append, List.reverse_reverse] at hclose
      rw [Value.tokens, memberTokens, Value.tree, memberTrees]
      exact .cons rfl (((hname.append hfirst).append hrest).append hclose)

/-- Items behind the first one are announced by commas. -/
theorem takes_itemTokens (taken : List Tree) (stack : List Frame) : ∀ vs : List Value,
    Takes (.afterItem taken stack) (itemTokens false vs)
      (.afterItem ((itemTrees vs).reverse ++ taken) stack)
  | [] => by rw [itemTokens, itemTrees]; rfl
  | v :: vs => by
      have hcomma : Takes (.afterItem taken stack) [.comma] (.value (.array taken :: stack)) := rfl
      have hfirst := takes_tokens (.array taken :: stack) v
      have hrest := takes_itemTokens (v.tree :: taken) stack vs
      rw [itemTokens, itemTrees, List.reverse_cons, List.append_assoc _ [v.tree]]
      exact (hcomma.append hfirst).append hrest

theorem takes_memberTokens (taken : List (List Piece × Tree)) (stack : List Frame) :
    ∀ members : List (String × Value),
    Takes (.afterMember taken stack) (memberTokens false members)
      (.afterMember ((memberTrees members).reverse ++ taken) stack)
  | [] => by rw [memberTokens, memberTrees]; rfl
  | (name, v) :: rest => by
      have hname : Takes (.afterMember taken stack) [.comma, .string (piecesOf name), .colon]
          (.value (.object taken (piecesOf name) :: stack)) := rfl
      have hfirst := takes_tokens (.object taken (piecesOf name) :: stack) v
      have hrest := takes_memberTokens ((piecesOf name, v.tree) :: taken) stack rest
      rw [memberTokens, memberTrees, List.reverse_cons, List.append_assoc _ [_]]
      exact (hname.append hfirst).append hrest

end

end Tree.Builder

/-- **A written value has its tree.** -/
theorem Value.parse?_pretty {v : Value} (h : v.hasFloat = false) :
    Tree.parse? v.pretty = some v.tree := by
  have htakes := Tree.Builder.takes_tokens [] v
  rw [Tree.Builder.Takes] at htakes
  rw [Tree.parse?, Value.ofChars?_pretty h, Option.bind_some, Tree.ofTokens?, htakes]
  rfl

end ScreenEditor.Json
