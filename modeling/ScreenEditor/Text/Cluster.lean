import ScreenEditor.Text.BreakClass

/-!
# Clusters

A text falls into clusters: characters that are shown as one, such as a letter with its marks, a
Hangul syllable, a flag, or pictographs that are joined.  Whether a character goes on with the
cluster before it depends on its class and on a few facts about the text before it, which are kept
as a `LeftContext`.

The clusters of a text make up the whole text (`flatten_clusters`).
-/

namespace ScreenEditor

/-- How the text before a place ends with regard to pictographs: with one and its marks, with one
that a joiner follows, or with neither. -/
inductive PictographContext where
  | absent
  | marked
  | joined
  deriving DecidableEq, Repr

/-- How the text before a place ends with regard to consonants: with one and its marks, with one
that a linker among the marks links to the next, or with neither. -/
inductive ConsonantContext where
  | absent
  | marked
  | linked
  deriving DecidableEq, Repr

/-- What the text before a place says about the character at it. -/
structure LeftContext where
  last : Option BreakClass
  oddIndicators : Bool
  pictograph : PictographContext
  consonant : ConsonantContext

namespace PictographContext

/-- The context behind one more character. -/
def push (context : PictographContext) : BreakClass → PictographContext
  | .pictograph => marked
  | .mark | .linker | .nonJoiner => if context = marked then marked else absent
  | .joiner => if context = marked then joined else absent
  | _ => absent

end PictographContext

namespace ConsonantContext

/-- The context behind one more character. -/
def push (context : ConsonantContext) : BreakClass → ConsonantContext
  | .consonant => marked
  | .linker => if context = absent then absent else linked
  | .mark | .joiner => context
  | _ => absent

end ConsonantContext

namespace LeftContext

/-- Nothing stands before the beginning of a text. -/
def start : LeftContext := ⟨none, false, .absent, .absent⟩

/-- The context behind one more character. -/
def push (context : LeftContext) (next : BreakClass) : LeftContext where
  last := some next
  oddIndicators := next == .indicator && !context.oddIndicators
  pictograph := context.pictograph.push next
  consonant := context.consonant.push next

/-- Whether the next character goes on with the cluster before it. -/
def joins (context : LeftContext) (next : BreakClass) : Bool :=
  match context.last, next with
  | none, _ => false
  | some .carriageReturn, .lineFeed => true
  | some last, next =>
    if last.standsAlone || next.standsAlone then false
    else if next.attaches then true
    else match last, next with
      | .lead, .lead | .lead, .vowel | .lead, .leadVowel | .lead, .leadVowelTrail => true
      | .leadVowel, .vowel | .leadVowel, .trail | .vowel, .vowel | .vowel, .trail => true
      | .leadVowelTrail, .trail | .trail, .trail => true
      | .prepended, _ => true
      | _, .consonant => context.consonant == .linked
      | _, .pictograph => context.pictograph == .joined
      | _, .indicator => context.oddIndicators
      | _, _ => false

end LeftContext

/-- The clusters of a text behind a context; `cluster` is the one being read, last character
first. -/
def clustersFrom (context : LeftContext) (cluster : List Char) : List Char → List (List Char)
  | [] => if cluster = [] then [] else [cluster.reverse]
  | c :: rest =>
    let next := BreakClass.ofChar c
    if cluster = [] ∨ context.joins next then clustersFrom (context.push next) (c :: cluster) rest
    else cluster.reverse :: clustersFrom (context.push next) [c] rest

/-- The clusters of a text. -/
def clusters (chars : List Char) : List (List Char) := clustersFrom .start [] chars

theorem flatten_clustersFrom (context : LeftContext) (cluster chars : List Char) :
    (clustersFrom context cluster chars).flatten = cluster.reverse ++ chars := by
  induction chars generalizing context cluster with
  | nil => by_cases h : cluster = [] <;> simp [clustersFrom, h]
  | cons c rest ih =>
    simp only [clustersFrom]
    split <;> simp [ih]

/-- The clusters make up the text. -/
theorem flatten_clusters (chars : List Char) : (clusters chars).flatten = chars := by
  simp [clusters, flatten_clustersFrom]

end ScreenEditor
