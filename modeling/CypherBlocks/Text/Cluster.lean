import CypherBlocks.Text.ClusterClass

/-!
# Grapheme clusters

Columns count what a reader sees as one character.  A cluster is a base character with its marks, a
Hangul syllable block, a pictograph with its joined pictographs, a pair of regional indicators, or a
carriage return with its line feed.
-/

namespace CypherBlocks.Text

/-- How many leading characters satisfy `p`. -/
def countWhile (p : ClusterClass → Bool) (cs : List ClusterClass) : Nat := (cs.takeWhile p).length

def isMark : ClusterClass → Bool
  | .extend => true
  | .joiner => true
  | .spacing => true
  | _ => false

/-- Marks after a base; a joiner takes a following pictograph with its own marks along. -/
def extension : List ClusterClass → Nat
  | .extend :: rest => 1 + extension rest
  | .spacing :: rest => 1 + extension rest
  | .joiner :: .pictographic :: rest => 2 + extension rest
  | .joiner :: rest => 1 + extension rest
  | _ => 0

/-- The vowels and trailing consonants after leading consonants. -/
def syllableTail (cs : List ClusterClass) : Nat :=
  let closing (n : Nat) : Nat := n + countWhile (· == .trailing) (cs.drop n)
  match cs with
  | .closedSyllable :: _ => closing 1
  | .syllable :: rest =>
    let v := countWhile (· == .vowel) rest
    if v = 0 then 1 else closing (1 + v)
  | .vowel :: _ => closing (countWhile (· == .vowel) cs)
  | _ => 0

/-- The characters of a Hangul block, without marks. -/
def hangulLength (cs : List ClusterClass) : Nat :=
  match cs with
  | .leading :: _ =>
    let l := countWhile (· == .leading) cs
    l + syllableTail (cs.drop l)
  | .syllable :: rest =>
    let v := 1 + countWhile (· == .vowel) rest
    v + countWhile (· == .trailing) (cs.drop v)
  | .closedSyllable :: rest => 1 + countWhile (· == .trailing) rest
  | .vowel :: _ =>
    let v := countWhile (· == .vowel) cs
    v + countWhile (· == .trailing) (cs.drop v)
  | .trailing :: _ => countWhile (· == .trailing) cs
  | _ => 0

/-- The length of a cluster that does not begin with a prepending character; zero before a control
character. -/
def baseLength (cs : List ClusterClass) : Nat :=
  match cs with
  | [] => 0
  | .control :: _ | .carriageReturn :: _ | .lineFeed :: _ | .prepend :: _ => 0
  | .pictographic :: rest => 1 + extension rest
  | .regional :: .regional :: rest => 2 + extension rest
  | .regional :: rest => 1 + extension rest
  | .other :: rest | .extend :: rest | .joiner :: rest | .spacing :: rest =>
    1 + countWhile isMark rest
  | cs =>
    let n := hangulLength cs
    n + extension (cs.drop n)

/-- The length of the first cluster; at least one. -/
def clusterLength (cs : List ClusterClass) : Nat :=
  match cs with
  | .carriageReturn :: .lineFeed :: _ => 2
  | .prepend :: _ =>
    let n := countWhile (· == .prepend) cs
    n + baseLength (cs.drop n)
  | cs => max 1 (baseLength cs)

/-- The lengths of the clusters of a text. -/
def clusterLengths (cs : List ClusterClass) : List Nat :=
  match cs with
  | [] => []
  | c :: rest =>
    let n := clusterLength (c :: rest) - 1
    (n + 1) :: clusterLengths (rest.drop n)
termination_by cs.length
decreasing_by simp only [List.length_drop, List.length_cons]; omega

/-- Cuts a list into pieces of the given lengths. -/
def cutInto {α : Type} : List Nat → List α → List (List α)
  | [], _ => []
  | n :: ns, as => as.take n :: cutInto ns (as.drop n)

/-- Cuts a text into its clusters. -/
def clusters (cs : List Char) : List (List Char) :=
  cutInto (clusterLengths (cs.map clusterClass)) cs

end CypherBlocks.Text
