/-!
# Similar words

Suggestions for a word that was not found. Two words are compared by the characters that they share
in common blocks: the longest block common to both, then, on either side of it, the longest again.
In a long word (`crowdedLength` characters or more) a character that fills more than about a
hundredth of it may not start a block, though a block found otherwise may grow over it.

The word looked up is a list of elements of which some are single characters; candidates are texts.
-/

namespace Rowmap.Text

/-- The length from which frequent characters stop starting blocks. -/
def crowdedLength : Nat := 200

/-- A word to look up: its elements, where they are single characters. -/
abbrev Word := List (Option Char)

/-- Whether a character of the word looked up may start a block. -/
def startsBlock (word : Word) (c : Char) : Bool :=
  word.length < crowdedLength || word.count (some c) ≤ word.length / 100 + 1

/-- A block shared by two lists: where it starts in each, and its length. -/
structure Block where
  left : Nat
  right : Nat
  size : Nat

namespace Block

/-- The lengths of the blocks that end at a character of the left list and at each character of the
right one, from those that end one character earlier. -/
def lengths (starts : Char → Bool) (c : Char) (right : Word) (previous : List Nat) : List Nat :=
  List.zipWith (fun d n ↦ if d == some c && starts c then n + 1 else 0) right (0 :: previous)

/-- The longer of a block and of those that end at character `i` of the left list; an earlier block
stays unless a later one is longer. -/
def longer (i : Nat) (best : Block) (ends : List Nat) : Block :=
  (ends.zipIdx).foldl (fun b (n, j) ↦ if b.size < n then ⟨i + 1 - n, j + 1 - n, n⟩ else b) best

/-- The longest block that starts as it may, walking over the left list. -/
def scan (starts : Char → Bool) (right : Word) :
    List Char → Nat → List Nat → Block → Block
  | [], _, _, best => best
  | c :: rest, i, previous, best =>
    let ends := lengths starts c right previous
    scan starts right rest (i + 1) ends (longer i best ends)

/-- How many characters two lists share from their start. -/
def common : List Char → Word → Nat
  | c :: cs, d :: ds => if d == some c then common cs ds + 1 else 0
  | _, _ => 0

/-- A block grown on both sides while the characters agree. -/
def grow (left : List Char) (right : Word) (b : Block) : Block :=
  let before := common (left.take b.left).reverse (right.take b.right).reverse
  let after := common (left.drop (b.left + b.size)) (right.drop (b.right + b.size))
  ⟨b.left - before, b.right - before, before + b.size + after⟩

/-- The longest common block of two lists, before it grows. -/
def seed (starts : Char → Bool) (left : List Char) (right : Word) : Block :=
  scan starts right left 0 (List.replicate right.length 0) ⟨0, 0, 0⟩

/-- Whether there is something on the same side of a block in both lists, so that growing it looks
at single positions. -/
def hasNeighbours (left : List Char) (right : Word) (b : Block) : Bool :=
  (0 < b.left && 0 < b.right) ||
    (b.left + b.size < left.length && b.right + b.size < right.length)

end Block

/-- The number of characters in common blocks, and whether finding them looks at single positions.
The fuel bounds the depth of the splitting, which the length of the left list does. -/
def sharedWithin (starts : Char → Bool) : Nat → List Char → Word → Nat × Bool
  | 0, _, _ => (0, false)
  | fuel + 1, left, right =>
    let seed := Block.seed starts left right
    let looks := Block.hasNeighbours left right seed
    let b := Block.grow left right seed
    if b.size == 0 then (0, looks)
    else
      let (before, looksBefore) := sharedWithin starts fuel (left.take b.left) (right.take b.right)
      let (after, looksAfter) :=
        sharedWithin starts fuel (left.drop (b.left + b.size)) (right.drop (b.right + b.size))
      (before + b.size + after, looks || looksBefore || looksAfter)

/-- The number of characters that a candidate shares with the word looked up, and whether finding
them looks at single positions of the word. -/
def shared (word : Word) (candidate : List Char) : Nat × Bool :=
  sharedWithin (startsBlock word) (candidate.length + 1) candidate word

/-- How many characters a candidate has in common with a word, in any order. -/
def inCommon (word : Word) : List Char → Nat
  | [] => 0
  | c :: cs =>
    if word.contains (some c) then inCommon (word.erase (some c)) cs + 1 else inCommon word cs

/-- Twice the matching characters over all characters of two words, as a numerator and a
denominator; two empty words are alike. -/
def ratio (word : Word) (candidate : String) (matching : Nat) : Nat × Nat :=
  let total := word.length + candidate.length
  if total == 0 then (1, 1) else (2 * matching, total)

def likeness (word : Word) (candidate : String) : Nat × Nat :=
  ratio word candidate (shared word candidate.toList).1

/-- Whether single positions of a word are looked at to tell how alike a candidate is. That is not
done for a candidate that has too little in common with it anyway. -/
def looksInside (enough : Nat × Nat → Bool) (word : Word) (candidate : String) : Bool :=
  enough (ratio word candidate (min word.length candidate.length)) &&
    enough (ratio word candidate (inCommon word candidate.toList)) &&
    (shared word candidate.toList).2

/-- Whether the first of two scored candidates comes before the second: more alike first, and of two
that are equally alike the greater text. -/
def betterMatch {α : Type} (text : α → String) (a b : (Nat × Nat) × α) : Bool :=
  let x := a.1.1 * b.1.2
  let y := b.1.1 * a.1.2
  y < x || (x == y && !(text a.2 < text b.2))

/-- The best candidates for a word, at most `count` of them, among those alike enough. -/
def closeMatches {α : Type} (text : α → String) (enough : Nat × Nat → Bool) (count : Nat)
    (word : Word) (candidates : List α) : List α :=
  let scored := (candidates.map fun c ↦ (likeness word (text c), c)).filter (enough ·.1)
  ((scored.mergeSort (betterMatch text)).take count).map (·.2)

end Rowmap.Text
