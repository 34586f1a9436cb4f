/-! Names similar to a given one. Two names are compared by their common blocks: the longest block
they share, and then the blocks shared by what stands before it and by what stands after it. The
score is twice the number of characters in these blocks over the length of both names. The names are
ranked by a sort that inserts them one by one. -/

namespace Chip8Asm

/-! ### Sorting -/

/-- Puts an element in front of the first one that may stand after it. -/
def insertSorted (le : α → α → Bool) (a : α) : List α → List α
  | [] => [a]
  | b :: rest => if le a b then a :: b :: rest else b :: insertSorted le a rest

/-- Sorts a list. Elements that the order does not tell apart keep their places. -/
def sorted (le : α → α → Bool) : List α → List α
  | [] => []
  | a :: rest => insertSorted le a (sorted le rest)

/-! ### Common blocks -/

namespace Text

/-- A run of `size` characters, at `left` in one text and at `right` in another. -/
structure Block where
  left : Nat
  right : Nat
  size : Nat
deriving DecidableEq, Repr

/-- Lengths of the runs that end at a character `c` of the left text and at each of the right text,
given the lengths `above` of those that end one character before. -/
def runLengths (keep : Char → Bool) (c : Char) : Nat → List Nat → List Char → List Nat
  | _, _, [] => []
  | diagonal, above, d :: ds =>
    (if c == d && keep d then diagonal + 1 else 0) ::
      runLengths keep c (above.headD 0) above.tail ds

/-- The block after a row of run lengths: a run counts only if it is longer than all before it. -/
def bestInRow (row : Nat) : Nat → Block → List Nat → Block
  | _, best, [] => best
  | column, best, n :: rest =>
    bestInRow row (column + 1)
      (if best.size < n then ⟨row + 1 - n, column + 1 - n, n⟩ else best) rest

/-- The longest block of kept characters, the earliest in the left text and then in the right. -/
def longestKept (keep : Char → Bool) (right : List Char) :
    Nat → List Nat → Block → List Char → Block
  | _, _, best, [] => best
  | row, above, best, c :: cs =>
    let lengths := runLengths keep c 0 above right
    longestKept keep right (row + 1) lengths (bestInRow row 0 best lengths) cs

/-- The number of characters that two texts have in common at their front. -/
def commonFront : List Char → List Char → Nat
  | c :: cs, d :: ds => if c == d then commonFront cs ds + 1 else 0
  | _, _ => 0

/-- Lengthens a block at both ends as far as the texts agree, kept or not. -/
def Block.extend (block : Block) (left right : List Char) : Block :=
  let before := commonFront (left.take block.left).reverse (right.take block.right).reverse
  let after := commonFront (left.drop (block.left + block.size))
    (right.drop (block.right + block.size))
  ⟨block.left - before, block.right - before, before + block.size + after⟩

def longestBlock (keep : Char → Bool) (left right : List Char) : Block :=
  (longestKept keep right 0 [] ⟨0, 0, 0⟩ left).extend left right

/-- The number of characters in common blocks, for texts of at most `fuel` characters on the left.
-/
def commonSize (keep : Char → Bool) : Nat → List Char → List Char → Nat
  | 0, _, _ => 0
  | fuel + 1, left, right =>
    let block := longestBlock keep left right
    if block.size = 0 then 0
    else
      commonSize keep fuel (left.take block.left) (right.take block.right) + block.size +
        commonSize keep fuel (left.drop (block.left + block.size))
          (right.drop (block.right + block.size))

/-- In a text of 200 characters or more, a character that makes up more than about a hundredth of it
begins no block. -/
def isTelling (text : List Char) (c : Char) : Bool :=
  decide (text.length < 200) || decide (text.count c ≤ text.length / 100 + 1)

/-- A score `num / den`. -/
structure Score where
  num : Nat
  den : Nat

def Score.le (a b : Score) : Bool := decide (a.num * b.den ≤ b.num * a.den)

/-- Equal empty texts have score one. -/
def similarity (left right : String) : Score :=
  let l := left.toList
  let r := right.toList
  if l.length + r.length = 0 then ⟨1, 1⟩
  else ⟨2 * commonSize (isTelling r) l.length l r, l.length + r.length⟩

/-- The least score of a similar name, three fifths. -/
def similarityCutoff : Score := ⟨3, 5⟩

/-- The higher score first, and for equal scores the later name. -/
def ranksBefore (a b : Score × String) : Bool :=
  !a.1.le b.1 || (b.1.le a.1 && !decide (a.2 < b.2))

/-- At most three of the names, the most similar first. -/
def similarNames (name : String) (names : List String) : List String :=
  let scored := names.map fun other => (similarity other name, other)
  let close := scored.filter fun entry => similarityCutoff.le entry.1
  ((sorted ranksBefore close).take 3).map Prod.snd

end Text
end Chip8Asm
