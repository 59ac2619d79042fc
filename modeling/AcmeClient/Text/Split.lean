/-!
# Parts of texts

* `Text.strip`: a text without certain characters at its ends;
* `Text.splitOn`, `Text.fields`: the parts between separators;
* `Text.splitAt`, `Text.afterLast`: the parts around the first or the last occurrence of a
  character;
* `Text.after?`: what follows something that a text starts with.
-/

namespace AcmeClient

namespace Text

/-- Remove the characters that satisfy `p` at both ends. -/
def strip (p : Char → Bool) (s : List Char) : List Char :=
  ((s.dropWhile p).reverse.dropWhile p).reverse

/-- Put a character in front of the first part, or make it the first part. -/
def consFirst (c : Char) : List (List Char) → List (List Char)
  | [] => [[c]]
  | p :: ps => (c :: p) :: ps

/-- The parts between characters that satisfy `p`; adjacent separators enclose an empty part. -/
def splitOn (p : Char → Bool) : List Char → List (List Char)
  | [] => [[]]
  | c :: s => if p c then [] :: splitOn p s else consFirst c (splitOn p s)

/-- The maximal runs of characters that do not satisfy `p`. -/
def fields (p : Char → Bool) (s : List Char) : List (List Char) :=
  (splitOn p s).filter (!·.isEmpty)

/-- The text before and behind the first occurrence of a character. -/
def splitAt (c : Char) (s : List Char) : List Char × List Char :=
  (s.takeWhile (· ≠ c), (s.dropWhile (· ≠ c)).drop 1)

/-- The part behind the last occurrence of a character, or everything. -/
def afterLast (c : Char) (s : List Char) : List Char :=
  (s.reverse.takeWhile (· ≠ c)).reverse

/-- The rest of a text behind something it starts with. -/
def after? (p s : List Char) : Option (List Char) :=
  if p.isPrefixOf s then some (s.drop p.length) else none

end Text

end AcmeClient
