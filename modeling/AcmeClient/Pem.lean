import AcmeClient.Base64
import AcmeClient.Text.Blank

/-!
# PEM

Octets as text: a labelled begin line, Base64 letters in lines of 64, and an end line with the same
label. The reader accepts any white space among the letters and an optional head of `name: value`
lines that ends with an empty line.

* `Pem.write`: the block for octets and a label;
* `Pem.Block`, `Pem.readAll?`: all blocks of a text; one bad block spoils the whole text.
-/

namespace AcmeClient

namespace Pem

/-! ## Writing -/

/-- The greatest number of letters in a line. -/
def lineWidth : Nat :=
  64

/-- The letters in lines of full width, each with its end; the last line may be shorter. -/
def foldLines (s : List Char) : List Char :=
  if _h : s.isEmpty then []
  else s.take lineWidth ++ '\n' :: foldLines (s.drop lineWidth)
termination_by s.length
decreasing_by
  cases s with
  | nil => simp at _h
  | cons c s =>
    simp only [List.length_drop, List.length_cons, lineWidth]
    omega

/-- The begin line of a label without its end. -/
def beginLine (label : List Char) : List Char :=
  "-----BEGIN ".toList ++ label ++ "-----".toList

/-- The end line of a label without its end. -/
def endLine (label : List Char) : List Char :=
  "-----END ".toList ++ label ++ "-----".toList

/-- The block for octets and a label. -/
def write (label : List Char) (b : Octets) : List Char :=
  beginLine label ++ '\n' :: foldLines (Base64.encode b) ++ endLine label ++ ['\n']

/-! ## Reading -/

/-- Search for a marker of which `pending` is still to come. A character that does not fit starts
the marker afresh and is passed over. The result is the text up to and with the marker, and the
rest. -/
def search (marker : List Char) : List Char → List Char → Option (List Char × List Char)
  | [], s => some ([], s)
  | _ :: _, [] => none
  | m :: ms, c :: s =>
    (search marker (if c = m then ms else marker) s).map fun p => (c :: p.1, p.2)

/-- The text before a marker, and the text after it. -/
def splitAt? (marker s : List Char) : Option (List Char × List Char) :=
  (search marker marker s).map fun p => (p.1.take (p.1.length - marker.length), p.2)

/-- Skip spaces, tabs and line ends. -/
def skipGap (s : List Char) : List Char :=
  s.dropWhile fun c => c == ' ' || c == '\t' || c == '\n' || c == '\r'

/-- A block as it stands in a text. -/
structure RawBlock where
  beginLabel : List Char
  body : List Char
  endLabel : List Char

/-- The first block of a text and what follows it. -/
def readRaw? (s : List Char) : Option (RawBlock × List Char) := do
  let (_, s) ← splitAt? "-----BEGIN ".toList s
  let (beginLabel, s) ← splitAt? "-----".toList s
  let (body, s) ← splitAt? "-----END ".toList (skipGap s)
  let (endLabel, s) ← splitAt? "-----".toList s
  some (⟨beginLabel, body, endLabel⟩, skipGap s)

/-- A labelled block of octets. -/
structure Block where
  label : List Char
  /-- The lines of the head. -/
  head : List (List Char × List Char)
  content : Octets
deriving DecidableEq, Inhabited

/-- Remove white space at both ends. -/
def strip (s : List Char) : List Char :=
  Text.strip Char.isSpace s

/-- A line of the head: a name and a value. -/
def headLine? (line : List Char) : Option (List Char × List Char) :=
  if line.contains ':' then
    some (strip (line.takeWhile (· ≠ ':')), strip ((line.dropWhile (· ≠ ':')).drop 1))
  else none

/-- The lines of a text; a last empty one does not count. -/
def headLines (s : List Char) : List (List Char) :=
  let ls := Text.splitOn (· == '\n') s
  if ls.getLast? = some [] then ls.dropLast else ls

/-- Head and letters of a body: the head ends at the first empty line. -/
def splitHead (body : List Char) : List Char × List Char :=
  ((splitAt? ['\n', '\n'] body).orElse fun _ => splitAt? ['\r', '\n', '\r', '\n'] body).getD
    ([], body)

/-- Check labels, head and letters of a block. -/
def RawBlock.check? (r : RawBlock) : Option Block := do
  if r.beginLabel.isEmpty ∨ r.beginLabel ≠ r.endLabel then none
  else
    let (head, letters) := splitHead r.body
    let content ← Base64.decode? (letters.filter fun c => !Char.isSpace c)
    let head ← (headLines head).mapM headLine?
    some ⟨r.beginLabel, head, content⟩

/-- The blocks of a text as they stand, at most `n` of them. -/
def readRawAll : Nat → List Char → List RawBlock
  | 0, _ => []
  | n + 1, s =>
    match readRaw? s with
    | none => []
    | some (r, s) => r :: readRawAll n s

/-- The blocks of a text; fails if one of them is bad. -/
def readAll? (s : List Char) : Option (List Block) :=
  (readRawAll s.length s).mapM RawBlock.check?

/-- The first block with one of some labels. -/
def find? (labels : List String) (s : List Char) : Option Block := do
  (← readAll? s).find? fun b => labels.any fun l => l.toList = b.label

/-- The value of a name in the head; the last line with that name counts. -/
def Block.headValue? (b : Block) (name : String) : Option (List Char) :=
  (b.head.reverse.find? fun p => p.1 = name.toList).map (·.2)

end Pem

end AcmeClient
