import AcmeClient.Error

/-!
# Places in a YAML text

A cursor stands before the rest of a text and knows its line and column. The null character, which
no text holds, stands for the end.

* `Yaml.Cursor`: a place in a text;
* `Yaml.isBreak`, `Yaml.endsLine`, `Yaml.endsWord`: classes of characters;
* `Yaml.Cursor.takeWhile`, `Yaml.Cursor.lineBreak`: what is read from a place.
-/

namespace AcmeClient

namespace Yaml

/-- The error for a text that is not YAML. -/
def malformed (message : String) : Error :=
  .plain .settings message

/-- Characters that end a line. -/
def isBreak (c : Char) : Bool :=
  c == '\r' || c == '\n' || c == '\x85' || c == '\u2028' || c == '\u2029'

/-- The end of a line or of the text. -/
def endsLine (c : Char) : Bool :=
  c == '\x00' || isBreak c

/-- A space, or the end of a line or of the text. -/
def endsSpan (c : Char) : Bool :=
  c == ' ' || endsLine c

/-- A space, a tab, or the end of a line or of the text. -/
def endsWord (c : Char) : Bool :=
  c == '\t' || endsSpan c

/-- Spaces and tabs. -/
def isGap (c : Char) : Bool :=
  c == ' ' || c == '\t'

/-- Letters, digits, hyphen and underscore. -/
def isNameChar (c : Char) : Bool :=
  c.isAlphanum || c == '-' || c == '_'

/-- Characters that a text may hold. -/
def isPrintable (c : Char) : Bool :=
  let n := c.toNat
  c == '\t' || c == '\n' || c == '\r' || (0x20 ≤ n && n ≤ 0x7e) || n == 0x85
    || (0xa0 ≤ n && n ≤ 0xd7ff) || (0xe000 ≤ n && n ≤ 0xfffd) || 0x10000 ≤ n

/-- A place in a text. -/
structure Cursor where
  /-- What is left of the text. -/
  rest : List Char
  /-- The number of characters before the place. -/
  index : Nat
  line : Nat
  column : Nat
deriving Inhabited

namespace Cursor

/-- The start of a text. -/
def start (s : List Char) : Cursor :=
  ⟨s, 0, 0, 0⟩

/-- The next character. -/
def peek (c : Cursor) : Char :=
  c.rest.headD '\x00'

/-- The character after `k` others. -/
def peekAt (c : Cursor) (k : Nat) : Char :=
  (c.rest.drop k).headD '\x00'

/-- Go on by one character. A byte order mark takes no column. -/
def next (c : Cursor) : Cursor :=
  match c.rest with
  | [] => c
  | x :: r =>
    if x = '\n' ∨ x = '\x85' ∨ x = '\u2028' ∨ x = '\u2029' ∨ (x = '\r' ∧ r.head? ≠ some '\n') then
      ⟨r, c.index + 1, c.line + 1, 0⟩
    else ⟨r, c.index + 1, c.line, if x = '\ufeff' then c.column else c.column + 1⟩

/-- Go on by `n` characters. -/
def skip (c : Cursor) : Nat → Cursor
  | 0 => c
  | n + 1 => skip c.next n

/-- The characters that satisfy `p`, and the place behind them. -/
def takeWhile (p : Char → Bool) (c : Cursor) : List Char × Cursor :=
  let s := c.rest.takeWhile p
  (s, c.skip s.length)

/-- The place behind the characters that satisfy `p`. -/
def dropWhile (p : Char → Bool) (c : Cursor) : Cursor :=
  (c.takeWhile p).2

/-- The place behind spaces. -/
def skipSpaces (c : Cursor) : Cursor :=
  c.dropWhile (· == ' ')

/-- The end of a line, as the character it stands for, and the place behind it. -/
def lineBreak (c : Cursor) : List Char × Cursor :=
  match c.rest with
  | '\r' :: '\n' :: _ => (['\n'], c.skip 2)
  | x :: _ =>
    if x = '\r' ∨ x = '\n' ∨ x = '\x85' then (['\n'], c.next)
    else if x = '\u2028' ∨ x = '\u2029' then ([x], c.next)
    else ([], c)
  | [] => ([], c)

/-- Three equal characters that stand alone begin or end a document. -/
def isMarker (mark : Char) (c : Cursor) : Bool :=
  c.peek == mark && c.peekAt 1 == mark && c.peekAt 2 == mark && endsWord (c.peekAt 3)

/-- A document begins or ends here. -/
def isSeparator (c : Cursor) : Bool :=
  c.isMarker '-' || c.isMarker '.'

/-- The place behind spaces and a comment. -/
def skipComment (c : Cursor) : Cursor :=
  let c := c.skipSpaces
  if c.peek = '#' then c.dropWhile (!endsLine ·) else c

/-- The place behind the rest of a line that may only hold a comment. -/
def skipLine (c : Cursor) : Except Error Cursor :=
  let c := c.skipComment
  if endsLine c.peek then .ok c.lineBreak.2 else .error (malformed "unexpected text on the line")

end Cursor

end Yaml

end AcmeClient
