import AcmeClient.Yaml.Cursor
import AcmeClient.Json.Reader

/-!
# Scalars

A scalar is a text: plain, in quotes, or as a block of lines. Ends of lines within it are folded
into spaces, other than those of literal blocks.

* `Yaml.Scalar.plain`: a plain scalar;
* `Yaml.Scalar.quoted`: a scalar in quotes;
* `Yaml.Scalar.block`: a literal or folded block.
-/

namespace AcmeClient

namespace Yaml

namespace Scalar

/-- A folded end of a line: a line feed becomes a space unless empty lines follow. -/
def fold (first rest : List Char) : List Char :=
  if first ≠ ['\n'] then first ++ rest
  else if rest.isEmpty then [' '] else rest

/-! ## Plain scalars -/

/-- The ends of empty lines, and the place behind them; nothing if a document begins or ends
there. -/
def plainBreaks : Nat → Cursor → List Char → Option (List Char) × Cursor
  | 0, c, acc => (some acc, c)
  | n + 1, c, acc =>
    if c.peek = ' ' then plainBreaks n c.next acc
    else if isBreak c.peek then
      let (b, d) := c.lineBreak
      if d.isSeparator then (none, d) else plainBreaks n d (acc ++ b)
    else (some acc, c)

/-- What stands between two words of a plain scalar, the place behind it, and whether a line
ended. -/
def plainGap (c : Cursor) : List Char × Cursor × Bool :=
  let (spaces, c) := c.takeWhile (· == ' ')
  if isBreak c.peek then
    let (b, c) := c.lineBreak
    if c.isSeparator then ([], c, true)
    else
      match plainBreaks (c.rest.length + 1) c [] with
      | (some bs, c) => (fold b bs, c, true)
      | (none, c) => ([], c, true)
  else (spaces, c, false)

/-- A plain scalar ends before this character; `after` is the one behind it. -/
def endsPlain (inFlow : Bool) (x after : Char) : Bool :=
  endsWord x
    || (x == ':' && (endsWord after || (inFlow && ",[]\x7b\x7d".toList.contains after)))
    || (inFlow && ",?[]\x7b\x7d".toList.contains x)

/-- The length of a word of a plain scalar. -/
def wordLength (inFlow : Bool) : List Char → Nat
  | [] => 0
  | x :: r => if endsPlain inFlow x (r.headD '\x00') then 0 else wordLength inFlow r + 1

/-- The words of a plain scalar, at most `n` of them, with the text so far and the gap behind it.
The result holds the place behind the scalar and whether a line ended there. -/
def plainWords (inFlow : Bool) (indent : Nat) :
    Nat → Cursor → List Char → List Char → Bool → List Char × Cursor × Bool
  | 0, c, acc, _, ended => (acc, c, ended)
  | n + 1, c, acc, gap, ended =>
    let l := wordLength inFlow c.rest
    if c.peek = '#' ∨ l = 0 then (acc, c, ended)
    else
      let acc := acc ++ gap ++ c.rest.take l
      let (gap, c, ended) := plainGap (c.skip l)
      if gap.isEmpty ∨ c.peek = '#' ∨ (!inFlow ∧ c.column < indent) then (acc, c, ended)
      else plainWords inFlow indent n c acc gap ended

/-- A plain scalar, the place behind it, and whether a line ended there. -/
def plain (inFlow : Bool) (indent : Nat) (c : Cursor) : List Char × Cursor × Bool :=
  plainWords inFlow indent (c.rest.length + 1) c [] [] false

/-! ## Quoted scalars -/

/-- The ends of empty lines within quotes. -/
def quotedBreaks : Nat → Cursor → List Char → Except Error (List Char × Cursor)
  | 0, c, acc => .ok (acc, c)
  | n + 1, c, acc =>
    if c.isSeparator then .error (malformed "document ends within quotes")
    else
      let c := c.dropWhile isGap
      if isBreak c.peek then
        let (b, c) := c.lineBreak
        quotedBreaks n c (acc ++ b)
      else .ok (acc, c)

/-- Spaces and ends of lines within quotes. -/
def quotedGap (c : Cursor) : Except Error (List Char × Cursor) := do
  let (spaces, c) := c.takeWhile isGap
  if c.peek = '\x00' then .error (malformed "text ends within quotes")
  else if isBreak c.peek then
    let (b, c) := c.lineBreak
    let (bs, c) ← quotedBreaks (c.rest.length + 1) c []
    .ok (fold b bs, c)
  else .ok (spaces, c)

/-- The character of an escape with a single letter. -/
def shortEscape? (x : Char) : Option Char :=
  ([('0', '\x00'), ('a', '\x07'), ('b', '\x08'), ('t', '\t'), ('\t', '\t'), ('n', '\n'), ('v', '\x0b'),
    ('f', '\x0c'), ('r', '\r'), ('e', '\x1b'), (' ', ' '), ('"', '"'), ('\\', '\\'), ('/', '/'),
    ('N', '\x85'), ('_', '\xa0'), ('L', '\u2028'), ('P', '\u2029')] : List (Char × Char)).lookup x

/-- The number of digits of an escape with a number. -/
def escapeDigits? (x : Char) : Option Nat :=
  ([('x', 2), ('u', 4), ('U', 8)] : List (Char × Nat)).lookup x

/-- The character with a number. -/
def charOf (n : Nat) : Except Error Char :=
  if n > 0x7fffffff then .error (.plain .outOfRange "number too large")
  else if n > 0x10ffff then .error (.plain .value "no character")
  else .ok (Json.charOfUnit n)

/-- The number of several hexadecimal digits. -/
def hexNumber? (s : List Char) : Option Nat :=
  s.foldlM (fun n x => (Digit.hex? x).map fun d => n * 16 + d) 0

/-- What an escape stands for; the place is behind the backslash. -/
def escape (c : Cursor) : Except Error (List Char × Cursor) := do
  match shortEscape? c.peek with
  | some x => .ok ([x], c.next)
  | none =>
    match escapeDigits? c.peek with
    | some l =>
      let c := c.next
      let ds := c.rest.take l
      match if ds.length = l then hexNumber? ds else none with
      | some n => do
        let x ← charOf n
        .ok ([x], c.skip l)
      | none => .error (malformed "escape without number")
    | none =>
      if isBreak c.peek then
        let c := c.lineBreak.2
        quotedBreaks (c.rest.length + 1) c []
      else .error (malformed "unknown escape")

/-- The rest of a scalar in quotes, with at most `n` steps. -/
def quotedRest (quote : Char) : Nat → Cursor → List Char → Except Error (List Char × Cursor)
  | 0, _, _ => .error (malformed "text ends within quotes")
  | n + 1, c, acc => do
    let x := c.peek
    if x = quote then
      if x = '\x27' ∧ c.peekAt 1 = '\x27' then quotedRest quote n (c.skip 2) (acc ++ [x])
      else .ok (acc, c.next)
    else if x = '\\' ∧ quote = '"' then
      let (s, c) ← escape c.next
      quotedRest quote n c (acc ++ s)
    else if endsWord x then
      let (s, c) ← quotedGap c
      quotedRest quote n c (acc ++ s)
    else quotedRest quote n c.next (acc ++ [x])

/-- A scalar in quotes and the place behind it. -/
def quoted (c : Cursor) : Except Error (List Char × Cursor) :=
  quotedRest c.peek (c.rest.length + 1) c.next []

/-! ## Blocks -/

/-- What happens to the ends of lines at the end of a block. -/
inductive Chomping where
  | strip
  | clip
  | keep
deriving DecidableEq, Inhabited

/-- The mark for the ends of lines. -/
def chomping? (x : Char) : Option Chomping :=
  if x = '+' then some .keep else if x = '-' then some .strip else none

/-- The digit for the indentation. -/
def indentation? (x : Char) : Option Nat :=
  if '0' ≤ x ∧ x ≤ '9' then some (x.toNat - 48) else none

/-- The marks behind the indicator of a block: ends of lines and indentation, in any order. -/
def blockMarks (c : Cursor) : Chomping × Option Nat × Cursor :=
  match chomping? c.peek with
  | some m =>
    match indentation? (c.peekAt 1) with
    | some d => (m, some d, c.skip 2)
    | none => (m, none, c.next)
  | none =>
    match indentation? c.peek with
    | none => (.clip, none, c)
    | some d =>
      match chomping? (c.peekAt 1) with
      | some m => (m, some d, c.skip 2)
      | none => (.clip, some d, c.next)

/-- The number of columns of the first line that is not empty, and the ends of the lines before
it. -/
def leadingBreaks : Nat → Cursor → List Char → Nat → List Char × Nat × Cursor
  | 0, c, acc, column => (acc, column, c)
  | n + 1, c, acc, column =>
    if c.peek = ' ' then leadingBreaks n c.next acc (max column c.next.column)
    else if isBreak c.peek then
      let (b, c) := c.lineBreak
      leadingBreaks n c (acc ++ b) column
    else (acc, column, c)

/-- The place behind the spaces up to a column. -/
def skipIndent (column : Nat) : Nat → Cursor → Cursor
  | 0, c => c
  | n + 1, c => if c.column < column ∧ c.peek = ' ' then skipIndent column n c.next else c

/-- The ends of empty lines in a block with a given indentation. -/
def blockBreaks (indent : Nat) : Nat → Cursor → List Char → List Char × Cursor
  | 0, c, acc => (acc, c)
  | n + 1, c, acc =>
    let c := skipIndent indent indent c
    if isBreak c.peek then
      let (b, c) := c.lineBreak
      blockBreaks indent n c (acc ++ b)
    else (acc, c)

/-- The lines of a block, at most `n` of them, with the text so far and the ends of empty lines
behind it. The result holds the end of the last line and the ends of the empty lines behind it. -/
def blockLines (folded : Bool) (indent : Nat) :
    Nat → Cursor → List Char → List Char → List Char × List Char × List Char × Cursor
  | 0, c, acc, breaks => (acc, [], breaks, c)
  | n + 1, c, acc, breaks =>
    let spaced := isGap c.peek
    let (line, c) := c.takeWhile (!endsLine ·)
    let acc := acc ++ breaks ++ line
    let (b, c) := c.lineBreak
    let (breaks, c) := blockBreaks indent (c.rest.length + 1) c []
    if c.column = indent ∧ c.peek ≠ '\x00' then
      let joint :=
        if folded ∧ b = ['\n'] ∧ !spaced ∧ !isGap c.peek then
          if breaks.isEmpty then [' '] else []
        else b
      blockLines folded indent n c (acc ++ joint) breaks
    else (acc, b, breaks, c)

/-- A literal or folded block within the indentation `outer`, and the place behind it. -/
def block (outer : Int) (c : Cursor) : Except Error (List Char × Cursor) := do
  let folded := c.peek == '>'
  let (chomping, increment, c) := blockMarks c.next
  if increment = some 0 then .error (malformed "indentation of zero")
  else if !endsSpan c.peek then .error (malformed "unknown mark of a block")
  else
    let c ← c.skipLine
    let least := max (outer + 1).toNat 1
    let (breaks, indent, c) := match increment with
      | some d =>
        let indent := least + d - 1
        let (breaks, c) := blockBreaks indent (c.rest.length + 1) c []
        (breaks, indent, c)
      | none =>
        let (breaks, column, c) := leadingBreaks (c.rest.length + 1) c [] 0
        (breaks, max least column, c)
    let (text, last, breaks, c) :=
      if c.column = indent ∧ c.peek ≠ '\x00' then
        blockLines folded indent (c.rest.length + 1) c [] breaks
      else ([], [], breaks, c)
    .ok (text ++ (if chomping = .strip then [] else last)
      ++ (if chomping = .keep then breaks else []), c)

end Scalar

end Yaml

end AcmeClient
