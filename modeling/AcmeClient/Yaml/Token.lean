import AcmeClient.Text.Utf8
import AcmeClient.Yaml.Scalar

/-!
# Tokens

The tokens of a YAML text. Indentation becomes tokens for the start and the end of blocks, and the
start of a key is marked once the colon behind it is found: the place of a possible key is kept as
long as the colon may follow, which is to the end of its line and for at most 1024 characters.

* `Yaml.Token`: the tokens;
* `Yaml.Scan`: the tokens so far, with what is open;
* `Yaml.Token.all`: the tokens of a text.
-/

namespace AcmeClient

namespace Yaml

/-- The tokens of a text. -/
inductive Token where
  /-- A directive for the version, of which the first number is kept. -/
  | version (major : Nat)
  /-- A directive that gives a tag handle its meaning. -/
  | handle (name target : List Char)
  /-- Any other directive. -/
  | directive
  | documentStart
  | documentEnd
  | streamEnd
  | sequenceStart
  | mappingStart
  | blockEnd
  | flowSequenceStart
  | flowSequenceEnd
  | flowMappingStart
  | flowMappingEnd
  | entry
  | flowEntry
  | key
  | value
  | alias (name : List Char)
  | anchor (name : List Char)
  /-- A tag with its handle, if it has one. -/
  | tag (handle : Option (List Char)) (suffix : List Char)
  | scalar (text : List Char) (isPlain : Bool)
deriving DecidableEq, Inhabited

/-- The place of a possible key. -/
structure KeyPlace where
  /-- The number of tokens before the key. -/
  position : Nat
  /-- Nothing but a key may stand there. -/
  isRequired : Bool
  start : Cursor
deriving Inhabited

/-- The tokens so far, with what is open. -/
structure Scan where
  cursor : Cursor
  /-- The tokens so far, last one first. -/
  tokens : List Token
  /-- The number of open flow collections. -/
  depth : Nat
  /-- The column of the innermost open block, and those around it. -/
  indent : Int
  outer : List Int
  /-- A key may start here. -/
  allowsKey : Bool
  /-- The places of possible keys by the number of flow collections around them. -/
  keys : List (Nat × KeyPlace)
deriving Inhabited

namespace Scan

/-- The scan at the start of a text. -/
def start (s : List Char) : Scan :=
  ⟨Cursor.start s, [], 0, -1, [], true, []⟩

/-- Add a token. -/
def add (t : Token) (s : Scan) : Scan :=
  { s with tokens := t :: s.tokens }

/-- Put tokens, last one first, behind the first `position` ones. -/
def insert (new : List Token) (position : Nat) (s : Scan) : Scan :=
  let n := s.tokens.length - position
  { s with tokens := s.tokens.take n ++ new ++ s.tokens.drop n }

/-- Go on to a place. -/
def goTo (c : Cursor) (s : Scan) : Scan :=
  { s with cursor := c }

/-- Whether a key may start behind this token. -/
def allowKey (b : Bool) (s : Scan) : Scan :=
  { s with allowsKey := b }

/-! ## Possible keys -/

/-- The error for a place where only a key may stand. -/
def noColon : Error :=
  malformed "key without colon"

/-- The colon for a possible key may still follow. -/
def isFresh (c : Cursor) (k : KeyPlace) : Bool :=
  k.start.line == c.line && c.index - k.start.index ≤ 1024

/-- Forget the possible keys whose colon can no longer follow. -/
def dropStale (s : Scan) : Except Error Scan :=
  if s.keys.any fun k => !isFresh s.cursor k.2 && k.2.isRequired then .error noColon
  else .ok { s with keys := s.keys.filter fun k => isFresh s.cursor k.2 }

/-- Forget the possible key in the innermost flow collection. -/
def dropKey (s : Scan) : Except Error Scan :=
  match s.keys.lookup s.depth with
  | none => .ok s
  | some k =>
    if k.isRequired then .error noColon
    else .ok { s with keys := s.keys.filter fun p => p.1 != s.depth }

/-- Keep the place of a possible key, if one may start here. -/
def markKey (s : Scan) : Except Error Scan := do
  if s.allowsKey then
    let s ← s.dropKey
    let isRequired := s.depth == 0 && s.indent == s.cursor.column
    .ok { s with keys := (s.depth, ⟨s.tokens.length, isRequired, s.cursor⟩) :: s.keys }
  else .ok s

/-! ## Blocks -/

/-- Close blocks from the innermost one on. -/
def closeBlocks (column : Int) : List Int → Int → List Token → Int × List Int × List Token
  | [], indent, ts => (indent, [], ts)
  | i :: is, indent, ts =>
    if indent > column then closeBlocks column is i (.blockEnd :: ts) else (indent, i :: is, ts)

/-- Close the blocks that lie further to the right than a column. -/
def unwind (column : Int) (s : Scan) : Scan :=
  if s.depth = 0 then
    let (indent, outer, tokens) := closeBlocks column s.outer s.indent s.tokens
    { s with indent := indent, outer := outer, tokens := tokens }
  else s

/-- Open a block at a column, unless one is open there. -/
def openBlock (column : Nat) (s : Scan) : Option Scan :=
  if s.indent < column then some { s with indent := column, outer := s.indent :: s.outer } else none

/-! ## Single tokens -/

/-- Close everything that a directive or a document ends. -/
def closeAll (s : Scan) : Except Error Scan := do
  let s ← (s.unwind (-1)).dropKey
  .ok (s.allowKey false)

/-- The end of the text. -/
def streamEnd (s : Scan) : Except Error Scan := do
  let s ← s.closeAll
  .ok ({ s with keys := [] }.add .streamEnd)

/-- The start or the end of a document. -/
def document (t : Token) (s : Scan) : Except Error Scan := do
  let s ← s.closeAll
  .ok ((s.goTo (s.cursor.skip 3)).add t)

/-- The start of a flow collection, which may be a key. -/
def flowStart (t : Token) (s : Scan) : Except Error Scan := do
  let s ← s.markKey
  .ok ({ s with depth := s.depth + 1, allowsKey := true, cursor := s.cursor.next }.add t)

/-- The end of a flow collection. -/
def flowEnd (t : Token) (s : Scan) : Except Error Scan := do
  let s ← s.dropKey
  if s.depth = 0 then .error (malformed "flow collection ends that did not start")
  else .ok ({ s with depth := s.depth - 1, allowsKey := false, cursor := s.cursor.next }.add t)

/-- A comma. -/
def flowEntry (s : Scan) : Except Error Scan := do
  let s ← (s.allowKey true).dropKey
  .ok ((s.goTo s.cursor.next).add .flowEntry)

/-- Open a block for an entry, a key or a value; `t` is the token for its start. -/
def openFor (t : Token) (s : Scan) : Except Error Scan :=
  if s.depth > 0 then .ok s
  else if !s.allowsKey then .error (malformed "no entry, key or value may stand here")
  else
    match s.openBlock s.cursor.column with
    | some r => .ok (r.add t)
    | none => .ok s

/-- The hyphen of an entry. -/
def entry (s : Scan) : Except Error Scan := do
  let s ← s.openFor .sequenceStart
  let s ← (s.allowKey true).dropKey
  .ok ((s.goTo s.cursor.next).add .entry)

/-- The question mark of a key. -/
def explicitKey (s : Scan) : Except Error Scan := do
  let s ← s.openFor .mappingStart
  let s ← (s.allowKey (s.depth == 0)).dropKey
  .ok ((s.goTo s.cursor.next).add .key)

/-- The colon of a value. The possible key in front of it becomes a key. -/
def value (s : Scan) : Except Error Scan := do
  let s ← match s.keys.lookup s.depth with
    | some k =>
      let s := { s with keys := s.keys.filter fun p => p.1 != s.depth, allowsKey := false }
      .ok (match if s.depth = 0 then s.openBlock k.start.column else none with
        | some r => r.insert [.key, .mappingStart] k.position
        | none => s.insert [.key] k.position)
    | none => do
      let s ← s.openFor .mappingStart
      (s.allowKey (s.depth == 0)).dropKey
  .ok ((s.goTo s.cursor.next).add .value)

/-- A token that may be a key, read by `read`; no key starts behind it. -/
def keyLike (read : Cursor → Except Error (Token × Cursor)) (s : Scan) : Except Error Scan := do
  let s ← s.markKey
  let (t, c) ← read s.cursor
  .ok (((s.allowKey false).goTo c).add t)

/-- A plain scalar. -/
def plain (s : Scan) : Except Error Scan := do
  let s ← s.markKey
  let (text, c, ended) := Scalar.plain (s.depth > 0) (s.indent + 1).toNat s.cursor
  .ok (((s.allowKey ended).goTo c).add (.scalar text true))

/-- A block scalar. -/
def blockScalar (s : Scan) : Except Error Scan := do
  let s ← (s.allowKey true).dropKey
  let (text, c) ← Scalar.block s.indent s.cursor
  .ok ((s.goTo c).add (.scalar text false))

end Scan

/-! ## Names, tags and directives -/

namespace Token

/-- The name behind the mark of an alias or anchor. -/
def nameAt (c : Cursor) : Except Error (List Char × Cursor) :=
  let (name, c) := c.next.takeWhile isNameChar
  if name.isEmpty ∨ !(endsWord c.peek ∨ "?:,]\x7d%@`".toList.contains c.peek) then
    .error (malformed "malformed name")
  else .ok (name, c)

/-- Characters of the text of a tag. -/
def isTagChar (c : Char) : Bool :=
  c.isAlphanum || "-;/?:@&=+$,_.!~*'()[]".toList.contains c

/-- The octets of escapes of two digits each. -/
def escapedOctets : Nat → Cursor → Octets → Except Error (Octets × Cursor)
  | 0, c, acc => .ok (acc, c)
  | n + 1, c, acc =>
    if c.peek = '%' then
      match Scalar.hexNumber? [c.peekAt 1, c.peekAt 2] with
      | some x => escapedOctets n (c.skip 3) (acc ++ [UInt8.ofNat x])
      | none => .error (malformed "malformed escape in a tag")
    else .ok (acc, c)

/-- The text of a tag, with at most `n` steps. -/
def tagText : Nat → Cursor → List Char → Except Error (List Char × Cursor)
  | 0, c, acc => .ok (acc, c)
  | n + 1, c, acc =>
    if c.peek = '%' then do
      let (b, d) ← escapedOctets (c.rest.length + 1) c []
      match Utf8.decode? b with
      | some s => tagText n d (acc ++ s.toList)
      | none => .error (malformed "malformed escape in a tag")
    else if isTagChar c.peek then tagText n c.next (acc ++ [c.peek])
    else .ok (acc, c)

/-- The text of a tag, which is not empty. -/
def tagUri (c : Cursor) : Except Error (List Char × Cursor) := do
  let (s, d) ← tagText (c.rest.length + 1) c []
  if d.index = c.index then .error (malformed "empty tag") else .ok (s, d)

/-- A tag handle: a name between exclamation marks, or one of them alone in front of a space. -/
def tagHandle (c : Cursor) : Except Error (List Char × Cursor) :=
  if c.peek ≠ '!' then .error (malformed "tag handle without mark")
  else if c.peekAt 1 = ' ' then .ok (['!'], c.next)
  else
    let (name, d) := c.next.takeWhile isNameChar
    if d.peek = '!' then .ok ('!' :: name ++ ['!'], d.next)
    else .error (malformed "tag handle without end")

/-- The word of a tag holds a further exclamation mark. -/
def hasHandle (c : Cursor) : Bool :=
  ((c.next.rest).takeWhile fun x => !endsSpan x).contains '!'

/-- A tag. -/
def tagAt (c : Cursor) : Except Error (Token × Cursor) := do
  let (t, c) ←
    if c.peekAt 1 = '<' then do
      let (s, c) ← tagUri (c.skip 2)
      if c.peek = '>' then .ok (Token.tag none s, c.next) else .error (malformed "tag without end")
    else if endsWord (c.peekAt 1) then .ok (Token.tag none ['!'], c.next)
    else do
      let (h, c) ← if hasHandle c then tagHandle c else .ok (['!'], c.next)
      let (s, c) ← tagUri c
      .ok (Token.tag (some h) s, c)
  if endsSpan c.peek then .ok (t, c) else .error (malformed "tag without space behind it")

/-- A number of a version. -/
def versionNumber (c : Cursor) : Except Error (Nat × Cursor) :=
  let (ds, c) := c.takeWhile Char.isDigit
  match Digit.asciiNumber? ds with
  | some n => .ok (n, c)
  | none => .error (malformed "version without number")

/-- A directive for the version, behind its name. -/
def versionAt (c : Cursor) : Except Error (Token × Cursor) := do
  let (major, c) ← versionNumber c.skipSpaces
  if c.peek ≠ '.' then .error (malformed "malformed version")
  else
    let (_, c) ← versionNumber c.next
    if endsSpan c.peek then .ok (.version major, c) else .error (malformed "malformed version")

/-- A directive for a tag handle, behind its name. -/
def handleAt (c : Cursor) : Except Error (Token × Cursor) := do
  let (h, c) ← tagHandle c.skipSpaces
  if c.peek ≠ ' ' then .error (malformed "tag handle without space behind it")
  else
    let (s, c) ← tagUri c.skipSpaces
    if endsSpan c.peek then .ok (.handle h s, c) else .error (malformed "malformed tag")

/-- A directive. -/
def directiveAt (c : Cursor) : Except Error (Token × Cursor) := do
  let (name, c) := c.next.takeWhile isNameChar
  if name.isEmpty ∨ !endsSpan c.peek then .error (malformed "malformed directive")
  else
    let (t, c) ←
      if name = "YAML".toList then versionAt c
      else if name = "TAG".toList then handleAt c
      else .ok (.directive, c.dropWhile (!endsLine ·))
    let c ← c.skipLine
    .ok (t, c)

end Token

/-! ## All tokens -/

namespace Scan

/-- A directive. -/
def directive (s : Scan) : Except Error Scan := do
  let s ← s.closeAll
  let (t, c) ← Token.directiveAt s.cursor
  .ok ((s.goTo c).add t)

/-- Skip spaces, comments and ends of lines; behind an end of a line a key may start. -/
def skipGap : Nat → Scan → Scan
  | 0, s => s
  | n + 1, s =>
    let c := s.cursor.skipComment
    if isBreak c.peek then
      skipGap n { s with cursor := c.lineBreak.2, allowsKey := s.allowsKey || s.depth == 0 }
    else s.goTo c

/-- Without a byte order mark at the start. -/
def skipMark (s : Scan) : Scan :=
  if s.cursor.index = 0 ∧ s.cursor.peek = '\ufeff' then s.goTo s.cursor.next else s

/-- Characters that no plain scalar starts with. -/
def isIndicator (x : Char) : Bool :=
  endsWord x || "-?:,[]\x7b\x7d#&*!|>'\"%@`".toList.contains x

/-- A plain scalar starts here. -/
def startsPlain (s : Scan) : Bool :=
  let x := s.cursor.peek
  !isIndicator x
    || (!endsWord (s.cursor.peekAt 1) && (x == '-' || (s.depth == 0 && (x == '?' || x == ':'))))

/-- The token that starts here. -/
def token (s : Scan) : Except Error Scan :=
  let c := s.cursor
  let x := c.peek
  let apart := endsWord (c.peekAt 1)
  let inFlow := decide (s.depth > 0)
  if x = '\x00' then s.streamEnd
  else if x = '%' ∧ c.column = 0 then s.directive
  else if c.column = 0 ∧ c.isMarker '-' then s.document .documentStart
  else if c.column = 0 ∧ c.isMarker '.' then s.document .documentEnd
  else if x = '[' then s.flowStart .flowSequenceStart
  else if x = '\x7b' then s.flowStart .flowMappingStart
  else if x = ']' then s.flowEnd .flowSequenceEnd
  else if x = '\x7d' then s.flowEnd .flowMappingEnd
  else if x = ',' then s.flowEntry
  else if x = '-' ∧ apart then s.entry
  else if x = '?' ∧ (inFlow ∨ apart) then s.explicitKey
  else if x = ':' ∧ (inFlow ∨ apart) then s.value
  else if x = '*' then s.keyLike fun c => (Token.nameAt c).map fun p => (.alias p.1, p.2)
  else if x = '&' then s.keyLike fun c => (Token.nameAt c).map fun p => (.anchor p.1, p.2)
  else if x = '!' then s.keyLike Token.tagAt
  else if (x = '|' ∨ x = '>') ∧ !inFlow then s.blockScalar
  else if x = '\x27' ∨ x = '"' then
    s.keyLike fun c => (Scalar.quoted c).map fun p => (.scalar p.1 false, p.2)
  else if s.startsPlain then s.plain
  else .error (malformed "no token starts with this character")

/-- The next token. -/
def step (s : Scan) : Except Error Scan := do
  let s := (s.skipMark).skipGap (s.cursor.rest.length + 1)
  let s ← s.dropStale
  (s.unwind s.cursor.column).token

/-- All tokens, at most `n` of them. -/
def run : Nat → Scan → Except Error (List Token)
  | 0, _ => .error (malformed "text without end")
  | n + 1, s => do
    let s ← s.step
    match s.tokens.head? with
    | some .streamEnd => .ok s.tokens.reverse
    | _ => run n s

end Scan

/-- The tokens of a text. -/
def Token.all (s : List Char) : Except Error (List Token) :=
  if s.all isPrintable then Scan.run (s.length + 2) (Scan.start s)
  else .error (malformed "unprintable character")

end Yaml

end AcmeClient
