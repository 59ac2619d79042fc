import AcmeClient.Text.Blank
import AcmeClient.Text.Digit
import AcmeClient.Time.DateTime

/-!
# Dates in headers

RFC 5322 dates and their older forms: an optional day of the week, day, month, year, time of day and
zone. The parts are told apart by their looks where writers are known to exchange them.

* `MailDate.Fields`, `MailDate.fields?`: the numbers that are written;
* `MailDate.read`: the reading of the clock; the offset is unknown if no zone or `-0000` is written.
-/

namespace AcmeClient

namespace MailDate

/-- A text in lower case; only ASCII letters matter. -/
def lower (s : List Char) : List Char :=
  s.map Char.toLower

/-- A character in upper case; the long s and its ligatures are letters of ASCII in upper case. -/
def upperChar (c : Char) : List Char :=
  if c.toNat = 0x17f then ['S']
  else if c.toNat = 0xfb05 ∨ c.toNat = 0xfb06 then ['S', 'T']
  else [c.toUpper]

/-- A text in upper case. -/
def upper (s : List Char) : List Char :=
  s.flatMap upperChar

/-- The names of the days. -/
def dayNames : List (List Char) :=
  ["mon", "tue", "wed", "thu", "fri", "sat", "sun"].map String.toList

/-- The short names of the months. -/
def shortMonths : List (List Char) :=
  ["jan", "feb", "mar", "apr", "may", "jun", "jul", "aug", "sep", "oct", "nov", "dec"].map
    String.toList

/-- The long names of the months. -/
def longMonths : List (List Char) :=
  ["january", "february", "march", "april", "may", "june", "july", "august", "september",
    "october", "november", "december"].map String.toList

/-- The number of a month. -/
def month? (s : List Char) : Option Nat :=
  match shortMonths.findIdx? (· == s) with
  | some i => some (i + 1)
  | none => (longMonths.findIdx? (· == s)).map (· + 1)

/-- The named zones, in hours and minutes as one number. -/
def zones : List (String × Int) :=
  [("UT", 0), ("UTC", 0), ("GMT", 0), ("Z", 0), ("AST", -400), ("ADT", -300), ("EST", -500),
    ("EDT", -400), ("CST", -600), ("CDT", -500), ("MST", -700), ("MDT", -600), ("PST", -800),
    ("PDT", -700)]

/-- Digits of any script, with single underscores between them. -/
def groupedNumber? (s : List Char) : Option Nat :=
  let groups := Text.splitOn (· == '_') s
  if groups.any (·.isEmpty) then none
  else
    let ds := groups.flatten
    if ds.length > 4300 then none else Digit.number? ds

/-- An integer with an optional sign. -/
def integer? : List Char → Option Int
  | '-' :: s => (groupedNumber? s).map fun (n : Nat) => -(n : Int)
  | '+' :: s => (groupedNumber? s).map fun (n : Nat) => (n : Int)
  | s => (groupedNumber? s).map fun (n : Nat) => (n : Int)

/-- Without a comma at the end. -/
def dropComma (s : List Char) : List Char :=
  if s.getLast? = some ',' then s.dropLast else s

/-- The part behind the last comma. -/
def afterComma (s : List Char) : List Char :=
  (s.reverse.takeWhile (· ≠ ',')).reverse

/-- The words without the day of the week. -/
def dropDayName : List (List Char) → List (List Char)
  | [] => []
  | w :: ws =>
    if w.getLast? = some ',' ∨ dayNames.contains (lower w) then ws
    else if w.contains ',' then afterComma w :: ws
    else w :: ws

/-- A date written with hyphens is three words. -/
def splitHyphens (ws : List (List Char)) : List (List Char) :=
  match ws with
  | [d, t, z] =>
    let parts := Text.splitOn (· == '-') d
    if parts.length = 3 then parts ++ [t, z] else ws
  | _ => ws

/-- The words before and from the first occurrence of a character, if it is not the first. -/
def cut? (c : Char) (s : List Char) : Option (List Char × List Char) :=
  let head := s.takeWhile (· ≠ c)
  if head.isEmpty ∨ head = s then none else some (head, s.dropWhile (· ≠ c))

/-- A zone directly behind the time of day is a word of its own; without zone that word is empty. -/
def splitZone (ws : List (List Char)) : List (List Char) :=
  match ws with
  | [d, m, y, t] =>
    let mark := if t.contains '+' then '+' else '-'
    match cut? mark t with
    | some (time, zone) => [d, m, y, time, zone]
    | none => [d, m, y, t, []]
  | _ => ws

/-- Hours, minutes and seconds. -/
def clock? (s : List Char) : Option (List Char × List Char × List Char) :=
  match Text.splitOn (· == ':') s with
  | [h, m] => some (h, m, ['0'])
  | [h, m, s] => some (h, m, s)
  | [t] =>
    match Text.splitOn (· == '.') t with
    | [h, m] => some (h, m, ['0'])
    | [h, m, s] => some (h, m, s)
    | _ => none
  | _ => none

/-- The offset of a zone in seconds, unknown if it is not understood or `-0000`. -/
def zoneOffset (s : List Char) : Option Int :=
  let s := upper s
  let number := match zones.find? fun z => z.1.toList = s with
    | some z => some z.2
    | none =>
      match integer? s with
      | some n => if n = 0 ∧ s.head? = some '-' then none else some n
      | none => none
  number.map fun n =>
    let a := n.natAbs
    let seconds : Int := (a / 100 * 3600 + a % 100 * 60 : Nat)
    if n < 0 then -seconds else seconds

/-- The numbers that are written. -/
structure Fields where
  year : Int
  month : Nat
  day : Int
  hour : Int
  minute : Int
  second : Int
  offset : Option Int

/-- Years of two digits lie between 1969 and 2068. -/
def fullYear (y : Int) : Int :=
  if y < 100 then (if y > 68 then y + 1900 else y + 2000) else y

/-- The numbers of five words: day, month, year, time of day and zone. Day and month may be
exchanged, year and time of day too, and year and zone. -/
def fieldsOfWords? (d m y t z : List Char) : Option Fields := do
  if d.isEmpty ∨ m.isEmpty ∨ y.isEmpty then none
  else
    let (day, month) ← match month? (lower m) with
      | some n => some (d, n)
      | none => (month? (lower d)).map fun n => (lower m, n)
    let day := dropComma day
    let (y, t) := match y with
      | ':' :: _ => (y, t)
      | _ => if y.contains ':' then (t, y) else (y, t)
    let y := dropComma y
    let first ← y.head?
    let (y, z) := if Digit.isDigit first then (y, z) else (z, y)
    let (hour, minute, second) ← clock? (dropComma t)
    let year ← integer? y
    let day ← integer? day
    let hour ← integer? hour
    let minute ← integer? minute
    let second ← integer? second
    some ⟨fullYear year, month, day, hour, minute, second, zoneOffset z⟩

/-- The numbers of a date. -/
def fields? (s : List Char) : Option Fields :=
  match splitZone (splitHyphens (dropDayName (Text.words s))) with
  | d :: m :: y :: t :: z :: _ => fieldsOfWords? d m y t z
  | _ => none

/-- What a date turns out to be. -/
inductive Reading where
  | time (t : DateTime)
  /-- Not a date. -/
  | unreadable
  /-- A number is beyond all bounds. -/
  | excessive
deriving DecidableEq

/-- A number that fits in 32 bits. -/
def isShort (n : Int) : Bool :=
  -0x80000000 ≤ n && n < 0x80000000

/-- The offset is less than a day. -/
def isOffset (o : Int) : Bool :=
  o.natAbs < 86400

/-- The reading of the clock with given numbers. -/
def Fields.reading (f : Fields) : Reading :=
  let tooFar := match f.offset with
    | some o => o / 86400 > 999999999 || o / 86400 < -999999999
    | none => false
  if tooFar then .excessive
  else if !(f.offset.map isOffset).getD true then .unreadable
  else if !(isShort f.year && isShort f.day && isShort f.hour && isShort f.minute
      && isShort f.second) then .excessive
  else if f.year < 0 ∨ f.day < 0 ∨ f.hour < 0 ∨ f.minute < 0 ∨ f.second < 0 then .unreadable
  else
    match DateTime.ofFields? ⟨f.year.toNat, f.month, f.day.toNat⟩
        ⟨f.hour.toNat, f.minute.toNat, f.second.toNat, 0⟩ f.offset with
    | some t => .time t
    | none => .unreadable

/-- What a text turns out to be. -/
def read (s : List Char) : Reading :=
  match fields? s with
  | some f => f.reading
  | none => .unreadable

end MailDate

end AcmeClient
