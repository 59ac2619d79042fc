import AcmeClient.Text.Digit
import AcmeClient.Time.DateTime

/-!
# Written points in time

A date in one of the notations `YYYY-MM-DD`, `YYYYMMDD`, `YYYY-Www`, `YYYY-Www-D`, `YYYYWww` and
`YYYYWwwD`, one separating character, a time of day and an offset. The time of day has hours,
minutes and seconds, with colons throughout or without any, and ends wherever the writer stopped; a
fraction follows a point or a comma.

* `Notation.dateLength`: how many characters belong to the date;
* `Notation.date?`, `Notation.clockFields?`: date and time of day;
* `Notation.read?`: the reading of the clock that is written.
-/

namespace AcmeClient

namespace Notation

/-- An ASCII digit. -/
def isDigit (c : Char) : Bool :=
  (Digit.ascii? c).isSome

/-! ## Dates -/

/-- The number of characters of the date. After a week the separator may be a hyphen, which is told
from the hyphen before a day by a digit two places further on; without hyphens the number of digits
decides. -/
def dateLength (s : List Char) : Nat :=
  if s.length = 7 then 7
  else if s[4]? = some '-' then
    if s[5]? = some 'W' then
      if s[8]? = some '-' then
        if (s[10]?.map isDigit).getD false then 8 else 10
      else 8
    else 10
  else if s[4]? = some 'W' then
    let n := 7 + ((s.drop 7).takeWhile isDigit).length
    if n < 9 then n else if n % 2 = 0 then 7 else 8
  else 8

/-- The date of a day in a week of a year of weeks. -/
def weekDate? (year week day : Nat) : Option Calendar.Date :=
  if 1 ≤ year ∧ year ≤ 9999 ∧ 1 ≤ week ∧ week ≤ Calendar.weeksInYear year ∧ 1 ≤ day ∧ day ≤ 7 then
    let n := Calendar.firstWeek year + ((week - 1) * 7 + (day - 1) : Nat)
    if 0 ≤ n then some (Calendar.ofDayNumber n.toNat) else none
  else none

/-- The date that is written. -/
def date? (s : List Char) : Option Calendar.Date := do
  let year ← Digit.asciiNumber? (s.take 4)
  match s.drop 4 with
  | ['-', 'W', a, b] => weekDate? year (← Digit.asciiNumber? [a, b]) 1
  | ['W', a, b] => weekDate? year (← Digit.asciiNumber? [a, b]) 1
  | ['-', 'W', a, b, '-', d] =>
    weekDate? year (← Digit.asciiNumber? [a, b]) (← Digit.asciiNumber? [d])
  | ['W', a, b, d] => weekDate? year (← Digit.asciiNumber? [a, b]) (← Digit.asciiNumber? [d])
  | ['-', a, b, '-', c, d] =>
    some ⟨year, ← Digit.asciiNumber? [a, b], ← Digit.asciiNumber? [c, d]⟩
  | [a, b, c, d] => some ⟨year, ← Digit.asciiNumber? [a, b], ← Digit.asciiNumber? [c, d]⟩
  | _ => none

/-! ## Times of day -/

/-- Fields of a time of day, and whether something is left behind them. -/
structure Fields where
  clock : DateTime.Clock
  left : Bool

/-- A fraction of a second: up to six digits count, further ones are dropped. Fewer than six digits
must be all there is. -/
def fraction? (s : List Char) : Option (Nat × List Char) := do
  let n := min 6 s.length
  let micro ← Digit.asciiNumber? (s.take n)
  some (micro * Nat.pow 10 (6 - n), (s.drop n).dropWhile isDigit)

/-- What follows the hours, minutes or seconds: nothing, a single ASCII character that stays unread,
a further field, or a fraction. -/
inductive Follow where
  | nothing
  | single
  | field (s : List Char)
  | part (s : List Char)

/-- What follows a field; `colons` tells whether fields are separated by colons. -/
def follow? (colons : Bool) : List Char → Option Follow
  | [] => some .nothing
  | [c] => if c.toNat < 128 then some .single else none
  | c :: s =>
    if colons && c == ':' then some (.field s)
    else if c = '.' ∨ c = ',' then some (.part s)
    else if !colons then some (.field (c :: s))
    else none

/-- Finish with a fraction. -/
def withFraction? (h m s : Nat) (rest : List Char) : Option Fields := do
  let (micro, r) ← fraction? rest
  some ⟨⟨h, m, s, micro⟩, !r.isEmpty⟩

/-- The fields of a time of day. -/
def clockFields? (t : List Char) : Option Fields := do
  let h ← if t.length < 2 then none else Digit.asciiNumber? (t.take 2)
  let t := t.drop 2
  let colons := t.head? == some ':'
  match ← follow? colons t with
  | .nothing => some ⟨⟨h, 0, 0, 0⟩, false⟩
  | .single => some ⟨⟨h, 0, 0, 0⟩, true⟩
  | .part t => withFraction? h 0 0 t
  | .field t =>
    let m ← if t.length < 2 then none else Digit.asciiNumber? (t.take 2)
    match ← follow? colons (t.drop 2) with
    | .nothing => some ⟨⟨h, m, 0, 0⟩, false⟩
    | .single => some ⟨⟨h, m, 0, 0⟩, true⟩
    | .part t => withFraction? h m 0 t
    | .field t =>
      let s ← if t.length < 2 then none else Digit.asciiNumber? (t.take 2)
      match ← follow? colons (t.drop 2) with
      | .nothing => some ⟨⟨h, m, s, 0⟩, false⟩
      | .single => some ⟨⟨h, m, s, 0⟩, true⟩
      | .part t => withFraction? h m s t
      | .field t => withFraction? h m s t

/-- Characters that start an offset. -/
def startsOffset (c : Char) : Bool :=
  c == '+' || c == '-' || c == 'Z'

/-- The offset that is written, in seconds; less than a day. -/
def offset? : List Char → Option Int
  | ['Z'] => some 0
  | sign :: t => do
    let f ← clockFields? t
    let n := (f.clock.hour * 60 + f.clock.minute) * 60 + f.clock.second
    if sign = 'Z' ∨ f.left ∨ f.clock.microsecond ≠ 0 ∨ n ≥ 86400 then none
    else some (if sign = '-' then -(n : Int) else n)
  | [] => none

/-- Time of day and offset that are written. In front of an offset the time of day may be followed
by characters that stay unread. -/
def clock? (t : List Char) : Option (DateTime.Clock × Option Int) := do
  let f ← clockFields? (t.takeWhile fun c => !startsOffset c)
  match t.dropWhile fun c => !startsOffset c with
  | [] => if f.left then none else some (f.clock, none)
  | z =>
    let o ← offset? z
    some (f.clock, some o)

/-- The reading of the clock that is written. -/
def read? (s : List Char) : Option DateTime := do
  let n := dateLength s
  let d ← date? (s.take n)
  if s.length ≤ n + 1 then DateTime.ofFields? d ⟨0, 0, 0, 0⟩ none
  else
    let (c, o) ← clock? (s.drop (n + 1))
    DateTime.ofFields? d c o

end Notation

end AcmeClient
