import AcmeClient.Error
import AcmeClient.Text.Blank
import AcmeClient.Time.Notation

/-!
# Timestamps

A timestamp is a written point in time with an optional fraction of a second of any length and an
optional offset; without offset it is read on the UTC clock.

* `Timestamp.split?`: the parts of a timestamp;
* `Timestamp.parse`: the point in time on the UTC clock.
-/

namespace AcmeClient

namespace Timestamp

/-- The parts of a timestamp. -/
structure Parts where
  /-- Date and time of day without the fraction. -/
  base : List Char
  /-- The digits of the fraction. -/
  digits : List Char
  /-- The offset, empty if there is none. -/
  zone : List Char
deriving DecidableEq, Inhabited

/-- A decimal digit of any script. -/
def isDecimal (c : Char) : Bool :=
  (Digit.value? c).isSome

/-- An offset: a letter for UTC, or a sign with hours and minutes. -/
def isZone : List Char → Bool
  | [c] => c == 'Z' || c == 'z'
  | [s, a, b, c, d] =>
    (s == '+' || s == '-') && isDecimal a && isDecimal b && isDecimal c && isDecimal d
  | [s, a, b, m, c, d] =>
    (s == '+' || s == '-') && isDecimal a && isDecimal b && m == ':' && isDecimal c && isDecimal d
  | _ => false

/-- The length of the longest offset at the end that leaves something in front of it. -/
def zoneLength (s : List Char) : Nat :=
  (([6, 5, 1] : List Nat).find? fun n => s.length > n && isZone (s.drop (s.length - n))).getD 0

/-- The parts of a timestamp. The base is not empty and has no point; the fraction is not empty. -/
def split? (s : List Char) : Option Parts :=
  let base := s.takeWhile (· ≠ '.')
  match s.dropWhile (· ≠ '.') with
  | [] =>
    if s.isEmpty then none
    else
      let n := s.length - zoneLength s
      some ⟨s.take n, [], s.drop n⟩
  | _ :: r =>
    let digits := r.takeWhile isDecimal
    let zone := r.dropWhile isDecimal
    if base.isEmpty ∨ digits.isEmpty ∨ (!zone.isEmpty ∧ !isZone zone) then none
    else some ⟨base, digits, zone⟩

/-- A fraction of exactly six digits. -/
def sixDigits (ds : List Char) : List Char :=
  ds.take 6 ++ List.replicate (6 - ds.length) '0'

/-- The timestamp with a fraction of six digits and an offset in numbers. -/
def Parts.normal (p : Parts) : List Char :=
  let zone := if p.zone = [] ∨ p.zone = ['Z'] ∨ p.zone = ['z'] then "+00:00".toList else p.zone
  p.base ++ (if p.digits.isEmpty then [] else '.' :: sixDigits p.digits) ++ zone

/-- The same instant on the UTC clock. A reading without offset is taken for UTC, unless it is on
the first day of the calendar. -/
def toUtc (t : DateTime) : Except Error DateTime :=
  match t.offset with
  | none =>
    if t.ticks < DateTime.dayTicks then .error (.plain .value "no day before this one")
    else .ok ⟨t.ticks, some 0⟩
  | some _ =>
    match t.toUtc? with
    | some u => .ok u
    | none => .error (.plain .outOfRange "instant out of range")

/-- The point in time of a timestamp, on the UTC clock. -/
def parseText (s : String) : Except Error DateTime :=
  match split? (Text.trim s.toList) with
  | none => .error (.plain .value ("Invalid timestamp: " ++ s))
  | some p =>
    match Notation.read? p.normal with
    | none => .error (.plain .value "no point in time")
    | some t => toUtc t

/-- The point in time of a value that should be a timestamp. -/
def parse : Value → Except Error DateTime
  | .text s => parseText s
  | .bytes _ => .error (.plain .wrongType "not a text")
  | _ => .error (.plain .noOperation "not a text")

end Timestamp

end AcmeClient
