import AcmeClient.Error
import AcmeClient.Time.MailDate

/-!
# When to ask again

The header `Retry-After` holds a delay in seconds or a date.

* `RetryAfter.parse`: the point in time that the header stands for.
-/

namespace AcmeClient

namespace RetryAfter

/-- The point in time a number of seconds after `now`. -/
def delayed (now : DateTime) (seconds : Nat) : Except Error DateTime :=
  match now.addMicroseconds? (seconds * 1000000) with
  | some t => .ok t
  | none => .error (.plain .outOfRange "delay too long")

/-- The greatest number of digits of a delay. -/
def maxDigits : Nat :=
  4300

/-- The point in time after a delay that is written in digits. -/
def delayText (now : DateTime) (s : List Char) : Except Error (Option DateTime) :=
  if s.length > maxDigits then .error (.plain .value "too many digits")
  else
    match Digit.number? s with
    | some n => (delayed now n).map some
    | none => .error (.plain .value "digits without value")

/-- The point in time of a date; nothing if it is none. -/
def dateText (s : List Char) : Except Error (Option DateTime) :=
  match MailDate.read s with
  | .time t => .ok (some ⟨t.ticks, some (t.offset.getD 0)⟩)
  | .unreadable => .ok none
  | .excessive => .error (.plain .outOfRange "date out of range")

/-- The point in time of a text; nothing if it is neither a delay nor a date. -/
def parseText (s : String) (now : DateTime) : Except Error (Option DateTime) :=
  let s := Text.trim s.toList
  if !s.isEmpty && s.all Digit.isDigit then delayText now s else dateText s

/-- The point in time of octets; nothing if they are no delay. -/
def parseOctets (b : Octets) (now : DateTime) : Except Error (Option DateTime) :=
  let s := Text.strip Char.isAsciiSpace (b.map fun x => Char.ofNat x.toNat)
  if !s.isEmpty && s.all fun c => (Digit.ascii? c).isSome then delayText now s else .ok none

/-- The point in time of a header value, if there is a header. -/
def parse (v : Value) (now : DateTime) : Except Error (Option DateTime) :=
  match v with
  | .null => .ok none
  | .text s => parseText s now
  | .bytes b => parseOctets b now
  | _ => .error (.plain .noOperation "not a text")

end RetryAfter

end AcmeClient
