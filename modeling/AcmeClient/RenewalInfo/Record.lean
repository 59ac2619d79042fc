import AcmeClient.Headers
import AcmeClient.Time.RetryAfter
import AcmeClient.Time.Timestamp

/-!
# Renewal windows

RFC 9773: the authority suggests a window of time in which a certificate should be renewed.

* `RenewalInfo.Record`: a window with what was sent along with it;
* `RenewalInfo.Record.read`: the record in a document;
* `RenewalInfo.Record.isEarly`, `isOpen`, `isOver`: a point in time lies before, in or behind the
  window;
* `RenewalInfo.Record.proposal`: a random point in what is left of the window.
-/

namespace AcmeClient

namespace RenewalInfo

/-- A window with what was sent along with it. -/
structure Record where
  start : DateTime
  finish : DateTime
  /-- The address of a document that explains the window. -/
  explanationUrl : Value
  /-- When to ask again. -/
  retryAfter : Option DateTime
deriving Inhabited

namespace Record

/-- The member of a document. -/
def memberOf (name : String) : Value → Except Error Value
  | .object ms =>
    match Members.find? ms name with
    | some v => .ok v
    | none => .error (.plain .missingName name)
  | _ => .error (.plain .wrongType "no object")

/-- Start and end of the window in a document. -/
def window (document : Value) : Except Error (DateTime × DateTime) := do
  let w ← memberOf "suggestedWindow" document
  let start ← Timestamp.parse (← memberOf "start" w)
  let finish ← Timestamp.parse (← memberOf "end" w)
  .ok (start, finish)

/-- The error for a window whose end comes first. -/
def reversed (location : String) : Error :=
  .plain .protocol ("Suggested renewal window at " ++ location ++ " ends before it starts")

/-- The address of the explanation in a document. -/
def explanationOf : Value → Value
  | .object ms => Members.get ms "explanationURL"
  | _ => .null

/-- When to ask again, according to headers that arrive at the time `now`. -/
def retryOf (headers : Headers) (now : DateTime) : Except Error (Option DateTime) :=
  RetryAfter.parse (if headers.isPresent then headers.get "Retry-After" else .null) now

/-- The record in a document that arrives from a location at the time `now`. -/
def read (location : String) (document : Value) (headers : Headers) (now : DateTime) :
    Except Error Record := do
  let (start, finish) ← wrapWhen Error.isUnusable .protocol
    ("Invalid renewal information at " ++ location) (window document)
  if finish.instant < start.instant then .error (reversed location)
  else
    let retryAfter ← retryOf headers now
    .ok ⟨start, finish, explanationOf document, retryAfter⟩

/-! ## Decisions -/

/-- The window has not started. -/
def isEarly (r : Record) (t : DateTime) : Bool :=
  t.instant < r.start.instant

/-- The window has started and is not over. -/
def isOpen (r : Record) (t : DateTime) : Bool :=
  r.start.instant ≤ t.instant && t.instant < r.finish.instant

/-- The window is over. -/
def isOver (r : Record) (t : DateTime) : Bool :=
  r.finish.instant ≤ t.instant

/-! ## Proposals -/

/-- A span in microseconds as a number of seconds. -/
def secondsOf (span : Nat) : Binary64 :=
  Binary64.ofRatio false span 1000000

/-- The integer nearest to a number of microseconds, of which the whole ones are given apart; halves
go to the even neighbour. -/
def nearestMicrosecond (whole : Nat) : Binary64 → Option Nat
  | .finite _ m e =>
    let (a, b) := Binary64.ratio m e
    some (Binary64.divNearest ((whole + a / b) * b + a % b) b)
  | _ => none

/-- A number of seconds in whole microseconds. Whole seconds are exact, the fraction is multiplied
and rounded. -/
def microsecondsOf : Binary64 → Option Int
  | .finite s m e => do
    let (seconds, part) := Binary64.split m e
    let n ← nearestMicrosecond (seconds * 1000000) (part.mul (Binary64.ofInt 1000000))
    some (if s then -(n : Int) else n)
  | _ => none

/-- The point in time that divides the span after `t` as a fraction of it does. -/
def pointAfter (t : DateTime) (span : Nat) (fraction : Binary64) : Except Error DateTime :=
  match (microsecondsOf ((secondsOf span).mul fraction)).bind t.addMicroseconds? with
  | some u => .ok u
  | none => .error (.plain .outOfRange "point in time out of range")

/-- The later of two points in time. -/
def later (t u : DateTime) : DateTime :=
  if t.instant < u.instant then u else t

/-- The end of the time that is left if there is a check every `frequency` microseconds. -/
def lastCheck (r : Record) : Option Int → Except Error DateTime
  | none => .ok r.finish
  | some f =>
    match r.finish.addMicroseconds? (-f) with
    | some t => .ok t
    | none => .error (.plain .outOfRange "no point in time before the window")

/-- The point in what is left of the window after `now` that a fraction stands for; nothing if no
time is left. -/
def proposal (r : Record) (frequency : Option Int) (now : DateTime) (fraction : Binary64) :
    Except Error (Option DateTime) := do
  let low := later r.start now
  let high ← r.lastCheck frequency
  if high.instant ≤ low.instant then .ok none
  else
    let t ← pointAfter low (high.instant - low.instant).toNat fraction
    .ok (some t)

end Record

end RenewalInfo

end AcmeClient
