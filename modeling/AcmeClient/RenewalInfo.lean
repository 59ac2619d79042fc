import AcmeClient.Authority
import AcmeClient.RenewalInfo.Record

/-!
# Renewal information

The renewal information of a certificate is fetched when it is first needed and again on demand. A
new record replaces the old one as a whole; if it cannot be fetched the old one stays.

* `RenewalInfo`: where it is, and the record if there is one;
* `RenewalInfo.update`: fetch the record;
* `RenewalInfo.record`: the record, fetched if there is none;
* `RenewalInfo.start`, `finish`, `explanationUrl`, `retryAfter`: what the record says;
* `RenewalInfo.isNotRequired`, `isRecommended`, `isOverdue`: whether to renew at some time;
* `RenewalInfo.proposal`: a random time for the renewal.
-/

namespace AcmeClient

/-- Renewal information. -/
structure RenewalInfo where
  location : String
  record? : Option RenewalInfo.Record
deriving Inhabited

namespace RenewalInfo

variable {σ : Type}

/-- Renewal information that was not fetched yet. -/
def ofLocation (location : String) : RenewalInfo :=
  ⟨location, none⟩

/-- How renewal information appears in messages. -/
def text (i : RenewalInfo) : String :=
  "RenewalInfo(" ++ Quoted.text i.location ++ ")"

/-- Fetch the record at a location. -/
def fetch (A : Authority σ) (location : String) : Action σ Record := do
  let (document, headers) ← A.requestResource location
  let now ← A.clock
  Action.ofExcept (Record.read location document headers now)

/-- Fetch the record and keep it. -/
def update (A : Authority σ) : Action (RenewalInfo × σ) Record := do
  let (i, _) ← Action.get
  let r ← Action.onSecond (fetch A i.location)
  Action.modifyFirst fun i => { i with record? := some r }
  pure r

/-- The record, fetched if there is none. -/
def record (A : Authority σ) : Action (RenewalInfo × σ) Record := do
  match (← Action.get).1.record? with
  | some r => pure r
  | none => update A

/-- What the record says, fetched if there is none. -/
def entry {α : Type} (A : Authority σ) (f : Record → α) : Action (RenewalInfo × σ) α := do
  let r ← record A
  pure (f r)

/-- The start of the window. -/
def start (A : Authority σ) : Action (RenewalInfo × σ) DateTime :=
  entry A Record.start

/-- The end of the window. -/
def finish (A : Authority σ) : Action (RenewalInfo × σ) DateTime :=
  entry A Record.finish

/-- The address of a document that explains the window. -/
def explanationUrl (A : Authority σ) : Action (RenewalInfo × σ) Value :=
  entry A Record.explanationUrl

/-- When to ask again. -/
def retryAfter (A : Authority σ) : Action (RenewalInfo × σ) (Option DateTime) :=
  entry A Record.retryAfter

/-- A point in time on the UTC clock; nothing stands for now. -/
def utc (A : Authority σ) : Option DateTime → Action σ DateTime
  | none => A.clock
  | some t =>
    match t.toUtc? with
    | some u => pure u
    | none => Action.fail (.plain .outOfRange "instant out of range")

/-- Whether a decision about a record holds at some time. -/
def decision (A : Authority σ) (p : Record → DateTime → Bool) (time : Option DateTime) :
    Action (RenewalInfo × σ) Bool := do
  let t ← Action.onSecond (utc A time)
  let r ← record A
  pure (p r t)

/-- The window has not started. -/
def isNotRequired (A : Authority σ) : Option DateTime → Action (RenewalInfo × σ) Bool :=
  decision A Record.isEarly

/-- The window has started and is not over. -/
def isRecommended (A : Authority σ) : Option DateTime → Action (RenewalInfo × σ) Bool :=
  decision A Record.isOpen

/-- The window is over. -/
def isOverdue (A : Authority σ) : Option DateTime → Action (RenewalInfo × σ) Bool :=
  decision A Record.isOver

/-- A time for the renewal in what is left of the window, chosen by a random fraction. -/
def proposal (A : Authority σ) (frequency : Option Int) (now : Option DateTime)
    (fraction : Binary64) : Action (RenewalInfo × σ) (Option DateTime) := do
  let t ← Action.onSecond (utc A now)
  let r ← record A
  Action.ofExcept (r.proposal frequency t fraction)

end RenewalInfo

end AcmeClient
