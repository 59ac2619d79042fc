import AcmeClient.Value
import AcmeClient.Text.Quoted

/-!
# Values in messages

How a value appears inside a message: texts as they are, everything within lists and objects in
quotes.

* `Value.display`: the text of a value;
* `Value.quoted`: the text of a value with texts in quotes;
* `Value.floatStyle`: how fractions are written.
-/

namespace AcmeClient

namespace Value

/-- Fractions have an exponent part of at least two digits from `10 ^ 16` on and below `10 ^ -4`. -/
def floatStyle : Binary64.Style where
  lowest := -4
  highest := 15
  exponentDigits := 2
  infinityName := "inf"
  nanName := "nan"

/-- A number with at least two digits. -/
def twoDigits (n : Nat) : String :=
  if n < 10 then "0" ++ toString n else toString n

/-- A fraction of a second in microseconds; nothing if there is none. -/
def displayFraction (micro : Nat) : String :=
  if micro = 0 then "" else "." ++ String.ofList ((Digit.text (1000000 + micro)).drop 1)

/-- An offset in microseconds. Seconds are left out if there are none. -/
def displayOffset (o : Int) : String :=
  let a := o.natAbs
  let seconds := a / 1000000
  (if o < 0 then "-" else "+") ++ twoDigits (seconds / 3600) ++ ":" ++ twoDigits (seconds / 60 % 60)
    ++ (if a % 60000000 = 0 then "" else
      ":" ++ twoDigits (seconds % 60) ++ displayFraction (a % 1000000))

/-- Date, time of day and offset, separated by a space and the sign of the offset. -/
def displayTime (t : DateTime) : String :=
  let d := t.date
  let c := t.clock
  let year := String.ofList (List.replicate (4 - (Digit.text d.year).length) '0' ++ Digit.text d.year)
  year ++ "-" ++ twoDigits d.month ++ "-" ++ twoDigits d.day ++ " " ++ twoDigits c.hour ++ ":"
    ++ twoDigits c.minute ++ ":" ++ twoDigits c.second ++ displayFraction c.microsecond
    ++ (t.offset.map displayOffset).getD ""

mutual

/-- The text of a value with texts in quotes. -/
def quoted : Value → String
  | null => "None"
  | bool b => if b then "True" else "False"
  | int n => toString n
  | float x => x.text floatStyle
  | text s => Quoted.text s
  | bytes b => Quoted.bytes b
  | time t => displayTime t
  | list xs => "[" ++ ", ".intercalate (quotedItems xs) ++ "]"
  | object ms => "\x7b" ++ ", ".intercalate (quotedMembers ms) ++ "\x7d"

/-- The texts of the items of a list. -/
def quotedItems : List Value → List String
  | [] => []
  | x :: xs => quoted x :: quotedItems xs

/-- The texts of the members of an object. -/
def quotedMembers : List (String × Value) → List String
  | [] => []
  | (k, v) :: ms => (Quoted.text k ++ ": " ++ quoted v) :: quotedMembers ms

end

/-- The text of a value. -/
def display : Value → String
  | text s => s
  | v => quoted v

end Value

end AcmeClient
