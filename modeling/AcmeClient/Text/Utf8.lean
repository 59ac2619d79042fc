import AcmeClient.Octets

/-!
# Decoding UTF-8

The decoder reads octet by octet and keeps what it expects next. An octet that does not fit ends the
pending character as a fault and is read again as a first octet, so every fault covers the longest
beginning of a character that is there.

* `Utf8.scan`: the characters and faults of an octet string;
* `Utf8.decode?`: the text, if there is no fault;
* `Utf8.decodeLossy`: the text with every fault shown as U+FFFD.
-/

namespace AcmeClient

namespace Utf8

/-- A character of which the first octets have been read. -/
structure Pending where
  /-- How many octets are still to come. -/
  missing : Nat
  /-- The least value of the next octet. -/
  low : Nat
  /-- The greatest value of the next octet. -/
  high : Nat
  /-- The bits read so far. -/
  bits : Nat

/-- What a first octet announces; `none` if no character starts with it. -/
def lead (x : Nat) : Option Pending :=
  if 0xc2 ≤ x ∧ x ≤ 0xdf then some ⟨1, 0x80, 0xbf, x % 32⟩
  else if x = 0xe0 then some ⟨2, 0xa0, 0xbf, 0⟩
  else if x = 0xed then some ⟨2, 0x80, 0x9f, 13⟩
  else if 0xe1 ≤ x ∧ x ≤ 0xef then some ⟨2, 0x80, 0xbf, x % 16⟩
  else if x = 0xf0 then some ⟨3, 0x90, 0xbf, 0⟩
  else if 0xf1 ≤ x ∧ x ≤ 0xf3 then some ⟨3, 0x80, 0xbf, x % 8⟩
  else if x = 0xf4 then some ⟨3, 0x80, 0x8f, 4⟩
  else none

/-- Read an octet at the start of a character: what is complete, and what is pending. -/
def start (x : Nat) : List (Option Char) × Option Pending :=
  if x < 0x80 then ([some (Char.ofNat x)], none)
  else
    match lead x with
    | none => ([none], none)
    | some p => ([], some p)

/-- Read an octet after a pending beginning. -/
def next (p : Pending) (x : Nat) : List (Option Char) × Option Pending :=
  if p.low ≤ x ∧ x ≤ p.high then
    let bits := p.bits * 64 + x % 64
    if p.missing ≤ 1 then ([some (Char.ofNat bits)], none)
    else ([], some ⟨p.missing - 1, 0x80, 0xbf, bits⟩)
  else
    let (out, q) := start x
    (none :: out, q)

/-- The characters of an octet string; `none` stands for a fault. -/
def scan : Option Pending → Octets → List (Option Char)
  | none, [] => []
  | some _, [] => [none]
  | none, x :: b =>
    let (out, q) := start x.toNat
    out ++ scan q b
  | some p, x :: b =>
    let (out, q) := next p x.toNat
    out ++ scan q b

/-- The text of an octet string that is UTF-8 throughout. -/
def decode? (b : Octets) : Option String :=
  ((scan none b).mapM id).map String.ofList

/-- The text of an octet string, with a replacement character for every fault. -/
def decodeLossy (b : Octets) : String :=
  String.ofList ((scan none b).map (·.getD (Char.ofNat 0xfffd)))

end Utf8

end AcmeClient
