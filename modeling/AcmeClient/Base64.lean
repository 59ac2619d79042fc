import AcmeClient.Octets

/-!
# Base64

Three octets become four letters of six bits each. The standard alphabet is used with padding, the
URL alphabet without.

* `Base64.encode`: standard alphabet, padded with `=` to a multiple of four letters;
* `Base64.decode?`: the strict inverse: padding is required and unused bits are zero;
* `Base64.decodeLenient?`: the octets of texts that are not written so carefully;
* `Base64.encodeUrl`, `Base64.decodeUrl?`: the URL and file name alphabet without padding.
-/

namespace AcmeClient

namespace Base64

/-- The letters for the values 0 to 61, which both alphabets share. -/
def sharedLetter (v : Nat) : Char :=
  if v < 26 then Char.ofNat (65 + v)
  else if v < 52 then Char.ofNat (71 + v)
  else Char.ofNat (v - 4)

/-- The letter for a value below 64 in the standard alphabet. -/
def letter (v : Nat) : Char :=
  if v = 62 then '+' else if v = 63 then '/' else sharedLetter v

/-- The letter for a value below 64 in the URL alphabet. -/
def urlLetter (v : Nat) : Char :=
  if v = 62 then '-' else if v = 63 then '_' else sharedLetter v

/-- The value of a letter that both alphabets share. -/
def sharedValue? (c : Char) : Option Nat :=
  if 'A' ≤ c ∧ c ≤ 'Z' then some (c.toNat - 65)
  else if 'a' ≤ c ∧ c ≤ 'z' then some (c.toNat - 71)
  else if '0' ≤ c ∧ c ≤ '9' then some (c.toNat + 4)
  else none

/-- The value of a letter of the standard alphabet. -/
def value? (c : Char) : Option Nat :=
  if c = '+' then some 62 else if c = '/' then some 63 else sharedValue? c

/-- The value of a letter of the URL alphabet. -/
def urlValue? (c : Char) : Option Nat :=
  if c = '-' then some 62 else if c = '_' then some 63 else sharedValue? c

/-- The six-bit values of an octet string; the last one is filled up with zero bits. -/
def sextets : Octets → List Nat
  | [] => []
  | [a] => [a.toNat / 4, a.toNat % 4 * 16]
  | [a, b] => [a.toNat / 4, a.toNat % 4 * 16 + b.toNat / 16, b.toNat % 16 * 4]
  | a :: b :: c :: r =>
    a.toNat / 4 :: (a.toNat % 4 * 16 + b.toNat / 16) :: (b.toNat % 16 * 4 + c.toNat / 64)
      :: c.toNat % 64 :: sextets r

/-- The octets of a list of six-bit values; fails if one value is left over or unused bits are
set. -/
def ofSextets? : List Nat → Option Octets
  | [] => some []
  | [_] => none
  | [a, b] => if b % 16 = 0 then some [UInt8.ofNat (a * 4 + b / 16)] else none
  | [a, b, c] =>
    if c % 4 = 0 then some [UInt8.ofNat (a * 4 + b / 16), UInt8.ofNat (b % 16 * 16 + c / 4)]
    else none
  | a :: b :: c :: d :: r =>
    (ofSextets? r).map fun t =>
      UInt8.ofNat (a * 4 + b / 16) :: UInt8.ofNat (b % 16 * 16 + c / 4)
        :: UInt8.ofNat (c % 4 * 64 + d) :: t

/-- The number of padding characters after the letters of `n` octets. -/
def padding (n : Nat) : Nat :=
  (3 - n % 3) % 3

/-- The padded text in the standard alphabet. -/
def encode (b : Octets) : List Char :=
  (sextets b).map letter ++ List.replicate (padding b.length) '='

/-- Strict inverse of `encode`: it accepts exactly the texts that `encode` writes. -/
def decode? (s : List Char) : Option Octets := do
  let letters := s.takeWhile (· ≠ '=')
  let rest := s.dropWhile (· ≠ '=')
  let b ← ofSextets? (← letters.mapM value?)
  if rest = List.replicate (padding b.length) '=' then some b else none

/-! ## Lenient reading -/

/-- The values of the letters up to the padding, with `group` letters of a group of four in front
and `pads` padding characters behind them. Other characters are skipped; without padding the last
group has to be complete. -/
def lenientSextets? (group pads : Nat) : List Char → Option (List Nat)
  | [] => if group = 0 then some [] else none
  | c :: s =>
    if c = '=' then
      if group < 2 then lenientSextets? group pads s
      else if group + pads + 1 ≥ 4 then some []
      else lenientSextets? group (pads + 1) s
    else
      match value? c with
      | some v => (lenientSextets? ((group + 1) % 4) 0 s).map (v :: ·)
      | none => lenientSextets? group pads s

/-- The whole octets of a list of six-bit values. -/
def wholeOctets : List Nat → Octets
  | a :: b :: c :: d :: r =>
    UInt8.ofNat (a * 4 + b / 16) :: UInt8.ofNat (b % 16 * 16 + c / 4) :: UInt8.ofNat (c % 4 * 64 + d)
      :: wholeOctets r
  | [a, b, c] => [UInt8.ofNat (a * 4 + b / 16), UInt8.ofNat (b % 16 * 16 + c / 4)]
  | [a, b] => [UInt8.ofNat (a * 4 + b / 16)]
  | _ => []

/-- The octets of a text that may hold other characters, surplus padding and set unused bits. -/
def decodeLenient? (s : List Char) : Option Octets :=
  (lenientSextets? 0 0 s).map wholeOctets

/-! ## The URL alphabet -/

/-- The text in the URL alphabet, without padding. -/
def encodeUrl (b : Octets) : String :=
  String.ofList ((sextets b).map urlLetter)

/-- Strict inverse of `encodeUrl`. -/
def decodeUrl? (s : String) : Option Octets := do
  ofSextets? (← s.toList.mapM urlValue?)

end Base64

end AcmeClient
