import AcmeClient.Curve.Named

/-!
# Signatures on elliptic curves

FIPS 186: a signature is a pair of numbers below the order of the generator. The secret number of
each signature is derived from key and message as RFC 6979 says.

* `Ecdsa.sign`: the pair for a message;
* `Ecdsa.raw`: the pair as octets of fixed width;
* `Ecdsa.verify`: the test of a pair with the public point.
-/

namespace AcmeClient

namespace Ecdsa

/-- The leading bits of an octet string as a number with at most as many bits as the order. -/
def leadingBits (c : Curve) (b : Octets) : Nat :=
  b.toNat >>> (8 * b.length - c.orderBits)

/-- The number that stands for a message. -/
def messageNumber (c : Curve) (m : Octets) : Nat :=
  leadingBits c (c.digest m)

/-- A generator of secret numbers. -/
structure Source where
  key : Octets
  value : Octets

/-- Mix data into a generator, marked by an octet. -/
def Source.mix (c : Curve) (s : Source) (mark : UInt8) (extra : Octets) : Source :=
  let key := c.keyedHash s.key (s.value ++ mark :: extra)
  ⟨key, c.keyedHash key s.value⟩

/-- The generator for a key and a message. -/
def Source.start (c : Curve) (d : Nat) (m : Octets) : Source :=
  let w := c.digestWidth
  let seed := Octets.ofNatWidth c.width d
    ++ Octets.ofNatWidth c.width (messageNumber c m % c.parameters.n)
  let s : Source := ⟨List.replicate w 0, List.replicate w 1⟩
  (s.mix c 0 seed).mix c 1 seed

/-- `k` further values of a generator, each the hash of the one before. -/
def values (c : Curve) (key : Octets) : Nat → Octets → List Octets
  | 0, _ => []
  | k + 1, v =>
    let v := c.keyedHash key v
    v :: values c key k v

/-- The next number of a generator, and the generator after it. -/
def Source.next (c : Curve) (s : Source) : Nat × Source :=
  let vs := values c s.key ((c.width + c.digestWidth - 1) / c.digestWidth) s.value
  let s : Source := ⟨s.key, vs.getLastD s.value⟩
  (leadingBits c vs.flatten, s.mix c 0 [])

/-- The signature with a given secret number. -/
def signWith (c : Curve) (d z k : Nat) : Nat × Nat :=
  let w := c.parameters
  let r := (((w.multiple k w.generator).getD (0, 0)).1) % w.n
  (r, Modular.inverse w.n k * (z + r * d) % w.n)

/-- The first signature with two numbers other than zero that one of the next `k` numbers of a
generator gives. -/
def signFrom (c : Curve) (d z : Nat) : Nat → Source → Nat × Nat
  | 0, _ => signWith c d z 1
  | k + 1, s =>
    let (x, t) := s.next c
    if 0 < x ∧ x < c.parameters.n then
      let g := signWith c d z x
      if g.1 ≠ 0 ∧ g.2 ≠ 0 then g else signFrom c d z k t
    else signFrom c d z k t

/-- The signature of a message with the secret key `d`. -/
def sign (c : Curve) (d : Nat) (m : Octets) : Nat × Nat :=
  signFrom c d (messageNumber c m) 64 (Source.start c d m)

/-- A signature as octets: both numbers in the width of a coordinate. -/
def raw (c : Curve) (s : Nat × Nat) : Octets :=
  Octets.ofNatWidth c.width s.1 ++ Octets.ofNatWidth c.width s.2

/-- The two numbers of a signature of the right width. -/
def ofRaw? (c : Curve) (b : Octets) : Option (Nat × Nat) :=
  if b.length = 2 * c.width then
    some (Octets.toNat (b.take c.width), Octets.toNat (b.drop c.width))
  else none

/-- Test a signature with the public point. -/
def verify (c : Curve) (point : Nat × Nat) (m : Octets) (s : Nat × Nat) : Bool :=
  let w := c.parameters
  let i := Modular.inverse w.n s.2
  let u := w.multiple (messageNumber c m * i % w.n) w.generator
  let v := w.multiple (s.1 * i % w.n) (some point)
  0 < s.1 && s.1 < w.n && 0 < s.2 && s.2 < w.n
    && match w.combine u v with
      | none => false
      | some (x, _) => x % w.n == s.1

end Ecdsa

end AcmeClient
