/-!
# Arithmetic modulo a number

* `Modular.pow`: powers;
* `Modular.sub`: differences of reduced numbers;
* `Modular.inverse`: inverses modulo a prime;
* `Modular.isPrime`: the test of Miller and Rabin to a fixed list of bases.
-/

namespace AcmeClient

namespace Modular

/-- `b ^ e` modulo `m`, by repeated squaring. -/
def pow (b e m : Nat) : Nat :=
  if _h : e = 0 then 1 % m
  else
    let r := pow (b * b % m) (e / 2) m
    if e % 2 = 1 then b * r % m else r
termination_by e
decreasing_by omega

/-- `a - b` modulo `m`, for `b` below `m`. -/
def sub (m a b : Nat) : Nat :=
  (a + (m - b)) % m

/-- The inverse of `a` modulo the prime `p`. -/
def inverse (p a : Nat) : Nat :=
  pow a (p - 2) p

/-- `n` as `d * 2 ^ s` with odd `d`, for `n` of at most `k` bits. -/
def splitTwos : Nat → Nat → Nat × Nat
  | 0, n => (n, 0)
  | k + 1, n =>
    if n % 2 = 0 then
      let (d, s) := splitTwos k (n / 2)
      (d, s + 1)
    else (n, 0)

/-- Whether `x` or one of its next `s` squares is `n - 1`. -/
def reachesMinusOne (n : Nat) : Nat → Nat → Bool
  | 0, _ => false
  | s + 1, x => x == n - 1 || reachesMinusOne n s (x * x % n)

/-- The bases of the test for primes. -/
def bases : List Nat :=
  [2, 3, 5, 7, 11, 13, 17, 19, 23, 29, 31, 37]

/-- `n` passes the test for primes. -/
def isPrime (n : Nat) : Bool :=
  if n < 2 then false
  else if bases.contains n then true
  else if bases.any fun b => n % b == 0 then false
  else
    let (d, s) := splitTwos (Nat.log2 n + 1) (n - 1)
    bases.all fun b =>
      let x := pow b d n
      x == 1 || reachesMinusOne n s x

end Modular

end AcmeClient
