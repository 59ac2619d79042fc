import AcmeClient.Arithmetic.Modular
import AcmeClient.Octets

/-!
# Twisted Edwards curves

The points of `a x² + y² = 1 + d x² y²` modulo a prime, with one addition law for all pairs of
points. Points are added in projective coordinates and written as the second coordinate with the
lowest bit of the first one.

* `Edwards`: the parameters of a curve;
* `Edwards.multiple`: the written form of a multiple of the generator;
* `Edwards.curve25519`, `Edwards.curve448`.
-/

namespace AcmeClient

/-- The parameters of a curve. -/
structure Edwards where
  /-- The prime modulus. -/
  p : Nat
  a : Nat
  d : Nat
  /-- The coordinates of the generator. -/
  x : Nat
  y : Nat
  /-- The order of the generator. -/
  n : Nat
  /-- The number of octets of a written point. -/
  width : Nat

namespace Edwards

/-- A point in projective coordinates. -/
structure Point where
  x : Nat
  y : Nat
  z : Nat

/-- The neutral point. -/
def zero : Point :=
  ⟨0, 1, 1⟩

/-- The sum of two points. -/
def add (c : Edwards) (s t : Point) : Point :=
  let p := c.p
  let a := s.z * t.z % p
  let b := a * a % p
  let u := s.x * t.x % p
  let v := s.y * t.y % p
  let e := c.d * u % p * v % p
  let f := Modular.sub p b e
  let g := (b + e) % p
  let cross := Modular.sub p ((s.x + s.y) * (t.x + t.y)) ((u + v) % p)
  ⟨a * f % p * cross % p, a * g % p * Modular.sub p v (c.a * u % p) % p, f * g % p⟩

/-- The `k`-fold of a point, by repeated doubling. -/
def multiplePoint (c : Edwards) (k : Nat) (s : Point) : Point :=
  if _h : k = 0 then zero
  else
    let r := multiplePoint c (k / 2) s
    let r := add c r r
    if k % 2 = 1 then add c r s else r
termination_by k
decreasing_by omega

/-- The written form of a point. -/
def octets (c : Edwards) (s : Point) : Octets :=
  let i := Modular.inverse c.p s.z
  let x := s.x * i % c.p
  let y := s.y * i % c.p
  Octets.ofNatLittle c.width (y + x % 2 * (1 <<< (8 * c.width - 1)))

/-- The written form of a multiple of the generator. -/
def multiple (c : Edwards) (k : Nat) : Octets :=
  octets c (multiplePoint c k ⟨c.x, c.y, 1⟩)

/-- The curve modulo `2 ^ 255 - 19`. -/
def curve25519 : Edwards where
  p := 0x7fffffffffffffffffffffffffffffffffffffffffffffffffffffffffffffed
  a := 0x7fffffffffffffffffffffffffffffffffffffffffffffffffffffffffffffec
  d := 0x52036cee2b6ffe738cc740797779e89800700a4d4141d8ab75eb4dca135978a3
  x := 0x216936d3cd6e53fec0a4e231fdd6dc5c692cc7609525a7b2c9562d608f25d51a
  y := 0x6666666666666666666666666666666666666666666666666666666666666658
  n := 0x1000000000000000000000000000000014def9dea2f79cd65812631a5cf5d3ed
  width := 32

/-- The curve modulo `2 ^ 448 - 2 ^ 224 - 1`. -/
def curve448 : Edwards where
  p := 0xfffffffffffffffffffffffffffffffffffffffffffffffffffffffeffffffffffffffffffffffffffffffffffffffffffffffffffffffff
  a := 1
  d := 0xfffffffffffffffffffffffffffffffffffffffffffffffffffffffeffffffffffffffffffffffffffffffffffffffffffffffffffff6756
  x := 0x4f1970c66bed0ded221d15a622bf36da9e146570470f1767ea6de324a3d3a46412ae1af72ab66511433b80e18b00938e2626a82bc70cc05e
  y := 0x693f46716eb6bc248876203756c9c7624bea73736ca3984087789c1e05a0c2d73ad3ff1ce67c39c4fdbd132c4ed7c8ad9808795bf230fa14
  n := 0x3fffffffffffffffffffffffffffffffffffffffffffffffffffffff7cca23e9c44edb49aed63690216cc2728dc58f552378c292ab5844f3
  width := 57

end Edwards

end AcmeClient
