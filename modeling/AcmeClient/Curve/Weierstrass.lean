import AcmeClient.Arithmetic.Modular

/-!
# Elliptic curves in short Weierstrass form

The points of `y² = x³ + a x + b` modulo a prime, with a generator of prime order. Points are added
in Jacobian coordinates, in which `(x, y, z)` stands for `(x / z², y / z³)`.

* `Weierstrass`: the parameters of a curve;
* `Weierstrass.multiple`: a multiple of a point;
* `Weierstrass.combine`: the sum of two points.
-/

namespace AcmeClient

/-- The parameters of a curve. -/
structure Weierstrass where
  /-- The prime modulus. -/
  p : Nat
  a : Nat
  b : Nat
  /-- The coordinates of the generator. -/
  x : Nat
  y : Nat
  /-- The order of the generator. -/
  n : Nat
deriving DecidableEq, Inhabited

namespace Weierstrass

/-- A point in affine coordinates; `none` is the point at infinity. -/
abbrev Point := Option (Nat × Nat)

/-- A point in Jacobian coordinates; `z = 0` is the point at infinity. -/
structure Jacobian where
  x : Nat
  y : Nat
  z : Nat
deriving DecidableEq, Inhabited

/-- The point at infinity. -/
def zero : Jacobian :=
  ⟨1, 1, 0⟩

/-- The double of a point. -/
def double (c : Weierstrass) (s : Jacobian) : Jacobian :=
  let p := c.p
  if s.z = 0 ∨ s.y = 0 then zero
  else
    let yy := s.y * s.y % p
    let zz := s.z * s.z % p
    let k := 4 * s.x * yy % p
    let m := (3 * s.x * s.x + c.a * (zz * zz % p)) % p
    let x := Modular.sub p (m * m) (2 * k % p)
    let y := Modular.sub p (m * Modular.sub p k x) (8 * yy * yy % p)
    ⟨x, y, 2 * s.y * s.z % p⟩

/-- The sum of two points. -/
def add (c : Weierstrass) (s t : Jacobian) : Jacobian :=
  let p := c.p
  if s.z = 0 then t
  else if t.z = 0 then s
  else
    let ss := s.z * s.z % p
    let tt := t.z * t.z % p
    let u := s.x * tt % p
    let v := s.y * tt % p * t.z % p
    let h := Modular.sub p (t.x * ss) u
    let r := Modular.sub p (t.y * ss % p * s.z) v
    if h = 0 then
      if r = 0 then double c s else zero
    else
      let hh := h * h % p
      let hhh := hh * h % p
      let k := u * hh % p
      let x := Modular.sub p (r * r) ((hhh + 2 * k) % p)
      let y := Modular.sub p (r * Modular.sub p k x) (v * hhh % p)
      ⟨x, y, h * s.z % p * t.z % p⟩

/-- The `k`-fold of a point, by repeated doubling. -/
def multipleJacobian (c : Weierstrass) (k : Nat) (s : Jacobian) : Jacobian :=
  if _h : k = 0 then zero
  else
    let r := double c (multipleJacobian c (k / 2) s)
    if k % 2 = 1 then add c r s else r
termination_by k
decreasing_by omega

/-- Affine coordinates of a point. -/
def toPoint (c : Weierstrass) (s : Jacobian) : Point :=
  if s.z % c.p = 0 then none
  else
    let i := Modular.inverse c.p s.z
    let ii := i * i % c.p
    some (s.x * ii % c.p, s.y * (ii * i % c.p) % c.p)

/-- Jacobian coordinates of a point. -/
def ofPoint : Point → Jacobian
  | none => zero
  | some (x, y) => ⟨x, y, 1⟩

/-- The `k`-fold of a point. -/
def multiple (c : Weierstrass) (k : Nat) (s : Point) : Point :=
  toPoint c (multipleJacobian c k (ofPoint s))

/-- The sum of two points. -/
def combine (c : Weierstrass) (s t : Point) : Point :=
  toPoint c (add c (ofPoint s) (ofPoint t))

/-- The generator. -/
def generator (c : Weierstrass) : Point :=
  some (c.x, c.y)

end Weierstrass

end AcmeClient
