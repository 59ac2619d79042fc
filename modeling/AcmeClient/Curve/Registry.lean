import AcmeClient.Curve.Named

/-!
# Curves by object identifier

Keys on further curves can be read, though not used.

* `Curve.find?`: the parameters of a curve, and the curve itself if signatures can be made on it.
-/

namespace AcmeClient

/-- The curve over 256 bits with coefficients 0 and 7. -/
def Weierstrass.k256 : Weierstrass where
  p := 0xfffffffffffffffffffffffffffffffffffffffffffffffffffffffefffffc2f
  a := 0x0
  b := 0x7
  x := 0x79be667ef9dcbbac55a06295ce870b07029bfcdb2dce28d959f2815b16f81798
  y := 0x483ada7726a3c4655da4fbfc0e1108a8fd17b448a68554199c47d08ffb10d4b8
  n := 0xfffffffffffffffffffffffffffffffebaaedce6af48a03bbfd25e8cd0364141

/-- The curve over 224 bits. -/
def Weierstrass.p224 : Weierstrass where
  p := 0xffffffffffffffffffffffffffffffff000000000000000000000001
  a := 0xfffffffffffffffffffffffffffffffefffffffffffffffffffffffe
  b := 0xb4050a850c04b3abf54132565044b0b7d7bfd8ba270b39432355ffb4
  x := 0xb70e0cbd6bb4bf7f321390b94a03c1d356c21122343280d6115c1d21
  y := 0xbd376388b5f723fb4c22dfe6cd4375a05a07476444d5819985007e34
  n := 0xffffffffffffffffffffffffffff16a2e0b8f03e13dd29455c5c2a3d

/-- The curve over 192 bits. -/
def Weierstrass.p192 : Weierstrass where
  p := 0xfffffffffffffffffffffffffffffffeffffffffffffffff
  a := 0xfffffffffffffffffffffffffffffffefffffffffffffffc
  b := 0x64210519e59c80e70fa7e9ab72243049feb8deecc146b9b1
  x := 0x188da80eb03090f67cbf20eb43a18800f4ff0afd82ff1012
  y := 0x7192b95ffc8da78631011ed6b24cdd573f977a11e794811
  n := 0xffffffffffffffffffffffff99def836146bc9b1b4d22831

/-- The verifiably random curve over 256 bits. -/
def Weierstrass.random256 : Weierstrass where
  p := 0xa9fb57dba1eea9bc3e660a909d838d726e3bf623d52620282013481d1f6e5377
  a := 0x7d5a0975fc2c3057eef67530417affe7fb8055c126dc5c6ce94a4b44f330b5d9
  b := 0x26dc5c6ce94a4b44f330b5d9bbd77cbf958416295cf7e1ce6bccdc18ff8c07b6
  x := 0x8bd2aeb9cb7e57cb2c4b482ffc81b7afb9de27e1e3bd23c23a4453bd9ace3262
  y := 0x547ef835c3dac4fd97f8461a14611dc9c27745132ded8e545c1d54c72f046997
  n := 0xa9fb57dba1eea9bc3e660a909d838d718c397aa3b561a6f7901e0e82974856a7

/-- The verifiably random curve over 384 bits. -/
def Weierstrass.random384 : Weierstrass where
  p := 0x8cb91e82a3386d280f5d6f7e50e641df152f7109ed5456b412b1da197fb71123acd3a729901d1a71874700133107ec53
  a := 0x7bc382c63d8c150c3c72080ace05afa0c2bea28e4fb22787139165efba91f90f8aa5814a503ad4eb04a8c7dd22ce2826
  b := 0x4a8c7dd22ce28268b39b55416f0447c2fb77de107dcd2a62e880ea53eeb62d57cb4390295dbc9943ab78696fa504c11
  x := 0x1d1c64f068cf45ffa2a63a81b7c13f6b8847a3e77ef14fe3db7fcafe0cbd10e8e826e03436d646aaef87b2e247d4af1e
  y := 0x8abe1d7520f9c2a45cb1eb8e95cfd55262b70b29feec5864e19c054ff99129280e4646217791811142820341263c5315
  n := 0x8cb91e82a3386d280f5d6f7e50e641df152f7109ed5456b31f166e6cac0425a7cf3ab6af6b7fc3103b883202e9046565

/-- The verifiably random curve over 512 bits. -/
def Weierstrass.random512 : Weierstrass where
  p := 0xaadd9db8dbe9c48b3fd4e6ae33c9fc07cb308db3b3c9d20ed6639cca703308717d4d9b009bc66842aecda12ae6a380e62881ff2f2d82c68528aa6056583a48f3
  a := 0x7830a3318b603b89e2327145ac234cc594cbdd8d3df91610a83441caea9863bc2ded5d5aa8253aa10a2ef1c98b9ac8b57f1117a72bf2c7b9e7c1ac4d77fc94ca
  b := 0x3df91610a83441caea9863bc2ded5d5aa8253aa10a2ef1c98b9ac8b57f1117a72bf2c7b9e7c1ac4d77fc94cadc083e67984050b75ebae5dd2809bd638016f723
  x := 0x81aee4bdd82ed9645a21322e9c4c6a9385ed9f70b5d916c1b43b62eef4d0098eff3b1f78e2d0d48d50d1687b93b97d5f7c6d5047406a5e688b352209bcb9f822
  y := 0x7dde385d566332ecc0eabfa9cf7822fdf209f70024a57b1aa000c55b881f8111b2dcde494a5f485e5bca4bd88a2763aed1ca2b2fa8f0540678cd1e0f3ad80892
  n := 0xaadd9db8dbe9c48b3fd4e6ae33c9fc07cb308db3b3c9d20ed6639cca70330870553e5c414ca92619418661197fac10471db1d381085ddaddb58796829ca90069

namespace Curve

/-- A curve that keys can be on. -/
structure Entry where
  parameters : Weierstrass
  /-- The curve, if signatures can be made on it. -/
  usable : Option Curve

/-- The curves by their object identifiers. -/
def entries : List (Octets × Entry) := [
  ([0x2a, 0x86, 0x48, 0xce, 0x3d, 0x03, 0x01, 0x07], ⟨.p256, some p256⟩),
  ([0x2b, 0x81, 0x04, 0x00, 0x22], ⟨.p384, some p384⟩),
  ([0x2b, 0x81, 0x04, 0x00, 0x23], ⟨.p521, some p521⟩),
  ([0x2b, 0x81, 0x04, 0x00, 0x0a], ⟨.k256, none⟩),
  ([0x2b, 0x81, 0x04, 0x00, 0x21], ⟨.p224, none⟩),
  ([0x2a, 0x86, 0x48, 0xce, 0x3d, 0x03, 0x01, 0x01], ⟨.p192, none⟩),
  ([0x2b, 0x24, 0x03, 0x03, 0x02, 0x08, 0x01, 0x01, 0x07], ⟨.random256, none⟩),
  ([0x2b, 0x24, 0x03, 0x03, 0x02, 0x08, 0x01, 0x01, 0x0b], ⟨.random384, none⟩),
  ([0x2b, 0x24, 0x03, 0x03, 0x02, 0x08, 0x01, 0x01, 0x0d], ⟨.random512, none⟩)]

/-- The curve with an object identifier. -/
def find? (id : Octets) : Option Entry :=
  (entries.find? fun e => e.1 = id).map (·.2)

end Curve

end AcmeClient
