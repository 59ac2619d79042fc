import AcmeClient.Octets

/-!
# Keyed hashing

RFC 2104: a hash function is applied twice, each time behind a block derived from the key.

* `hmac`.
-/

namespace AcmeClient

/-- HMAC over the hash function `hash` with blocks of `size` octets. -/
def hmac (hash : Octets → Octets) (size : Nat) (key message : Octets) : Octets :=
  let short := if key.length > size then hash key else key
  let block := short ++ List.replicate (size - short.length) 0
  let mask := fun (x : UInt8) => block.map (x ^^^ ·)
  hash (mask 0x5c ++ hash (mask 0x36 ++ message))

end AcmeClient
