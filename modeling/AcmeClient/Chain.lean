import AcmeClient.Certificate
import AcmeClient.Text.Utf8

/-!
# Certificate chains

The authority sends a chain as PEM blocks, or one certificate as octets.

* `Chain.blocks`: the certificate blocks of a text, those without a hyphen between the lines;
* `Chain.parse`: the certificates of a response body.
-/

namespace AcmeClient

namespace Chain

/-- The line that begins a certificate. -/
def beginLine : List Char :=
  Pem.beginLine "CERTIFICATE".toList

/-- The line that ends a certificate. -/
def endLine : List Char :=
  Pem.endLine "CERTIFICATE".toList

/-- The certificate block a text starts with, and what follows it. -/
def block? (s : List Char) : Option (List Char × List Char) := do
  let r ← Text.after? beginLine s
  let body := r.takeWhile (· ≠ '-')
  if body.isEmpty then none
  else
    let r ← Text.after? endLine (r.dropWhile (· ≠ '-'))
    some (beginLine ++ body ++ endLine, r)

/-- The certificate blocks of a text, with at most `n` steps. -/
def blocksWithin : Nat → List Char → List (List Char)
  | 0, _ => []
  | _ + 1, [] => []
  | n + 1, c :: s =>
    match block? (c :: s) with
    | some (b, r) => b :: blocksWithin n r
    | none => blocksWithin n s

/-- The certificate blocks of a text. -/
def blocks (s : List Char) : List (List Char) :=
  blocksWithin s.length s

/-- The characters of octets, with those beyond ASCII replaced. -/
def asciiChars (b : Octets) : List Char :=
  b.map fun x => if x < 128 then Char.ofNat x.toNat else Char.ofNat 0xfffd

/-- The mark of a PEM text. -/
def marker : Octets :=
  Octets.ofString "-----BEGIN"

/-- The certificates of a response body, the certificate itself first. -/
def parse (b : Octets) : Except Error (List Certificate) :=
  if Octets.hasInfix marker b then
    let found := blocks (asciiChars b)
    if found.isEmpty then .error (.plain .encoding "No certificate found in PEM chain")
    else found.mapM Certificate.ofPem
  else if b.isEmpty then .error (.plain .encoding "Empty certificate chain")
  else (Certificate.ofDer b).map fun c => [c]

/-- The certificates of a response body that may be text or octets. -/
def parseBody : Value → Except Error (List Certificate)
  | .text s => parse (Octets.ofString s)
  | .bytes b => parse b
  | _ => .error (.plain .wrongType "no certificate chain")

end Chain

end AcmeClient
