import AcmeClient.Text.Printable
import AcmeClient.Octets

/-!
# Quoted text

A text in quotes shows every character: the quote and the backslash are escaped, and so are
characters without a visible form. A text that holds single quotes but no double quote is put in
double quotes, every other text in single quotes.

* `Quoted.text`: a text in quotes;
* `Quoted.bytes`: octets in quotes, marked by a leading `b`;
* `Quoted.hex`: a number in lower case hexadecimal digits of a least width.
-/

namespace AcmeClient

namespace Quoted

/-- A number in lower case hexadecimal digits, at least `w` of them. -/
def hex (w n : Nat) : List Char :=
  let ds := Nat.toDigits 16 n
  List.replicate (w - ds.length) '0' ++ ds

/-- The quote that a text is put in. -/
def quoteFor (s : List Char) : Char :=
  if s.contains '\x27' && !s.contains '"' then '"' else '\x27'

/-- The escape of a character that is shown by number. -/
def numbered (n : Nat) : List Char :=
  if n < 0x100 then '\\' :: 'x' :: hex 2 n
  else if n < 0x10000 then '\\' :: 'u' :: hex 4 n
  else '\\' :: 'U' :: hex 8 n

/-- How a character is shown between the quotes `q`. -/
def escape (hidden : Char → Bool) (q c : Char) : List Char :=
  if c = q ∨ c = '\\' then ['\\', c]
  else if c = '\t' then ['\\', 't']
  else if c = '\n' then ['\\', 'n']
  else if c = '\r' then ['\\', 'r']
  else if c.toNat < 0x20 ∨ c.toNat = 0x7f ∨ hidden c then numbered c.toNat
  else [c]

/-- A text in quotes. -/
def text (s : String) : String :=
  let q := quoteFor s.toList
  let hidden := fun (c : Char) => c.toNat ≥ 0x80 && Char.isHidden c
  String.ofList (q :: s.toList.flatMap (escape hidden q) ++ [q])

/-- Octets in quotes; those beyond ASCII are shown by number. -/
def bytes (b : Octets) : String :=
  let s := b.map fun x => Char.ofNat x.toNat
  let q := quoteFor s
  String.ofList ('b' :: q :: s.flatMap (escape (fun c => c.toNat ≥ 0x80) q) ++ [q])

end Quoted

end AcmeClient
