import AcmeClient.Text.Split

/-!
# Blank characters

Sets of characters that separate words or lines in the formats of this library.

* `Char.isBlank`: Unicode white space and the four information separators;
* `Char.isSpace`, `Char.isAsciiSpace`: Unicode white space alone, and what ASCII has of it;
* `Char.endsLine`: characters after which a new line starts;
* `Text.trim`, `Text.words`, `Text.lines`, `Text.indent`.
-/

namespace AcmeClient

/-- White space in the Unicode sense. -/
def Char.isSpace (c : Char) : Bool :=
  let n := c.toNat
  (9 ≤ n && n ≤ 13) || n == 0x20 || n == 0x85 || n == 0xa0 || n == 0x1680
    || (0x2000 ≤ n && n ≤ 0x200a) || n == 0x2028 || n == 0x2029 || n == 0x202f || n == 0x205f
    || n == 0x3000

/-- White space or an information separator. -/
def Char.isBlank (c : Char) : Bool :=
  Char.isSpace c || (0x1c ≤ c.toNat && c.toNat ≤ 0x1f)

/-- White space among the ASCII characters. -/
def Char.isAsciiSpace (c : Char) : Bool :=
  (9 ≤ c.toNat && c.toNat ≤ 13) || c.toNat == 0x20

/-- The characters that end a line of plain text. -/
def Char.endsLine (c : Char) : Bool :=
  let n := c.toNat
  (10 ≤ n && n ≤ 13) || (0x1c ≤ n && n ≤ 0x1e) || n == 0x85 || n == 0x2028 || n == 0x2029

namespace Text

/-- Remove blanks at both ends. -/
def trim (s : List Char) : List Char :=
  strip Char.isBlank s

/-- The words of a text, separated by blanks. -/
def words (s : List Char) : List (List Char) :=
  fields Char.isBlank s

/-- The lines of a text without their ends. Carriage return and line feed together end one line; an
end after the last line starts no further one. -/
def lines : List Char → List (List Char)
  | [] => []
  | '\r' :: '\n' :: s => [] :: lines s
  | c :: s => if Char.endsLine c then [] :: lines s else consFirst c (lines s)

/-- Put `n` spaces in front of every line. -/
def indent (n : Nat) (s : String) : String :=
  "\n".intercalate ((lines s.toList).map fun l => String.ofList (List.replicate n ' ' ++ l))

end Text

end AcmeClient
