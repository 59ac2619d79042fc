import AcmeClient.Text.Blank
import AcmeClient.Text.Digit

/-!
# Hosts of URLs

A host in brackets is an address of version 6 or of a future version. Characters that are equivalent
to a delimiter of URLs, or contain one, are not accepted in a host.

* `Host.isAddress`: addresses of version 6;
* `Host.isAuthority`: what may stand between `//` and the path.
-/

namespace AcmeClient

namespace Host

/-- Hexadecimal digits. -/
def isHex (c : Char) : Bool :=
  (Digit.hex? c).isSome

/-- A decimal number below 256 without leading zeros. -/
def isDecimalOctet (s : List Char) : Bool :=
  s.length ≤ 3 && !(s.length > 1 && s.head? == some '0')
    && match Digit.asciiNumber? s with
      | some n => n < 256
      | none => false

/-- An address of version 4. -/
def isOldAddress (s : List Char) : Bool :=
  let parts := Text.splitOn (· == '.') s
  parts.length == 4 && parts.all isDecimalOctet

/-- One to four hexadecimal digits. -/
def isGroup (s : List Char) : Bool :=
  !s.isEmpty && s.length ≤ 4 && s.all isHex

/-- The groups of an address; an address of version 4 at the end stands for two. -/
def groups? (s : List Char) : Option (List (List Char)) :=
  let parts := Text.splitOn (· == ':') s
  match parts.getLast? with
  | none => none
  | some last =>
    if parts.length < 3 then none
    else if last.contains '.' then
      if isOldAddress last then some (parts.dropLast ++ [['0'], ['0']]) else none
    else some parts

/-- Eight groups, or fewer with one gap that stands for at least one group. -/
def areGroups (parts : List (List Char)) : Bool :=
  let inner := (parts.drop 1).dropLast
  match inner.findIdx? (·.isEmpty) with
  | none => parts.length == 8 && parts.all isGroup
  | some i =>
    let before := parts.take (i + 1)
    let after := parts.drop (i + 2)
    let trim := fun (b : List (List Char)) (e : List Char) => if e.isEmpty then b.isEmpty else true
    let high := if before.head? == some [] then before.drop 1 else before
    let low := if after.getLast? == some [] then after.dropLast else after
    trim high (before.head?.getD []) && trim low (after.getLast?.getD [])
      && high.length + low.length < 8 && parts.length ≤ 9 && high.all isGroup && low.all isGroup

/-- An address of version 6, with an optional zone behind a percent sign. -/
def isAddress (s : List Char) : Bool :=
  let address := s.takeWhile (· ≠ '%')
  let zone := (s.dropWhile (· ≠ '%')).drop 1
  let zoneFine := !s.contains '%' || (!zone.isEmpty && !zone.contains '%')
  zoneFine && !s.contains '/'
    && match groups? address with
      | some parts => areGroups parts
      | none => false

/-- An address of a future version: its number, a point and any text in one line. -/
def isFutureAddress (s : List Char) : Bool :=
  match s with
  | 'v' :: r =>
    let rest := r.dropWhile isHex
    !(r.takeWhile isHex).isEmpty && rest.head? == some '.' && rest.length > 1
      && !(rest.drop 1).contains '\n'
  | _ => false

/-- What may stand in brackets. -/
def isBracketed (s : List Char) : Bool :=
  if s.head? = some 'v' then isFutureAddress s else isAddress s

/-- Characters that are equivalent to delimiters of URLs or contain one. -/
def lookalikes : List Nat := [
    0x2047, 0x2048, 0x2049, 0x2100, 0x2101, 0x2105, 0x2106, 0x2a74, 0xfe13,
    0xfe16, 0xfe55, 0xfe56, 0xfe5f, 0xfe6b, 0xff03, 0xff0f, 0xff1a, 0xff1f,
    0xff20]

/-- Brackets enclose the whole host and a known kind of address. -/
def hasFineBrackets (s : List Char) : Bool :=
  let host := Text.afterLast '@' s
  if host.contains '[' then
    let inner := (host.dropWhile (· ≠ '[')).drop 1
    let port := (inner.dropWhile (· ≠ ']')).drop 1
    host.head? == some '[' && (port.isEmpty || port.head? == some ':')
      && isBracketed (inner.takeWhile (· ≠ ']'))
  else isBracketed (host.takeWhile (· ≠ ':'))

/-- What may stand between `//` and the path. -/
def isAuthority (s : List Char) : Bool :=
  s.contains '[' == s.contains ']' && (!s.contains '[' || hasFineBrackets s)
    && !s.any fun c => lookalikes.contains c.toNat

end Host

end AcmeClient
