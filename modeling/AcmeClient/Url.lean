import AcmeClient.Error
import AcmeClient.Path
import AcmeClient.Url.Host

/-!
# URLs

RFC 3986 with the restrictions of older practice: references are only resolved for schemes with
paths in the usual form.

* `Url`, `Url.split?`: the parts of a URL;
* `Url.text`: the URL with given parts;
* `Url.join`: a reference resolved against a base.
-/

namespace AcmeClient

/-- The parts of a URL. -/
structure Url where
  scheme : List Char
  /-- What stands between `//` and the path. -/
  authority : List Char
  path : List Char
  /-- The parameters of the last part of the path. -/
  params : List Char
  query : List Char
  fragment : List Char
deriving DecidableEq, Inhabited

namespace Url

/-- Characters of a scheme. -/
def isSchemeChar (c : Char) : Bool :=
  c.isAlphanum || c == '+' || c == '-' || c == '.'

/-- The schemes against which references are resolved. -/
def relativeSchemes : List (List Char) :=
  ["", "ftp", "http", "gopher", "nntp", "imap", "wais", "file", "https", "shttp", "mms", "prospero",
    "rtsp", "rtsps", "rtspu", "sftp", "svn", "svn+ssh", "ws", "wss"].map String.toList

/-- The schemes whose paths have parameters. -/
def paramSchemes : List (List Char) :=
  ["", "ftp", "hdl", "prospero", "http", "imap", "https", "shttp", "rtsp", "rtsps", "rtspu", "sip",
    "sips", "mms", "sftp", "tel"].map String.toList

/-- Without leading blanks and control characters, and without tabs and line ends. -/
def clean (s : List Char) : List Char :=
  (s.dropWhile fun c => c.toNat ≤ 0x20).filter fun c => c ≠ '\t' ∧ c ≠ '\n' ∧ c ≠ '\r'

/-- The scheme in lower case, if there is one, and the rest. -/
def splitScheme (fallback s : List Char) : List Char × List Char :=
  let (head, rest) := Text.splitAt ':' s
  if s.contains ':' && (head.head?.map Char.isAlpha).getD false && head.all isSchemeChar then
    (head.map Char.toLower, rest)
  else (fallback, s)

/-- The authority behind `//`, and the rest. -/
def splitAuthority (s : List Char) : List Char × List Char :=
  match s with
  | '/' :: '/' :: r =>
    let inside := fun (c : Char) => c ≠ '/' ∧ c ≠ '?' ∧ c ≠ '#'
    (r.takeWhile fun c => inside c, r.dropWhile fun c => inside c)
  | _ => ([], s)

/-- A path and the parameters of its last part. -/
def splitParams (s : List Char) : List Char × List Char :=
  let last := Text.afterLast '/' s
  if last.contains ';' then
    let (_, params) := Text.splitAt ';' last
    (s.take (s.length - params.length - 1), params)
  else (s, [])

/-- The parts of a URL, with a scheme to use if there is none. -/
def split? (fallback s : List Char) : Option Url :=
  let (scheme, s) := splitScheme fallback (clean s)
  let (authority, s) := splitAuthority s
  let (s, fragment) := Text.splitAt '#' s
  let (s, query) := Text.splitAt '?' s
  let (path, params) := if paramSchemes.contains scheme then splitParams s else (s, [])
  if Host.isAuthority authority then some ⟨scheme, authority, path, params, query, fragment⟩
  else none

/-- A text with a mark in front, nothing if it is empty. -/
def marked (c : Char) (s : List Char) : List Char :=
  if s.isEmpty then [] else c :: s

/-- The URL with given parts. -/
def text (u : Url) : List Char :=
  let path := u.path ++ marked ';' u.params
  let body :=
    if !u.authority.isEmpty || !u.scheme.isEmpty || "//".toList.isPrefixOf path then
      let path := if path.isEmpty || path.head? == some '/' then path else '/' :: path
      '/' :: '/' :: u.authority ++ path
    else path
  (if u.scheme.isEmpty then [] else u.scheme ++ [':']) ++ body ++ marked '?' u.query
    ++ marked '#' u.fragment

/-- The path with these parts, without `.` and `..`. -/
def resolve (parts : List (List Char)) : List Char :=
  let done := parts.foldl Path.step []
  let last := parts.getLast?
  let done := if last = some ['.'] ∨ last = some ['.', '.'] then [] :: done else done
  let path := Path.ofParts [] done.reverse
  if path.isEmpty then ['/'] else path

/-- Without the empty parts, other than the first and the last one. -/
def dropInnerEmpty (parts : List (List Char)) : List (List Char) :=
  match parts with
  | [] => []
  | p :: r =>
    match r.getLast? with
    | none => [p]
    | some l => p :: r.dropLast.filter (!·.isEmpty) ++ [l]

/-- The parts of a path without the last one, unless that is empty. -/
def directory (path : List Char) : List (List Char) :=
  let parts := Text.splitOn (· == '/') path
  if parts.getLast? = some [] then parts else parts.dropLast

/-- The path that a relative path leads to. -/
def joinPath (base path : List Char) : List Char :=
  let parts := Text.splitOn (· == '/') path
  if path.head? = some '/' then resolve parts
  else resolve (dropInnerEmpty (directory base ++ parts))

/-- The parts of a reference resolved against a base. -/
def joinParts (base ref : Url) : Url :=
  if !ref.authority.isEmpty then ref
  else if ref.path.isEmpty && ref.params.isEmpty then
    let query := if ref.query.isEmpty then base.query else ref.query
    ⟨ref.scheme, base.authority, base.path, base.params, query, ref.fragment⟩
  else
    ⟨ref.scheme, base.authority, joinPath base.path ref.path, ref.params, ref.query, ref.fragment⟩

/-- The error for a URL that cannot be read. -/
def malformed : Error :=
  .plain .value "malformed URL"

/-- A reference resolved against a base. -/
def join (base ref : List Char) : Except Error (List Char) :=
  if base.isEmpty then .ok ref
  else if ref.isEmpty then .ok base
  else
    match split? [] base with
    | none => .error malformed
    | some b =>
      match split? b.scheme ref with
      | none => .error malformed
      | some r =>
        if r.scheme ≠ b.scheme ∨ !relativeSchemes.contains r.scheme then .ok ref
        else .ok (joinParts b r).text

end Url

end AcmeClient
