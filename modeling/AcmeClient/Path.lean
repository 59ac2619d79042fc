import AcmeClient.Text.Blank

/-!
# Paths of files

Paths are texts whose parts are divided by slashes. A path that starts with a slash is absolute.

* `Path.join`: a path within a directory;
* `Path.absolute`: the absolute path, without empty parts, `.` and `..`;
* `Path.parent`: the directory that an absolute path lies in.
-/

namespace AcmeClient

namespace Path

/-- The path starts at the root. -/
def isAbsolute (p : List Char) : Bool :=
  p.head? == some '/'

/-- The path `p` within a directory. -/
def join (directory p : List Char) : List Char :=
  if isAbsolute p || directory.isEmpty then p
  else if directory.getLast? = some '/' then directory ++ p
  else directory ++ '/' :: p

/-- The parts of a path that are neither empty nor `.`. -/
def parts (p : List Char) : List (List Char) :=
  (Text.splitOn (· == '/') p).filter fun s => !s.isEmpty && s ≠ ['.']

/-- Go one step down, or up for `..`; the parts so far are given last part first. -/
def step (done : List (List Char)) (part : List Char) : List (List Char) :=
  if part = ['.', '.'] then done.drop 1
  else if part = ['.'] then done
  else part :: done

/-- The path with given parts behind a root. -/
def ofParts (root : List Char) (ps : List (List Char)) : List Char :=
  root ++ (['/'] : List Char).intercalate ps

/-- The root of an absolute path; two slashes in front are kept if there are exactly two. -/
def root (p : List Char) : List Char :=
  match p with
  | ['/', '/'] => ['/', '/']
  | '/' :: '/' :: c :: _ => if c = '/' then ['/'] else ['/', '/']
  | _ => ['/']

/-- The absolute path that a path leads to from the directory `here`. -/
def absolute (here p : List Char) : List Char :=
  let p := join here p
  ofParts (root p) ((parts p).foldl step []).reverse

/-- The part of a path up to its last slash, without slashes at the end unless it is a root. -/
def parent (p : List Char) : List Char :=
  let head := (p.reverse.dropWhile (· ≠ '/')).reverse
  if head.all (· == '/') then head
  else (head.reverse.dropWhile (· == '/')).reverse

end Path

end AcmeClient
