import AcmeClient.Error
import AcmeClient.Path
import AcmeClient.Text.Utf8

/-!
# Files

Files are octets under absolute paths. A directory is there if something is in it.

* `Files`: the files, and the current directory;
* `Files.node`: what a path leads to;
* `Files.read`: the text of a file.
-/

namespace AcmeClient

/-- The files, and the current directory. -/
structure Files where
  /-- The parts of the path of the current directory. -/
  here : List (List Char)
  /-- The parts of the path of each file, with its content. -/
  entries : List (List (List Char) × Octets)
deriving Inhabited

namespace Files

/-- What a path leads to. -/
inductive Node where
  | file (content : Octets)
  | directory
deriving DecidableEq, Inhabited

/-- Replace the content of a file, or add the file. -/
def put (path : List (List Char)) (content : Octets) :
    List (List (List Char) × Octets) → List (List (List Char) × Octets)
  | [] => [(path, content)]
  | (q, c) :: r => if q = path then (path, content) :: r else (q, c) :: put path content r

/-- Write a file of the current directory. -/
def write (name : List Char) (content : Octets) (f : Files) : Files :=
  { f with entries := put (f.here ++ Path.parts name) content f.entries }

/-- What there is under a path without `.` and `..`. -/
def find? (f : Files) (path : List (List Char)) : Option Node :=
  match f.entries.find? fun e => e.1 = path with
  | some (_, c) => some (.file c)
  | none =>
    if path.isPrefixOf f.here || f.entries.any fun e => path.isPrefixOf e.1 then some .directory
    else none

/-- The error for a path that leads to nothing. -/
def missing : Error :=
  .plain .noFile "no such file"

/-- What further parts of a path lead to; the parts so far are given last part first. -/
def walk (f : Files) (done : List (List Char)) : List (List Char) → Except Error Node
  | [] =>
    match f.find? done.reverse with
    | some n => .ok n
    | none => .error missing
  | p :: ps =>
    match f.find? done.reverse with
    | some .directory => walk f (Path.step done p) ps
    | some (.file _) => .error (.plain .noDirectory "not a directory")
    | none => .error missing

/-- The steps of a path; a slash at the end asks for a directory. -/
def steps (p : List Char) : List (List Char) :=
  (Text.splitOn (· == '/') p).filter (!·.isEmpty) ++ if p.getLast? = some '/' then [['.']] else []

/-- What a path leads to. -/
def node (f : Files) (path : List Char) : Except Error Node :=
  if path.contains '\x00' then .error (.plain .value "not a path")
  else if path.isEmpty then .error missing
  else walk f (if Path.isAbsolute path then [] else f.here.reverse) (steps path)

/-- The path leads to a file. -/
def isFile (f : Files) (path : List Char) : Bool :=
  match f.node path with
  | .ok (.file _) => true
  | _ => false

/-- Every end of a line as a line feed. -/
def unifyLines : List Char → List Char
  | [] => []
  | '\r' :: '\n' :: s => '\n' :: unifyLines s
  | c :: s => (if c = '\r' then '\n' else c) :: unifyLines s

/-- The text of octets. -/
def textOf (b : Octets) : Except Error String :=
  match Utf8.decode? b with
  | some s => .ok (String.ofList (unifyLines s.toList))
  | none => .error (.plain .undecodable "not a text")

/-- The text of a file. -/
def read (f : Files) (path : List Char) : Except Error String := do
  match ← f.node path with
  | .file b => textOf b
  | .directory => .error (.plain .directory "a directory")

/-- The text of the file that a value names. -/
def readValue (f : Files) : Value → Except Error String
  | .text p => f.read p.toList
  | .int _ => .error (.plain .system "not open")
  | .bool _ => .error (.plain .system "not open")
  | _ => .error (.plain .wrongType "not a path")

end Files

end AcmeClient
