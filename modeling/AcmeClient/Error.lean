import AcmeClient.Value.Display

/-!
# Errors

An error is a cause: the authority's answer, a missing feature, a resource that could not be loaded,
or one of a few general kinds with a message. An error can have been raised because of another one.

* `Error`: the errors;
* `Error.message`: the wording;
* `Error.isOwn`: the errors by which the client reports a failure of the authority or of its data;
* `Error.isValue`, `Error.isUnusable`: groups of errors that are handled together.
-/

namespace AcmeClient

/-- The kinds of errors that carry nothing but a message. -/
inductive ErrorKind where
  /-- A failure that is not described further. -/
  | general
  /-- Data that cannot be decoded or encoded. -/
  | encoding
  /-- An answer that breaks the rules of the protocol. -/
  | protocol
  /-- A value that is not acceptable. -/
  | value
  /-- Octets that are not text. -/
  | undecodable
  /-- A name that is not present. -/
  | missingName
  /-- A value of the wrong kind. -/
  | wrongType
  /-- An operation that a value does not have. -/
  | noOperation
  /-- A position outside a sequence. -/
  | noPosition
  /-- A result beyond the representable range. -/
  | outOfRange
  /-- Nesting beyond the supported depth. -/
  | tooDeep
  /-- A failure of the operating system. -/
  | system
  /-- A file that does not exist. -/
  | noFile
  /-- A directory in place of a file. -/
  | directory
  /-- A file in place of a directory. -/
  | noDirectory
  /-- A version of the authority interface that does not exist. -/
  | noInterface
  /-- An operation that is left to more specific authorities. -/
  | abstractOperation
  /-- A settings file that cannot be read. -/
  | settings
  /-- A certificate of an unknown version. -/
  | certificateVersion
  /-- A cryptographic algorithm that is not available. -/
  | algorithm
deriving DecidableEq, Inhabited

/-- What went wrong. -/
inductive Error where
  /-- The authority rejected a request or could not be reached. -/
  | transport (message : String) (code : Value) (problem : Members)
  /-- The authority does not offer a resource. -/
  | unsupported (feature : String)
  /-- A resource could not be loaded when it was needed. -/
  | load (resource location : String) (cause : Error)
  /-- An error of a general kind. -/
  | plain (kind : ErrorKind) (message : String)
  /-- An error of a general kind that another one led to. -/
  | caused (kind : ErrorKind) (message : String) (cause : Error)
deriving Inhabited

/-- The kinds that report a failure of the authority or of its data. -/
def ErrorKind.isOwn : ErrorKind → Bool
  | general => true
  | encoding => true
  | protocol => true
  | _ => false

/-- The kinds that stand for an unacceptable value. -/
def ErrorKind.isValue : ErrorKind → Bool
  | value => true
  | undecodable => true
  | _ => false

namespace Error

/-- The wording of an error. The name that is missing is shown in quotes. -/
def message : Error → String
  | transport m _ _ => m
  | unsupported f => "Authority does not support " ++ f
  | load r l c => r ++ " " ++ l ++ ": " ++ c.message
  | plain k m => if k = .missingName then Quoted.text m else m
  | caused k m _ => if k = .missingName then Quoted.text m else m

/-- The general kind of an error, if it has one. -/
def kind? : Error → Option ErrorKind
  | plain k _ => some k
  | caused k _ _ => some k
  | _ => none

/-- The error reports a failure of the authority or of its data. -/
def isOwn (e : Error) : Bool :=
  match e.kind? with
  | some k => k.isOwn
  | none => true

/-- The error is about an unacceptable value. -/
def isValue (e : Error) : Bool :=
  match e.kind? with
  | some k => k.isValue
  | none => false

/-- The error arises when a document does not have the expected shape. -/
def isUnusable (e : Error) : Bool :=
  e.isValue || e.kind? == some .wrongType || e.kind? == some .missingName
    || e.kind? == some .noOperation

end Error

/-- Raise `kind` with `message` in place of an error that satisfies `p`, which becomes its cause. -/
def wrapWhen {α : Type} (p : Error → Bool) (kind : ErrorKind) (message : String)
    (r : Except Error α) : Except Error α :=
  match r with
  | .ok a => .ok a
  | .error e => if p e then .error (.caused kind message e) else .error e

end AcmeClient
