import AcmeClient.Error
import AcmeClient.Text.Blank

/-!
# Log output

Messages for the user. Warnings and errors are marked and go to a channel of their own. An error can
be attached; its report is indented below the message as far as the mark is wide.

* `Log.Entry`: a message with its level;
* `Log.Entry.text`: what is written for it;
* `Error.report`: an error with everything that led to it, the first cause first.
-/

namespace AcmeClient

/-- The name of a kind in reports. -/
def ErrorKind.title : ErrorKind → String
  | general => "acertlib.tools.AcmeError"
  | encoding => "acertlib.tools.EncodingError"
  | protocol => "acertlib.tools.ProtocolError"
  | value => "ValueError"
  | undecodable => "UnicodeDecodeError"
  | missingName => "KeyError"
  | wrongType => "TypeError"
  | noOperation => "AttributeError"
  | noPosition => "IndexError"
  | outOfRange => "OverflowError"
  | tooDeep => "RecursionError"
  | system => "OSError"
  | noFile => "FileNotFoundError"
  | directory => "IsADirectoryError"
  | noDirectory => "NotADirectoryError"
  | noInterface => "ModuleNotFoundError"
  | abstractOperation => "NotImplementedError"
  | settings => "YAMLError"
  | certificateVersion => "InvalidVersion"
  | algorithm => "UnsupportedAlgorithm"

namespace Error

/-- The name of an error in reports. -/
def title : Error → String
  | transport _ _ _ => "acertlib.tools.TransportError"
  | unsupported _ => "acertlib.tools.UnsupportedError"
  | load _ _ _ => "acertlib.tools.LazyLoadError"
  | plain k _ => k.title
  | caused k _ _ => k.title

/-- The line for an error alone; an empty message is left out. -/
def line (e : Error) : String :=
  if e.message = "" then e.title ++ "\n" else e.title ++ ": " ++ e.message ++ "\n"

/-- The text between an error and the one it led to. -/
def link : String :=
  "\nThe above exception was the direct cause of the following exception:\n\n"

/-- The error and everything that led to it. -/
def report : Error → String
  | load r l c => c.report ++ link ++ line (load r l c)
  | caused k m c => c.report ++ link ++ line (caused k m c)
  | e => line e

end Error

namespace Log

/-- How serious a message is. -/
inductive Level where
  | info
  | warning
  | error
deriving DecidableEq, Inhabited

/-- The mark in front of a message. -/
def Level.mark : Level → String
  | info => ""
  | warning => "Warning: "
  | error => "Error: "

/-- A message to the user. -/
structure Entry where
  level : Level
  message : String
  /-- The error that the message is about. -/
  about : Option Error
deriving Inhabited

/-- What is written for a message. -/
def Entry.text (e : Entry) : String :=
  let head := e.level.mark ++ e.message
  match e.about with
  | none => head ++ "\n"
  | some x => head ++ "\n" ++ Text.indent e.level.mark.length x.report ++ "\n"

/-- A plain message. -/
def info (message : String) : Entry :=
  ⟨.info, message, none⟩

/-- A warning. -/
def warning (message : String) : Entry :=
  ⟨.warning, message, none⟩

end Log

/-- Messages in the order in which they were written. -/
abbrev Log := List Log.Entry

namespace Log

/-- The text of the messages of some levels. -/
def textOf (p : Level → Bool) (l : Log) : String :=
  String.join ((l.filter fun e => p e.level).map Entry.text)

/-- The text on the channel for plain messages. -/
def plainText (l : Log) : String :=
  textOf (· == .info) l

/-- The text on the channel for warnings and errors. -/
def alertText (l : Log) : String :=
  textOf (· != .info) l

end Log

end AcmeClient
