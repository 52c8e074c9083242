import Outline.Format

/-! # Sources and their errors

A source is a text, or bytes that should be one. What can go wrong on the way from a source to its
rendering is that it cannot be read, or that no format has the name asked for.
-/
namespace Outline
set_option autoImplicit false

inductive ReadError where
  | notFound
  | permissionDenied
  | notDirectory
  | isDirectory
  | nameTooLong
  | invalidText
  | system (message : String)
deriving DecidableEq, Repr

def ReadError.message : ReadError → String
  | .notFound => "No such file or directory (os error 2)"
  | .permissionDenied => "Permission denied (os error 13)"
  | .notDirectory => "Not a directory (os error 20)"
  | .isDirectory => "Is a directory (os error 21)"
  | .nameTooLong => "File name too long (os error 36)"
  | .invalidText => "stream did not contain valid UTF-8"
  | .system message => message

inductive SourceError where
  | unreadable (cause : ReadError)
  | unknownFormat (name : String)
deriving DecidableEq, Repr

def SourceError.message : SourceError → String
  | .unreadable cause => "IO error: " ++ cause.message
  | .unknownFormat name => "Format error: " ++ Format.unknownMessage name

namespace Source

/-- The text that the bytes of a source encode. -/
def ofBytes (bytes : Except ReadError ByteArray) : Except SourceError String :=
  match bytes with
  | .error cause => .error (.unreadable cause)
  | .ok bytes =>
    match String.fromUTF8? bytes with
    | some text => .ok text
    | none => .error (.unreadable .invalidText)

def format (name : String) : Except SourceError Format :=
  match Format.ofName? name with
  | some format => .ok format
  | none => .error (.unknownFormat name)

def render (source formatName : String) : Except SourceError String :=
  (format formatName).map (·.render (Document.parse source))

end Source
end Outline
