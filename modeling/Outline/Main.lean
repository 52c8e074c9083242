import Outline.CommandLine

/-! # The program

Reads what the plan of the arguments asks for and prints the outcome.
-/
namespace Outline.CommandLine
set_option autoImplicit false

/-- The system reports some error numbers with their sign turned. -/
def readErrorOf : IO.Error → ReadError
  | .noFileOrDirectory .. => .notFound
  | .permissionDenied .. => .permissionDenied
  | .inappropriateType _ code message =>
    if code = 20 ∨ code = -20 then .notDirectory
    else if code = 21 ∨ code = -21 then .isDirectory
    else .system message
  | .invalidArgument _ code message =>
    if code = 36 ∨ code = -36 then .nameTooLong else .system message
  | error => .system (toString error)

def readAll (stream : IO.FS.Stream) : IO ByteArray := do
  let mut bytes := ByteArray.empty
  repeat
    let chunk ← stream.read 65536
    if chunk.isEmpty then break
    bytes := bytes ++ chunk
  return bytes

def readInput : Input → IO (Except ReadError ByteArray)
  | .standardInput => do return .ok (← readAll (← IO.getStdin))
  | .file path => do
    try return .ok (← IO.FS.readBinFile path)
    catch error => return .error (readErrorOf error)

def run (arguments : List String) : IO Outcome :=
  match plan arguments with
  | .answer outcome => return outcome
  | .read input respond => do return respond (← readInput input)

end Outline.CommandLine

def main (arguments : List String) : IO UInt32 := do
  let outcome ← Outline.CommandLine.run arguments
  IO.print outcome.stdout
  IO.eprint outcome.stderr
  return outcome.code.toUInt32
