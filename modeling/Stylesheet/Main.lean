import Stylesheet.CommandLine

/-!
# The program

Looks up on the disk what the arguments name, runs the command, and writes its output.
-/

namespace Stylesheet.CommandLine

/-- The number of an error of the operating system, which some calls give negated. -/
def errorNumber (code : UInt32) : UInt32 := min code (0 - code)

/-- What the operating system said. -/
def failure : IO.Error → IoError
  | .noFileOrDirectory .. => .notFound
  | .permissionDenied .. => .other "Permission denied (os error 13)"
  | .inappropriateType _ code details =>
    if errorNumber code = 20 then .notADirectory
    else if errorNumber code = 21 then .isADirectory
    else .other details
  | error => .other error.toString

/-- The disk as far as one path is concerned. Of a path that leads nowhere, the attempt to read it
tells more than the attempt to follow it. -/
def lookUp (file : String) : IO Disk := do
  let canonical ← (IO.FS.realPath file).toBaseIO
  let content ← (IO.FS.readBinFile file).toBaseIO
  return {
    canonicalize := fun _ => match canonical, content with
      | .ok path, _ => .ok (Text.Utf8.encode path.toString)
      | .error _, .error error | .error error, .ok _ => .error (failure error)
    read := fun _ => match content with
      | .ok bytes => .ok bytes.toList
      | .error error => .error (failure error) }

end Stylesheet.CommandLine

open Stylesheet in
def main (arguments : List String) : IO UInt32 := do
  let invocation := CommandLine.parse [] (arguments.map Text.Utf8.encode)
  let file := invocation.elim "" fun invocation => Text.Utf8.decodeLossy invocation.file
  let outcome := CommandLine.run arguments (← CommandLine.lookUp file)
  IO.eprint outcome.stderr
  IO.print outcome.stdout
  return outcome.code.toUInt32
