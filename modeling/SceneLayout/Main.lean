import SceneLayout.CommandLine.Run

/-!
# The program

Runs on the files and streams of the system.
-/

open SceneLayout SceneLayout.CommandLine

namespace SceneLayout.CommandLine

/-- The error that a system gives by its number, which may come with the sign changed. -/
def FileError.ofCode (code : UInt32) (details : String) : FileError :=
  match code.toInt32.toInt.natAbs with
  | 2 => .notFound
  | 20 => .notDirectory
  | 21 => .isDirectory
  | 36 => .nameTooLong
  | number => .other number details.capitalize

/-- The cause of a system error. -/
def FileError.ofSystem : IO.Error → FileError
  | .noFileOrDirectory .. => .notFound
  | .inappropriateType _ code details => ofCode code details
  | .invalidArgument _ code details => ofCode code details
  | .permissionDenied _ code details => ofCode code details
  | .otherError code details => ofCode code details
  | error => .other 5 (toString error)

/-- Reading and writing the files of the system. -/
def systemAccess : FileAccess IO where
  standardInput := do (← IO.getStdin).readToEnd
  read path := do
    if path.contains '\x00' then return .error .nullCharacter
    match ← (IO.FS.readFile path).toBaseIO with
    | .ok text => return .ok text
    | .error error => return .error (.ofSystem error)
  write path text := do
    if path.contains '\x00' then return .error .nullCharacter
    match ← (IO.FS.writeFile path text).toBaseIO with
    | .ok () => return .ok ()
    | .error error => return .error (.ofSystem error)

/-- Prints a text; control sequences are for terminals only. -/
def printOn (stream : IO.FS.Stream) (text : String) : IO Unit := do
  stream.putStr (if ← stream.isTty then text else withoutControlSequences text)
  stream.flush

end SceneLayout.CommandLine

/-- Runs the program and ends with its code. -/
def main (arguments : List String) : IO UInt32 := do
  let outcome ← run systemAccess arguments
  printOn (← IO.getStderr) outcome.errors
  printOn (← IO.getStdout) outcome.output
  return UInt32.ofNat outcome.code
