import Frontend.CommandLine.Run

/-!
# The program

Reads the source file from the disk and prints what the run leaves.
-/

namespace Frontend

/-- Why the system refused to read a file.  It gives the code of an error as itself or as its
negative. -/
def ReadError.ofSystem : IO.Error → ReadError
  | .noFileOrDirectory .. => .notFound
  | .inappropriateType _ code details =>
    match min code (0 - code) with
    | 20 => .notADirectory
    | 21 => .isADirectory
    | _ => .other details
  | error => .other (toString error)

/-- The content of a file on the disk. -/
def readFile (path : String) : IO (Except ReadError ByteArray) := do
  match ← (IO.FS.readBinFile path).toBaseIO with
  | .ok content => return .ok content
  | .error error => return .error (.ofSystem error)

end Frontend

/-- Runs the command line on files of the disk. -/
def main (args : List String) : IO UInt32 := do
  let transcript ← Frontend.CommandLine.run Frontend.Event.line Frontend.readFile args
  IO.print transcript.out
  IO.eprint transcript.err
  return transcript.exitCode.toUInt32
