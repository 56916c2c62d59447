import PracticeGrammar.CommandLine.Check

/-! The checker as a program. It reads the file that its arguments name and tells what it found. -/

namespace PracticeGrammar.CommandLine

/-- The number of a system error, which may come with its sign turned. -/
def errorNumber (code : UInt32) : UInt32 := min code (0 - code)

/-- A failure of the system to read a file. -/
def ReadFailure.ofError (error : IO.Error) : ReadFailure :=
  match error with
  | .noFileOrDirectory _ _ _ => .notFound
  | .inappropriateType _ code _ => if errorNumber code = 20 then .notDirectory else .isDirectory
  | .invalidArgument _ code _ =>
    if errorNumber code = 36 then .nameTooLong else .other (toString error)
  | error => .other (toString error)

def readContents (path : String) : IO (Except ReadFailure ByteArray) := do
  try
    return .ok (← IO.FS.readBinFile path)
  catch error =>
    return .error (.ofError error)

end PracticeGrammar.CommandLine

open PracticeGrammar CommandLine

def main (arguments : List String) : IO UInt32 := do
  let filter := match ← IO.getEnv "RUST_LOG" with
    | some text => LogFilter.ofText text
    | none => .standard
  let contents ← match Options.ofArguments? arguments with
    | some options => readContents options.path
    | none => pure (.error .notFound)
  let response := respond arguments filter fun _ => contents
  (← IO.getStderr).putStr response.errors
  (← IO.getStdout).putStr response.output
  return response.code.toUInt32
