import AccelProfile.CommandLine.Replay
/-!
# The program

The outer layer of the command: it looks at the files that the command names, runs the
command on what it sees, prints what the command prints and writes the files it asks for.
A file that cannot be written is passed over, and so is what is printed before the files.
-/

namespace AccelProfile.CommandLine

/-- The short usage of the command. -/
def usage : String :=
  "Usage: replay [OPTIONS] --trace <TRACE>"

/-- The number of an error of the system, which some calls report with its sign turned. -/
def errorNumber (code : UInt32) : UInt32 :=
  min code (-code)

/-- What an error of the system says about a path. -/
def faultOf (error : IO.Error) : FileFault :=
  match error with
  | .noFileOrDirectory .. => .notFound
  | .inappropriateType _ code _ | .invalidArgument _ code _ | .otherError code _ =>
    match errorNumber code with
    | 20 => .notDirectory
    | 21 => .isDirectory
    | 36 => .nameTooLong
    | _ => .refused (toString error)
  | _ => .refused (toString error)

/-- What a path leads to. -/
def look (path : String) : IO (Except FileFault Entry) := do
  if '\x00' ∈ path.toList then return .error .nulCharacter
  try
    let bytes ← IO.FS.readBinFile path
    return .ok (.file bytes.data.toList)
  catch error =>
    match faultOf error with
    | .isDirectory => return .ok .directory
    | fault => return .error fault

/-- A view of the files that the options name. -/
def lookAll (options : ReplayOptions) : IO View := do
  let seen ← (options.trace :: options.config.toList).mapM fun path => do
    return (path, ← look path)
  return fun path => (seen.lookup path).getD (.error .notFound)

/-- Writes a file if that can be done. -/
def writeFile (file : OutputFile) : IO Unit := do
  try IO.FS.writeFile file.path file.text
  catch _ => return ()

/-- Prints a text, or tells why it is refused. -/
def printText (text : String) : IO (Option FileFault) := do
  try
    IO.print text
    (← IO.getStdout).flush
    return none
  catch error => return some (faultOf error)

/-- Prints a report and writes its files. -/
def deliver (report : Report) : IO Outcome := do
  let _ ← printText report.opening
  report.files.forM writeFile
  match report.digest with
  | none => return report.conclude none
  | some digest => return report.conclude (← printText digest)

end AccelProfile.CommandLine

open AccelProfile CommandLine

/-- Runs the command on the arguments, and ends with its exit code. -/
def main (arguments : List String) : IO UInt32 := do
  let view : View ← match parse? arguments with
    | some options => lookAll options
    | none => pure fun _ => .error .notFound
  let environment ← IO.getEnv DebugFlags.variableName
  let outcome ← match plan .spacious arguments environment view with
    | .error outcome => pure outcome
    | .ok report => deliver report
  match outcome with
  | .misused => IO.eprintln usage
  | .stopped fault => IO.eprintln fault.message
  | .failed _ | .unprinted .. | .done _ =>
    outcome.error?.forM fun error => IO.eprintln ("Error: " ++ error.message)
  return outcome.exitCode
