import Toolpath.Program

/-!
# The executable

Reads files for `Program.run`, prints what it gives and ends with its status. Complaints go to the
standard error stream. Unless the command line names a settings file, the one in the user's
configuration directory is used, if there is one.
-/

namespace Toolpath.Program

/-- The text that explains the options. -/
def help : String :=
  "\n".intercalate [
    "Turns G-code into line and arc segments.",
    "",
    "Usage: gcode-geom [OPTIONS] <INPUT>",
    "",
    "Arguments:",
    "  <INPUT>                 The G-code file to read",
    "",
    "Options:",
    "      --config <FILE>     Settings file",
    "      --layer-height <N>  Height of one layer for layer tags",
    "      --layer-view        Let layer tags move the tool",
    "      --x-axis <LETTER>   Letter that the X axis reads from",
    "      --y-axis <LETTER>   Letter that the Y axis reads from",
    "      --z-axis <LETTER>   Letter that the Z axis reads from",
    "      --feedrate <N>      Feedrate of moves without an F word",
    "      --chunk-size <N>    Number of bytes to read at a time",
    "      --emit <WHAT>       summary (the default), primitives, records or trace",
    "      --no-directives     Ignore the settings in comments",
    "      --log-level <WORD>  Level of log messages",
    "  -h, --help              Print this text",
    "  -V, --version           Print the version"]

/-- The usual wording of why a file cannot be read. -/
def readFault : IO.Error → String
  | .noFileOrDirectory .. => "No such file or directory (os error 2)"
  | .permissionDenied .. => "Permission denied (os error 13)"
  | .inappropriateType .. => "Is a directory (os error 21)"
  | error => toString error

/-- Reads a file from the disk. -/
def fromDisk : FileReader IO := fun path => do
  try
    let contents ← IO.FS.readBinFile path
    return .ok contents.toList
  catch error =>
    return .error (readFault error)

/-- The directory of the user's settings: an absolute one from the environment, or one in the
home directory. -/
def settingsDirectory? (configured home : Option String) : Option String :=
  configured.filter (fun path => path.startsWith "/") <|>
    (home.filter fun path => !path.isEmpty).map fun path => path ++ "/.config"

/-- The settings file at the default place, if it is there. -/
def defaultSettings : IO (Option String) := do
  let configured ← IO.getEnv "XDG_CONFIG_HOME"
  let home ← IO.getEnv "HOME"
  match settingsDirectory? configured home with
  | none => return none
  | some directory =>
    let path := directory ++ "/gcode-geometry/config.toml"
    try
      let _ ← IO.FS.readBinFile path
      return some path
    catch
      | .noFileOrDirectory .. | .inappropriateType .. => return none
      | _ => return some path

/-- What is said of a command line that cannot be followed. -/
def usageComplaint? : UsageStop → Option String
  | .unknownArgument => some "unexpected argument"
  | .invalidValue => some "a value is missing or not one of those allowed"
  | .malformedValue => some "a value cannot be read"
  | .missingInput => some "no input file is given"
  | .repeated => some "an option is given twice"
  | .unexpectedValue => some "a switch takes no value"
  | .help | .version => none

def complaint? : Exit → Option String
  | .done _ => none
  | .usage stop => usageComplaint? stop
  | .failed error => some error.message

/-- Runs the program, and returns its status. -/
def execute (words : List String) : IO UInt32 := do
  let ending ← run fromDisk (← defaultSettings) words
  let (status, output) := ending.report help
  IO.print output
  if let some complaint := complaint? ending then
    IO.eprintln s!"error: {complaint}"
  return status.toUInt32

end Toolpath.Program

def main (words : List String) : IO UInt32 := Toolpath.Program.execute words
