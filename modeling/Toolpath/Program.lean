import Toolpath.CommandLine
import Toolpath.Report
import Toolpath.Settings

/-!
# The program

A run reads the command line and a settings file, merges both over the defaults, where the command
line counts most, loads the input and writes what was asked for. `run` is given the way to read a
file, so that it does not depend on where files come from.
-/

namespace Toolpath

structure Settings where
  input : String
  options : Options
  chunkSize : Nat
  emit : EmitMode
  directives : Bool
  logLevel : String
  /-- The settings file that was used, if any. -/
  configFile : Option String
deriving DecidableEq, Repr

namespace Settings

/-- The options of a file with those of the command line in their place. -/
def mergeOptions (c : Choices) (o : Options) : Options where
  layerHeight := c.layerHeight.getD o.layerHeight
  layerView := c.layerView || o.layerView
  axes := ⟨c.xAxis.getD o.axes.x, c.yAxis.getD o.axes.y, c.zAxis.getD o.axes.z⟩
  feedrate := c.feedrate.getD o.feedrate

def merge (a : Arguments) (file : FileSettings) (configFile : Option String) : Settings where
  input := a.input
  options := mergeOptions a.choices file.options
  chunkSize := max 1 ((a.choices.chunkSize <|> file.chunkSize).getD 65536)
  emit := a.choices.emit.getD .summary
  directives := !a.choices.noDirectives
  logLevel := (a.choices.logLevel <|> file.logLevel).getD "info"
  configFile := configFile

end Settings

/-- A way to read a file: its bytes, or the reason why there are none. -/
abbrev FileReader (m : Type → Type) := String → m (Except String (List UInt8))

/-- The settings for a command line. A settings file that it names must be there; the one at the
default place is used if it is there. -/
def Settings.resolve {m : Type → Type} [Monad m] (fetch : FileReader m)
    (defaultConfig : Option String) (a : Arguments) : m (Except Error Settings) := do
  match a.choices.config <|> defaultConfig with
  | none => return .ok (merge a {} none)
  | some path =>
    match ← fetch path with
    | .error reason => return .error (.settings path (.unreadable reason))
    | .ok bytes => match FileSettings.ofBytes bytes with
      | .error fault => return .error (.settings path fault)
      | .ok file => return .ok (merge a file (some path))

namespace Program

def loader (s : Settings) : Loader where
  machine := .ofOptions s.options
  chunkSize := s.chunkSize
  mode := if s.directives then .initial else .rerun

def records (s : Settings) (contents : List UInt8) : List Record :=
  let chunks := (Script.cutInto s.chunkSize contents #[]).toList
  ((Batch.ofChunks chunks).flatMap Batch.lines).map Line.record

/-- What a run writes for a file: JSON values, each on lines of its own. -/
def output (s : Settings) (contents : List UInt8) : Except Error (List (List Char)) :=
  match s.emit with
  | .records => .ok ((records s contents).map fun r => r.toJson.compact)
  | emit =>
    let outcome := (loader s).loadFile contents .never
    outcome.result.map fun summary =>
      match emit with
      | .segments => outcome.segments.map fun segment => segment.toJson.compact
      | .trace => (outcome.trace.getD []).map fun p => p.toJsonList.compact
      | _ => [(summary.toJson (Tally.ofReports outcome.reports)).pretty]

inductive Exit where
  | done (lines : List (List Char))
  | usage (stop : UsageStop)
  | failed (error : Error)

def run {m : Type → Type} [Monad m] (fetch : FileReader m) (defaultConfig : Option String)
    (words : List String) : m Exit := do
  match CommandLine.read words with
  | .error stop => return .usage stop
  | .ok arguments =>
    match ← Settings.resolve fetch defaultConfig arguments with
    | .error error => return .failed error
    | .ok settings =>
      match ← fetch settings.input with
      | .error reason => return .failed (.io reason)
      | .ok contents => match output settings contents with
        | .error error => return .failed error
        | .ok lines => return .done lines

def version : String := "gcode-geom 0.1.0"

/-- The exit status and what is written to standard output, where `help` is the text that explains
the options. -/
def Exit.report (help : String) : Exit → Nat × String
  | done lines => (0, String.ofList (lines.flatMap fun line => line ++ ['\n']))
  | usage .help => (0, help ++ "\n")
  | usage .version => (0, version ++ "\n")
  | usage _ => (2, "")
  | failed _ => (1, "")

end Program

end Toolpath
