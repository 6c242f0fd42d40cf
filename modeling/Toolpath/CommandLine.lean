import Toolpath.Decimal.Numeral
import Toolpath.Options

/-!
# The command line

The words of a command line name one input file and options. A parameter takes the next word as its
value, unless that word looks like an option, or what stands behind an equals sign in the same
word. The value of a word of its own is settled only when the next word that can be used comes, so
that an unknown word behind it is complained about first.
-/

namespace Toolpath

inductive EmitMode where
  /-- Counts and the box around all segments. -/
  | summary
  | segments
  /-- One record a line, without running the machine. -/
  | records
  | trace
deriving DecidableEq, Repr

/-- Why a command line does not lead to a run. -/
inductive UsageStop where
  | unknownArgument
  /-- A value is missing, empty, or none of those there are. -/
  | invalidValue
  | malformedValue
  | missingInput
  | repeated
  | unexpectedValue
  | help
  | version
deriving DecidableEq, Repr

/-- The options that a command line may name. -/
structure Choices where
  config : Option String := none
  layerHeight : Option Float := none
  layerView : Bool := false
  xAxis : Option AxisLetter := none
  yAxis : Option AxisLetter := none
  zAxis : Option AxisLetter := none
  feedrate : Option Float := none
  chunkSize : Option Nat := none
  emit : Option EmitMode := none
  noDirectives : Bool := false
  logLevel : Option String := none
deriving DecidableEq, Repr

structure Arguments where
  input : String
  choices : Choices
deriving DecidableEq, Repr

inductive Parameter where
  | input
  | config
  | layerHeight
  | axis (axis : Axis)
  | feedrate
  | chunkSize
  | emit
  | logLevel
deriving DecidableEq, Repr

inductive Switch where
  | layerView
  | noDirectives
  | help
  | version
deriving DecidableEq, Repr

namespace CommandLine

def longOption? (name : String) : Option (Parameter ⊕ Switch) :=
  match name with
  | "config" => some (.inl .config)
  | "layer-height" => some (.inl .layerHeight)
  | "layer-view" => some (.inr .layerView)
  | "x-axis" => some (.inl (.axis .x))
  | "y-axis" => some (.inl (.axis .y))
  | "z-axis" => some (.inl (.axis .z))
  | "feedrate" => some (.inl .feedrate)
  | "chunk-size" => some (.inl .chunkSize)
  | "emit" => some (.inl .emit)
  | "no-directives" => some (.inr .noDirectives)
  | "log-level" => some (.inl .logLevel)
  | "help" => some (.inr .help)
  | "version" => some (.inr .version)
  | _ => none

def shortOption? : Char → Option Switch
  | 'h' => some .help
  | 'V' => some .version
  | _ => none

def emitMode? (name : String) : Option EmitMode :=
  match name with
  | "summary" => some .summary
  | "primitives" => some .segments
  | "records" => some .records
  | "trace" => some .trace
  | _ => none

/-- A number of at most 64 bits, which a plus may precede. -/
def size? (s : List Char) : Option Nat :=
  let digits := match s with
    | '+' :: rest => rest
    | s => s
  let n := Digits.decimal digits
  if !digits.isEmpty && digits.all Char.isDigit && n < Nat.pow 2 64 then some n else none

/-- Puts a value into a place that must be free. -/
def fill {α : Type} (place : Option α) (value : Except UsageStop α) :
    Except UsageStop (Option α) := do
  if place.isSome then throw .repeated
  return some (← value)

def orElse {α : Type} (stop : UsageStop) : Option α → Except UsageStop α
  | some a => .ok a
  | none => .error stop

def path (s : String) : Except UsageStop String :=
  if s.isEmpty then .error .invalidValue else .ok s

def float (s : String) : Except UsageStop Float := orElse .malformedValue (floatOfText? s.toList)

def letter (s : String) : Except UsageStop AxisLetter :=
  orElse .malformedValue (AxisLetter.ofText? s.toList)

def size (s : String) : Except UsageStop Nat := orElse .malformedValue (size? s.toList)

def emitMode (s : String) : Except UsageStop EmitMode := orElse .invalidValue (emitMode? s)

def assign (input : Option String) (c : Choices) (s : String) :
    Parameter → Except UsageStop (Option String × Choices)
  | .input => do return (← fill input (path s), c)
  | .config => do return (input, { c with config := ← fill c.config (path s) })
  | .layerHeight => do return (input, { c with layerHeight := ← fill c.layerHeight (float s) })
  | .axis .x => do return (input, { c with xAxis := ← fill c.xAxis (letter s) })
  | .axis .y => do return (input, { c with yAxis := ← fill c.yAxis (letter s) })
  | .axis .z => do return (input, { c with zAxis := ← fill c.zAxis (letter s) })
  | .feedrate => do return (input, { c with feedrate := ← fill c.feedrate (float s) })
  | .chunkSize => do return (input, { c with chunkSize := ← fill c.chunkSize (size s) })
  | .emit => do return (input, { c with emit := ← fill c.emit (emitMode s) })
  | .logLevel => do return (input, { c with logLevel := ← fill c.logLevel (.ok s) })

def turnOn (c : Choices) : Switch → Except UsageStop Choices
  | .layerView => if c.layerView then .error .repeated else .ok { c with layerView := true }
  | .noDirectives =>
    if c.noDirectives then .error .repeated else .ok { c with noDirectives := true }
  | .help => .error .help
  | .version => .error .version

/-- The words so far: what they ask for, the parameter whose value is missing or not settled yet,
whether the input has been named, and whether all further words are inputs. -/
structure Reading where
  input : Option String := none
  choices : Choices := {}
  pending : Option (Parameter × Option String) := none
  inputNamed : Bool := false
  inputsOnly : Bool := false

namespace Reading

def give (r : Reading) (parameter : Parameter) (value : String) : Except UsageStop Reading := do
  let (input, choices) ← assign r.input r.choices value parameter
  return { r with input := input, choices := choices }

def settle (r : Reading) : Except UsageStop Reading :=
  match r.pending with
  | none => .ok r
  | some (_, none) => .error .invalidValue
  | some (parameter, some value) => { r with pending := none }.give parameter value

def takeSwitch (r : Reading) (switch : Switch) : Except UsageStop Reading := do
  let r ← r.settle
  return { r with choices := ← turnOn r.choices switch }

/-- Takes a word that starts with two dashes, without them. -/
def takeLong (r : Reading) (word : List Char) : Except UsageStop Reading := do
  let name := word.takeWhile (· != '=')
  let value := match word.dropWhile (· != '=') with
    | _ :: value => some (String.ofList value)
    | [] => none
  match longOption? (String.ofList name), value with
  | none, _ => throw .unknownArgument
  | some (.inr _), some _ => throw .unexpectedValue
  | some (.inr switch), none => r.takeSwitch switch
  | some (.inl parameter), none => do
    let r ← r.settle
    return { r with pending := some (parameter, none) }
  | some (.inl parameter), some value => do
    let r ← r.settle
    r.give parameter value

/-- Takes a word of letters behind one dash. All of them stop the reading, so that only the first
counts. -/
def takeShort (r : Reading) (letter : Char) : Except UsageStop Reading :=
  match shortOption? letter with
  | some switch => r.takeSwitch switch
  | none => .error .unknownArgument

def takeInput (r : Reading) (word : String) : Except UsageStop Reading := do
  if r.inputNamed then throw .unknownArgument
  let r ← r.settle
  return { r with pending := some (.input, some word), inputNamed := true }

def take (r : Reading) (word : String) : Except UsageStop Reading :=
  if r.inputsOnly then r.takeInput word
  else match word.toList with
    | ['-', '-'] => .ok { r with inputsOnly := true }
    | '-' :: '-' :: long => r.takeLong long
    | '-' :: letter :: _ => r.takeShort letter
    | _ => match r.pending with
      | some (parameter, none) => .ok { r with pending := some (parameter, some word) }
      | _ => r.takeInput word

end Reading

/-- What the words of a command line ask for, the program's own name left out. -/
def read (words : List String) : Except UsageStop Arguments := do
  let reading ← words.foldlM Reading.take {}
  let reading ← reading.settle
  return ⟨← orElse .missingInput reading.input, reading.choices⟩

end CommandLine

end Toolpath
