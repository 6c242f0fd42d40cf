import Toolpath.Options
import Toolpath.Text.Utf8
import Toolpath.Toml.Document

/-!
# Settings files

A settings file is a TOML document with a read size, a log level and the options of the machine,
all of which may be left out. Keys of other names are ignored. Values of a wrong type are not, nor
are numbers without a value under any key.
-/

namespace Toolpath

structure FileSettings where
  chunkSize : Option Nat := none
  logLevel : Option String := none
  options : Options := {}
deriving DecidableEq, Repr

namespace FileSettings

open Toml

/-- An integer that fits into 64 bits, with or without a sign, or a float. -/
def float? : Value → Option Float
  | .scalar (.integer n) =>
    if -Nat.pow 2 63 ≤ n ∧ n < Nat.pow 2 64 then some (Float.ofInt n) else none
  | .scalar (.float x) => some x
  | _ => none

def bool? : Value → Option Bool
  | .scalar (.bool b) => some b
  | _ => none

def letter? : Value → Option AxisLetter
  | .text s => AxisLetter.ofText? s.toList
  | _ => none

def text? : Value → Option String
  | .text s => some s
  | _ => none

def size? : Value → Option Nat
  | .scalar (.integer n) => if 0 ≤ n ∧ n < Nat.pow 2 64 then some n.toNat else none
  | _ => none

def optional? {α : Type} (read : Value → Option α) : Option Value → Option (Option α)
  | none => some none
  | some value => (read value).map some

/-- Whether the values under all other keys than these are readable. -/
def othersReadable (keys : List String) (t : Table) : Bool :=
  t.entries.all fun (key, value) => keys.contains key || value.isReadable

/-- The names of the options, in the order in which a list gives their values. -/
def optionNames : List String :=
  ["layer_height", "enable_layer_view", "x_axis", "y_axis", "z_axis", "feedrate"]

/-- The options whose values `get` finds by their positions among the names. -/
def optionsFrom? (get : Nat → Option Value) : Option Options := do
  let defaults : Options := {}
  let layerHeight ← optional? float? (get 0)
  let layerView ← optional? bool? (get 1)
  let x ← optional? letter? (get 2)
  let y ← optional? letter? (get 3)
  let z ← optional? letter? (get 4)
  let feedrate ← optional? float? (get 5)
  return {
    layerHeight := layerHeight.getD defaults.layerHeight
    layerView := layerView.getD defaults.layerView
    axes := ⟨x.getD defaults.axes.x, y.getD defaults.axes.y, z.getD defaults.axes.z⟩
    feedrate := feedrate.getD defaults.feedrate }

/-- Options by name in a table, or by position in a list, whose further items do not count. A date
or time names none. Tables with headers are no such list, as a layer height is no table. -/
def options? : Value → Option Options
  | .table t =>
    if othersReadable optionNames t then
      optionsFrom? fun position => optionNames[position]?.bind t.get?
    else none
  | .list items => optionsFrom? fun position => items[position]?
  | .scalar .moment => some {}
  | _ => none

def ofTable? (t : Table) : Option FileSettings := do
  let chunkSize ← optional? size? (t.get? "chunk_size")
  let logLevel ← optional? text? (t.get? "log_level")
  let options ← optional? options? (t.get? "interpreter")
  if othersReadable ["chunk_size", "log_level", "interpreter"] t then
    some { chunkSize := chunkSize, logLevel := logLevel, options := options.getD {} }
  else none

/-- The settings in a file of these bytes. -/
def ofBytes (bytes : List UInt8) : Except SettingsFault FileSettings :=
  match Text.decodeStrict bytes with
  | .error _ => .error (.unreadable "stream did not contain valid UTF-8")
  | .ok document => match (Toml.parse? document).bind ofTable? with
    | some settings => .ok settings
    | none => .error .malformed

end FileSettings

end Toolpath
