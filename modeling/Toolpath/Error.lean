/-!
# What can go wrong

The causes for which a line, a load, an axis letter or a settings file is refused, and their texts.
-/

namespace Toolpath

/-- Why a settings file is refused. -/
inductive SettingsFault where
  /-- The file cannot be read as text, for the given reason. -/
  | unreadable (reason : String)
  | malformed
deriving DecidableEq, Repr

inductive Error where
  /-- The bytes of a line are no text from `offset` on. -/
  | notText (line offset : Nat)
  | io (reason : String)
  | cancelled
  | unknownAxisLetter (text : String)
  | settings (path : String) (fault : SettingsFault)
deriving DecidableEq, Repr

def SettingsFault.message : SettingsFault → String
  | unreadable reason => reason
  | malformed => "not a settings file"

def Error.message : Error → String
  | notText line offset =>
    s!"line {line} is not valid UTF-8 text (invalid byte at offset {offset})"
  | io reason => s!"I/O error while reading G-code: {reason}"
  | cancelled => "G-code load cancelled"
  | unknownAxisLetter text =>
    s!"unknown axis letter '{text}' (expected one of x y z a b c u v w e i j)"
  | settings path fault => s!"invalid configuration in {path}: {fault.message}"

end Toolpath
