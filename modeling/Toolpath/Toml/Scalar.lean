import Toolpath.Decimal.Numeral

/-!
# TOML scalars

The values that are written without quotes or brackets: truth values, integers, floats, and dates
and times. Digits may be grouped by single underscores between them. A number beyond the range that
a document may use is unreadable: an integer of more than 128 bits, or a float that rounds to
infinity. It does not make the document invalid, but it has no value to be asked for.
-/

namespace Toolpath.Toml

/-- A value without parts. Of dates and times only the form is read. -/
inductive Scalar where
  | bool (value : Bool)
  | integer (value : Int)
  | float (value : Float)
  | moment
  /-- A numeral without a value. -/
  | unreadable
deriving DecidableEq, Repr

def Scalar.isReadable : Scalar → Bool
  | unreadable => false
  | _ => true

/-! ### Numbers -/

/-- A run of at least one digit, without the underscores between digits. -/
def ungroup? (isDigit : Char → Bool) (s : List Char) : Option (List Char) :=
  let groups := s.splitOn '_'
  if groups.all fun group => !group.isEmpty && group.all isDigit then some groups.flatten else none

/-- As `ungroup?` for decimal digits, of which the first is zero only if it is the only one. -/
def ungroupWhole? (s : List Char) : Option (List Char) :=
  (ungroup? Char.isDigit s).filter fun digits => digits == ['0'] || digits.head? != some '0'

def digitValue (c : Char) : Nat :=
  if c.isDigit then c.toNat - '0'.toNat else c.toLower.toNat - 'a'.toNat + 10

def isHexDigit (c : Char) : Bool := c.isDigit || ('a' ≤ c.toLower && c.toLower ≤ 'f')

def isDigitOf (base : Nat) (c : Char) : Bool := isHexDigit c && digitValue c < base

/-- An integer in hexadecimal, octal or binary digits, which has no sign. -/
def basedInteger? (base : Nat) (s : List Char) : Option Int :=
  (ungroup? (isDigitOf base) s).map fun digits =>
    (Digits.value base (digits.map digitValue) : Nat)

def integer? (s : List Char) : Option Int :=
  match s with
  | '0' :: 'x' :: digits => basedInteger? 16 digits
  | '0' :: 'o' :: digits => basedInteger? 8 digits
  | '0' :: 'b' :: digits => basedInteger? 2 digits
  | s =>
    let (negative, body) := Numeral.splitSign s
    (ungroupWhole? body).map fun digits =>
      let size : Int := Digits.decimal digits
      if negative then -size else size

def exponent? : List Char → Option Int
  | mark :: rest =>
    let (negative, body) := Numeral.splitSign rest
    if mark = 'e' ∨ mark = 'E' then
      (ungroup? Char.isDigit body).map fun digits =>
        let size : Int := Numeral.exponentSize digits
        if negative then -size else size
    else none
  | [] => none

/-- A float with a fraction, an exponent or both, rounded. -/
def decimal? (s : List Char) : Option Float := do
  let (negative, body) := Numeral.splitSign s
  let isMantissaChar (c : Char) : Bool := c.isDigit || c == '_'
  let whole ← ungroupWhole? (body.takeWhile isMantissaChar)
  let numeral ← match body.dropWhile isMantissaChar with
    | '.' :: rest => do
      let fraction ← ungroup? Char.isDigit (rest.takeWhile isMantissaChar)
      match rest.dropWhile isMantissaChar with
      | [] => pure (Numeral.ofDigits negative whole fraction 0)
      | rest => do pure (Numeral.ofDigits negative whole fraction (← exponent? rest))
    | rest => do pure (Numeral.ofDigits negative whole [] (← exponent? rest))
  return numeral.toFloat

def namedFloat? (s : List Char) : Option Float :=
  let (negative, body) := Numeral.splitSign s
  if body = ['i', 'n', 'f'] then some (if negative then -infinity else infinity)
  else if body = ['n', 'a', 'n'] then some notANumber
  else none

/-- Whether a text passes for an integer although it may have no value: a base without digits, or
decimal digits and an underscore, whatever follows it. Of that only the characters beside
underscores are looked at, which may be hexadecimal digits, and no mark of a float or blank may be
in it. -/
def isSpoiledInteger (s : List Char) : Bool :=
  let (_, body) := Numeral.splitSign s
  let groups := body.splitOn '_'
  let startsDecimal := 1 < groups.length && (groups.headD []).all Char.isDigit &&
    body.head? != some '0'
  [['0', 'x'], ['0', 'o'], ['0', 'b']].contains s ||
    (startsDecimal &&
      groups.all (fun group => group.head?.any isHexDigit) &&
      groups.dropLast.all (fun group => group.getLast?.any isHexDigit) &&
      body.all fun c => !(['.', 'e', 'E', ' '].contains c))

def ofInteger (n : Int) : Scalar :=
  if -Nat.pow 2 127 ≤ n ∧ n < Nat.pow 2 128 then .integer n else .unreadable

def ofDecimal (x : Float) : Scalar := if x.isFinite then .float x else .unreadable

def number? (s : List Char) : Option Scalar :=
  match integer? s, decimal? s, namedFloat? s with
  | some n, _, _ => some (ofInteger n)
  | none, some x, _ => some (ofDecimal x)
  | none, none, some x => some (.float x)
  | none, none, none => if isSpoiledInteger s then some .unreadable else none

/-! ### Dates and times -/

/-- A number of `count` digits up to `greatest`, and what follows it. -/
def field? (count least greatest : Nat) (s : List Char) : Option (Nat × List Char) :=
  let digits := s.take count
  let n := Nat.ofDigitChars 10 digits 0
  if digits.length = count ∧ digits.all Char.isDigit ∧ least ≤ n ∧ n ≤ greatest then
    some (n, s.drop count)
  else none

def char? (isChar : Char → Bool) : List Char → Option (List Char)
  | c :: rest => if isChar c then some rest else none
  | [] => none

def isLeapYear (year : Nat) : Bool :=
  year % 4 == 0 && (year % 100 != 0 || year % 400 == 0)

def daysOfMonth (year month : Nat) : Nat :=
  if month = 2 then (if isLeapYear year then 29 else 28)
  else if month ∈ [4, 6, 9, 11] then 30 else 31

def afterDate? (s : List Char) : Option (List Char) := do
  let (year, s) ← field? 4 0 9999 s
  let s ← char? (· == '-') s
  let (month, s) ← field? 2 1 12 s
  let s ← char? (· == '-') s
  let (_, s) ← field? 2 1 (daysOfMonth year month) s
  return s

def afterTime? (s : List Char) : Option (List Char) := do
  let (_, s) ← field? 2 0 23 s
  let s ← char? (· == ':') s
  let (_, s) ← field? 2 0 59 s
  match s with
  | ':' :: s => do
    let (_, s) ← field? 2 0 60 s
    match s with
    | '.' :: fraction =>
      if (fraction.takeWhile Char.isDigit).isEmpty then none
      else some (fraction.dropWhile Char.isDigit)
    | s => some s
  | s => some s

/-- Whether a text is the offset of a time zone, or nothing. -/
def isOffset : List Char → Bool
  | [] => true
  | ['Z'] | ['z'] => true
  | sign :: s =>
    (sign == '+' || sign == '-') && ((do
      let (_, s) ← field? 2 0 23 s
      let s ← char? (· == ':') s
      let (_, s) ← field? 2 0 59 s
      return s) == some [])

/-- Whether a text is a date, a time, or a date and a time with an optional offset. -/
def isMoment (s : List Char) : Bool :=
  match afterDate? s with
  | some [] => true
  | some (mark :: rest) =>
    (mark == 'T' || mark == 't' || mark == ' ') && (afterTime? rest).any isOffset
  | none => afterTime? s == some []

def scalar? (s : List Char) : Option Scalar :=
  if s = ['t', 'r', 'u', 'e'] then some (.bool true)
  else if s = ['f', 'a', 'l', 's', 'e'] then some (.bool false)
  else match number? s with
    | some number => some number
    | none => if isMoment s then some .moment else none

end Toolpath.Toml
