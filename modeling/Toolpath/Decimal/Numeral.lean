import Toolpath.Decimal.Digits
import Toolpath.Decimal.Nearest

/-!
# Reading decimal numerals

A numeral is read into its digits and a power of ten, and then rounded to the nearest double, ties
to the even one; a numeral too large for a double is infinite. `Numeral.ofStart?` reads a plain
numeral at the start of a text, `Numeral.ofText?` a whole text with an optional exponent, and
`floatOfText?` also takes the names of infinity and NaN.
-/

namespace Toolpath

/-- The number `digits * 10 ^ exponent` with a sign, so that zero can be negative. -/
structure Numeral where
  negative : Bool
  digits : Nat
  exponent : Int
deriving DecidableEq, Repr

namespace Numeral

/-- The nearest double. A power of ten beyond all doubles is not computed: `10 ^ 400` is above the
largest of them, and `2 ^ (log + 1) / 10 ^ (log + 400)` is below half of the smallest. -/
def toFloat (n : Numeral) : Float :=
  let magnitude : Float :=
    if n.digits = 0 ∨ n.exponent + n.digits.log2 + 400 < 0 then 0
    else if 400 < n.exponent then infinity
    else match n.exponent with
      | .ofNat e => Binary.nearest (n.digits * Nat.pow 10 e) 1
      | .negSucc e => Binary.nearest n.digits (Nat.pow 10 (e + 1))
  if n.negative then -magnitude else magnitude

/-- Whether the text starts with a minus, and what follows its sign. -/
def splitSign : List Char → Bool × List Char
  | '-' :: rest => (true, rest)
  | '+' :: rest => (false, rest)
  | rest => (false, rest)

/-- The numeral with these digits before and behind the point. -/
def ofDigits (negative : Bool) (whole fraction : List Char) (exponent : Int) : Numeral :=
  ⟨negative, Digits.decimal (whole ++ fraction), exponent - fraction.length⟩

/-- The longest numeral of the form `[+-]?([0-9]*\.)?[0-9]+` that the text starts with. A point
belongs to it only if a digit follows. -/
def ofStart? (s : List Char) : Option Numeral :=
  let (negative, body) := splitSign s
  let whole := body.takeWhile Char.isDigit
  let fraction := match body.dropWhile Char.isDigit with
    | '.' :: rest => rest.takeWhile Char.isDigit
    | _ => []
  if whole.isEmpty && fraction.isEmpty then none
  else some (ofDigits negative whole fraction 0)

/-- The size of an exponent. The digits behind the one that takes it to `65536` or more do not
count. -/
def exponentSize (digits : List Char) : Nat :=
  digits.foldl (fun size c => if size < 65536 then 10 * size + (c.toNat - '0'.toNat) else size) 0

/-- The exponent part of a numeral, which may be missing: an `e`, a sign and at least one digit. -/
def exponentOf? : List Char → Option Int
  | [] => some 0
  | e :: rest =>
    let (negative, digits) := splitSign rest
    if (e == 'e' || e == 'E') && !digits.isEmpty && digits.all Char.isDigit then
      let size : Int := exponentSize digits
      some (if negative then -size else size)
    else none

/-- The numeral that the whole text spells: digits with at most one point among or around them,
and an optional exponent. -/
def ofText? (s : List Char) : Option Numeral :=
  let (negative, body) := splitSign s
  let whole := body.takeWhile Char.isDigit
  let (fraction, rest) := match body.dropWhile Char.isDigit with
    | '.' :: rest => (rest.takeWhile Char.isDigit, rest.dropWhile Char.isDigit)
    | rest => ([], rest)
  if whole.isEmpty && fraction.isEmpty then none
  else (exponentOf? rest).map (ofDigits negative whole fraction)

theorem splitSign_cons_of_ne {c : Char} (rest : List Char) (hminus : c ≠ '-') (hplus : c ≠ '+') :
    splitSign (c :: rest) = (false, c :: rest) := by
  unfold splitSign
  split <;> simp_all

/-- The digits behind a point, if one comes next, and what follows them. -/
def splitFraction : List Char → List Char × List Char
  | '.' :: rest => (rest.takeWhile Char.isDigit, rest.dropWhile Char.isDigit)
  | rest => ([], rest)

theorem splitFraction_cons_of_ne {c : Char} (rest : List Char) (h : c ≠ '.') :
    splitFraction (c :: rest) = ([], c :: rest) := by
  unfold splitFraction
  split <;> simp_all

/-- `ofStart?` reads what `ofText?` reads, and stops behind the fraction. -/
theorem ofStart?_eq (s : List Char) : ofStart? s =
    let (negative, body) := splitSign s
    let whole := body.takeWhile Char.isDigit
    let fraction := (splitFraction (body.dropWhile Char.isDigit)).1
    if whole.isEmpty && fraction.isEmpty then none
    else some (ofDigits negative whole fraction 0) := by
  have hfraction : ∀ t : List Char, (splitFraction t).1 =
      match t with
      | '.' :: rest => rest.takeWhile Char.isDigit
      | _ => [] := by
    intro t
    unfold splitFraction
    split <;> rfl
  simp only [hfraction]
  rfl

theorem ofText?_eq (s : List Char) : ofText? s =
    let (negative, body) := splitSign s
    let whole := body.takeWhile Char.isDigit
    let (fraction, rest) := splitFraction (body.dropWhile Char.isDigit)
    if whole.isEmpty && fraction.isEmpty then none
    else (exponentOf? rest).map (ofDigits negative whole fraction) := rfl

end Numeral

def notANumber : Float := 0.0 / 0.0

/-- The double that a whole text names: a numeral, or a name of infinity or NaN in any case with an
optional sign. -/
def floatOfText? (s : List Char) : Option Float :=
  let (negative, name) := Numeral.splitSign s
  let name := name.map Char.toLower
  if name = "inf".toList ∨ name = "infinity".toList then
    some (if negative then -infinity else infinity)
  else if name = "nan".toList then some notANumber
  else (Numeral.ofText? s).map Numeral.toFloat

end Toolpath
