/-!
# Reading UTF-8

A decoder takes one byte at a time and hands out pieces: a character, or `none` for a run of bytes
that no character starts with. Such a run ends before the first byte that rules the character out,
and that byte is then read afresh, so every invalid run is as long as Unicode's maximal subpart.

`decodeLossy` writes U+FFFD for each invalid run and never fails. `decodeStrict` stops at the first
one and says how many bytes before it are valid.
-/

namespace Toolpath.Text

/-- Where the decoder stands between two bytes: between characters, or inside one of which the bits
`bits` are read, whose next byte lies in `low..high`, and which `more` continuation bytes end. -/
inductive Utf8State where
  | start
  | inside (more : Nat) (low high : UInt8) (bits : Nat)
deriving DecidableEq, Repr

/-- A character, or `none` for an invalid run of bytes. -/
abbrev Piece := Option Char

namespace Utf8State

def ofLead? (b : UInt8) : Option Utf8State :=
  if 0xC2 ≤ b ∧ b ≤ 0xDF then some (inside 0 0x80 0xBF (b.toNat % 0x20))
  else if b = 0xE0 then some (inside 1 0xA0 0xBF 0)
  else if b = 0xED then some (inside 1 0x80 0x9F 0xD)
  else if 0xE1 ≤ b ∧ b ≤ 0xEF then some (inside 1 0x80 0xBF (b.toNat % 0x10))
  else if b = 0xF0 then some (inside 2 0x90 0xBF 0)
  else if 0xF1 ≤ b ∧ b ≤ 0xF3 then some (inside 2 0x80 0xBF (b.toNat % 8))
  else if b = 0xF4 then some (inside 2 0x80 0x8F 4)
  else none

def begin (b : UInt8) : List Piece × Utf8State :=
  if b < 0x80 then ([some (Char.ofNat b.toNat)], start)
  else match ofLead? b with
    | some q => ([], q)
    | none => ([none], start)

/-- Reads one byte: the pieces that it completes, and the state after it. -/
def step : Utf8State → UInt8 → List Piece × Utf8State
  | start, b => begin b
  | inside more low high bits, b =>
    if low ≤ b ∧ b ≤ high then
      let bits := bits * 0x40 + b.toNat % 0x40
      match more with
      | 0 => ([some (Char.ofNat bits)], start)
      | more + 1 => ([], inside more 0x80 0xBF bits)
    else
      (none :: (begin b).1, (begin b).2)

/-- What is left at the end of the bytes: a character cut short is an invalid run. -/
def finish : Utf8State → List Piece
  | start => []
  | inside .. => [none]

/-- The pieces of `bytes` for a decoder that stands at a state. -/
def pieces : Utf8State → List UInt8 → List Piece
  | q, [] => q.finish
  | q, b :: bytes => (q.step b).1 ++ pieces (q.step b).2 bytes

end Utf8State

def utf8Pieces (bytes : List UInt8) : List Piece := Utf8State.start.pieces bytes

/-- The text of `bytes`, with U+FFFD for each invalid run. -/
def decodeLossy (bytes : List UInt8) : List Char :=
  (utf8Pieces bytes).map fun piece => piece.getD '\uFFFD'

def validChars (pieces : List Piece) : List Char :=
  (pieces.takeWhile Option.isSome).filterMap id

/-- The text of `bytes`, or the number of bytes before the first invalid run. -/
def decodeStrict (bytes : List UInt8) : Except Nat (List Char) :=
  let pieces := utf8Pieces bytes
  if pieces.all Option.isSome then .ok (validChars pieces)
  else .error ((validChars pieces).foldl (fun size c => size + c.utf8Size) 0)

@[simp] theorem utf8Pieces_nil : utf8Pieces [] = [] := rfl

@[simp] theorem decodeLossy_nil : decodeLossy [] = [] := rfl

end Toolpath.Text
