import Toolpath.Json
import Toolpath.Proofs.TagValues
import Toolpath.Proofs.TextLines

/-!
# JSON on one line

The compact layout of a value has no line ends, whatever texts stand in the value, because all
control characters are escaped. So values that are printed one per line can be told apart again.
-/

namespace Toolpath

namespace Text

instance : DecidablePred IsInner := fun c => inferInstanceAs (Decidable (c ≠ '\n' ∧ c ≠ '\r'))

/-- A text without line ends. -/
def IsOneLine (s : List Char) : Prop := ∀ c ∈ s, IsInner c

instance (s : List Char) : Decidable (IsOneLine s) := List.decidableBAll _ s

@[simp] theorem isOneLine_cons {c : Char} {s : List Char} :
    IsOneLine (c :: s) ↔ IsInner c ∧ IsOneLine s := List.forall_mem_cons

@[simp] theorem isOneLine_append {s t : List Char} :
    IsOneLine (s ++ t) ↔ IsOneLine s ∧ IsOneLine t := List.forall_mem_append

/-- Lines without line ends of their own, each closed by a line feed, are split again. -/
theorem splitLines_closed {lines : List (List Char)} (h : ∀ line ∈ lines, IsOneLine line) :
    splitLines (lines.flatMap fun line => line ++ ['\n']) = (lines, []) := by
  induction lines with
  | nil => rfl
  | cons line rest ih =>
    have hrest := ih fun other hmem => h other (List.mem_cons_of_mem _ hmem)
    rw [List.flatMap_cons, List.append_assoc]
    apply splitLines_append_of_isInner (h line List.mem_cons_self)
    rw [List.singleton_append, splitLines_lineFeed, hrest]

end Text

namespace Decimal

open Numeral (isNumeralChar isNumeralChar_of_isDigit)

variable {digits : List Char}

theorem isNumeralChar_of_toDigits (n : Nat) : ∀ c ∈ Nat.toDigits 10 n, isNumeralChar c = true :=
  fun _ hc => isNumeralChar_of_isDigit (Nat.isDigit_of_mem_toDigits (by decide) le_rfl hc)

theorem isNumeralChar_of_withPoint (h : ∀ c ∈ digits, isNumeralChar c = true) (places : Int) :
    ∀ c ∈ withPoint digits places, isNumeralChar c = true := by
  have hzeros : ∀ n : Nat, ∀ c ∈ List.replicate n '0', isNumeralChar c = true := by
    intro n c hc
    rw [List.eq_of_mem_replicate hc]
    rfl
  unfold withPoint
  split
  · simp only [List.forall_mem_cons, List.forall_mem_append]
    exact ⟨⟨rfl, rfl, hzeros _⟩, h⟩
  · simp only [List.forall_mem_cons, List.forall_mem_append]
    refine ⟨⟨fun c hc => h c (List.mem_of_mem_take hc), hzeros _⟩, rfl, ?_⟩
    split
    · exact List.forall_mem_singleton.2 rfl
    · exact fun c hc => h c (List.mem_of_mem_drop hc)

theorem isNumeralChar_of_scientific (h : ∀ c ∈ digits, isNumeralChar c = true) (exponent : Int) :
    ∀ c ∈ scientific digits exponent, isNumeralChar c = true := by
  simp only [scientific, List.forall_mem_cons, List.forall_mem_append]
  refine ⟨⟨fun c hc => h c (List.mem_of_mem_take hc), ?_⟩, rfl, ?_, isNumeralChar_of_toDigits _⟩
  · split
    · exact nofun
    · exact List.forall_mem_cons.2 ⟨rfl, fun c hc => h c (List.mem_of_mem_drop hc)⟩
  · split <;> rfl

theorem isNumeralChar_of_toText (d : Decimal) : ∀ c ∈ d.toText, isNumeralChar c = true := by
  unfold toText
  simp only
  split
  · exact isNumeralChar_of_withPoint (isNumeralChar_of_toDigits _) _
  · exact isNumeralChar_of_scientific (isNumeralChar_of_toDigits _) _

end Decimal

/-- A double is written in characters that numerals are made of. -/
theorem isNumeralChar_of_floatText? {x : Float} {text : List Char} (h : floatText? x = some text) :
    ∀ c ∈ text, Numeral.isNumeralChar c = true := by
  obtain ⟨b, -, rfl⟩ := Option.map_eq_some_iff.1 h
  have hmagnitude : ∀ c ∈ if b.mantissa = 0 then "0.0".toList else (Decimal.shortest b).toText,
      Numeral.isNumeralChar c = true := by
    split
    · exact List.all_eq_true.1 (by decide)
    · exact Decimal.isNumeralChar_of_toText _
  simp only
  split
  · exact List.forall_mem_cons.2 ⟨rfl, hmagnitude⟩
  · exact hmagnitude

open Text

theorem Text.isInner_of_isNumeralChar {c : Char} (h : Numeral.isNumeralChar c = true) :
    IsInner c := by
  constructor
  · rintro rfl
    cases h
  · rintro rfl
    cases h

namespace Json

theorem isOneLine_escapeChar (c : Char) : IsOneLine (escapeChar c) := by
  have hhex : ∀ n < 0x10, IsInner (hexDigit n) := by decide
  unfold escapeChar
  split
  iterate 7 decide
  next hfeed hreturn _ =>
    split
    · next hlow =>
      simp only [isOneLine_cons]
      exact ⟨by decide, by decide, by decide, by decide, hhex _ (by omega),
        hhex _ (Nat.mod_lt _ (by decide)), nofun⟩
    · exact isOneLine_cons.2 ⟨⟨hfeed, hreturn⟩, nofun⟩

theorem isOneLine_quoted (s : String) : IsOneLine (quoted s) := by
  simp only [quoted, isOneLine_cons, isOneLine_append]
  refine ⟨⟨by decide, fun c hc => ?_⟩, by decide, nofun⟩
  obtain ⟨d, -, hd⟩ := List.mem_flatMap.1 hc
  exact isOneLine_escapeChar d c hd

theorem isOneLine_atom (value : Json) : IsOneLine value.atom := by
  cases value with
  | null => decide
  | bool b => cases b <;> decide
  | nat n => exact fun c hc => isInner_of_isNumeralChar (Decimal.isNumeralChar_of_toDigits n c hc)
  | float x =>
    rw [atom]
    cases h : floatText? x with
    | none => decide
    | some text => exact fun c hc => isInner_of_isNumeralChar (isNumeralChar_of_floatText? h c hc)
  | text s => exact isOneLine_quoted s
  | list | object => exact nofun

mutual

/-- A value in the compact layout stands on one line. -/
theorem isOneLine_compact : ∀ value : Json, IsOneLine value.compact
  | list items => by
    simp only [compact, isOneLine_cons, isOneLine_append]
    exact ⟨⟨by decide, isOneLine_compactItems items⟩, by decide, nofun⟩
  | object fields => by
    simp only [compact, isOneLine_cons, isOneLine_append]
    exact ⟨⟨by decide, isOneLine_compactFields fields⟩, by decide, nofun⟩
  | null | bool _ | nat _ | float _ | text _ => by
    simp only [compact]
    exact isOneLine_atom _

theorem isOneLine_compactItems : ∀ items : List Json, IsOneLine (compactItems items)
  | [] => nofun
  | [item] => isOneLine_compact item
  | item :: next :: rest => by
    simp only [compactItems, isOneLine_cons, isOneLine_append]
    exact ⟨isOneLine_compact item, by decide, isOneLine_compactItems (next :: rest)⟩

theorem isOneLine_compactFields :
    ∀ fields : List (String × Json), IsOneLine (compactFields fields)
  | [] => nofun
  | [(key, value)] => by
    simp only [compactFields, isOneLine_cons, isOneLine_append]
    exact ⟨isOneLine_quoted key, by decide, isOneLine_compact value⟩
  | (key, value) :: next :: rest => by
    simp only [compactFields, isOneLine_cons, isOneLine_append]
    exact ⟨⟨isOneLine_quoted key, by decide, isOneLine_compact value⟩, by decide,
      isOneLine_compactFields (next :: rest)⟩

end

end Json

end Toolpath
