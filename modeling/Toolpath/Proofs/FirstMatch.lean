/-!
# First matches

Scans of a line look for the first part of a text that meets a pattern, and take the longest one
there. A pattern is any property of texts.
-/

namespace Toolpath.Text

/-- The longest part that meets `p` and with which `s` starts. -/
structure IsLongestStart (p : List Char → Prop) (s part rest : List Char) : Prop where
  parts : s = part ++ rest
  meets : p part
  longest : ∀ part' rest', s = part' ++ rest' → p part' → part'.length ≤ part.length

/-- The first part of `s` that meets `p`, and the longest one there. -/
structure IsFirstMatch (p : List Char → Prop) (s before part after : List Char) : Prop where
  parts : s = before ++ part ++ after
  meets : p part
  leftmost : ∀ before' part' after', s = before' ++ part' ++ after' → p part' →
    before.length ≤ before'.length
  longest : ∀ part' after', s = before ++ part' ++ after' → p part' → part'.length ≤ part.length

/-- Whether any part of `s` meets `p`. -/
def HasMatch (p : List Char → Prop) (s : List Char) : Prop :=
  ∃ before part after, s = before ++ part ++ after ∧ p part

section FirstMatch

variable {p : List Char → Prop} {s before part after : List Char}

theorem IsFirstMatch.hasMatch (h : IsFirstMatch p s before part after) : HasMatch p s :=
  ⟨before, part, after, h.parts, h.meets⟩

theorem IsLongestStart.isFirstMatch (h : IsLongestStart p s part after) :
    IsFirstMatch p s [] part after where
  parts := h.parts
  meets := h.meets
  leftmost _ _ _ _ _ := Nat.zero_le _
  longest := h.longest

theorem IsFirstMatch.unique {before' part' after' : List Char}
    (h : IsFirstMatch p s before part after) (h' : IsFirstMatch p s before' part' after') :
    before = before' ∧ part = part' ∧ after = after' := by
  have hlength : before.length = before'.length :=
    Nat.le_antisymm (h.leftmost _ _ _ h'.parts h'.meets) (h'.leftmost _ _ _ h.parts h.meets)
  have hparts : before ++ (part ++ after) = before' ++ (part' ++ after') := by
    rw [← List.append_assoc, ← List.append_assoc, ← h.parts, h'.parts]
  obtain ⟨rfl, hrest⟩ := List.append_inj hparts hlength
  have hpart : part.length = part'.length :=
    Nat.le_antisymm (h'.longest _ _ h.parts h.meets) (h.longest _ _ h'.parts h'.meets)
  obtain ⟨rfl, rfl⟩ := List.append_inj hrest hpart
  exact ⟨rfl, rfl, rfl⟩

/-- A first match stays one behind a character with which no part begins that meets `p`. -/
theorem IsFirstMatch.cons (h : IsFirstMatch p s before part after) {c : Char}
    (hc : ∀ part' after', c :: s = part' ++ after' → ¬ p part') :
    IsFirstMatch p (c :: s) (c :: before) part after where
  parts := by rw [h.parts, List.cons_append, List.cons_append]
  meets := h.meets
  leftmost before' part' after' hparts hmeets := by
    cases before' with
    | nil => exact absurd hmeets (hc part' after' hparts)
    | cons c' before' =>
      have htail : s = before' ++ part' ++ after' := (List.cons.inj hparts).2
      exact Nat.succ_le_succ (h.leftmost before' part' after' htail hmeets)
  longest part' after' hparts := h.longest part' after' (List.cons.inj hparts).2

theorem hasMatch_cons_iff {c : Char} (hc : ∀ part' after', c :: s = part' ++ after' → ¬ p part') :
    HasMatch p (c :: s) ↔ HasMatch p s := by
  constructor
  · rintro ⟨before, part, after, hparts, hmeets⟩
    cases before with
    | nil => exact absurd hmeets (hc part after hparts)
    | cons c' before => exact ⟨before, part, after, (List.cons.inj hparts).2, hmeets⟩
  · rintro ⟨before, part, after, rfl, hmeets⟩
    exact ⟨c :: before, part, after, rfl, hmeets⟩

end FirstMatch

end Toolpath.Text
