/-!
# Cutting a text at a separator

`splitFirst?` cuts at the first separator only; later ones belong to the second part.
-/

namespace Toolpath.Text

/-- The parts of `s` before and after its first `sep`. -/
def splitFirst? (sep : Char) (s : List Char) : Option (List Char × List Char) :=
  match s.dropWhile (· != sep) with
  | [] => none
  | _ :: after => some (s.takeWhile (· != sep), after)

@[simp] theorem splitFirst?_nil (sep : Char) : splitFirst? sep [] = none := rfl

theorem splitFirst?_cons_self (sep : Char) (s : List Char) :
    splitFirst? sep (sep :: s) = some ([], s) := by
  simp [splitFirst?]

theorem splitFirst?_cons_of_ne {sep c : Char} (s : List Char) (h : c ≠ sep) :
    splitFirst? sep (c :: s) = (splitFirst? sep s).map fun p => (c :: p.1, p.2) := by
  simp only [splitFirst?, List.dropWhile_cons, List.takeWhile_cons, bne_iff_ne.2 h, if_true]
  split <;> simp_all

theorem splitFirst?_eq_none_iff {sep : Char} {s : List Char} :
    splitFirst? sep s = none ↔ sep ∉ s := by
  induction s with
  | nil => simp
  | cons c s ih =>
    by_cases h : c = sep
    · simp [h, splitFirst?_cons_self]
    · simp [splitFirst?_cons_of_ne s h, ih, Ne.symm h]

/-- The parts and the separator between them make up the text, and the first part has none. -/
theorem splitFirst?_eq_some_iff {sep : Char} {s before after : List Char} :
    splitFirst? sep s = some (before, after) ↔ s = before ++ sep :: after ∧ sep ∉ before := by
  induction s generalizing before after with
  | nil => simp
  | cons c s ih =>
    by_cases h : c = sep
    · subst h
      rw [splitFirst?_cons_self]
      cases before <;> simp +contextual [eq_comm]
    · rw [splitFirst?_cons_of_ne s h]
      cases before with
      | nil => simp [h]
      | cons b before =>
        simp only [Option.map_eq_some_iff, Prod.exists, Prod.mk.injEq, List.cons.injEq, ih]
        constructor
        · rintro ⟨p, q, ⟨rfl, hp⟩, ⟨rfl, rfl⟩, rfl⟩
          exact ⟨by simp, by simp [hp, Ne.symm h]⟩
        · rintro ⟨hs, hb⟩
          simp only [List.cons_append, List.cons.injEq] at hs
          obtain ⟨rfl, rfl⟩ := hs
          exact ⟨before, after, ⟨rfl, fun m => hb (List.mem_cons_of_mem _ m)⟩, ⟨rfl, rfl⟩, rfl⟩

end Toolpath.Text
