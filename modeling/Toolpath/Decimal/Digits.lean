/-!
# Numbers from their digits

Digits are given most significant first. A long list of them is read half by half, so that few of
the multiplications on the way are of large numbers.
-/

namespace Toolpath.Digits

/-- The number that digits spell in a base, one by one. -/
def fold (base : Nat) (digits : List Nat) : Nat := digits.foldl (fun n digit => base * n + digit) 0

/-- The same number, from halves that are halved in turn, at most `depth` times. -/
def halve (base : Nat) : Nat → List Nat → Nat
  | 0, digits => fold base digits
  | depth + 1, digits =>
    if digits.length < 64 then fold base digits
    else
      let low := digits.length / 2
      let high := digits.length - low
      halve base depth (digits.take high) * Nat.pow base low + halve base depth (digits.drop high)

def value (base : Nat) (digits : List Nat) : Nat := halve base digits.length.log2 digits

theorem foldl_eq (base : Nat) (digits : List Nat) (n : Nat) :
    digits.foldl (fun n digit => base * n + digit) n =
      n * Nat.pow base digits.length + fold base digits := by
  unfold fold
  induction digits generalizing n with
  | nil => simp
  | cons digit digits ih =>
    have h := ih (base * n + digit)
    have h0 := ih (base * 0 + digit)
    simp only [List.foldl_cons, List.length_cons]
    have hpow : Nat.pow base (digits.length + 1) = Nat.pow base digits.length * base := rfl
    rw [h, h0, hpow, Nat.mul_zero, Nat.zero_add, Nat.add_mul]
    have : base * n * Nat.pow base digits.length = n * (Nat.pow base digits.length * base) := by
      rw [Nat.mul_comm base n, Nat.mul_assoc, Nat.mul_comm base]
    omega

theorem fold_append (base : Nat) (high low : List Nat) :
    fold base (high ++ low) = fold base high * Nat.pow base low.length + fold base low := by
  rw [fold, List.foldl_append, foldl_eq]
  rfl

theorem halve_eq_fold (base depth : Nat) (digits : List Nat) :
    halve base depth digits = fold base digits := by
  induction depth generalizing digits with
  | zero => rfl
  | succ depth ih =>
    unfold halve
    split
    · rfl
    · have h := fold_append base (digits.take (digits.length - digits.length / 2))
        (digits.drop (digits.length - digits.length / 2))
      rw [List.take_append_drop, List.length_drop] at h
      have : digits.length - (digits.length - digits.length / 2) = digits.length / 2 := by omega
      simp only [ih]
      rw [h, this]

theorem value_eq_fold (base : Nat) (digits : List Nat) : value base digits = fold base digits :=
  halve_eq_fold base _ digits

def decimal (s : List Char) : Nat := value 10 (s.map fun c => c.toNat - '0'.toNat)

theorem decimal_eq_ofDigitChars (s : List Char) : decimal s = Nat.ofDigitChars 10 s 0 := by
  rw [decimal, value_eq_fold, fold, Nat.ofDigitChars, List.foldl_map]

end Toolpath.Digits
