import Mathlib.Tactic.Ring
import Toolpath.Text.Utf8

/-!
# Decoding around ASCII

No byte below `0x80` takes part in a longer character. So such a byte stands for itself wherever it
occurs, also behind a character that it cuts short, and what follows it is decoded as if it came
first. In the other direction, decoding makes no ASCII character out of other bytes.
-/

namespace Toolpath.Text

theorem toNat_ofNat_of_isValidChar {n : Nat} (h : n.isValidChar) : (Char.ofNat n).toNat = n := by
  rw [Char.ofNat, dif_pos h]
  rfl

namespace Utf8State

/-- The characters that a state inside one can still complete are beyond ASCII and valid, as the
bounds of the next byte leave no others. -/
def IsSound : Utf8State → Prop
  | start => True
  | inside more low high bits =>
    let least := (bits * 0x40 + low.toNat % 0x40) * 0x40 ^ more
    let beyond := (bits * 0x40 + high.toNat % 0x40 + 1) * 0x40 ^ more
    0x80 ≤ low.toNat ∧ high.toNat ≤ 0xBF ∧ 0x80 ≤ least ∧
      (beyond ≤ 0xD800 ∨ 0xE000 ≤ least ∧ beyond ≤ 0x110000)

theorem isSound_ofLead? {b : UInt8} {q : Utf8State} (h : ofLead? b = some q) :
    q.IsSound ∧ q ≠ start := by
  have hb : b.toNat < 0x100 := b.toNat_lt
  simp only [ofLead?, UInt8.le_iff_toNat_le, ← UInt8.toNat_inj] at h
  split_ifs at h <;> cases h <;> simp [IsSound] at * <;> omega

/-- What a byte between characters gives: itself, nothing yet, or an invalid run. -/
theorem begin_cases (b : UInt8) :
    b.toNat < 0x80 ∧ begin b = ([some (Char.ofNat b.toNat)], start) ∨
      0x80 ≤ b.toNat ∧ begin b = ([none], start) ∨
      ∃ q : Utf8State, 0x80 ≤ b.toNat ∧ begin b = ([], q) ∧ q.IsSound ∧ q ≠ start := by
  by_cases hb : b < 0x80
  · exact .inl ⟨by simpa [UInt8.lt_iff_toNat_lt] using hb, by rw [begin, if_pos hb]⟩
  · have hlarge : 0x80 ≤ b.toNat := by simpa [UInt8.lt_iff_toNat_lt] using hb
    right
    cases hlead : ofLead? b with
    | none => exact .inl ⟨hlarge, by rw [begin, if_neg hb, hlead]⟩
    | some q =>
      obtain ⟨hsound, hinside⟩ := isSound_ofLead? hlead
      exact .inr ⟨q, hlarge, by rw [begin, if_neg hb, hlead], hsound, hinside⟩

/-- A byte inside a character either continues it, ends it beyond ASCII, or is read afresh behind
an invalid run. -/
theorem step_inside_cases {more : Nat} {low high b : UInt8} {bits : Nat}
    (h : (inside more low high bits).IsSound) :
    (∃ q : Utf8State, 0x80 ≤ b.toNat ∧ (inside more low high bits).step b = ([], q) ∧
        q.IsSound ∧ q ≠ start) ∨
      (∃ c : Char, 0x80 ≤ b.toNat ∧ 0x80 ≤ c.toNat ∧
        (inside more low high bits).step b = ([some c], start)) ∨
      (inside more low high bits).step b = (none :: (begin b).1, (begin b).2) := by
  obtain ⟨hlow, hhigh, hleast, hbeyond⟩ := h
  by_cases hb : low ≤ b ∧ b ≤ high
  · have hb' := hb
    rw [UInt8.le_iff_toNat_le, UInt8.le_iff_toNat_le] at hb'
    have hlarge : 0x80 ≤ b.toNat := by omega
    let v := bits * 0x40 + b.toNat % 0x40
    have hv : bits * 0x40 + low.toNat % 0x40 ≤ v ∧ v ≤ bits * 0x40 + high.toNat % 0x40 := by
      omega
    cases more with
    | zero =>
      rw [Nat.pow_zero, Nat.mul_one] at hleast hbeyond
      have hvalid : v.isValidChar := by
        rw [Nat.isValidChar]
        omega
      have hc : (Char.ofNat v).toNat = v := toNat_ofNat_of_isValidChar hvalid
      refine .inr (.inl ⟨Char.ofNat v, hlarge, ?_, by rw [step, if_pos hb]⟩)
      omega
    | succ more =>
      refine .inl ⟨inside more 0x80 0xBF v, hlarge, by rw [step, if_pos hb], ?_, by simp⟩
      have hfrom := Nat.mul_le_mul_right (0x40 ^ (more + 1)) hv.1
      have hto := Nat.mul_le_mul_right (0x40 ^ (more + 1)) (Nat.add_le_add_right hv.2 1)
      have hfirst : (v * 0x40 + 0) * 0x40 ^ more = v * 0x40 ^ (more + 1) := by ring
      have hlast : (v * 0x40 + 0x3F + 1) * 0x40 ^ more = (v + 1) * 0x40 ^ (more + 1) := by ring
      change 0x80 ≤ 0x80 ∧ 0xBF ≤ 0xBF ∧ 0x80 ≤ (v * 0x40 + 0) * 0x40 ^ more ∧
        ((v * 0x40 + 0x3F + 1) * 0x40 ^ more ≤ 0xD800 ∨ 0xE000 ≤ (v * 0x40 + 0) * 0x40 ^ more ∧
          (v * 0x40 + 0x3F + 1) * 0x40 ^ more ≤ 0x110000)
      rw [hfirst, hlast]
      omega
  · refine .inr (.inr ?_)
    cases more <;> rw [step, if_neg hb]

theorem isSound_begin (b : UInt8) : (begin b).2.IsSound := by
  obtain ⟨-, hb⟩ | ⟨-, hb⟩ | ⟨q, -, hb, hq, -⟩ := begin_cases b
  · rw [hb]
    trivial
  · rw [hb]
    trivial
  · rwa [hb]

theorem IsSound.isSound_step {q : Utf8State} (h : q.IsSound) (b : UInt8) : (q.step b).2.IsSound := by
  cases q with
  | start => exact isSound_begin b
  | inside more low high bits =>
    obtain ⟨q, -, hb, hq, -⟩ | ⟨c, -, -, hb⟩ | hb := step_inside_cases h (b := b)
    · rwa [hb]
    · rw [hb]
      trivial
    · rw [hb]
      exact isSound_begin b

theorem begin_of_ascii {b : UInt8} (hb : b.toNat < 0x80) :
    begin b = ([some (Char.ofNat b.toNat)], start) := by
  rw [begin, if_pos (UInt8.lt_iff_toNat_lt.2 hb)]

/-- An ASCII byte is no part of what comes before it or after it. -/
theorem IsSound.pieces_append_ascii {q : Utf8State} (h : q.IsSound) (first : List UInt8)
    {b : UInt8} (hb : b.toNat < 0x80) (rest : List UInt8) :
    q.pieces (first ++ b :: rest) =
      q.pieces first ++ some (Char.ofNat b.toNat) :: start.pieces rest := by
  induction first generalizing q with
  | nil =>
    rw [List.nil_append, pieces]
    cases q with
    | start => simp [step, begin_of_ascii hb, pieces, finish]
    | inside more low high bits =>
      obtain ⟨_, hlarge, -⟩ | ⟨_, hlarge, -⟩ | hstep := step_inside_cases h (b := b)
      · omega
      · omega
      · simp [hstep, begin_of_ascii hb, pieces, finish]
  | cons a first ih =>
    rw [List.cons_append, pieces, ih (h.isSound_step a), pieces, List.append_assoc]

theorem toNat_eq_of_mem_begin {b : UInt8} {c : Char} (hmem : some c ∈ (begin b).1) :
    c.toNat = b.toNat := by
  obtain ⟨hsmall, hb⟩ | ⟨-, hb⟩ | ⟨_, -, hb, -, -⟩ := begin_cases b <;> simp [hb] at hmem
  rw [hmem, toNat_ofNat_of_isValidChar (.inl (by omega))]

theorem IsSound.toNat_eq_of_mem_step {q : Utf8State} (h : q.IsSound) {b : UInt8} {c : Char}
    (hmem : some c ∈ (q.step b).1) (hc : c.toNat < 0x80) : c.toNat = b.toNat := by
  cases q with
  | start => exact toNat_eq_of_mem_begin hmem
  | inside more low high bits =>
    obtain ⟨_, -, hb, -, -⟩ | ⟨c', -, hlarge, hb⟩ | hb := step_inside_cases h (b := b)
    · simp [hb] at hmem
    · simp only [hb, List.mem_singleton, Option.some.injEq] at hmem
      rw [hmem] at hc
      omega
    · rw [hb, List.mem_cons] at hmem
      exact toNat_eq_of_mem_begin (hmem.resolve_left (by simp))

theorem IsSound.exists_byte_of_mem_pieces {q : Utf8State} (h : q.IsSound) {bytes : List UInt8}
    {c : Char} (hmem : some c ∈ q.pieces bytes) (hc : c.toNat < 0x80) :
    ∃ b ∈ bytes, b.toNat = c.toNat := by
  induction bytes generalizing q with
  | nil => cases q <;> simp [pieces, finish] at hmem
  | cons b bytes ih =>
    rw [pieces, List.mem_append] at hmem
    rcases hmem with hnow | hlater
    · exact ⟨b, List.mem_cons_self, (h.toNat_eq_of_mem_step hnow hc).symm⟩
    · obtain ⟨b', hb', heq⟩ := ih (h.isSound_step b) hlater
      exact ⟨b', List.mem_cons_of_mem _ hb', heq⟩

theorem IsSound.le_of_head?_pieces {q : Utf8State} (h : q.IsSound) (hq : q ≠ start)
    {bytes : List UInt8} {c : Char} (hhead : (q.pieces bytes).head? = some (some c)) :
    0x80 ≤ c.toNat := by
  induction bytes generalizing q with
  | nil => cases q <;> simp [pieces, finish] at hhead
  | cons b bytes ih =>
    cases q with
    | start => exact absurd rfl hq
    | inside more low high bits =>
      obtain ⟨q, -, hb, hsound, hne⟩ | ⟨c', -, hlarge, hb⟩ | hb := step_inside_cases h (b := b)
      · rw [pieces, hb] at hhead
        exact ih hsound hne hhead
      · simp only [pieces, hb, List.cons_append, List.head?_cons, Option.some.injEq] at hhead
        rwa [hhead] at hlarge
      · simp [pieces, hb] at hhead

end Utf8State

theorem decodeLossy_append_ascii (first : List UInt8) {b : UInt8} (hb : b.toNat < 0x80)
    (rest : List UInt8) :
    decodeLossy (first ++ b :: rest) =
      decodeLossy first ++ Char.ofNat b.toNat :: decodeLossy rest := by
  have h := Utf8State.IsSound.pieces_append_ascii (q := .start) trivial first hb rest
  simp [decodeLossy, utf8Pieces, h]

theorem decodeLossy_cons_ascii {b : UInt8} (hb : b.toNat < 0x80) (rest : List UInt8) :
    decodeLossy (b :: rest) = Char.ofNat b.toNat :: decodeLossy rest :=
  decodeLossy_append_ascii [] hb rest

theorem exists_byte_of_mem_decodeLossy {bytes : List UInt8} {c : Char}
    (hmem : c ∈ decodeLossy bytes) (hc : c.toNat < 0x80) : ∃ b ∈ bytes, b.toNat = c.toNat := by
  obtain ⟨piece, hpiece, rfl⟩ := List.mem_map.1 hmem
  cases piece with
  | none => simp at hc
  | some c => exact Utf8State.IsSound.exists_byte_of_mem_pieces (q := .start) trivial hpiece hc

/-- A text starts with an ASCII character only if its first byte is that character. -/
theorem toNat_eq_of_head?_decodeLossy {b : UInt8} {bytes : List UInt8} {c : Char}
    (hhead : (decodeLossy (b :: bytes)).head? = some c) (hc : c.toNat < 0x80) :
    c.toNat = b.toNat := by
  rw [decodeLossy, utf8Pieces, Utf8State.pieces, Utf8State.step] at hhead
  obtain ⟨hb, hbegin⟩ | ⟨-, hbegin⟩ | ⟨q, -, hbegin, hq, hne⟩ := Utf8State.begin_cases b
  · rw [hbegin] at hhead
    simp only [List.cons_append, List.map_cons, List.head?_cons, Option.some.injEq] at hhead
    rw [← hhead]
    exact toNat_ofNat_of_isValidChar (.inl (by omega))
  · rw [hbegin] at hhead
    simp only [List.cons_append, List.map_cons, List.head?_cons, Option.some.injEq] at hhead
    rw [← hhead] at hc
    simp at hc
  · rw [hbegin, List.nil_append, List.head?_map, Option.map_eq_some_iff] at hhead
    obtain ⟨piece, hpiece, hget⟩ := hhead
    cases piece with
    | none =>
      rw [← hget] at hc
      simp at hc
    | some c' =>
      have := hq.le_of_head?_pieces hne hpiece
      rw [Option.getD_some] at hget
      rw [hget] at this
      omega

end Toolpath.Text
