import Toolpath.Proofs.Decoding
import Toolpath.Proofs.LineEnds

/-!
# Bytes that encode a text

The bytes of a text are those of its characters in UTF-8, one after the other. The decoder reads a
character exactly where the bytes go on with its encoding. So bytes are a text or not whichever way
they are read: a strict reader refuses them behind the longest part that is one, and a lossy reader
puts U+FFFD in the same place.
-/

namespace Toolpath

namespace Text

/-- The bytes of a text in UTF-8. -/
def encode (s : List Char) : List UInt8 := s.flatMap String.utf8EncodeChar

/-- The last `count` bytes of a character with the number `v`, with six bits of it in each. -/
def continuation (v : Nat) : Nat → List UInt8
  | 0 => []
  | count + 1 => UInt8.ofNat (v / 0x40 ^ count % 0x40 + 0x80) :: continuation v count

namespace Utf8State

/-- The characters that a state inside one can complete: they have the bits read so far above those
of the bytes to come, of which the next is within its bounds. -/
def Completes (more : Nat) (low high : UInt8) (bits : Nat) (c : Char) : Prop :=
  let ahead := c.toNat / 0x40 ^ more
  ahead / 0x40 = bits ∧ low.toNat ≤ ahead % 0x40 + 0x80 ∧ ahead % 0x40 + 0x80 ≤ high.toNat

variable {more : Nat} {low high : UInt8} {bits : Nat}

theorem eq_ofNat_iff {b : UInt8} (n : Nat) :
    b = UInt8.ofNat (n % 0x40 + 0x80) ↔ b.toNat = n % 0x40 + 0x80 := by
  rw [← UInt8.toNat_inj, UInt8.toNat_ofNat']
  omega

theorem exists_eq_continuation_iff {b : UInt8} {bytes : List UInt8} {v count : Nat}
    {P : List UInt8 → Prop} :
    (∃ rest, b :: bytes = continuation v (count + 1) ++ rest ∧ P rest) ↔
      b.toNat = v / 0x40 ^ count % 0x40 + 0x80 ∧
        ∃ rest, bytes = continuation v count ++ rest ∧ P rest := by
  simp only [continuation, List.cons_append, List.cons.injEq, eq_ofNat_iff, and_assoc,
    exists_and_left]

theorem pieces_of_not_between {b : UInt8} (h : ¬ (low ≤ b ∧ b ≤ high)) (bytes : List UInt8) :
    (inside more low high bits).pieces (b :: bytes) = none :: start.pieces (b :: bytes) := by
  rw [pieces, pieces, step.eq_def]
  simp only [if_neg h, List.cons_append, step]

theorem IsSound.bounds (h : (inside more low high bits).IsSound) :
    0x80 ≤ low.toNat ∧ high.toNat ≤ 0xBF :=
  ⟨h.1, h.2.1⟩

/-- The last byte of a character gives it the number of all its bits. -/
theorem IsSound.pieces_last_iff (h : (inside 0 low high bits).IsSound) {b : UInt8}
    (hb : low ≤ b ∧ b ≤ high) {bytes : List UInt8} {c : Char} {ps : List Piece} :
    (inside 0 low high bits).pieces (b :: bytes) = some c :: ps ↔
      c.toNat = bits * 0x40 + b.toNat % 0x40 ∧ start.pieces bytes = ps := by
  obtain ⟨hstart, hend, -, hvalid⟩ := h
  rw [UInt8.le_iff_toNat_le, UInt8.le_iff_toNat_le] at hb
  rw [Nat.pow_zero, Nat.mul_one, Nat.mul_one] at hvalid
  have hchar : (Char.ofNat (bits * 0x40 + b.toNat % 0x40)).toNat = bits * 0x40 + b.toNat % 0x40 := by
    apply toNat_ofNat_of_isValidChar
    rw [Nat.isValidChar]
    omega
  rw [pieces, step, if_pos (by simpa only [UInt8.le_iff_toNat_le] using hb),
    List.singleton_append, List.cons.injEq, Option.some.injEq, ← Char.toNat_inj, hchar, eq_comm]

theorem IsSound.pieces_inside_iff (h : (inside more low high bits).IsSound) {bytes : List UInt8}
    {c : Char} {ps : List Piece} :
    (inside more low high bits).pieces bytes = some c :: ps ↔
      Completes more low high bits c ∧
        ∃ rest, bytes = continuation c.toNat (more + 1) ++ rest ∧ start.pieces rest = ps := by
  induction more generalizing low high bits bytes with
  | zero =>
    cases bytes with
    | nil => simp [pieces, finish, continuation]
    | cons b bytes =>
      obtain ⟨hstart, hend⟩ := h.bounds
      rw [exists_eq_continuation_iff, Completes]
      by_cases hb : low ≤ b ∧ b ≤ high
      · rw [h.pieces_last_iff hb]
        rw [UInt8.le_iff_toNat_le, UInt8.le_iff_toNat_le] at hb
        simp only [Nat.pow_zero, Nat.div_one, continuation, List.nil_append, exists_eq_left']
        refine (and_congr_left fun _ => ?_).trans and_assoc
        omega
      · rw [pieces_of_not_between hb]
        rw [UInt8.le_iff_toNat_le, UInt8.le_iff_toNat_le] at hb
        simp only [List.cons.injEq, reduceCtorEq, false_and, false_iff]
        omega
  | succ more ih =>
    cases bytes with
    | nil => simp [pieces, finish, continuation]
    | cons b bytes =>
      obtain ⟨hstart, hend⟩ := h.bounds
      rw [exists_eq_continuation_iff, Completes]
      by_cases hb : low ≤ b ∧ b ≤ high
      · have hnext := h.isSound_step b
        have hahead : c.toNat / 0x40 ^ more / 0x40 = c.toNat / 0x40 ^ (more + 1) := by
          rw [Nat.div_div_eq_div_mul, Nat.pow_succ]
        rw [step, if_pos hb] at hnext
        rw [pieces, step, if_pos hb, List.nil_append, ih hnext, Completes, hahead]
        rw [UInt8.le_iff_toNat_le, UInt8.le_iff_toNat_le] at hb
        refine (and_congr_left fun _ => ?_).trans and_assoc
        have hlast : (0x80 : UInt8).toNat = 0x80 ∧ (0xBF : UInt8).toNat = 0xBF := ⟨rfl, rfl⟩
        omega
      · rw [pieces_of_not_between hb]
        rw [UInt8.le_iff_toNat_le, UInt8.le_iff_toNat_le] at hb
        simp only [List.cons.injEq, reduceCtorEq, false_and, false_iff]
        omega

/-- The first byte of a character says how many bytes follow it and has the highest bits. The bounds
of the next byte keep out characters that fewer bytes encode, and numbers of no character. -/
theorem ofLead?_cases (b : UInt8) :
    (∃ bits, ofLead? b = some (inside 0 0x80 0xBF bits) ∧ b.toNat = bits + 0xC0 ∧
        2 ≤ bits ∧ bits < 0x20) ∨
      (∃ low high bits, ofLead? b = some (inside 1 low high bits) ∧ b.toNat = bits + 0xE0 ∧
        bits < 0x10 ∧ (bits = 0 → low.toNat = 0xA0) ∧ (bits ≠ 0 → low.toNat = 0x80) ∧
        (bits = 0xD → high.toNat = 0x9F) ∧ (bits ≠ 0xD → high.toNat = 0xBF)) ∨
      (∃ low high bits, ofLead? b = some (inside 2 low high bits) ∧ b.toNat = bits + 0xF0 ∧
        bits < 5 ∧ (bits = 0 → low.toNat = 0x90) ∧ (bits ≠ 0 → low.toNat = 0x80) ∧
        (bits = 4 → high.toNat = 0x8F) ∧ (bits ≠ 4 → high.toNat = 0xBF)) ∨
      ofLead? b = none ∧ (b.toNat < 0xC2 ∨ 0xF5 ≤ b.toNat) := by
  have hbounds : (0x80 : UInt8).toNat = 0x80 ∧ (0xBF : UInt8).toNat = 0xBF := ⟨rfl, rfl⟩
  simp only [ofLead?, UInt8.le_iff_toNat_le, ← UInt8.toNat_inj, UInt8.reduceToNat]
  split_ifs with htwo hlow hhigh hthree hlow hfour hhigh
  · exact .inl ⟨_, rfl, by omega⟩
  · exact .inr (.inl ⟨_, _, _, rfl, by simp [hlow]⟩)
  · exact .inr (.inl ⟨_, _, _, rfl, by simp [hhigh]⟩)
  · exact .inr (.inl ⟨_, _, _, rfl, by omega⟩)
  · exact .inr (.inr (.inl ⟨_, _, _, rfl, by simp [hlow]⟩))
  · exact .inr (.inr (.inl ⟨_, _, _, rfl, by omega⟩))
  · exact .inr (.inr (.inl ⟨_, _, _, rfl, by simp [hhigh]⟩))
  · exact .inr (.inr (.inr ⟨rfl, by omega⟩))

theorem utf8EncodeChar_eq (c : Char) : String.utf8EncodeChar c =
    if c.toNat ≤ 0x7F then [UInt8.ofNat c.toNat]
    else if c.toNat ≤ 0x7FF then
      UInt8.ofNat (c.toNat / 0x40 % 0x20 + 0xC0) :: continuation c.toNat 1
    else if c.toNat ≤ 0xFFFF then
      UInt8.ofNat (c.toNat / 0x1000 % 0x10 + 0xE0) :: continuation c.toNat 2
    else UInt8.ofNat (c.toNat / 0x40000 % 8 + 0xF0) :: continuation c.toNat 3 := by
  simp only [continuation, Nat.pow_zero, Nat.div_one]
  rfl

/-- Only one byte leads to a state that a character completes. -/
theorem utf8EncodeChar_of_completes {b : UInt8} {c : Char}
    (hlead : ofLead? b = some (inside more low high bits)) (h : Completes more low high bits c) :
    String.utf8EncodeChar c = b :: continuation c.toNat (more + 1) := by
  have hof : ∀ n, b.toNat = n → UInt8.ofNat n = b := by
    rintro n rfl
    exact UInt8.ofNat_toNat
  obtain ⟨bits', hsome, hb⟩ | ⟨low', high', bits', hsome, hb⟩ | ⟨low', high', bits', hsome, hb⟩ |
    ⟨hnone, -⟩ := ofLead?_cases b
  · obtain ⟨rfl, rfl, rfl, rfl⟩ := inside.inj (Option.some.inj (hlead.symm.trans hsome))
    simp only [Completes, Nat.pow_zero, Nat.div_one] at h
    rw [utf8EncodeChar_eq, if_neg (by omega), if_pos (by omega), hof _ (by omega)]
  · obtain ⟨rfl, rfl, rfl, rfl⟩ := inside.inj (Option.some.inj (hlead.symm.trans hsome))
    simp only [Completes, Nat.pow_one] at h
    rw [utf8EncodeChar_eq, if_neg (by omega), if_neg (by omega), if_pos (by omega),
      hof _ (by omega)]
  · obtain ⟨rfl, rfl, rfl, rfl⟩ := inside.inj (Option.some.inj (hlead.symm.trans hsome))
    simp only [Completes, Nat.reducePow] at h
    rw [utf8EncodeChar_eq, if_neg (by omega), if_neg (by omega), if_neg (by omega),
      hof _ (by omega)]
  · rw [hnone] at hlead
    cases hlead

theorem exists_ofLead? {c : Char} (hc : 0x80 ≤ c.toNat) :
    ∃ b more low high bits, ofLead? b = some (inside more low high bits) ∧
      Completes more low high bits c := by
  have hvalid : c.toNat < 0xD800 ∨ 0xDFFF < c.toNat ∧ c.toNat < 0x110000 := c.valid
  have hbounds : (0x80 : UInt8).toNat = 0x80 ∧ (0xBF : UInt8).toNat = 0xBF := ⟨rfl, rfl⟩
  obtain ⟨b, hb⟩ : ∃ b : UInt8, c.toNat < 0x800 ∧ b.toNat = c.toNat / 0x40 + 0xC0 ∨
      (0x800 ≤ c.toNat ∧ c.toNat < 0x10000) ∧ b.toNat = c.toNat / 0x1000 + 0xE0 ∨
      0x10000 ≤ c.toNat ∧ b.toNat = c.toNat / 0x40000 + 0xF0 := by
    have hnumber : ∀ n < 0x100, (UInt8.ofNat n).toNat = n := fun n hn => by
      rw [UInt8.toNat_ofNat', Nat.mod_eq_of_lt hn]
    obtain htwo | hthree | hfour : c.toNat < 0x800 ∨ (0x800 ≤ c.toNat ∧ c.toNat < 0x10000) ∨
        0x10000 ≤ c.toNat := by omega
    · exact ⟨_, .inl ⟨htwo, hnumber _ (by omega)⟩⟩
    · exact ⟨_, .inr (.inl ⟨hthree, hnumber _ (by omega)⟩)⟩
    · exact ⟨_, .inr (.inr ⟨hfour, hnumber _ (by omega)⟩)⟩
  obtain ⟨bits, hsome, hlead⟩ | ⟨low, high, bits, hsome, hlead⟩ | ⟨low, high, bits, hsome, hlead⟩ |
    ⟨hnone, hlead⟩ := ofLead?_cases b
  · refine ⟨b, 0, _, _, bits, hsome, ?_⟩
    simp only [Completes, Nat.pow_zero, Nat.div_one]
    omega
  · refine ⟨b, 1, low, high, bits, hsome, ?_⟩
    simp only [Completes, Nat.pow_one]
    omega
  · refine ⟨b, 2, low, high, bits, hsome, ?_⟩
    simp only [Completes, Nat.reducePow]
    omega
  · omega

theorem pieces_of_ofLead? {b : UInt8} {q : Utf8State} (h : ofLead? b = some q)
    (bytes : List UInt8) : start.pieces (b :: bytes) = q.pieces bytes := by
  have hb : ¬ b < 0x80 := by
    intro hb
    rw [UInt8.lt_iff_toNat_lt] at hb
    have hsmall : b.toNat < 0x80 := hb
    obtain ⟨_, _, hlead⟩ | ⟨_, _, _, _, hlead⟩ | ⟨_, _, _, _, hlead⟩ | ⟨hnone, -⟩ := ofLead?_cases b
    · omega
    · omega
    · omega
    · rw [hnone] at h
      cases h
  rw [pieces, step, begin, if_neg hb, h, List.nil_append]

/-- A character is read exactly where its encoding comes first. -/
theorem pieces_start_iff {bytes : List UInt8} {c : Char} {ps : List Piece} :
    start.pieces bytes = some c :: ps ↔
      ∃ rest, bytes = String.utf8EncodeChar c ++ rest ∧ start.pieces rest = ps := by
  constructor
  · intro h
    cases bytes with
    | nil => simp [pieces, finish] at h
    | cons b bytes =>
      by_cases hb : b < 0x80
      · have hsmall : b.toNat < 0x80 := hb
        have hchar : (Char.ofNat b.toNat).toNat = b.toNat :=
          toNat_ofNat_of_isValidChar (.inl (by omega))
        rw [pieces, step, begin, if_pos hb, List.singleton_append, List.cons.injEq,
          Option.some.injEq] at h
        obtain ⟨rfl, hrest⟩ := h
        refine ⟨bytes, ?_, hrest⟩
        rw [utf8EncodeChar_eq, hchar, if_pos (by omega), UInt8.ofNat_toNat, List.singleton_append]
      · cases hlead : ofLead? b with
        | none =>
          rw [pieces, step, begin, if_neg hb, hlead] at h
          simp at h
        | some q =>
          obtain ⟨hsound, hinside⟩ := isSound_ofLead? hlead
          rw [pieces_of_ofLead? hlead] at h
          cases q with
          | start => exact absurd rfl hinside
          | inside more low high bits =>
            obtain ⟨hcompletes, rest, hbytes, hrest⟩ := hsound.pieces_inside_iff.1 h
            refine ⟨rest, ?_, hrest⟩
            rw [utf8EncodeChar_of_completes hlead hcompletes, hbytes, List.cons_append]
  · rintro ⟨rest, rfl, rfl⟩
    by_cases hc : c.toNat < 0x80
    · have hb : (UInt8.ofNat c.toNat).toNat = c.toNat := by
        rw [UInt8.toNat_ofNat']
        omega
      rw [utf8EncodeChar_eq, if_pos (by omega), List.singleton_append]
      have hsmall : UInt8.ofNat c.toNat < 0x80 := by
        rw [UInt8.lt_iff_toNat_lt, hb]
        exact hc
      rw [pieces, step, begin, if_pos hsmall, hb, Char.ofNat_toNat, List.singleton_append]
    · obtain ⟨b, more, low, high, bits, hlead, hcompletes⟩ := exists_ofLead? (Nat.le_of_not_lt hc)
      rw [utf8EncodeChar_of_completes hlead hcompletes, List.cons_append, pieces_of_ofLead? hlead,
        (isSound_ofLead? hlead).1.pieces_inside_iff]
      exact ⟨hcompletes, rest, rfl, rfl⟩

theorem pieces_inside_ne_nil (bytes : List UInt8) : (inside more low high bits).pieces bytes ≠ [] := by
  induction bytes generalizing more low high bits with
  | nil => exact List.cons_ne_nil _ _
  | cons b bytes ih =>
    by_cases hb : low ≤ b ∧ b ≤ high
    · cases more with
      | zero =>
        rw [pieces, step, if_pos hb]
        exact List.cons_ne_nil _ _
      | succ more =>
        rw [pieces, step, if_pos hb]
        exact ih
    · rw [pieces_of_not_between hb]
      exact List.cons_ne_nil _ _

/-- No bytes go unread. -/
theorem eq_nil_of_pieces_start {bytes : List UInt8} (h : start.pieces bytes = []) : bytes = [] := by
  cases bytes with
  | nil => rfl
  | cons b bytes =>
    rw [pieces, step] at h
    obtain ⟨-, hb⟩ | ⟨-, hb⟩ | ⟨q, -, hb, -, hinside⟩ := begin_cases b
    · simp [hb] at h
    · simp [hb] at h
    · rw [hb, List.nil_append] at h
      cases q with
      | start => exact absurd rfl hinside
      | inside more low high bits => exact absurd h (pieces_inside_ne_nil bytes)

end Utf8State

theorem encode_cons (c : Char) (s : List Char) :
    encode (c :: s) = String.utf8EncodeChar c ++ encode s := List.flatMap_cons

theorem foldl_utf8Size (s : List Char) (n : Nat) :
    s.foldl (fun size c => size + c.utf8Size) n = n + (encode s).length := by
  induction s generalizing n with
  | nil => rfl
  | cons c s ih =>
    rw [List.foldl_cons, ih, encode_cons, List.length_append, String.length_utf8EncodeChar,
      Nat.add_assoc]

/-- Characters are read exactly where their encoding comes first. -/
theorem utf8Pieces_eq_append_iff {bytes : List UInt8} {s : List Char} {ps : List Piece} :
    utf8Pieces bytes = s.map some ++ ps ↔
      ∃ rest, bytes = encode s ++ rest ∧ utf8Pieces rest = ps := by
  induction s generalizing bytes with
  | nil => simp [encode]
  | cons c s ih =>
    rw [List.map_cons, List.cons_append, utf8Pieces, Utf8State.pieces_start_iff]
    constructor
    · rintro ⟨rest, rfl, hrest⟩
      obtain ⟨rest', rfl, hrest'⟩ := ih.1 hrest
      exact ⟨rest', by rw [encode_cons, List.append_assoc], hrest'⟩
    · rintro ⟨rest, rfl, hrest⟩
      exact ⟨encode s ++ rest, by rw [encode_cons, List.append_assoc], ih.2 ⟨rest, rfl, hrest⟩⟩

/-- Pieces are all characters, or there is a first invalid run. -/
theorem pieces_cases (ps : List Piece) :
    ∃ s : List Char, ps = s.map some ∨ ∃ rest, ps = s.map some ++ none :: rest := by
  induction ps with
  | nil => exact ⟨[], .inl rfl⟩
  | cons piece ps ih =>
    cases piece with
    | none => exact ⟨[], .inr ⟨ps, rfl⟩⟩
    | some c =>
      obtain ⟨s, rfl | ⟨rest, rfl⟩⟩ := ih
      · exact ⟨c :: s, .inl rfl⟩
      · exact ⟨c :: s, .inr ⟨rest, rfl⟩⟩

theorem utf8Pieces_encode (s : List Char) : utf8Pieces (encode s) = s.map some := by
  have h := utf8Pieces_eq_append_iff.2 ⟨[], (List.append_nil (encode s)).symm, utf8Pieces_nil⟩
  rwa [List.append_nil] at h

/-- Where bytes encode a text, both readers give it. -/
theorem decode_encode (s : List Char) :
    decodeStrict (encode s) = .ok s ∧ decodeLossy (encode s) = s := by
  constructor
  · have hall : (s.map some).all Option.isSome = true := by simp
    have htake : (s.map some).takeWhile Option.isSome = s.map some :=
      List.takeWhile_eq_self_iff.2 (by simp)
    have hchars : validChars (s.map some) = s := by
      rw [validChars, htake]
      simp
    rw [decodeStrict, utf8Pieces_encode, if_pos hall, hchars]
  · rw [decodeLossy, utf8Pieces_encode, List.map_map]
    exact List.map_id s

theorem decodeStrict_of_pieces {bytes : List UInt8} {s : List Char} {ps : List Piece}
    (h : utf8Pieces bytes = s.map some ++ none :: ps) :
    decodeStrict bytes = .error (encode s).length := by
  have hall : ¬ (s.map some ++ none :: ps).all Option.isSome = true := by simp
  have hchars : validChars (s.map some ++ none :: ps) = s := by
    have htake : (s.map some ++ none :: ps).takeWhile Option.isSome = s.map some := by
      rw [List.takeWhile_append_of_pos (by simp)]
      simp
    rw [validChars, htake]
    simp
  rw [decodeStrict, h, if_neg hall, hchars, foldl_utf8Size, Nat.zero_add]

/-- A text in front of an invalid run is part of the characters before it. -/
theorem length_encode_le_of_append {s t : List Char} {ps ps' : List Piece}
    (h : s.map some ++ none :: ps = t.map some ++ ps') : (encode t).length ≤ (encode s).length := by
  induction t generalizing s with
  | nil => exact Nat.zero_le _
  | cons c t ih =>
    cases s with
    | nil => simp at h
    | cons d s =>
      rw [List.map_cons, List.map_cons, List.cons_append, List.cons_append, List.cons.injEq,
        Option.some.injEq] at h
      obtain ⟨rfl, hrest⟩ := h
      have hle := ih hrest
      rw [encode_cons, encode_cons, List.length_append, List.length_append]
      omega

/-- Where bytes encode no text, the strict reader stops behind the longest part in front that does,
and there the lossy reader puts U+FFFD. -/
theorem decode_of_not_encode {bytes : List UInt8} (h : ∀ s, bytes ≠ encode s) :
    ∃ s rest, decodeStrict bytes = .error (encode s).length ∧ (encode s).length < bytes.length ∧
      bytes.take (encode s).length = encode s ∧
      (∀ n, (encode s).length < n → n ≤ bytes.length → ∀ t, bytes.take n ≠ encode t) ∧
      decodeLossy bytes = s ++ '\uFFFD' :: rest := by
  obtain ⟨s, hpieces | ⟨ps, hpieces⟩⟩ := pieces_cases (utf8Pieces bytes)
  · rw [← List.append_nil (s.map some), utf8Pieces_eq_append_iff] at hpieces
    obtain ⟨rest, hbytes, hrest⟩ := hpieces
    rw [Utf8State.eq_nil_of_pieces_start hrest, List.append_nil] at hbytes
    exact absurd hbytes (h s)
  · obtain ⟨rest, hbytes, hrest⟩ := utf8Pieces_eq_append_iff.1 hpieces
    refine ⟨s, ps.map (·.getD '\uFFFD'), decodeStrict_of_pieces hpieces, ?_, ?_, ?_, ?_⟩
    · have hne : rest ≠ [] := by
        rintro rfl
        cases hrest
      rw [hbytes, List.length_append]
      exact Nat.lt_add_of_pos_right (List.length_pos_of_ne_nil hne)
    · rw [hbytes, List.take_left]
    · intro n hn hle t ht
      have hsplit : utf8Pieces bytes = t.map some ++ utf8Pieces (bytes.drop n) := by
        rw [utf8Pieces_eq_append_iff]
        exact ⟨bytes.drop n, by rw [← ht, List.take_append_drop], rfl⟩
      have hlength := length_encode_le_of_append (hpieces.symm.trans hsplit)
      rw [← ht, List.length_take, Nat.min_eq_left hle] at hlength
      omega
    · rw [decodeLossy, hpieces, List.map_append, List.map_map, List.map_cons]
      congr 1
      exact List.map_id s

end Text

/-- Bytes without a line end are the whole of a line that a line feed ends. -/
theorem Line.ofBytes_of_isInner {bytes : List UInt8} (h : FileLine.IsInner bytes) :
    Line.ofBytes (bytes ++ [Cutter.lineFeed]) =
      [⟨String.ofList (Text.decodeLossy bytes), bytes.length + 1⟩] := by
  rw [Line.ofBytes, Cutter.feed_append, Cutter.feed_of_isInner {} h, Cutter.feed_cons,
    Cutter.step_lineFeed (by simp)]
  simp [Cutter.feed, Cutter.tailText, Cutter.finish]

namespace Record

/-- The bytes of one line are read strictly or as part of a stream. If they encode a text, both ways
give its record. If not, the strict one is refused behind the longest part in front that encodes a
text, and in the stream U+FFFD stands there. -/
theorem ofBytes_agrees_with_line {bytes : List UInt8} (h : FileLine.IsInner bytes) (number : Nat) :
    ∃ line, Line.ofBytes (bytes ++ [Cutter.lineFeed]) = [line] ∧
      (∀ s, bytes = Text.encode s →
        line.text = String.ofList s ∧ ofBytes bytes number = .ok line.record) ∧
      ((∀ s, bytes ≠ Text.encode s) → ∃ offset s rest,
        ofBytes bytes number = .error (.notText number offset) ∧ offset < bytes.length ∧
        bytes.take offset = Text.encode s ∧
        (∀ n, offset < n → n ≤ bytes.length → ∀ t, bytes.take n ≠ Text.encode t) ∧
        line.text = String.ofList (s ++ '\uFFFD' :: rest)) := by
  refine ⟨_, Line.ofBytes_of_isInner h, ?_, ?_⟩
  · rintro s rfl
    obtain ⟨hstrict, hlossy⟩ := Text.decode_encode s
    rw [hlossy]
    refine ⟨rfl, ?_⟩
    rw [ofBytes, hstrict, Line.record, ofLine, String.toList_ofList]
  · intro hbytes
    obtain ⟨s, rest, hstrict, hlength, htake, hlongest, hlossy⟩ := Text.decode_of_not_encode hbytes
    refine ⟨_, s, rest, ?_, hlength, htake, hlongest, by rw [hlossy]⟩
    rw [ofBytes, hstrict]

/-- The encoding of a surrogate, which is no character, behind a character of two bytes. -/
theorem ofBytes_agrees_with_line_surrogate :
    let bytes : List UInt8 := [0xC2, 0xB5, 0xED, 0xA0, 0x80, 0x58]
    FileLine.IsInner bytes ∧ (∀ s, bytes ≠ Text.encode s) ∧
      ofBytes bytes 7 = .error (.notText 7 2) ∧
      ∃ line rest, Line.ofBytes (bytes ++ [Cutter.lineFeed]) = [line] ∧
        line.text = String.ofList ('µ' :: '\uFFFD' :: rest) := by
  intro bytes
  have hinner : FileLine.IsInner bytes := by decide
  have herror : ofBytes bytes 7 = .error (.notText 7 2) := rfl
  obtain ⟨line, hline, hvalid, hinvalid⟩ := ofBytes_agrees_with_line hinner 7
  have hbytes : ∀ s, bytes ≠ Text.encode s := by
    intro s hs
    rw [(hvalid s hs).2] at herror
    cases herror
  refine ⟨hinner, hbytes, herror, line, ?_⟩
  obtain ⟨offset, s, rest, hstop, -, htake, -, htext⟩ := hinvalid hbytes
  rw [herror] at hstop
  obtain rfl : 2 = offset := (Error.notText.inj (Except.error.inj hstop)).2
  have hs : Text.decodeStrict (bytes.take 2) = .ok s := by rw [htake, (Text.decode_encode s).1]
  obtain rfl : ['µ'] = s := Except.ok.inj hs
  exact ⟨rest, hline, htext⟩

end Record

end Toolpath
