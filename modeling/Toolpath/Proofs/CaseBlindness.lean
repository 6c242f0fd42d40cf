import Mathlib.Data.List.Forall2
import Toolpath.Proofs.Decoding
import Toolpath.Proofs.LetterCase
import Toolpath.Proofs.SameLines

/-!
# Loads do not depend on letter case

Bytes are changed in the case of their ASCII letters, wherever these stand: in an instruction, in a
comment, or amid bytes that are no text. The same lines come of them, apart from the case of their
letters, and the same records, apart from the comments' own texts. So the loads are the same.
-/

namespace Toolpath

/-- The byte itself, or the same ASCII letter in the other case. -/
def IsCaseOf (b b' : UInt8) : Prop :=
  b' = b ∨ (0x41 ≤ b ∧ b ≤ 0x5A ∨ 0x61 ≤ b ∧ b ≤ 0x7A) ∧ b' = b ^^^ 0x20

instance (b b' : UInt8) : Decidable (IsCaseOf b b') := inferInstanceAs (Decidable (_ ∨ _))

def lowerByte (b : UInt8) : UInt8 := if 0x41 ≤ b ∧ b ≤ 0x5A then b + 0x20 else b

theorem forall_byte {p : UInt8 → Prop} (h : ∀ n < 0x100, p (UInt8.ofNat n)) (b : UInt8) : p b := by
  have hb := h b.toNat b.toNat_lt
  rwa [UInt8.ofNat_toNat] at hb

theorem IsCaseOf.lowerByte_eq {b b' : UInt8} (h : IsCaseOf b b') : lowerByte b' = lowerByte b := by
  have hflip : ∀ b : UInt8, (0x41 ≤ b ∧ b ≤ 0x5A ∨ 0x61 ≤ b ∧ b ≤ 0x7A) →
      lowerByte (b ^^^ 0x20) = lowerByte b := forall_byte (by decide +kernel)
  obtain rfl | ⟨hletter, rfl⟩ := h
  · rfl
  · exact hflip b hletter

theorem map_lowerByte_eq {bytes bytes' : List UInt8} (h : List.Forall₂ IsCaseOf bytes bytes') :
    bytes'.map lowerByte = bytes.map lowerByte := by
  induction h with
  | nil => rfl
  | cons hbyte _ ih => rw [List.map_cons, List.map_cons, hbyte.lowerByte_eq, ih]

theorem lowerByte_of_not_ascii {b : UInt8} (h : 0x80 ≤ b.toNat) : lowerByte b = b := by
  rw [lowerByte, if_neg]
  rw [UInt8.le_iff_toNat_le, UInt8.le_iff_toNat_le]
  have h90 : (0x5A : UInt8).toNat = 90 := rfl
  omega

theorem lowerByte_of_ascii : ∀ b : UInt8, b.toNat < 0x80 →
    (lowerByte b).toNat < 0x80 ∧ Char.ofNat (lowerByte b).toNat = (Char.ofNat b.toNat).toLower :=
  forall_byte (by decide +kernel)

theorem lowerByte_eq_iff {s : UInt8} (hs : s = Cutter.lineFeed ∨ s = Cutter.carriageReturn)
    (b : UInt8) : lowerByte b = s ↔ b = s := by
  have hsmall : s.toNat < 0x41 := by
    rcases hs with rfl | rfl <;> decide
  unfold lowerByte
  split
  · rename_i h
    rw [UInt8.le_iff_toNat_le, UInt8.le_iff_toNat_le] at h
    have hlow : 0x41 ≤ b.toNat := h.1
    have hhigh : b.toNat ≤ 0x5A := h.2
    have hadd : (b + 0x20).toNat = b.toNat + 0x20 := by
      rw [UInt8.toNat_add]
      change (b.toNat + 0x20) % 0x100 = b.toNat + 0x20
      omega
    rw [← UInt8.toNat_inj, ← UInt8.toNat_inj, hadd]
    omega
  · rfl

namespace Text

namespace Utf8State

theorem begin_lowerByte (b : UInt8) :
    begin (lowerByte b) = ((begin b).1.map (Option.map Char.toLower), (begin b).2) := by
  by_cases hb : b.toNat < 0x80
  · obtain ⟨hlower, hchar⟩ := lowerByte_of_ascii b hb
    rw [begin_of_ascii hlower, begin_of_ascii hb, hchar]
    rfl
  · rw [lowerByte_of_not_ascii (Nat.le_of_not_lt hb)]
    obtain ⟨hsmall, -⟩ | ⟨-, hbegin⟩ | ⟨q, -, hbegin, -⟩ := begin_cases b
    · exact absurd hsmall hb
    · rw [hbegin]
      rfl
    · rw [hbegin]
      rfl

/-- An ASCII letter is read afresh wherever it stands, and no other byte changes with the case. -/
theorem IsSound.step_lowerByte {q : Utf8State} (h : q.IsSound) (b : UInt8) :
    q.step (lowerByte b) = ((q.step b).1.map (Option.map Char.toLower), (q.step b).2) := by
  cases q with
  | start => exact begin_lowerByte b
  | inside more low high bits =>
    by_cases hb : b.toNat < 0x80
    · have hfresh : ∀ a : UInt8, a.toNat < 0x80 →
          (inside more low high bits).step a = (none :: (begin a).1, (begin a).2) := by
        intro a ha
        obtain ⟨_, hlarge, -⟩ | ⟨_, hlarge, -⟩ | hstep := step_inside_cases h (b := a)
        · omega
        · omega
        · exact hstep
      rw [hfresh _ (lowerByte_of_ascii b hb).1, hfresh b hb, begin_lowerByte]
      rfl
    · rw [lowerByte_of_not_ascii (Nat.le_of_not_lt hb)]
      obtain ⟨_, -, hstep, -⟩ | ⟨c, -, hc, hstep⟩ | hstep := step_inside_cases h (b := b)
      · rw [hstep]
        rfl
      · rw [hstep, List.map_singleton, Option.map_some, toLower_of_not_ascii hc]
      · have hbegin := begin_lowerByte b
        rw [lowerByte_of_not_ascii (Nat.le_of_not_lt hb)] at hbegin
        have hpieces : (begin b).1.map (Option.map Char.toLower) = (begin b).1 :=
          (congrArg Prod.fst hbegin).symm
        rw [hstep, List.map_cons, hpieces]
        rfl

theorem IsSound.pieces_map_lowerByte {q : Utf8State} (h : q.IsSound) (bytes : List UInt8) :
    q.pieces (bytes.map lowerByte) = (q.pieces bytes).map (Option.map Char.toLower) := by
  induction bytes generalizing q with
  | nil => cases q <;> rfl
  | cons b rest ih =>
    rw [List.map_cons, pieces, pieces, h.step_lowerByte, ih (h.isSound_step b), List.map_append]

end Utf8State

theorem decodeLossy_map_lowerByte (bytes : List UInt8) :
    decodeLossy (bytes.map lowerByte) = (decodeLossy bytes).map Char.toLower := by
  rw [decodeLossy, decodeLossy, utf8Pieces, utf8Pieces,
    Utf8State.IsSound.pieces_map_lowerByte (q := .start) trivial, List.map_map, List.map_map]
  apply List.map_congr_left
  intro piece _
  cases piece with
  | none => rfl
  | some c => rfl

end Text

/-- The line with its ASCII letters in lower case. -/
def Line.lowered (line : Line) : Line :=
  { line with text := String.ofList (line.text.toList.map Char.toLower) }

namespace Cutter

def lowered (c : Cutter) : Cutter := { c with tail := c.tail.map lowerByte }

theorem tailText_lowered (c : Cutter) : c.lowered.tailText = c.tailText.map Char.toLower := by
  rw [tailText, tailText, ← Text.decodeLossy_map_lowerByte, lowered, Array.toList_map]

theorem lowered_ofTail (c : Cutter) (n : Nat) :
    (⟨String.ofList c.lowered.tailText, n⟩ : Line) =
      Line.lowered ⟨String.ofList c.tailText, n⟩ := by
  rw [tailText_lowered, Line.lowered, String.toList_ofList]

theorem lowered_of_empty (n : Nat) (afterReturn : Bool) :
    ({ bytes := n, afterReturn := afterReturn } : Cutter).lowered =
      { bytes := n, afterReturn := afterReturn } := by
  simp [lowered]

theorem step_lowered (c : Cutter) (b : UInt8) :
    c.lowered.step (lowerByte b) = ((c.step b).1.lowered, (c.step b).2.map Line.lowered) := by
  have hfeed : lowerByte b = lineFeed ↔ b = lineFeed := lowerByte_eq_iff (.inl rfl) b
  have hreturn : lowerByte b = carriageReturn ↔ b = carriageReturn := lowerByte_eq_iff (.inr rfl) b
  by_cases hb : b = lineFeed
  · rw [hfeed.2 hb, hb]
    cases hafter : c.afterReturn with
    | true =>
      have hlowered : c.lowered.afterReturn = true := hafter
      rw [step_lineFeed_of_afterReturn hafter, step_lineFeed_of_afterReturn hlowered]
      rfl
    | false =>
      have hlowered : c.lowered.afterReturn = false := hafter
      rw [step_lineFeed hafter, step_lineFeed hlowered, lowered_ofTail, lowered_of_empty]
      rfl
  by_cases hb' : b = carriageReturn
  · rw [hreturn.2 hb', hb', step_carriageReturn, step_carriageReturn, lowered_ofTail,
      lowered_of_empty]
    rfl
  rw [step_of_ne _ (mt hfeed.1 hb) (mt hreturn.1 hb'), step_of_ne _ hb hb']
  simp [lowered]

theorem feed_lowered (c : Cutter) (bytes : List UInt8) :
    c.lowered.feed (bytes.map lowerByte) =
      ((c.feed bytes).1.lowered, (c.feed bytes).2.map Line.lowered) :=
  Transducer.run_map_of_step step_lowered c bytes

theorem linesOf_finish_lowered (c : Cutter) :
    Batch.linesOf c.lowered.finish.2 = (Batch.linesOf c.finish.2).map Line.lowered := by
  have htrim : Text.trimEnd c.lowered.tailText = (Text.trimEnd c.tailText).map Char.toLower := by
    rw [tailText_lowered, Text.trimEnd_map_toLower]
  unfold finish
  simp only [htrim, List.isEmpty_map]
  split
  · rfl
  · simp [Line.lowered, lowered]

end Cutter

theorem Line.ofBytes_map_lowerByte (bytes : List UInt8) :
    Line.ofBytes (bytes.map lowerByte) = (Line.ofBytes bytes).map Line.lowered := by
  have hfeed := Cutter.feed_lowered {} bytes
  rw [Cutter.lowered_of_empty] at hfeed
  unfold Line.ofBytes
  simp only [hfeed, List.map_append, Cutter.linesOf_finish_lowered]

theorem Line.record_lowered (line : Line) : line.lowered.record = line.record.lowered := by
  rw [Line.record, Record.ofLine, Line.lowered, String.toList_ofList, Record.ofText_map_toLower]
  rfl

/-- Where a line ends, and what it says, whatever the case of its comment. -/
def Line.content (line : Line) : Nat × Record := (line.bytes, line.record.lowered)

theorem Line.contents_eq {bytes bytes' : List UInt8} (h : List.Forall₂ IsCaseOf bytes bytes') :
    (Line.ofBytes bytes').map Line.content = (Line.ofBytes bytes).map Line.content := by
  have hlowered : ∀ bytes : List UInt8, (Line.ofBytes bytes).map Line.content =
      (Line.ofBytes (bytes.map lowerByte)).map fun line => (line.bytes, line.record) := by
    intro bytes
    rw [Line.ofBytes_map_lowerByte, List.map_map]
    apply List.map_congr_left
    intro line _
    rw [Function.comp, Line.record_lowered]
    rfl
  rw [hlowered bytes', map_lowerByte_eq h, hlowered]

namespace Loader

/-- Files that differ in the case of ASCII letters alone have the same lines, each with the same
command, words and tags, and load alike. Where a line has a comment, so has the other, and the two
are the same but for the case of ASCII letters. -/
theorem load_blind_to_case {first second : Script}
    (hcase : List.Forall₂ IsCaseOf first.delivered second.delivered) :
    (Line.ofBytes second.delivered).map Line.content =
      (Line.ofBytes first.delivered).map Line.content ∧
    ∀ (l l' : Loader) (total total' : Option Nat) (c c' : Cancellation)
      (summary summary' : LoadSummary), l'.mode = l.mode →
      l'.machine.options = l.machine.options → (l.load first total c).result = .ok summary →
      (l'.load second total' c').result = .ok summary' →
      (l'.load second total' c').Agrees (l.load first total c) := by
  have hcontents := Line.contents_eq hcase
  refine ⟨hcontents, ?_⟩
  intro l l' total total' c c' summary summary' hmode hoptions hfirst hsecond
  have hrecords := congrArg (List.map fun content => content.2.withoutComment) hcontents
  rw [List.map_map, List.map_map] at hrecords
  have hagree := load_agrees_of_records hmode hoptions hrecords hfirst hsecond
  rwa [← hcase.length_eq, (load_isLoadOf_of_ok hfirst).withBytes_self] at hagree

/-- A sigma at the end of a word and a byte that is no text stand amid the letters that change. -/
theorem load_blind_to_case_around_sigma :
    let l : Loader := { machine := .ofOptions {}, chunkSize := 5 }
    let first := ".oΣ;Z_AXIS:e,layer:1E1\ng1 x3E2 ".toUTF8.data.toList ++ [0xFF, 0x66, 0x36]
    let second := ".OΣ;z_Axis:E,lAyer:1e1\nG1 X3e2 ".toUTF8.data.toList ++ [0xFF, 0x46, 0x36]
    (l.load (.ofBytes first) none {}).segments.length = 1 ∧
      ({ l with chunkSize := 3 }.load (.ofBytes second) none .never).Agrees
        (l.load (.ofBytes first) none {}) := by
  intro l first second
  have hcase : List.Forall₂ IsCaseOf (Script.ofBytes first).delivered
      (Script.ofBytes second).delivered := by
    rw [Script.delivered_ofBytes, Script.delivered_ofBytes]
    decide +kernel
  have hcalm : (Script.ofBytes first).IsCalm ∧ (Script.ofBytes second).IsCalm := by
    decide +kernel
  have hfirst := (l.load_isLoadOf_of_isCalm hcalm.1 none (c := {}) rfl).result
  have hsecond := (({ l with chunkSize := 3 } : Loader).load_isLoadOf_of_isCalm hcalm.2 none
    (c := .never) rfl).result
  exact ⟨by decide +kernel, (load_blind_to_case hcase).2 _ _ _ _ _ _ _ _ rfl rfl hfirst hsecond⟩

end Loader

end Toolpath
