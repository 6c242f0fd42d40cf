import Mathlib.Data.Nat.Count
import Toolpath.Proofs.Numbering

/-!
# Records that ask for nothing

A record is inert if it has no command that is recognized, and no tag that sets or moves anything.
It is counted as a line and adds the position to the trace once more, but nothing else comes of it.
So inert records may be deleted, wherever they stand: the records that are kept draw what they drew,
with the numbers of lines that have moved up.
-/

namespace Toolpath

/-- What is left of a list without the entries at the deleted positions, counted from zero. -/
def remaining {α : Type} (deleted : Nat → Bool) : List α → List α
  | [] => []
  | a :: rest =>
    let later := remaining (fun k => deleted (k + 1)) rest
    if deleted 0 then later else a :: later

theorem length_remaining {α : Type} (deleted : Nat → Bool) (l : List α) :
    (remaining deleted l).length + Nat.count (fun k => deleted k) l.length = l.length := by
  induction l generalizing deleted with
  | nil => rfl
  | cons a rest ih =>
    have hrest := ih fun k => deleted (k + 1)
    rw [remaining, List.length_cons, Nat.count_succ']
    cases deleted 0 with
    | true =>
      simp only [if_true]
      omega
    | false =>
      simp only [Bool.false_eq_true, if_false, List.length_cons]
      omega

/-- The number that a line behind line `n` has without the deleted lines, where `before` of the
lines up to `n` are deleted, and positions are counted from behind them. -/
def lineAfter (deleted : Nat → Bool) (n before line : Nat) : Nat :=
  line - (before + Nat.count (fun k => deleted k) (line - n - 1))

theorem lineAfter_succ (deleted : Nat → Bool) (n before : Nat) :
    lineAfter deleted n before (n + 1) = n + 1 - before := by
  rw [lineAfter, Nat.add_sub_cancel_left, Nat.sub_self, Nat.count_zero]
  rfl

theorem lineAfter_of_lt {deleted : Nat → Bool} {n before line : Nat} (h : n + 1 < line) :
    lineAfter deleted n before line =
      lineAfter (fun k => deleted (k + 1)) (n + 1) (before + if deleted 0 then 1 else 0) line := by
  have hline : line - n - 1 = line - (n + 1) - 1 + 1 := by omega
  rw [lineAfter, lineAfter, hline, Nat.count_succ']
  omega

namespace Record

/-- The keys of all tags that set something or move the tool. -/
def modalKeys : List String :=
  ["cts", "layer_height", "total_layers", "total_layer", "totallayers", "totallayer",
    "enable_layer_view", "layer"]

def isInert (r : Record) : Bool :=
  !r.command.any Command.isRecognized && modalKeys.all fun key => r.tags[key]?.isNone

end Record

def Segment.atLine (s : Segment) (n : Nat) : Segment := { s with sourceLine := n }

namespace Modal

/-- The same settings and position when `n` lines have been counted. -/
def atLine (m : Modal) (n : Nat) : Modal := { m with lineCount := n }

variable (m : Modal) {r : Record}

theorem applyTags_of_isInert (h : r.isInert = true) : m.applyTags r = m := by
  simp only [Record.isInert, Record.modalKeys, List.all_cons, List.all_nil, Bool.and_eq_true,
    Option.isNone_iff_eq_none] at h
  obtain ⟨-, hcts, hheight, htotal, htotal', htotal'', htotal''', hview, hlayer, -⟩ := h
  simp [applyTags, applySettings, layerZ?, Record.tagNumber?, totalLayersOf?, totalLayersKeys,
    hcts, hheight, htotal, htotal', htotal'', htotal''', hview, hlayer]

/-- An inert record is counted, and that is all. -/
theorem step_of_isInert (h : r.isInert = true) :
    m.step r = (m.atLine (m.lineCount + 1), none) := by
  have htags : ({ m with lineCount := m.lineCount + 1 } : Modal).applyTags r = _ :=
    applyTags_of_isInert _ h
  have hcommand : ∀ command, r.command = some command → command.isRecognized = false := by
    simp only [Record.isInert, Bool.and_eq_true, Bool.not_eq_true'] at h
    intro command heq
    rw [heq] at h
    exact h.1
  simp only [step, htags, segment?, shape?, positioningAfter]
  cases hr : r.command with
  | none => rfl
  | some command =>
    cases command with
    | other code => rfl
    | rapid | linear | arc | absolute | relative => cases hcommand _ hr

/-- The number of a line has no influence on anything but the numbers that follow it. -/
theorem step_atLine (n : Nat) (r : Record) :
    (m.atLine n).step r =
      ((m.step r).1.atLine (n + 1), (m.step r).2.map (Segment.atLine · (n + 1))) := by
  let counted := { m with lineCount := m.lineCount + 1 }.applyTags r
  have hsegment : (counted.atLine (n + 1)).segment? r =
      (counted.segment? r).map (Segment.atLine · (n + 1)) := by
    rw [segment?, segment?, Option.map_map]
    rfl
  have hstop : ((counted.segment? r).map (Segment.atLine · (n + 1))).map Segment.stop =
      (counted.segment? r).map Segment.stop := by
    rw [Option.map_map]
    rfl
  change ({ counted.atLine (n + 1) with
      positioning := counted.positioningAfter r
      position := (((counted.atLine (n + 1)).segment? r).map Segment.stop).getD counted.position },
    (counted.atLine (n + 1)).segment? r) = _
  rw [hsegment, hstop]
  rfl

end Modal

namespace Machine

/-- A segment that records draw has the number of one of their lines. -/
theorem lineCount_lt_of_mem (m : Machine) (records : List Record) {s : Segment}
    (hs : s ∈ (m.processAll records).2) : m.modal.lineCount < s.sourceLine := by
  obtain ⟨k, -, -, hline, -⟩ := (Load.run_numbers .rerun m records).segment s hs
  omega

/-- Records with inert ones among them, and the same records without those at the deleted
positions: the second machine is as many lines behind as were deleted before. -/
theorem processAll_remaining {m m' : Machine} {n before : Nat}
    (hmodal : m'.modal = m.modal.atLine n)
    (hlines : n + before = m.modal.lineCount) {records : List Record} {deleted : Nat → Bool}
    (hinert : ∀ k r, records[k]? = some r → deleted k = true → r.isInert = true) :
    (m'.processAll (remaining deleted records)).2 =
      (m.processAll records).2.map (fun s =>
        s.atLine (lineAfter deleted m.modal.lineCount before s.sourceLine)) ∧
    (m'.processAll (remaining deleted records)).1.modal =
      (m.processAll records).1.modal.atLine (n + (remaining deleted records).length) ∧
    m'.course (remaining deleted records) = remaining deleted (m.course records) := by
  induction records generalizing m m' n before deleted with
  | nil => exact ⟨rfl, hmodal, rfl⟩
  | cons r rest ih =>
    let next := (m.process r).1
    have hrest : ∀ k r, rest[k]? = some r → deleted (k + 1) = true → r.isInert = true :=
      fun k later hget hk => hinert (k + 1) later hget hk
    have hlater : ∀ s ∈ (next.processAll rest).2, m.modal.lineCount + 1 < s.sourceLine :=
      fun s hs => next.lineCount_lt_of_mem rest hs
    rw [processAll_cons m, List.map_append]
    cases hr : deleted 0 with
    | true =>
      have hstep := m.modal.step_of_isInert (hinert 0 r rfl hr)
      have hnext : next.modal = m.modal.atLine (m.modal.lineCount + 1) := congrArg Prod.fst hstep
      have hnone : (m.process r).2 = none := congrArg Prod.snd hstep
      have hmodal' : m'.modal = next.modal.atLine n := by
        rw [hmodal, hnext]
        rfl
      have hlines' : n + (before + 1) = m.modal.lineCount + 1 := by omega
      obtain ⟨hsegments, hlast, hcourse⟩ := ih (m := next) hmodal' hlines' hrest
      have hkept : remaining deleted (r :: rest) = remaining (fun k => deleted (k + 1)) rest :=
        if_pos hr
      rw [hkept, hnone, hsegments, hlast, hcourse]
      refine ⟨List.map_congr_left fun s hs => ?_, rfl, (if_pos hr).symm⟩
      rw [lineAfter_of_lt (hlater s hs), hr]
      rfl
    | false =>
      have hstep : m'.modal.step r = (next.modal.atLine (n + 1),
          (m.process r).2.map (Segment.atLine · (n + 1))) := by
        rw [hmodal, Modal.step_atLine]
        rfl
      have hmodal' : (m'.process r).1.modal = next.modal.atLine (n + 1) := congrArg Prod.fst hstep
      have hfirst : (m'.process r).2 = (m.process r).2.map (Segment.atLine · (n + 1)) :=
        congrArg Prod.snd hstep
      have hlines' : n + 1 + before = m.modal.lineCount + 1 := by omega
      obtain ⟨hsegments, hlast, hcourse⟩ := ih (m := next) hmodal' hlines' hrest
      have hkept : remaining deleted (r :: rest) = r :: remaining (fun k => deleted (k + 1)) rest :=
        if_neg (by simp [hr])
      rw [hkept, processAll_cons, hfirst, hsegments, hlast, Option.toList_map]
      refine ⟨?_, ?_, ?_⟩
      · refine congrArg₂ (· ++ ·) ?_ ?_
        · refine List.map_congr_left fun s hs => ?_
          obtain ⟨-, -, hline, -⟩ := Modal.step_of_some (Option.mem_toList.1 hs)
          have hshift : m.modal.lineCount + 1 - before = n + 1 := by omega
          rw [hline, lineAfter_succ, hshift]
        · refine List.map_congr_left fun s hs => ?_
          rw [lineAfter_of_lt (hlater s hs), hr]
          rfl
      · rw [List.length_cons, Nat.add_assoc, Nat.add_comm 1]
      · have hposition : (m'.process r).1.modal.position = next.modal.position := by
          rw [hmodal']
          rfl
        rw [course, hposition, hcourse]
        exact (if_neg (by simp [hr])).symm

theorem processAll_lineCount (m : Machine) (records : List Record) :
    (m.processAll records).1.modal.lineCount = m.modal.lineCount + records.length := by
  induction records generalizing m with
  | nil => rfl
  | cons r rest ih =>
    rw [processAll_cons, ih, process_modal, Modal.step_lineCount, List.length_cons]
    omega

/-- Inert records may be deleted, from wherever they stand: the segments stay the same but for the
numbers of their lines, which move up by the records deleted before them, and so does the number of
lines at the end. The trace loses the positions of the deleted records. -/
theorem inert_records_deletable (m : Machine) {records : List Record} {deleted : Nat → Bool}
    (hinert : ∀ k r, records[k]? = some r → deleted k = true → r.isInert = true) :
    let deletedBefore (position : Nat) := Nat.count (fun k => deleted k) position
    let whole := m.processAll records
    let kept := m.processAll (remaining deleted records)
    kept.2 = whole.2.map (fun s =>
      s.atLine (s.sourceLine - deletedBefore (s.sourceLine - m.modal.lineCount - 1))) ∧
    kept.1.modal =
      whole.1.modal.atLine (whole.1.modal.lineCount - deletedBefore records.length) ∧
    kept.1.trace.toList =
      m.trace.toList ++ remaining deleted (whole.1.trace.toList.drop m.trace.size) ∧
    kept.1.options = whole.1.options := by
  intro deletedBefore whole kept
  have hstart : m.modal = m.modal.atLine m.modal.lineCount := rfl
  obtain ⟨hsegments, hmodal, hcourse⟩ := processAll_remaining hstart (Nat.add_zero _) hinert
  have hlength : (remaining deleted records).length + deletedBefore records.length =
      records.length := length_remaining deleted records
  refine ⟨?_, ?_, ?_, ?_⟩
  · rw [hsegments]
    refine List.map_congr_left fun s _ => ?_
    rw [lineAfter, Nat.zero_add]
  · have hlines : whole.1.modal.lineCount - deletedBefore records.length =
        m.modal.lineCount + (remaining deleted records).length := by
      rw [processAll_lineCount]
      omega
    rw [hmodal, hlines]
  · rw [processAll_trace, hcourse, drop_processAll_trace]
  · rw [processAll_options, processAll_options]

/-- An unknown code, a blank line, and words without a command are deleted, between records that
switch the positioning and move the layer, and one inert record that stays. -/
theorem inert_records_deletable_between :
    let m : Machine := ((Machine.ofOptions { layerView := true }).process (.ofLine "G1 Y2")).1
    let records : List Record := [.ofLine "M104 S200 ;foo:1", .ofLine "G91", .ofLine "",
      .ofLine "G1 X5", .ofLine ";note:2", .ofLine ";layer:3", .ofLine "X9 Y2", .ofLine "G2 X1 I1"]
    let kept := m.processAll ([1, 3, 4, 5, 7].filterMap fun k => records[k]?)
    kept.2.map Segment.sourceLine = [3, 6] ∧
      kept.2.map Segment.stop = (m.processAll records).2.map Segment.stop ∧
      kept.1.modal.lineCount = 6 := by
  intro m records kept
  have hnumbered : ∀ p ∈ records.zipIdx, [0, 2, 6].contains p.2 = true → p.1.isInert = true := by
    decide +kernel
  have hinert : ∀ k r, records[k]? = some r → [0, 2, 6].contains k = true → r.isInert = true :=
    fun k r hget => hnumbered (r, k) (List.mk_mem_zipIdx_iff_getElem?.2 hget)
  obtain ⟨hsegments, hmodal, -, -⟩ := m.inert_records_deletable hinert
  have hkept : kept = m.processAll (remaining [0, 2, 6].contains records) := rfl
  rw [hkept, hsegments, hmodal, List.map_map, List.map_map]
  refine ⟨?_, rfl, ?_⟩
  · decide +kernel
  · decide +kernel

end Machine

end Toolpath
