import Toolpath.Report
import Toolpath.Proofs.DoubleOrder

/-!
# The box around a load

The summary keeps, along each axis, the least and the greatest coordinate so far. One that is NaN
gives way to any other, and nothing gives way to it, so NaN neither spoils the box nor resets it,
wherever it comes from. What matters is which segments were drawn and not in which batches.
-/

namespace Toolpath

/-- The one of some numbers that comes first in an order that NaN is not in. It is NaN only where
there is nothing else. -/
structure IsExtreme (before : Float → Float → Prop) (numbers : List Float) (m : Float) : Prop where
  attained : m ∈ numbers
  before_all : ∀ x ∈ numbers, x.isNaN = false → before m x
  all_isNaN : m.isNaN = true → ∀ x ∈ numbers, x.isNaN = true

/-- A choice between two numbers of the one that comes first, or of the one that is a number. -/
structure Picks (before : Float → Float → Prop) (pick : Float → Float → Float) : Prop where
  before_self : ∀ {x}, x.isNaN = false → before x x
  before_trans : ∀ {x y z}, before x y → before y z → before x z
  pick_cases : ∀ x y, (x.isNaN = true ∧ pick x y = y) ∨
    (x.isNaN = false ∧ pick x y = x ∧ (y.isNaN = false → before x y)) ∨
    (y.isNaN = false ∧ pick x y = y ∧ before y x)

theorem picks_of_order {before strictly : Float → Float → Prop} [DecidableRel strictly]
    (hself : ∀ {x}, x.isNaN = false → before x x)
    (htrans : ∀ {x y z}, before x y → before y z → before x z)
    (hstrict : ∀ {x y}, strictly x y → x.isNaN = false ∧ before x y)
    (hnot : ∀ {x y}, x.isNaN = false → y.isNaN = false → ¬ strictly y x → before x y) :
    Picks before fun x y => if strictly y x || x.isNaN then y else x where
  before_self := hself
  before_trans := htrans
  pick_cases x y := by
    cases hx : x.isNaN with
    | true => exact .inl ⟨rfl, if_pos (Bool.or_true _)⟩
    | false =>
      rw [Bool.or_false]
      by_cases h : strictly y x
      · exact .inr (.inr ⟨(hstrict h).1, if_pos (decide_eq_true h), (hstrict h).2⟩)
      · exact .inr (.inl ⟨rfl, if_neg (by rwa [decide_eq_true_iff]), fun hy => hnot hx hy h⟩)

theorem picks_lesser : Picks (· ≤ ·) lesser :=
  picks_of_order Binary.le_self Binary.le_trans
    (fun h => ⟨(Binary.lt_iff.1 h).1, Binary.le_of_lt h⟩) Binary.le_of_not_lt

theorem picks_greater : Picks (· ≥ ·) greater :=
  picks_of_order Binary.le_self (fun hxy hyz => Binary.le_trans hyz hxy)
    (fun h => ⟨(Binary.lt_iff.1 h).2.1, Binary.le_of_lt h⟩) fun hx hy => Binary.le_of_not_lt hy hx

section Extremes

variable {before : Float → Float → Prop} {pick : Float → Float → Float}

theorem Picks.isExtreme_singleton (h : Picks before pick) (x : Float) :
    IsExtreme before [x] x where
  attained := List.mem_singleton_self x
  before_all := by
    intro y hy hnumber
    rw [List.mem_singleton.1 hy] at hnumber ⊢
    exact h.before_self hnumber
  all_isNaN := by
    intro hnan y hy
    rwa [List.mem_singleton.1 hy]

/-- One more number. -/
theorem Picks.isExtreme_append (h : Picks before pick) {numbers : List Float} {m : Float}
    (hm : IsExtreme before numbers m) (y : Float) :
    IsExtreme before (numbers ++ [y]) (pick m y) := by
  have hmem : ∀ {P : Float → Prop}, (∀ x ∈ numbers, P x) → P y → ∀ x ∈ numbers ++ [y], P x :=
    fun hold hnew => List.forall_mem_append.2 ⟨hold, List.forall_mem_singleton.2 hnew⟩
  have hlast : y ∈ numbers ++ [y] := List.mem_append_right _ (List.mem_singleton_self y)
  obtain ⟨hnan, hpick⟩ | ⟨hnumber, hpick, hfirst⟩ | ⟨hnumber, hpick, hfirst⟩ := h.pick_cases m y
  · rw [hpick]
    have hall := hm.all_isNaN hnan
    refine ⟨hlast, hmem ?_ h.before_self, fun hy => hmem hall hy⟩
    intro x hx hxnumber
    rw [hall x hx] at hxnumber
    cases hxnumber
  · rw [hpick]
    refine ⟨List.mem_append_left _ hm.attained, hmem hm.before_all hfirst, fun hnan => ?_⟩
    rw [hnumber] at hnan
    cases hnan
  · rw [hpick]
    refine ⟨hlast, hmem ?_ h.before_self, fun hnan => ?_⟩
    · exact fun x hx hxnumber => h.before_trans hfirst (hm.before_all x hx hxnumber)
    · rw [hnumber] at hnan
      cases hnan

end Extremes

namespace Bounds

/-- The box around some points: along each axis it goes from the least to the greatest coordinate
of a point. -/
structure IsBoxOf (b : Bounds) (points : List Position) : Prop where
  least : ∀ axis, IsExtreme (· ≤ ·) (points.map (·.coordinate axis)) (b.least.coordinate axis)
  greatest : ∀ axis,
    IsExtreme (· ≥ ·) (points.map (·.coordinate axis)) (b.greatest.coordinate axis)

theorem around_isBoxOf (p : Position) : (around p).IsBoxOf [p] where
  least axis := picks_lesser.isExtreme_singleton (p.coordinate axis)
  greatest axis := picks_greater.isExtreme_singleton (p.coordinate axis)

theorem IsBoxOf.ne_nil {b : Bounds} {points : List Position} (h : b.IsBoxOf points) :
    points ≠ [] := by
  rintro rfl
  exact nomatch (h.least .x).attained

theorem IsBoxOf.reach {b : Bounds} {points : List Position} (h : b.IsBoxOf points) (p : Position) :
    (b.reach p).IsBoxOf (points ++ [p]) := by
  constructor <;> intro axis <;>
    rw [List.map_append, Bounds.reach, Position.coordinate_ofAxes]
  · exact picks_lesser.isExtreme_append (h.least axis) _
  · exact picks_greater.isExtreme_append (h.greatest axis) _

theorem around_reach (p : Position) : (around p).reach p = around p := by
  simp only [reach, around, lesser_self, greater_self]
  rfl

end Bounds

/-- The points that segments start and end at. -/
def Segment.ends (segments : List Segment) : List Position :=
  segments.flatMap fun s => [s.start, s.stop]

theorem Segment.ends_eq_nil_iff {segments : List Segment} : ends segments = [] ↔ segments = [] := by
  cases segments with
  | nil => exact iff_of_true rfl rfl
  | cons s rest => exact iff_of_false (List.cons_ne_nil _ _) (List.cons_ne_nil _ _)

namespace Tally

/-- There is a box as soon as there is a point, and it is the box around all of them. -/
def HasBox (points : List Position) : Option Bounds → Prop
  | none => points = []
  | some b => b.IsBoxOf points

theorem HasBox.eq_none_iff {points : List Position} {bounds : Option Bounds}
    (h : HasBox points bounds) : bounds = none ↔ points = [] := by
  cases bounds with
  | none => exact iff_of_true rfl h
  | some b => exact iff_of_false (Option.some_ne_none b) (Bounds.IsBoxOf.ne_nil h)

theorem HasBox.addPoint {points : List Position} {bounds : Option Bounds}
    (h : HasBox points bounds) (p : Position) :
    HasBox (points ++ [p]) (addPoint bounds p) := by
  cases bounds with
  | none =>
    rw [show points = [] from h]
    change ((Bounds.around p).reach p).IsBoxOf [p]
    rw [Bounds.around_reach]
    exact Bounds.around_isBoxOf p
  | some b => exact Bounds.IsBoxOf.reach h p

theorem HasBox.foldl_addSegment {segments : List Segment} {t : Tally}
    (h : HasBox (Segment.ends segments) t.bounds) (rest : List Segment) :
    HasBox (Segment.ends (segments ++ rest)) (rest.foldl addSegment t).bounds := by
  induction rest generalizing t segments with
  | nil => rwa [List.append_nil]
  | cons s rest ih =>
    have hs : HasBox (Segment.ends (segments ++ [s])) (t.addSegment s).bounds := by
      rw [Segment.ends, List.flatMap_append]
      have hboth := (h.addPoint s.start).addPoint s.stop
      rwa [List.append_assoc] at hboth
    rw [List.append_cons]
    exact ih hs

/-- However segments are cut into batches, each of them counts as a line or as an arc, and the box
is the one around all their ends. There is none only if there are no segments. -/
theorem ofReports_isExact (reports : List BatchReport) :
    let segments := reports.flatMap BatchReport.segments
    let t := ofReports reports
    t.lines + t.arcs = segments.length ∧
      t.arcs = segments.countP (fun s => s.shape.isArc) ∧
      (t.bounds = none ↔ segments = []) ∧
      (∀ b, t.bounds = some b → b.IsBoxOf (Segment.ends segments)) ∧
      ∀ others : List BatchReport, others.flatMap BatchReport.segments = segments →
        ofReports others = t := by
  intro segments t
  have ht : t = segments.foldl addSegment {} := ofReports_eq reports
  have hstart : HasBox (Segment.ends []) ({} : Tally).bounds := rfl
  have hbox : HasBox (Segment.ends segments) t.bounds := by
    rw [ht]
    exact hstart.foldl_addSegment segments
  refine ⟨?_, ?_, ?_, ?_, fun others hothers => ?_⟩
  · rw [ht, lines_add_arcs]
  · rw [ht, (foldl_addSegment {} segments).2]
    exact Nat.zero_add _
  · rw [hbox.eq_none_iff, Segment.ends_eq_nil_iff]
  · intro b hb
    rwa [hb] at hbox
  · rw [ofReports_eq, hothers, ht]

/-- A box starts at a point whatever its coordinates are. -/
example : addPoint (addPoint none ⟨.nan, 1.0, .nan⟩) ⟨2.0, .nan, .nan⟩ =
    some ⟨⟨2.0, 1.0, .nan⟩, ⟨2.0, 1.0, .nan⟩⟩ := by
  decide +kernel

end Tally

end Toolpath
