import Toolpath.Load

/-!
# Directives in force

What the directives of a record make of options and of modal settings, and what those of many
records make of them: for each setting the last record counts that says something about it.
-/

namespace Toolpath

namespace Record

variable {α : Type}

/-- What the last of the records that say it says, or `default` if none says it. -/
def latest (says? : Record → Option α) (records : List Record) (default : α) : α :=
  (records.filterMap says?).getLastD default

theorem latest_cons (says? : Record → Option α) (r : Record) (rest : List Record) (default : α) :
    latest says? (r :: rest) default = latest says? rest ((says? r).getD default) := by
  unfold latest
  cases h : says? r with
  | none => rw [List.filterMap_cons_none h, Option.getD_none]
  | some a => rw [List.filterMap_cons_some h, List.getLastD_cons, Option.getD_some]

theorem latest_of_forall_eq_none {says? : Record → Option α} {records : List Record}
    (h : ∀ r ∈ records, says? r = none) (default : α) : latest says? records default = default := by
  have hnone : records.filterMap says? = [] := List.filterMap_eq_nil_iff.2 h
  rw [latest, hnone, List.getLastD_nil]

/-- What the records say last does not depend on the default, unless none of them says it. -/
theorem latest_latest (says? : Record → Option α) (records : List Record) (default : α) :
    latest says? records (latest says? records default) = latest says? records default := by
  unfold latest
  cases records.filterMap says? with
  | nil => rfl
  | cons a rest => rw [List.getLastD_cons, List.getLastD_cons]

/-- Whether a record changes a setting for good: it gives a letter to an axis, shows or hides
layers, or has a layer height. -/
def bearsDirective (r : Record) : Bool :=
  (r.axisLetter? .x).isSome || (r.axisLetter? .y).isSome || (r.axisLetter? .z).isSome ||
    r.layerView?.isSome || r.layerHeight?.isSome

theorem bearsDirective_eq_false_iff {r : Record} :
    r.bearsDirective = false ↔
      (∀ axis, r.axisLetter? axis = none) ∧ r.layerView? = none ∧ r.layerHeight? = none := by
  constructor
  · intro h
    simp only [bearsDirective, Bool.or_eq_false_iff, Option.isSome_eq_false_iff,
      Option.isNone_iff_eq_none] at h
    obtain ⟨⟨⟨⟨hx, hy⟩, hz⟩, hview⟩, hheight⟩ := h
    refine ⟨?_, hview, hheight⟩
    intro axis
    cases axis with
    | x => exact hx
    | y => exact hy
    | z => exact hz
  · rintro ⟨haxis, hview, hheight⟩
    simp [bearsDirective, haxis, hview, hheight]

end Record

def AxisMap.follow (m : AxisMap) (r : Record) : AxisMap :=
  ⟨(r.axisLetter? .x).getD m.x, (r.axisLetter? .y).getD m.y, (r.axisLetter? .z).getD m.z⟩

def AxisMap.followAll (m : AxisMap) (records : List Record) : AxisMap :=
  ⟨Record.latest (·.axisLetter? .x) records m.x, Record.latest (·.axisLetter? .y) records m.y,
    Record.latest (·.axisLetter? .z) records m.z⟩

def Options.follow (o : Options) (r : Record) : Options :=
  { o with
    axes := o.axes.follow r
    layerView := r.layerView?.getD o.layerView
    layerHeight := r.layerHeight?.getD o.layerHeight }

def Options.followAll (o : Options) (records : List Record) : Options :=
  { o with
    axes := o.axes.followAll records
    layerView := Record.latest Record.layerView? records o.layerView
    layerHeight := Record.latest Record.layerHeight? records o.layerHeight }

/-- The modal settings after the directives of a record. -/
def Modal.follow (m : Modal) (r : Record) : Modal :=
  { m with
    axes := m.axes.follow r
    layerView := r.layerView?.getD m.layerView
    layerHeight := r.layerHeight?.getD m.layerHeight }

theorem AxisMap.followAll_cons (m : AxisMap) (r : Record) (rest : List Record) :
    m.followAll (r :: rest) = (m.follow r).followAll rest := by
  simp only [followAll, follow, Record.latest_cons]

theorem AxisMap.followAll_of_forall {records : List Record}
    (h : ∀ r ∈ records, ∀ axis, r.axisLetter? axis = none) (m : AxisMap) :
    m.followAll records = m := by
  have hnone : ∀ axis, ∀ r ∈ records, r.axisLetter? axis = none := fun axis r hr => h r hr axis
  rw [followAll, Record.latest_of_forall_eq_none (hnone .x),
    Record.latest_of_forall_eq_none (hnone .y), Record.latest_of_forall_eq_none (hnone .z)]

theorem Options.followAll_cons (o : Options) (r : Record) (rest : List Record) :
    o.followAll (r :: rest) = (o.follow r).followAll rest := by
  simp only [followAll, follow, AxisMap.followAll_cons, Record.latest_cons]

namespace Machine

theorem applyDirectives_fst (m : Machine) (r : Record) :
    (m.applyDirectives r).1 =
      { m with options := m.options.follow r, modal := m.modal.follow r } := by
  simp only [applyDirectives, Directive.ofRecord, Options.follow, Modal.follow, AxisMap.follow]
  cases r.axisLetter? .x <;> cases r.axisLetter? .y <;> cases r.axisLetter? .z <;>
    cases r.layerView? <;> cases r.layerHeight? <;> rfl

end Machine

namespace Load

theorem run_initial_options (m : Machine) (records : List Record) :
    (Transducer.run (takeRecord .initial) m records).1.options = m.options.followAll records := by
  induction records generalizing m with
  | nil => rfl
  | cons r rest ih =>
    have hstep : (takeRecord .initial m r).1.options = m.options.follow r := by
      rw [takeRecord, Machine.process_options, Machine.applyDirectives_fst]
    rw [Transducer.run_cons, ih, hstep, Options.followAll_cons]

end Load

end Toolpath
