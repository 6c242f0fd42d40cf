import Toolpath.Proofs.ModalSettings

/-!
# Texts in place of numbers

Some tags ask for a number, and a text under their keys sets nothing. A record without such texts
does what it does with them, with one exception: there are several keys for the number of layers,
the first one that is present counts, and a text there hides the numbers under later keys.
-/

namespace Toolpath

namespace Record

/-- The keys that ask for a number. -/
def numberKeys : List String :=
  ["cts", "layer_height", "total_layers", "total_layer", "totallayers", "totallayer"]

/-- The record without the tags that have a text where a number is asked for. -/
def withoutMistyped (r : Record) : Record :=
  { r with tags := r.tags.filter fun key value =>
      !(numberKeys.contains key && value.number?.isNone) }

/-- The number of layers that the first number under its keys announces, whatever the texts. -/
def firstTotal? (r : Record) : Option Nat :=
  match Modal.totalLayersKeys.findSome? r.tagNumber? with
  | some x => if 0.0 ≤ x then some (Binary.saturated x) else none
  | none => none

/-- The number of layers that a text under an earlier key hides. -/
def hiddenTotal? (r : Record) : Option Nat :=
  match Modal.totalLayersKeys.findSome? fun key => r.tags[key]? with
  | some (TagValue.text _) => r.firstTotal?
  | _ => none

variable (r : Record)

theorem getElem?_withoutMistyped (key : String) :
    r.withoutMistyped.tags[key]? =
      if key ∈ numberKeys then (r.tagNumber? key).map .number else r.tags[key]? := by
  rw [withoutMistyped, Std.ExtTreeMap.getElem?_filter', tagNumber?]
  by_cases hkey : key ∈ numberKeys
  · rw [if_pos hkey]
    cases r.tags[key]? with
    | none => rfl
    | some value => cases value <;> simp [hkey, TagValue.number?]
  · rw [if_neg hkey]
    cases r.tags[key]? with
    | none => rfl
    | some value => simp [hkey]

theorem tagNumber?_withoutMistyped (key : String) :
    r.withoutMistyped.tagNumber? key = r.tagNumber? key := by
  rw [tagNumber?, getElem?_withoutMistyped]
  split
  · cases r.tagNumber? key <;> rfl
  · rfl

/-- Without the texts, the first key that is left has the first number. -/
theorem findSome?_withoutMistyped {keys : List String} (hkeys : ∀ key ∈ keys, key ∈ numberKeys) :
    keys.findSome? (fun key => r.withoutMistyped.tags[key]?) =
      (keys.findSome? r.tagNumber?).map .number := by
  induction keys with
  | nil => rfl
  | cons key keys ih =>
    have hrest := ih fun k hk => hkeys k (List.mem_cons_of_mem _ hk)
    rw [List.findSome?_cons, List.findSome?_cons, getElem?_withoutMistyped,
      if_pos (hkeys key List.mem_cons_self), hrest]
    cases r.tagNumber? key <;> rfl

/-- With the texts, a number under the first key that is present is the first number. -/
theorem findSome?_tagNumber? {keys : List String} {x : Float}
    (h : keys.findSome? (fun key => r.tags[key]?) = some (.number x)) :
    keys.findSome? r.tagNumber? = some x := by
  induction keys with
  | nil => cases h
  | cons key keys ih =>
    rw [List.findSome?_cons] at h ⊢
    rw [tagNumber?]
    cases hkey : r.tags[key]? with
    | none =>
      rw [hkey] at h
      exact ih h
    | some value =>
      rw [hkey] at h
      cases h
      rfl

theorem totalLayers?_withoutMistyped : r.withoutMistyped.totalLayers? = r.firstTotal? := by
  have hkeys : ∀ key ∈ Modal.totalLayersKeys, key ∈ numberKeys := by decide
  have hvalue := r.findSome?_withoutMistyped hkeys
  rw [Modal.totalLayersKeys] at hvalue
  rw [totalLayers?, firstTotal?, Modal.totalLayersKeys]
  simp only [hvalue]
  generalize List.findSome? r.tagNumber? _ = first
  cases first <;> rfl

/-- Either nothing is hidden, and the first number is the one that counts, or a text hides it, and
none counts. -/
theorem hiddenTotal?_cases :
    (r.hiddenTotal? = none ∧ r.firstTotal? = r.totalLayers?) ∨
      ∃ n, r.hiddenTotal? = some n ∧ r.firstTotal? = some n ∧ r.totalLayers? = none := by
  rw [hiddenTotal?, totalLayers?, ← Modal.totalLayersKeys]
  cases hvalue : Modal.totalLayersKeys.findSome? fun key => r.tags[key]? with
  | none =>
    have hnone : Modal.totalLayersKeys.findSome? r.tagNumber? = none := by
      rw [List.findSome?_eq_none_iff] at hvalue ⊢
      intro key hkey
      rw [tagNumber?, hvalue key hkey, Option.bind_none]
    left
    rw [firstTotal?, hnone]
    exact ⟨rfl, rfl⟩
  | some value =>
    cases value with
    | number x =>
      left
      rw [firstTotal?, r.findSome?_tagNumber? hvalue]
      exact ⟨rfl, rfl⟩
    | text s =>
      cases hfirst : r.firstTotal? with
      | none => exact .inl ⟨rfl, rfl⟩
      | some n => exact .inr ⟨n, rfl, rfl, rfl⟩

end Record

namespace Modal

variable (m : Modal) (r : Record)

/-- Nothing but the number of layers is different without the texts. -/
theorem step_withoutMistyped :
    m.step r.withoutMistyped =
      ({ (m.step r).1 with totalLayers := (m.step r.withoutMistyped).1.totalLayers },
        (m.step r).2) := by
  have hview : r.withoutMistyped.tags["enable_layer_view"]? = r.tags["enable_layer_view"]? := by
    rw [Record.getElem?_withoutMistyped, if_neg (by decide)]
  have hlayer : r.withoutMistyped.tags["layer"]? = r.tags["layer"]? := by
    rw [Record.getElem?_withoutMistyped, if_neg (by decide)]
  simp only [step, applyTags, applySettings, layerZ?, Record.tagNumber?_withoutMistyped, hview,
    hlayer]
  rfl

end Modal

namespace Machine

/-- Without the texts that stand where numbers are asked for, a record draws the same and leaves the
same, except that the first number of layers counts. So the texts are ignored, unless one of them
hides a number of layers that is not the one in force. -/
theorem mistyped_tags_ignored_iff (m : Machine) (r : Record) :
    (m.process r.withoutMistyped).2 = (m.process r).2 ∧
    (m.process r.withoutMistyped).1 = { (m.process r).1 with
      modal := { (m.process r).1.modal with
        totalLayers := (m.process r.withoutMistyped).1.modal.totalLayers } } ∧
    (m.process r.withoutMistyped).1.modal.totalLayers.toNat =
      r.firstTotal?.getD m.modal.totalLayers.toNat ∧
    (m.process r.withoutMistyped = m.process r ↔
      ∀ n, r.hiddenTotal? = some n → m.modal.totalLayers.toNat = n) := by
  have hstep := m.modal.step_withoutMistyped r
  have hsegment : (m.process r.withoutMistyped).2 = (m.process r).2 := by
    rw [process_snd, hstep, process_snd]
  have hmachine : (m.process r.withoutMistyped).1 = { (m.process r).1 with
      modal := { (m.process r).1.modal with
        totalLayers := (m.process r.withoutMistyped).1.modal.totalLayers } } :=
    congrArg (fun s : Modal × Option Segment =>
      ({ m with modal := s.1, trace := m.trace.push s.1.position } : Machine)) hstep
  have htotal : (m.process r).1.modal.totalLayers.toNat =
      r.totalLayers?.getD m.modal.totalLayers.toNat := m.modal.toNat_step_totalLayers r
  have htotal' : (m.process r.withoutMistyped).1.modal.totalLayers.toNat =
      r.firstTotal?.getD m.modal.totalLayers.toNat := by
    rw [← r.totalLayers?_withoutMistyped]
    exact m.modal.toNat_step_totalLayers r.withoutMistyped
  have hsame : m.process r.withoutMistyped = m.process r ↔
      r.firstTotal?.getD m.modal.totalLayers.toNat =
        r.totalLayers?.getD m.modal.totalLayers.toNat := by
    rw [← htotal, ← htotal', UInt32.toNat_inj]
    constructor
    · intro h
      rw [h]
    · intro h
      refine Prod.ext ?_ hsegment
      rw [hmachine, h]
  refine ⟨hsegment, hmachine, htotal', hsame.trans ?_⟩
  obtain ⟨hnone, hfirst⟩ | ⟨n, hsome, hfirst, hcounts⟩ := r.hiddenTotal?_cases
  · rw [hnone, hfirst]
    exact ⟨fun _ _ h => (nomatch h), fun _ => rfl⟩
  · rw [hsome, hfirst, hcounts]
    exact ⟨fun h k hk => h.symm.trans (Option.some.inj hk), fun h => (h n rfl).symm⟩

/-- A text under the first key for the number of layers keeps a number under the second one from
counting. -/
theorem text_hides_total :
    let r : Record := .ofLine ";total_layers:many, total_layer:7"
    let m : Machine := .ofOptions {}
    (m.process r).1.modal.totalLayers = 0 ∧
      (m.process r.withoutMistyped).1.modal.totalLayers = 7 ∧
      m.process r.withoutMistyped ≠ m.process r := by
  decide +kernel

end Machine

end Toolpath
