import Toolpath.Load

/-!
# What a script delivers

The bytes of a script are those of its answers, up to the end of the stream or the first failure.
A script is calm if nobody cancels and no read fails. Reading at most so many bytes at a time
changes neither the bytes nor whether the script is calm.
-/

namespace Toolpath

def ReadEvent.isCalm : ReadEvent → Bool
  | .pending | .release => true
  | .cancel => false
  | .answer (.bytes _) cancelling => !cancelling
  | .answer _ _ => false

namespace Script

def IsCalm (script : Script) : Prop := ∀ event ∈ script, event.isCalm = true

instance (script : Script) : Decidable script.IsCalm := inferInstanceAs (Decidable (∀ _ ∈ _, _))

/-- The bytes that a script hands out before the end of the stream or the first failure. -/
def delivered : Script → List UInt8
  | [] => []
  | .answer (.bytes (b :: chunk)) _ :: rest => b :: chunk ++ delivered rest
  | .answer _ _ :: _ => []
  | _ :: rest => delivered rest

theorem delivered_end (cancelling : Bool) (rest : Script) :
    delivered (.answer (.bytes []) cancelling :: rest) = [] := by
  unfold delivered
  rfl

theorem delivered_answer_bytes {chunk : List UInt8} (h : chunk ≠ []) (cancelling : Bool)
    (rest : Script) :
    delivered (.answer (.bytes chunk) cancelling :: rest) = chunk ++ delivered rest := by
  cases chunk with
  | nil => exact absurd rfl h
  | cons b chunk => rfl

@[simp] theorem delivered_ofBytes (bytes : List UInt8) : (ofBytes bytes).delivered = bytes := by
  cases bytes <;> simp [ofBytes, delivered]

theorem delivered_map_append {parts : List (List UInt8)} (h : ∀ part ∈ parts, part ≠ [])
    (rest : Script) :
    delivered (parts.map (fun part => .answer (.bytes part) false) ++ rest) =
      parts.flatten ++ delivered rest := by
  induction parts with
  | nil => rfl
  | cons part parts ih =>
    have hpart : part ≠ [] := h part List.mem_cons_self
    have hparts : ∀ p ∈ parts, p ≠ [] := fun p hp => h p (List.mem_cons_of_mem _ hp)
    rw [List.map_cons, List.cons_append, delivered_answer_bytes hpart, ih hparts,
      List.flatten_cons, List.append_assoc]

theorem cutInto_nil (size : Nat) (parts : Array (List UInt8)) :
    cutInto size [] parts = parts.push [] := by
  unfold cutInto
  simp

/-- Bytes are cut into parts that are not empty and make up the whole. -/
theorem exists_cutInto (size : Nat) {chunk : List UInt8} (parts : Array (List UInt8))
    (h : chunk ≠ []) :
    ∃ first rest, (cutInto size chunk parts).toList = parts.toList ++ first :: rest ∧
      (first :: rest).flatten = chunk ∧ ∀ part ∈ first :: rest, part ≠ [] := by
  induction chunk, parts using cutInto.induct size with
  | case1 chunk parts hend =>
    refine ⟨chunk, [], ?_, by simp, by simpa using h⟩
    rw [cutInto, if_pos hend, Array.toList_push]
  | case2 chunk parts hmore ih =>
    have hsize : size ≠ 0 := fun e => hmore (.inl e)
    have hdrop : chunk.drop size ≠ [] := fun e => hmore (.inr (by rw [e]; rfl))
    have htake : chunk.take size ≠ [] := by simp [hsize, h]
    obtain ⟨first, rest, hparts, hflat, hne⟩ := ih hdrop
    refine ⟨chunk.take size, first :: rest, ?_, ?_, ?_⟩
    · rw [cutInto, if_neg hmore, hparts, Array.toList_push]
      simp
    · rw [List.flatten_cons, hflat, List.take_append_drop]
    · intro part hpart
      rcases List.mem_cons.1 hpart with rfl | hlater
      · exact htake
      · exact hne part hlater

theorem cutEvent_bytes_nil (size : Nat) (cancelling : Bool) :
    cutEvent size (.answer (.bytes []) cancelling) = [.answer (.bytes []) cancelling] := by
  simp [cutEvent, cutInto_nil]

/-- An answer with bytes becomes answers with bytes, where the first may cancel. -/
theorem exists_cutEvent_bytes (size : Nat) {chunk : List UInt8} (h : chunk ≠ [])
    (cancelling : Bool) :
    ∃ (first : List UInt8) (rest : List (List UInt8)),
      first ++ rest.flatten = chunk ∧ first ≠ [] ∧ (∀ part ∈ rest, part ≠ []) ∧
      cutEvent size (.answer (.bytes chunk) cancelling) =
        .answer (.bytes first) cancelling :: rest.map fun part => .answer (.bytes part) false := by
  obtain ⟨first, rest, hparts, hflat, hne⟩ := exists_cutInto size #[] h
  refine ⟨first, rest, hflat, hne first List.mem_cons_self,
    fun part hp => hne part (List.mem_cons_of_mem _ hp), ?_⟩
  simp [cutEvent, hparts]

theorem exists_cutEvent_eq (size : Nat) (chunk : List UInt8) (cancelling : Bool) :
    ∃ (first : List UInt8) (rest : List (List UInt8)),
      cutEvent size (.answer (.bytes chunk) cancelling) =
        .answer (.bytes first) cancelling :: rest.map fun part => .answer (.bytes part) false := by
  by_cases h : chunk = []
  · rw [h]
    exact ⟨[], [], cutEvent_bytes_nil size cancelling⟩
  · obtain ⟨first, rest, -, -, -, hcut⟩ := exists_cutEvent_bytes size h cancelling
    exact ⟨first, rest, hcut⟩

/-- Only answers with bytes are cut, and their parts are answers with bytes again. -/
theorem eq_or_bytes_of_mem_cutEvent {size : Nat} {event part : ReadEvent}
    (h : part ∈ cutEvent size event) :
    part = event ∨ ∃ chunk cancelling bytes, event = .answer (.bytes chunk) cancelling ∧
      (part = .answer (.bytes bytes) cancelling ∨ part = .answer (.bytes bytes) false) := by
  match event with
  | .pending | .cancel | .release | .answer (.failed _) _ | .answer (.interrupted _) _ =>
    exact .inl (List.mem_singleton.1 h)
  | .answer (.bytes chunk) cancelling =>
    obtain ⟨first, rest, hcut⟩ := exists_cutEvent_eq size chunk cancelling
    rw [hcut] at h
    rcases List.mem_cons.1 h with hfirst | hlater
    · exact .inr ⟨chunk, cancelling, first, rfl, .inl hfirst⟩
    · obtain ⟨bytes, -, hbytes⟩ := List.mem_map.1 hlater
      exact .inr ⟨chunk, cancelling, bytes, rfl, .inr hbytes.symm⟩

theorem cut_cons (size : Nat) (event : ReadEvent) (script : Script) :
    cut size (event :: script) = cutEvent size event ++ cut size script := by
  simp [cut]

theorem cut_append (size : Nat) (first second : Script) :
    cut size (first ++ second) = cut size first ++ cut size second := List.flatMap_append

@[simp] theorem delivered_cut (size : Nat) (script : Script) :
    (script.cut size).delivered = script.delivered := by
  induction script with
  | nil => rfl
  | cons event script ih =>
    rw [cut_cons]
    match event with
    | .pending | .cancel | .release => exact ih
    | .answer (.failed _) _ | .answer (.interrupted _) _ => rfl
    | .answer (.bytes []) _ =>
      rw [cutEvent_bytes_nil]
      rfl
    | .answer (.bytes (b :: chunk)) cancelling =>
      obtain ⟨first, rest, hflat, hfirst, hrest, hcut⟩ :=
        exists_cutEvent_bytes size (List.cons_ne_nil b chunk) cancelling
      rw [hcut, List.cons_append, delivered_answer_bytes hfirst, delivered_map_append hrest, ih,
        ← List.append_assoc, hflat]
      rfl

theorem isCalm_of_mem_cutEvent {size : Nat} {event part : ReadEvent} (h : event.isCalm = true)
    (hpart : part ∈ cutEvent size event) : part.isCalm = true := by
  rcases eq_or_bytes_of_mem_cutEvent hpart with rfl | ⟨chunk, cancelling, bytes, rfl, rfl | rfl⟩
  · exact h
  · exact h
  · rfl

theorem IsCalm.cut {script : Script} (h : script.IsCalm) (size : Nat) :
    (script.cut size).IsCalm := by
  intro part hpart
  obtain ⟨event, hevent, hmem⟩ := List.mem_flatMap.1 hpart
  exact isCalm_of_mem_cutEvent (h event hevent) hmem

end Script

end Toolpath
