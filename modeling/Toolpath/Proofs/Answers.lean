import Toolpath.Proofs.Delivery

/-!
# What a load makes of the answers

Unless it is cancelled, a load depends only on the answers to its reads, up to the last one, which
is the end of the stream or a failure. `Load.follow` takes these answers one after the other. A load
is cancelled if and only if a request came before the load started, or comes before the last answer
from somebody who still holds the handle.
-/

namespace Toolpath

def Answer.isLast : Answer → Bool
  | .bytes chunk => chunk.isEmpty
  | .failed _ | .interrupted _ => true

def Answer.chunk : Answer → List UInt8
  | .bytes chunk => chunk
  | _ => []

namespace ReadEvent

def chunk : ReadEvent → List UInt8
  | .answer a _ => a.chunk
  | _ => []

def isLast : ReadEvent → Bool
  | .answer a _ => a.isLast
  | _ => false

/-- Whether somebody asks to cancel the load here. -/
def requests : ReadEvent → Bool
  | .cancel => true
  | .answer _ cancelling => cancelling
  | _ => false

def withoutRequest? : ReadEvent → Option ReadEvent
  | .cancel => none
  | .answer a _ => some (.answer a false)
  | event => some event

theorem requests_of_isCalm {event : ReadEvent} (h : event.isCalm = true) :
    event.requests = false := by
  cases event with
  | pending | release => rfl
  | cancel => cases h
  | answer a cancelling =>
    cases a with
    | bytes chunk => simpa [isCalm, requests] using h
    | failed reason | interrupted reason => cases h

theorem isLast_or_not (event : ReadEvent) :
    (∃ a cancelling, event = .answer a cancelling ∧ a.isLast = true) ∨ event.isLast = false := by
  cases event with
  | pending | cancel | release => exact .inr rfl
  | answer a cancelling =>
    cases h : a.isLast with
    | true => exact .inl ⟨a, cancelling, rfl, h⟩
    | false => exact .inr h

end ReadEvent

namespace Script

def requests (script : Script) : Bool := script.any ReadEvent.requests

def withoutRequests (script : Script) : Script := script.filterMap ReadEvent.withoutRequest?

/-- The events before the last answer and before the handle is released. -/
def whileHeld (script : Script) : Script :=
  script.takeWhile fun event => !event.isLast && event != .release

/-- The answers up to the last one. Behind the last event comes the end of the stream. -/
def answers : Script → List Answer
  | [] => [.bytes []]
  | .answer a _ :: rest => if a.isLast then [a] else a :: answers rest
  | _ :: rest => answers rest

theorem delivered_of_isLast {a : Answer} (hlast : a.isLast = true) (cancelling : Bool)
    (rest : Script) : delivered (.answer a cancelling :: rest) = [] := by
  cases a with
  | failed reason | interrupted reason => rfl
  | bytes chunk =>
    cases chunk with
    | nil => exact delivered_end cancelling rest
    | cons b chunk => cases hlast

theorem delivered_of_not_isLast {event : ReadEvent} (hlast : event.isLast = false)
    (rest : Script) : delivered (event :: rest) = event.chunk ++ delivered rest := by
  cases event with
  | pending | cancel | release => rfl
  | answer a cancelling =>
    cases a with
    | failed reason | interrupted reason => cases hlast
    | bytes chunk =>
      have hchunk : chunk ≠ [] := by
        rintro rfl
        cases hlast
      exact delivered_answer_bytes hchunk cancelling rest

theorem answers_of_not_isLast {event : ReadEvent} (hlast : event.isLast = false) (rest : Script) :
    (answers (event :: rest)).flatMap Answer.chunk =
      event.chunk ++ (answers rest).flatMap Answer.chunk := by
  cases event with
  | pending | cancel | release => rfl
  | answer a cancelling =>
    have ha : ¬ a.isLast = true := Bool.eq_false_iff.1 hlast
    rw [answers, if_neg ha, List.flatMap_cons]
    rfl

theorem delivered_eq_flatMap (script : Script) :
    script.delivered = script.answers.flatMap Answer.chunk := by
  induction script with
  | nil => rfl
  | cons event rest ih =>
    rcases event.isLast_or_not with ⟨a, cancelling, rfl, ha⟩ | hlast
    · have hchunk : a.chunk = [] := by
        cases a with
        | failed reason | interrupted reason => rfl
        | bytes chunk => exact List.isEmpty_iff.1 ha
      rw [delivered_of_isLast ha, answers, if_pos ha, List.flatMap_singleton, hchunk]
    · rw [delivered_of_not_isLast hlast, answers_of_not_isLast hlast, ih]

theorem requests_cons (event : ReadEvent) (rest : Script) :
    requests (event :: rest) = (event.requests || requests rest) := List.any_cons

theorem requests_append (first second : Script) :
    requests (first ++ second) = (requests first || requests second) := List.any_append

theorem withoutRequests_cons (event : ReadEvent) (rest : Script) :
    withoutRequests (event :: rest) = event.withoutRequest?.toList ++ withoutRequests rest := by
  unfold withoutRequests
  cases h : event.withoutRequest? with
  | none => rw [List.filterMap_cons_none h, Option.toList_none, List.nil_append]
  | some e => rw [List.filterMap_cons_some h, Option.toList_some, List.singleton_append]

theorem requests_withoutRequests (script : Script) : script.withoutRequests.requests = false := by
  induction script with
  | nil => rfl
  | cons event rest ih =>
    rw [withoutRequests_cons, requests_append, ih, Bool.or_false]
    cases event <;> rfl

theorem answers_withoutRequests (script : Script) :
    script.withoutRequests.answers = script.answers := by
  induction script with
  | nil => rfl
  | cons event rest ih =>
    rw [withoutRequests_cons]
    cases event with
    | pending | cancel | release => exact ih
    | answer a cancelling =>
      change (if a.isLast then [a] else a :: (withoutRequests rest).answers) = _
      rw [ih]
      rfl

theorem whileHeld_cons (event : ReadEvent) (rest : Script) :
    whileHeld (event :: rest) =
      if event.isLast = false ∧ event ≠ .release then event :: whileHeld rest else [] := by
  unfold whileHeld
  rw [List.takeWhile_cons]
  by_cases hlast : event.isLast = false <;> by_cases hrelease : event = .release <;>
    simp [hlast, hrelease]

theorem withoutRequests_cut (size : Nat) (script : Script) :
    (script.cut size).withoutRequests = script.withoutRequests.cut size := by
  induction script with
  | nil => rfl
  | cons event rest ih =>
    have hevent : (cutEvent size event).filterMap ReadEvent.withoutRequest? =
        cut size (event.withoutRequest?.toList) := by
      cases event with
      | pending | cancel | release => rfl
      | answer a cancelling =>
        cases a with
        | failed reason | interrupted reason => rfl
        | bytes chunk =>
          simp only [ReadEvent.withoutRequest?, Option.toList_some, cut, List.flatMap_singleton,
            cutEvent]
          cases (cutInto size chunk #[]).toList with
          | nil => rfl
          | cons first parts =>
            simp [ReadEvent.withoutRequest?, Function.comp_def]
    rw [cut_cons, withoutRequests_cons, cut_append, ← hevent, ← ih]
    exact List.filterMap_append

theorem requests_cutEvent (size : Nat) (event : ReadEvent) :
    requests (cutEvent size event) = event.requests := by
  cases event with
  | pending | cancel | release => rfl
  | answer a cancelling =>
    cases a with
    | failed reason | interrupted reason => exact Bool.or_false _
    | bytes chunk =>
      obtain ⟨first, rest, hcut⟩ := exists_cutEvent_eq size chunk cancelling
      have hrest : requests (rest.map fun part => .answer (.bytes part) false) = false := by
        unfold requests
        rw [List.any_map, List.any_eq_false]
        intro part _
        exact Bool.false_ne_true
      rw [hcut, requests_cons, hrest]
      exact Bool.or_false _

theorem requests_cut (size : Nat) (script : Script) :
    (script.cut size).requests = script.requests := by
  induction script with
  | nil => rfl
  | cons event rest ih => rw [cut_cons, requests_append, requests_cutEvent, ih, requests_cons]

end Script

/-- What is known of cancelling after an event. -/
def Cancellation.notice (c : Cancellation) : ReadEvent → Cancellation
  | .pending => c
  | .cancel => c.request
  | .release => c.release
  | .answer _ cancelling => if cancelling then c.request else c

namespace Cancellation

variable (c : Cancellation) (event : ReadEvent)

theorem notice_requested :
    (c.notice event).requested = (c.requested || c.held && event.requests) := by
  cases event with
  | pending | release => simp [notice, ReadEvent.requests, release]
  | cancel =>
    cases h : c.held <;> simp [notice, ReadEvent.requests, request, h]
  | answer a cancelling =>
    cases h : c.held <;> cases cancelling <;> simp [notice, ReadEvent.requests, request, h]

theorem notice_held : (c.notice event).held = (c.held && event != .release) := by
  cases event with
  | pending | release => simp [notice, release]
  | cancel => cases h : c.held <;> simp [notice, request, h]
  | answer a cancelling => cases h : c.held <;> cases cancelling <;> simp [notice, request, h]

end Cancellation

namespace Load

def takeAnswer (load : Load) : Answer → Load
  | .bytes chunk => load.takeChunk chunk
  | _ => load

def takeEvent (load : Load) : ReadEvent → Load
  | .answer a _ => load.takeAnswer a
  | _ => load

@[simp] theorem takeEvent_mode (load : Load) (event : ReadEvent) :
    (load.takeEvent event).mode = load.mode := by
  cases event with
  | pending | cancel | release => rfl
  | answer a cancelling => cases a <;> simp [takeEvent, takeAnswer]

@[simp] theorem takeEvent_options (load : Load) (event : ReadEvent) :
    (load.takeEvent event).options = load.options := by
  cases event with
  | pending | cancel | release => rfl
  | answer a cancelling => cases a <;> simp [takeEvent, takeAnswer]

theorem takeEvent_cutter (load : Load) (event : ReadEvent) :
    (load.takeEvent event).cutter = (load.cutter.feed event.chunk).1 := by
  cases event with
  | pending | cancel | release => rfl
  | answer a cancelling =>
    cases a with
    | failed reason | interrupted reason => rfl
    | bytes chunk => exact load.takeChunk_cutter chunk

/-- The outcome of a load for which this is the last answer. -/
def endWith (load : Load) : Answer → LoadOutcome
  | .bytes _ => load.complete
  | .failed reason | .interrupted reason => load.abandon (.io reason)

/-- Takes the answers to the reads of a load that nobody cancels. -/
def follow (load : Load) : List Answer → LoadOutcome
  | [] => load.complete
  | a :: rest => if a.isLast then load.endWith a else (load.takeAnswer a).follow rest

theorem run_cons_of_isLast (load : Load) {c : Cancellation} (hc : c.requested = false)
    {a : Answer} (hlast : a.isLast = true) (cancelling : Bool) (rest : Script) :
    load.run c (.answer a cancelling :: rest) = load.endWith a := by
  cases a with
  | failed reason => exact run_failed load hc rest reason cancelling
  | interrupted reason => exact run_interrupted load hc rest reason cancelling
  | bytes chunk =>
    cases chunk with
    | nil => exact run_end load hc rest cancelling
    | cons b chunk => cases hlast

theorem run_cons_of_not_isLast (load : Load) {c : Cancellation} (hc : c.requested = false)
    {event : ReadEvent} (hlast : event.isLast = false) (rest : Script) :
    load.run c (event :: rest) = (load.takeEvent event).run (c.notice event) rest := by
  cases event with
  | pending => exact run_pending load hc rest
  | cancel => exact run_cancel load hc rest
  | release => exact run_release load hc rest
  | answer a cancelling =>
    cases a with
    | failed reason | interrupted reason => cases hlast
    | bytes chunk =>
      have hchunk : chunk ≠ [] := by
        rintro rfl
        cases hlast
      exact run_bytes load hc rest hchunk cancelling

theorem follow_answers_of_isLast (load : Load) {a : Answer} (hlast : a.isLast = true)
    (cancelling : Bool) (rest : Script) :
    load.follow (Script.answers (.answer a cancelling :: rest)) = load.endWith a := by
  rw [Script.answers, if_pos hlast, follow, if_pos hlast]

theorem follow_answers_of_not_isLast (load : Load) {event : ReadEvent}
    (hlast : event.isLast = false) (rest : Script) :
    load.follow (Script.answers (event :: rest)) =
      (load.takeEvent event).follow (Script.answers rest) := by
  cases event with
  | pending | cancel | release => rfl
  | answer a cancelling =>
    have ha : ¬ a.isLast = true := Bool.eq_false_iff.1 hlast
    rw [Script.answers, if_neg ha, follow, if_neg ha]
    rfl

theorem endWith_result_ne (load : Load) (a : Answer) :
    (load.endWith a).result ≠ .error .cancelled := by
  intro h
  cases a <;> cases h

theorem run_cancelled_iff (load : Load) (c : Cancellation) (script : Script) :
    (load.run c script).result = .error .cancelled ↔
      c.requested = true ∨ c.held = true ∧ script.whileHeld.requests = true := by
  induction script generalizing load c with
  | nil =>
    cases hc : c.requested with
    | true =>
      rw [run_of_requested load hc]
      exact ⟨fun _ => .inl rfl, fun _ => rfl⟩
    | false =>
      rw [run_nil load hc]
      constructor
      · intro h
        cases h
      · rintro (h | ⟨-, h⟩) <;> cases h
  | cons event rest ih =>
    cases hc : c.requested with
    | true =>
      rw [run_of_requested load hc]
      exact ⟨fun _ => .inl rfl, fun _ => rfl⟩
    | false =>
      rw [Script.whileHeld_cons]
      rcases event.isLast_or_not with ⟨a, cancelling, rfl, ha⟩ | hlast
      · have hlast : ReadEvent.isLast (.answer a cancelling) = true := ha
        rw [run_cons_of_isLast load hc ha, if_neg (by simp [hlast])]
        constructor
        · intro h
          exact absurd h (load.endWith_result_ne a)
        · rintro (h | ⟨-, h⟩) <;> cases h
      · rw [run_cons_of_not_isLast load hc hlast, ih, c.notice_requested, c.notice_held, hc]
        by_cases hrelease : event = .release
        · subst hrelease
          simp [ReadEvent.requests, Script.requests]
        · rw [if_pos ⟨hlast, hrelease⟩, Script.requests_cons]
          cases c.held <;> simp [hrelease]

theorem requested_eq_false {load : Load} {c : Cancellation} {script : Script}
    (h : (load.run c script).result ≠ .error .cancelled) : c.requested = false := by
  apply Bool.eq_false_iff.2
  intro hc
  exact h ((load.run_cancelled_iff c script).2 (.inl hc))

/-- Unless it is cancelled, a run takes the answers and nothing else. -/
theorem run_eq_follow {load : Load} {c : Cancellation} {script : Script}
    (h : (load.run c script).result ≠ .error .cancelled) :
    load.run c script = load.follow script.answers := by
  have hc : c.requested = false := requested_eq_false h
  induction script generalizing load c with
  | nil => exact run_nil load hc
  | cons event rest ih =>
    rcases event.isLast_or_not with ⟨a, cancelling, rfl, ha⟩ | hlast
    · rw [run_cons_of_isLast load hc ha, follow_answers_of_isLast load ha]
    · rw [run_cons_of_not_isLast load hc hlast] at h ⊢
      rw [follow_answers_of_not_isLast load hlast]
      exact ih h (requested_eq_false h)

theorem run_of_not_requests (load : Load) {c : Cancellation} (hc : c.requested = false)
    {script : Script} (hscript : script.requests = false) :
    load.run c script = load.follow script.answers := by
  apply run_eq_follow
  rw [Ne, run_cancelled_iff, hc]
  rintro (h | ⟨-, h⟩)
  · cases h
  · obtain ⟨event, hmem, hevent⟩ := List.any_eq_true.1 h
    have hnone := List.any_eq_false.1 hscript event ((List.takeWhile_sublist _).subset hmem)
    exact hnone hevent

end Load

end Toolpath
