import Toolpath.Load.Watch
import Toolpath.Proofs.Answers
import Toolpath.Proofs.Completion

/-!
# Cancelled loads

A load that is cancelled has handed over the beginning of what it hands over if nobody cancels: the
batches of the reads answered up to the request, and no trace. Releasing the handle is no request
and takes none back. Nor does it matter when the load looks at the signal: `Load.watch`, which finds
out about a request only when it is woken, comes to the same as `Load.run`.
-/

namespace Toolpath

/-- The watcher has not missed a raised signal, and waits for nothing only if nothing can come. -/
def Watcher.IsSound (s : Signal) : Watcher → Prop
  | .fresh => True
  | .waiting seen => seen ≤ s.changes ∧ (s.raised = true → seen < s.changes)
  | .idle => s.raised = false ∧ s.closed = true

namespace Watcher

variable {s : Signal} {w : Watcher}

theorem look_of_raised (h : s.raised = true) : look s = none := if_pos h

theorem exists_look (h : s.raised = false) : ∃ w, look s = some w ∧ w.IsSound s := by
  unfold look
  rw [h, if_neg Bool.false_ne_true]
  by_cases hclosed : s.closed = true
  · rw [if_pos hclosed]
    exact ⟨.idle, rfl, h, hclosed⟩
  · rw [if_neg hclosed]
    refine ⟨.waiting s.changes, rfl, Nat.le_refl _, ?_⟩
    intro hraised
    rw [h] at hraised
    cases hraised

theorem IsSound.poll_of_raised (hw : w.IsSound s) (h : s.raised = true) : w.poll s = none := by
  cases w with
  | fresh => exact look_of_raised h
  | waiting seen =>
    have hseen : seen < s.changes := hw.2 h
    rw [poll, if_pos (by omega)]
    exact look_of_raised h
  | idle =>
    rw [hw.1] at h
    cases h

theorem IsSound.exists_poll (hw : w.IsSound s) (h : s.raised = false) :
    ∃ w', w.poll s = some w' ∧ w'.IsSound s := by
  cases w with
  | fresh => exact exists_look h
  | waiting seen =>
    rw [poll]
    by_cases hseen : s.changes ≠ seen
    · rw [if_pos hseen]
      exact exists_look h
    · rw [if_neg hseen]
      by_cases hclosed : s.closed = true
      · rw [if_pos hclosed]
        exact ⟨.idle, rfl, h, hclosed⟩
      · rw [if_neg hclosed]
        exact ⟨.waiting seen, rfl, hw⟩
  | idle => exact ⟨.idle, rfl, hw⟩

theorem IsSound.raise (hw : w.IsSound s) : w.IsSound s.raise := by
  unfold Signal.raise
  by_cases hclosed : s.closed = true
  · rwa [if_pos hclosed]
  · rw [if_neg hclosed]
    cases w with
    | fresh => trivial
    | waiting seen =>
      have hseen : seen ≤ s.changes := hw.1
      exact ⟨Nat.le_succ_of_le hseen, fun _ => Nat.lt_succ_of_le hseen⟩
    | idle => exact absurd hw.2 hclosed

theorem IsSound.close (hw : w.IsSound s) : w.IsSound s.close := by
  cases w with
  | fresh => trivial
  | waiting seen => exact hw
  | idle => exact ⟨hw.1, rfl⟩

end Watcher

namespace Signal

variable (s : Signal)

theorem raised_raise (h : s.raised = true) : s.raise.raised = true := by
  unfold raise
  split
  · exact h
  · rfl

theorem state_raise : s.raise.state = s.state.request := by
  unfold raise state Cancellation.request
  cases h : s.closed <;> simp [h]

theorem state_close : s.close.state = s.state.release := rfl

theorem state_notice (a : Answer) (cancelling : Bool) :
    (if cancelling then s.raise else s).state = s.state.notice (.answer a cancelling) := by
  cases cancelling with
  | false => rfl
  | true => exact s.state_raise

end Signal

namespace Load

section Watch

variable (load : Load) {s : Signal} {w : Watcher}

/-- A raised signal is found out the next time that the load is woken, and nothing is read. -/
theorem watch_of_raised (hw : w.IsSound s) (hs : s.raised = true) (script : Script) :
    load.watch s w script = load.abandon .cancelled := by
  induction script generalizing s w with
  | nil =>
    unfold watch
    rw [hw.poll_of_raised hs]
  | cons event rest ih =>
    cases event with
    | cancel => exact ih hw.raise (s.raised_raise hs)
    | release => exact ih hw.close hs
    | pending | answer _ _ =>
      unfold watch
      rw [hw.poll_of_raised hs]

theorem watch_answer_of_isLast (hw : w.IsSound s) (hs : s.raised = false) {a : Answer}
    (hlast : a.isLast = true) (cancelling : Bool) (rest : Script) :
    load.watch s w (.answer a cancelling :: rest) = load.endWith a := by
  obtain ⟨w', hpoll, -⟩ := hw.exists_poll hs
  unfold watch
  rw [hpoll]
  cases a with
  | failed reason | interrupted reason => rfl
  | bytes chunk =>
    cases chunk with
    | nil => rfl
    | cons b chunk => cases hlast

theorem watch_answer_of_not_isLast (hw : w.IsSound s) (hs : s.raised = false) {a : Answer}
    (hlast : a.isLast = false) (cancelling : Bool) (rest : Script) :
    load.watch s w (.answer a cancelling :: rest) =
      (load.takeAnswer a).watch (if cancelling then s.raise else s) .fresh rest := by
  obtain ⟨w', hpoll, -⟩ := hw.exists_poll hs
  cases a with
  | failed reason | interrupted reason => cases hlast
  | bytes chunk =>
    cases chunk with
    | nil => cases hlast
    | cons b chunk => simp [watch, hpoll, takeAnswer]

/-- Asking late, and only when woken, a watching load still finds out all that `run` knows. -/
theorem watch_eq_run (hw : w.IsSound s) (script : Script) :
    load.watch s w script = load.run s.state script := by
  induction script generalizing load s w with
  | nil =>
    cases hs : s.raised with
    | true => rw [load.watch_of_raised hw hs, load.run_of_requested hs]
    | false =>
      obtain ⟨w', hpoll, -⟩ := hw.exists_poll hs
      unfold watch
      rw [hpoll, load.run_nil hs]
  | cons event rest ih =>
    cases hs : s.raised with
    | true => rw [load.watch_of_raised hw hs, load.run_of_requested hs]
    | false =>
      cases event with
      | pending =>
        obtain ⟨w', hpoll, hw'⟩ := hw.exists_poll hs
        rw [watch, hpoll, load.run_pending hs]
        exact ih load hw'
      | cancel => rw [watch, ih load hw.raise, s.state_raise, load.run_cancel hs]
      | release => rw [watch, ih load hw.close, s.state_close, load.run_release hs]
      | answer a cancelling =>
        cases hlast : a.isLast with
        | true =>
          rw [load.watch_answer_of_isLast hw hs hlast, load.run_cons_of_isLast hs hlast]
        | false =>
          have hevent : ReadEvent.isLast (.answer a cancelling) = false := hlast
          rw [load.watch_answer_of_not_isLast hw hs hlast, load.run_cons_of_not_isLast hs hevent,
            ih (load.takeAnswer a) (w := .fresh) trivial, s.state_notice a]
          rfl

end Watch

def reports (load : Load) : List BatchReport := load.handovers.toList.filterMap Handover.report?

theorem reports_takeBatch? (load : Load) (batch : Option Batch) :
    load.reports <+: (load.takeBatch? batch).reports := by
  cases batch with
  | none => exact List.prefix_rfl
  | some batch =>
    change load.reports <+: ((load.handovers.push _).toList).filterMap Handover.report?
    rw [Array.toList_push, List.filterMap_append]
    exact List.prefix_append _ _

theorem reports_takeEvent (load : Load) (event : ReadEvent) :
    load.reports <+: (load.takeEvent event).reports := by
  cases event with
  | pending | cancel | release => exact List.prefix_rfl
  | answer a cancelling =>
    cases a with
    | failed reason | interrupted reason => exact List.prefix_rfl
    | bytes chunk => exact reports_takeBatch? { load with cutter := (load.cutter.push chunk).1 } _

theorem reports_complete (load : Load) : load.reports <+: load.complete.reports := by
  have hend : load.reports <+: load.takeEnd.reports :=
    reports_takeBatch? { load with cutter := load.cutter.finish.1 } _
  have hclose : load.complete.reports = load.takeEnd.reports := by
    unfold LoadOutcome.reports complete close reports
    rw [Array.toList_push, List.filterMap_append]
    exact List.append_nil _
  rwa [hclose]

theorem reports_endWith (load : Load) (a : Answer) : load.reports <+: (load.endWith a).reports := by
  cases a with
  | failed reason | interrupted reason => exact List.prefix_rfl
  | bytes chunk => exact load.reports_complete

theorem reports_follow (load : Load) (answers : List Answer) :
    load.reports <+: (load.follow answers).reports := by
  induction answers generalizing load with
  | nil => exact load.reports_complete
  | cons a rest ih =>
    rw [follow]
    by_cases hlast : a.isLast = true
    · rw [if_pos hlast]
      exact load.reports_endWith a
    · rw [if_neg hlast]
      exact (load.reports_takeEvent (.answer a false)).trans (ih _)

/-- Whatever happens to the handle, a run hands over no other batches than the answers give. -/
theorem reports_run (load : Load) (c : Cancellation) (script : Script) :
    (load.run c script).reports <+: (load.follow script.answers).reports := by
  induction script generalizing load c with
  | nil =>
    cases hc : c.requested with
    | true =>
      rw [run_of_requested load hc]
      exact load.reports_follow _
    | false =>
      rw [run_nil load hc]
      exact List.prefix_rfl
  | cons event rest ih =>
    cases hc : c.requested with
    | true =>
      rw [run_of_requested load hc]
      exact load.reports_follow _
    | false =>
      rcases event.isLast_or_not with ⟨a, cancelling, rfl, ha⟩ | hlast
      · have hsame := (load.run_cons_of_isLast hc ha cancelling rest).trans
          (load.follow_answers_of_isLast ha cancelling rest).symm
        exact hsame ▸ List.prefix_rfl
      · rw [run_cons_of_not_isLast load hc hlast, follow_answers_of_not_isLast load hlast]
        exact ih (load.takeEvent event) (c.notice event)

/-- A cancelled load has taken the events up to the first request, and nothing behind it. -/
theorem run_of_first_request (load : Load) {c : Cancellation} (hc : c.requested = false)
    {before after : Script} {event : ReadEvent} (hbefore : before.requests = false)
    (hevent : event.requests = true)
    (h : (load.run c (before ++ event :: after)).result = .error .cancelled) :
    load.run c (before ++ event :: after) =
      ((before ++ [event]).foldl takeEvent load).abandon .cancelled := by
  induction before generalizing load c with
  | nil =>
    rw [List.nil_append] at h ⊢
    rcases event.isLast_or_not with ⟨a, cancelling, rfl, ha⟩ | hlast
    · rw [run_cons_of_isLast load hc ha] at h
      exact absurd h (load.endWith_result_ne a)
    · rw [run_cons_of_not_isLast load hc hlast] at h ⊢
      rcases (run_cancelled_iff _ _ after).1 h with hrequested | ⟨hheld, -⟩
      · exact run_of_requested _ hrequested after
      · apply run_of_requested
        rw [c.notice_held, Bool.and_eq_true] at hheld
        rw [c.notice_requested, hheld.1, hevent]
        exact Bool.or_true _
  | cons e before ih =>
    rw [List.cons_append] at h ⊢
    rw [Script.requests_cons, Bool.or_eq_false_iff] at hbefore
    rcases e.isLast_or_not with ⟨a, cancelling, rfl, ha⟩ | hlast
    · rw [run_cons_of_isLast load hc ha] at h
      exact absurd h (load.endWith_result_ne a)
    · rw [run_cons_of_not_isLast load hc hlast] at h ⊢
      have hnotice : (c.notice e).requested = false := by
        rw [c.notice_requested, hc, hbefore.1, Bool.and_false, Bool.or_false]
      exact ih (load.takeEvent e) hnotice hbefore.2 h

/-- A release takes no request back, and without a request it changes nothing. -/
theorem run_append_release (load : Load) {c : Cancellation} {before after : Script}
    (h : c.held = false ∨ before.requests = true ∨ after.requests = false) :
    load.run c (before ++ .release :: after) = load.run c (before ++ after) := by
  cases hc : c.requested with
  | true => rw [run_of_requested load hc, run_of_requested load hc]
  | false =>
    induction before generalizing load c with
    | nil =>
      rw [List.nil_append, List.nil_append, run_release load hc]
      rcases h with hheld | h | hafter
      · have hrelease : c.release = c := by rw [Cancellation.release, ← hheld]
        rw [hrelease]
      · cases h
      · rw [run_of_not_requests load (c := c.release) hc hafter, run_of_not_requests load hc hafter]
    | cons e before ih =>
      rw [List.cons_append, List.cons_append]
      rcases e.isLast_or_not with ⟨a, cancelling, rfl, ha⟩ | hlast
      · rw [run_cons_of_isLast load hc ha, run_cons_of_isLast load hc ha]
      · rw [run_cons_of_not_isLast load hc hlast, run_cons_of_not_isLast load hc hlast]
        cases hnotice : (c.notice e).requested with
        | true => rw [run_of_requested _ hnotice, run_of_requested _ hnotice]
        | false =>
          refine ih (load.takeEvent e) ?_ hnotice
          rw [c.notice_requested, hc, Bool.false_or, Bool.and_eq_false_iff] at hnotice
          rw [c.notice_held, Bool.and_eq_false_iff]
          rcases hnotice with hheld | hevent
          · exact .inl (.inl hheld)
          · rcases h with hheld | hbefore | hafter
            · exact .inl (.inl hheld)
            · rw [Script.requests_cons, hevent, Bool.false_or] at hbefore
              exact .inr (.inl hbefore)
            · exact .inr (.inr hafter)

end Load

namespace Loader

theorem load_withoutRequests (l : Loader) (script : Script) (total : Option Nat)
    (c : Cancellation) :
    l.load script.withoutRequests total { c with requested := false } =
      (Load.start l.mode total l.machine).follow (script.cut l.readSize).answers := by
  have hquiet : (script.withoutRequests.cut l.readSize).requests = false := by
    rw [Script.requests_cut, Script.requests_withoutRequests]
  rw [load, Load.run_of_not_requests _ rfl hquiet, ← Script.withoutRequests_cut,
    Script.answers_withoutRequests]

theorem load_trace_isSome_iff (l : Loader) (script : Script) (total : Option Nat)
    (c : Cancellation) :
    (l.load script total c).trace.isSome = true ↔
      ∃ summary, (l.load script total c).result = .ok summary := by
  rcases l.load_isLoadOf_or_isAbandoned script total c with hdone | hleft
  · rw [hdone.trace_eq, hdone.result]
    exact ⟨fun _ => ⟨_, rfl⟩, fun _ => rfl⟩
  · rw [hleft.trace_eq]
    constructor
    · intro h
      cases h
    · rintro ⟨summary, h⟩
      exact absurd h (hleft.result_ne summary)

/-- A load is cancelled exactly by a request before its start or, from somebody who holds the
handle, before the last answer. It has then taken the reads up to the request, that of the request
included, and is otherwise the load that nobody cancels. Releasing the handle changes nothing of
this, nor does watching the signal only when the load is woken. -/
theorem cancelling_truncates (l : Loader) (script : Script) (total : Option Nat)
    (c : Cancellation) :
    let reads := script.cut l.readSize
    let start := Load.start l.mode total l.machine
    let outcome := l.load script total c
    let whole := l.load script.withoutRequests total { c with requested := false }
    (∀ s : Signal, s.state = c → l.loadWatching script total s = outcome) ∧
    (outcome.result = .error .cancelled ↔
      c.requested = true ∨ c.held = true ∧ reads.whileHeld.requests = true) ∧
    (c.requested = true → outcome = start.abandon .cancelled) ∧
    (∀ (before after : Script) (event : ReadEvent), reads = before ++ event :: after →
      c.requested = false → outcome.result = .error .cancelled → before.requests = false →
      event.requests = true →
      outcome = ((before ++ [event]).foldl Load.takeEvent start).abandon .cancelled) ∧
    (outcome.result ≠ .error .cancelled → outcome = whole) ∧
    (∀ before after : Script, script = before ++ .release :: after →
      before.requests = true ∨ after.requests = false →
      l.load (before ++ after) total c = outcome) ∧
    outcome.reports <+: whole.reports ∧
    (outcome.trace.isSome = true ↔ ∃ summary, outcome.result = .ok summary) := by
  intro reads start outcome whole
  have hwhole : whole = start.follow reads.answers := l.load_withoutRequests script total c
  refine ⟨?_, start.run_cancelled_iff c reads, fun hc => start.run_of_requested hc reads, ?_, ?_,
    ?_, ?_, l.load_trace_isSome_iff script total c⟩
  · rintro s rfl
    exact start.watch_eq_run (w := .fresh) trivial reads
  · intro before after event hreads hc hresult hbefore hevent
    change (start.run c reads).result = _ at hresult
    change start.run c reads = _
    rw [hreads] at hresult ⊢
    exact start.run_of_first_request hc hbefore hevent hresult
  · intro hresult
    rw [hwhole]
    exact Load.run_eq_follow hresult
  · rintro before after rfl hrequests
    have hcut : reads = before.cut l.readSize ++ .release :: after.cut l.readSize :=
      Script.cut_append _ before (.release :: after)
    change start.run c (Script.cut _ (before ++ after)) = start.run c reads
    rw [hcut, Script.cut_append, start.run_append_release]
    rw [Script.requests_cut, Script.requests_cut]
    exact .inr hrequests
  · rw [hwhole]
    exact start.reports_run c reads

/-- Cancelled with the first of two reads that one answer fills, released at once and failing in the
end: one of three segments is handed over. -/
theorem cancelling_truncates_between :
    let l : Loader := { machine := .ofOptions {}, chunkSize := 6 }
    let chunk (text : String) (cancelling : Bool) : ReadEvent :=
      .answer (.bytes text.toUTF8.data.toList) cancelling
    let later : Script := [chunk "G1 X3\n" false, .answer (.failed "unplugged") false]
    let script : Script := chunk "G1 X1\nG1 X2\n" true :: .release :: later
    let whole := l.load script.withoutRequests none {}
    (l.load script none {}).result = .error .cancelled ∧
      (l.load script none {}).segments.length = 1 ∧
      l.load (chunk "G1 X1\nG1 X2\n" true :: later) none {} = l.load script none {} ∧
      l.loadWatching script none {} = l.load script none {} ∧
      whole.segments.length = 3 := by
  intro l chunk later script whole
  have h := cancelling_truncates l script none {}
  obtain ⟨hwatch, hcancelled, -, htaken, -, hrelease, -, -⟩ := h
  have hresult := hcancelled.2 (.inr ⟨rfl, by decide +kernel⟩)
  have hsame := hrelease [chunk "G1 X1\nG1 X2\n" true] later rfl (.inl rfl)
  have houtcome := htaken [] (chunk "G1 X2\n" false :: .release :: later)
    (chunk "G1 X1\n" true) (by decide +kernel) rfl hresult rfl rfl
  refine ⟨hresult, ?_, hsame, hwatch {} rfl, by decide +kernel⟩
  rw [houtcome]
  decide +kernel

end Loader

end Toolpath
