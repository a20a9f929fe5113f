import Mathlib.Data.List.Range
import RequestHedging.Proofs.Journey.Course

/-!
# The schedule of a race

Hedges are asked for on an absolute schedule: whatever else happens, and however late a
race is polled, the inputs asked for after a poll that leaves it pending are those of the
hedges due by then, once each and in order (`schedule_run`).
-/

namespace RequestHedging

open Race Trace

variable {In Out : Type}

/-- The hedges that are due once some nanoseconds have passed since the start. -/
def Decision.due (d : Decision) (since : Nat) : List Nat :=
  (List.range' 1 d.maxHedges.toNat).filter fun i => d.dueNanos i ≤ since

namespace Decision

variable {d : Decision} {last since : Nat}

/-- The budget splits after any hedge in it. -/
theorem range'_maxHedges (h : last ≤ d.maxHedges.toNat) :
    List.range' 1 d.maxHedges.toNat =
      List.range' 1 last ++ List.range' (1 + last) (d.maxHedges.toNat - last) := by
  rw [List.range'_append_1, Nat.add_sub_cancel' h]

theorem filter_range'_of_due (h : d.dueNanos last ≤ since) :
    ((List.range' 1 last).filter fun i => d.dueNanos i ≤ since) = List.range' 1 last := by
  apply List.filter_eq_self.mpr
  intro i hi
  apply decide_eq_true
  have hle : i ≤ last := by
    have := (List.mem_range'_1.mp hi).2
    omega
  exact Nat.le_trans (d.dueNanos_mono hle) h

/-- If a hedge is due, those before it are. -/
theorem range'_prefix_due (h : last ≤ d.maxHedges.toNat) (hdue : d.dueNanos last ≤ since) :
    List.range' 1 last <+: d.due since := by
  rw [due, range'_maxHedges h, List.filter_append, filter_range'_of_due hdue]
  exact List.prefix_append _ _

/-- If the hedge after it is not due, no hedge after it is. -/
theorem due_eq_range' (h : last ≤ d.maxHedges.toNat) (hdue : d.dueNanos last ≤ since)
    (hnot : last < d.maxHedges.toNat → since < d.dueNanos (last + 1)) :
    d.due since = List.range' 1 last := by
  rw [due, range'_maxHedges h, List.filter_append, filter_range'_of_due hdue,
    List.filter_eq_nil_iff.mpr, List.append_nil]
  intro i hi
  obtain ⟨hlow, hhigh⟩ := List.mem_range'_1.mp hi
  have hlate := hnot (by omega)
  have hmono : d.dueNanos (last + 1) ≤ d.dueNanos i := d.dueNanos_mono (by omega)
  simp only [decide_eq_true_eq]
  omega

/-- Before the end of all durations, a hedge is due exactly so many delays after the start. -/
theorem add_delays_le {start now i : Nat} (h : start + d.dueNanos i ≤ now)
    (hlong : now < start + Duration.longestNanos) :
    start + i * (d.delay.getD Duration.zero).nanos ≤ now := by
  unfold dueNanos at h
  omega

end Decision

/-- What is told of an event is about the same attempt. -/
theorem Trace.attempt_told {ls : List (Listener In Out)} {event : Event In Out}
    {e : Entry In Out} (h : e ∈ told ls event) : e.attempt? = some event.attempt := by
  cases event with
  | reported p =>
    rcases List.mem_cons.mp h with rfl | h
    · rfl
    · obtain ⟨l, -, rfl⟩ := List.mem_map.mp h
      rfl
  | _ =>
    obtain rfl := List.mem_singleton.mp h
    rfl

namespace Race

/-- A race that rests asked for all hedges that are due. -/
theorem Resting.due_eq {cb : Callbacks In Out} {d : Decision} {start now : Instant}
    {tr : List (Event In Out)} {r : Race In Out} (h : r.Resting now)
    (hr : Running cb d start now tr r) :
    d.due (now - start) = List.range' 1 r.lastHedge.toNat := by
  obtain rfl := hr.timed.decision
  refine Decision.due_eq_range' hr.books.within (Nat.le_sub_of_add_le' hr.timed.due)
    fun hlt => ?_
  obtain ⟨⟨index, due⟩, hnext⟩ : ∃ s, r.decision.next r.lastHedge = some s := by
    apply Option.ne_none_iff_exists'.mp
    intro hnone
    exact Nat.not_le_of_lt hlt (Decision.next_eq_none_iff.mp hnone)
  have hlate := h.not_due index due hnext
  rw [hr.timed.started, Decision.nanos_of_next hnext, (Decision.next_eq_some hnext).1] at hlate
  have hstarted : start ≤ now := hr.timed.started ▸ hr.started_le
  exact Nat.sub_lt_left_of_lt_add hstarted hlate

/-- Inputs are asked for in the order of their attempts, without a gap. -/
theorem Books.asked_eq {cb : Callbacks In Out} {hand : List Attempt} {tr : List (Event In Out)}
    {r : Race In Out} (h : Books cb hand tr r) :
    tr.filterMap Event.asked? =
      (0 :: List.range' 1 r.lastHedge.toNat).map r.decision.attempt := by
  rw [h.asked, List.range_eq_range', List.range'_succ]

end Race

namespace Journey

/-- How the inputs of attempts are asked for, and what their attempts are. -/
structure Schedule (d : Decision) (start : Instant) (j : Journey In Out) : Prop where
  /-- While the race is pending, all hedges due at its last poll were asked for, in order. -/
  pending : ∀ session, j.stage = .held session →
    j.events.filterMap Event.asked? = (0 :: d.due (j.seen - start)).map d.attempt
  /-- However it ended, a first part of them. -/
  initial : ∃ hedges, hedges <+: d.due (j.seen - start) ∧
    j.events.filterMap Event.asked? = (0 :: hedges).map d.attempt
  /-- None was asked for too early. -/
  onTime : ∀ t a request, (t, .race (.copied a request)) ∈ j.trace →
    start + d.dueNanos a.index.toNat ≤ t
  /-- Before the end of all durations, that is so many whole delays after the start. -/
  unsaturated : ∀ t a request, (t, .race (.copied a request)) ∈ j.trace →
    t < start + Duration.longestNanos →
    start + a.index.toNat * (d.delay.getD Duration.zero).nanos ≤ t
  /-- All callbacks are given the attempt as it was planned. -/
  planned : ∀ e ∈ j.trace ++ j.aftermath, ∀ a, e.2.attempt? = some a →
    ∃ i ≤ d.maxHedges.toNat, a = d.attempt i ∧ a.index.toNat = i ∧
      (a.isLast = true ↔ d.maxHedges.toNat ≤ i)
  /-- The inner service is called at most once for each. -/
  calls : ((j.events ++ j.laterEvents).filterMap Event.called?).length ≤ 1 + d.maxHedges.toNat

section Schedule

variable {svc : Service In Out} {d : Decision} {start : Instant} {ls : List (Listener In Out)}
  {j : Journey In Out}

/-- While the caller waits, all hedges due by its last poll were asked for. -/
theorem Course.pending (h : Course svc d start ls j) {session : Session In Out}
    (hsession : j.stage = .held session) :
    j.events.filterMap Event.asked? = (0 :: d.due (j.seen - start)).map d.attempt := by
  obtain ⟨r, -, -, -, hrunning, hresting⟩ := h.held hsession
  rw [hresting.due_eq hrunning, hrunning.books.asked_eq, hrunning.timed.decision]

/-- At any time, those asked for are the first of them. -/
theorem Course.initial (h : Course svc d start ls j) :
    ∃ hedges, hedges <+: d.due (j.seen - start) ∧
      j.events.filterMap Event.asked? = (0 :: hedges).map d.attempt := by
  obtain ⟨p, hstands, -⟩ := h.stands
  obtain ⟨hand, hbooks⟩ := hstands.exists_books
  obtain ⟨rfl, -, hdue⟩ := hstands.timed
  exact ⟨_, Decision.range'_prefix_due hbooks.within (Nat.le_sub_of_add_le' hdue),
    hbooks.asked_eq⟩

/-- What the trace shows of an attempt, an event was about. -/
theorem Record.exists_event {ls : List (Listener In Out)} (h : Record d start ls j)
    {e : Instant × Entry In Out} (he : e ∈ j.trace ++ j.aftermath) {a : Attempt}
    (ha : e.2.attempt? = some a) : ∃ event ∈ j.events ++ j.laterEvents, event.attempt = a := by
  have hnews : e.2.isNews = true := by
    revert ha
    cases e.2 <;> simp
  have hmem : e.2 ∈ (j.events ++ j.laterEvents).flatMap (told ls) := by
    rw [← h.news_all]
    exact List.mem_filter.mpr ⟨List.mem_map_of_mem he, hnews⟩
  obtain ⟨event, hevent, htold⟩ := List.mem_flatMap.mp hmem
  exact ⟨event, hevent, Option.some.inj ((attempt_told htold).symm.trans ha)⟩

/-- All that is observed is about attempts of the plan. -/
theorem Course.planned (h : Course svc d start ls j) {e : Instant × Entry In Out}
    (he : e ∈ j.trace ++ j.aftermath) {a : Attempt} (ha : e.2.attempt? = some a) :
    ∃ i ≤ d.maxHedges.toNat, a = d.attempt i ∧ a.index.toNat = i ∧
      (a.isLast = true ↔ d.maxHedges.toNat ≤ i) := by
  obtain ⟨hand, r, hbooks, rfl⟩ := h.exists_books
  obtain ⟨event, hevent, rfl⟩ := h.record.exists_event he ha
  obtain ⟨i, hi, hattempt, hindex⟩ := hbooks.exists_attempt (hbooks.about event hevent)
  refine ⟨i, Nat.le_trans hi hbooks.within, hattempt, hindex, ?_⟩
  have hlast : event.attempt.isLast = decide (r.decision.maxHedges ≤ event.attempt.index) := by
    rw [hattempt]
    rfl
  rw [hlast, decide_eq_true_iff, UInt32.le_iff_toNat_le, hindex]

/-- There is at most one call for each attempt of the plan. -/
theorem Course.calls (h : Course svc d start ls j) :
    ((j.events ++ j.laterEvents).filterMap Event.called?).length ≤ 1 + d.maxHedges.toNat := by
  obtain ⟨hand, r, hbooks, rfl⟩ := h.exists_books
  have hcalled := hbooks.called.length_eq
  have hsent := hbooks.sent.length_le
  have hwithin := hbooks.within
  rw [hbooks.asked, List.length_map, List.length_range] at hsent
  rw [List.length_append] at hcalled
  omega

theorem Course.schedule (h : Course svc d start ls j) : Schedule d start j where
  pending := fun _ hsession => h.pending hsession
  initial := h.initial
  onTime := h.record.onTime
  unsaturated := fun t a request hmem hlong =>
    Decision.add_delays_le (h.record.onTime t a request hmem) hlong
  planned := fun _ he _ ha => h.planned he ha
  calls := h.calls

end Schedule

/-- The schedule of a race, whatever happens and whenever it is polled. -/
theorem schedule_run {svc : Service In Out} {now : Instant} {es : Estimators} {request : In}
    {d : Decision} {ls : List (Listener In Out)} (h : svc.Races now es request d ls)
    (opened : List Nat) (acts : List Act) :
    Schedule d now ((enter svc now opened es request).run svc acts) :=
  (course_run (course_enter h opened) acts).schedule

/-- The slow service asks for both inputs of its plan. -/
theorem schedule_run_slowFirst :
    slowFirst.Races 0 [] 7 .standard [.callback "log" fun _ => .ok ()] ∧
      Schedule .standard 0 ((enter slowFirst 0 [] [] 7).run slowFirst slowFirstActs) ∧
      ((enter slowFirst 0 [] [] 7).run slowFirst slowFirstActs).events.filterMap Event.asked? =
        [⟨0, false⟩, ⟨1, true⟩] :=
  ⟨races_slowFirst, schedule_run races_slowFirst [] slowFirstActs, by decide +kernel⟩

end Journey

end RequestHedging
