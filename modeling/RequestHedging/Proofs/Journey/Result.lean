import RequestHedging.Proofs.Journey.Course

/-!
# The result of a race

A race ends with the output of an attempt that succeeded, and then every attempt that
completed before it failed, or with the output of the primary attempt, and then every
hedge was due and every attempt issued failed (`result_run`).  The output of the primary
attempt is there when it is needed, since that attempt is always issued and its output is
kept when it fails (`Race.exists_primaryOutput`).
-/

namespace RequestHedging

open Race

variable {In Out : Type}

/-- An attempt fails if its output asks to be tried again, or is unavailable where that is
handled. -/
theorem Callbacks.verdict_eq_failure_iff {cb : Callbacks In Out} {a : Attempt} {output : Out}
    {recovery : Recovery} (h : cb.recovery output a = .ok recovery) :
    cb.verdict a output = .ok .failure ↔
      recovery = .retry ∨ recovery = .unavailable ∧ cb.handleUnavailable = true := by
  rw [verdict, h]
  cases recovery <;> cases cb.handleUnavailable <;> simp [Except.map, Recovery.outcome]

/-- All other attempts whose output can be classified succeed. -/
theorem Callbacks.verdict_eq_success_iff {cb : Callbacks In Out} {a : Attempt} {output : Out}
    {recovery : Recovery} (h : cb.recovery output a = .ok recovery) :
    cb.verdict a output = .ok .success ↔
      ¬ (recovery = .retry ∨ recovery = .unavailable ∧ cb.handleUnavailable = true) := by
  rw [verdict, h]
  cases recovery <;> cases cb.handleUnavailable <;> simp [Except.map, Recovery.outcome]

namespace Race

/-- The attempt that completed last succeeded with the output, and all before it failed. -/
def Won (cb : Callbacks In Out) (tr : List (Event In Out)) (output : Out) : Prop :=
  ∃ failed a, tr.filterMap Event.consumed? = failed ++ [(a, output)] ∧
    (∀ c ∈ failed, cb.verdict c.1 c.2 = .ok .failure) ∧ cb.verdict a output = .ok .success

/-- Every attempt of the budget was issued or refused, every attempt issued completed and failed,
and the output is that of the primary attempt. -/
structure Exhausted (cb : Callbacks In Out) (d : Decision) (tr : List (Event In Out))
    (output : Out) : Prop where
  asked : tr.filterMap Event.asked? = (List.range (d.maxHedges.toNat + 1)).map d.attempt
  answered : Answered cb tr
  completed : (tr.filterMap Event.issued?).Perm ((tr.filterMap Event.consumed?).map Prod.fst)
  failed : ∀ c ∈ tr.filterMap Event.consumed?, cb.verdict c.1 c.2 = .ok .failure
  primary : (d.attempt 0, output) ∈ tr.filterMap Event.consumed?

section Ends

variable {cb : Callbacks In Out} {d : Decision} {hand : List Attempt} {tr : List (Event In Out)}
  {r : Race In Out} {output : Out}

/-- What is known of the reports is known of the completions. -/
theorem verdict_of_reported (h : Books cb hand tr r) (hclean : Clean tr)
    {outcome : Outcome} (hall : ∀ p ∈ tr.filterMap Event.reported?, p.outcome = outcome) :
    ∀ c ∈ tr.filterMap Event.consumed?, cb.verdict c.1 c.2 = .ok outcome := by
  rw [hclean.reported]
  intro c hc
  obtain ⟨p, hp, rfl⟩ := List.mem_map.mp hc
  rw [← hall p hp]
  exact h.judged p hp

/-- Only one attempt is primary. -/
theorem Books.eq_attempt_zero (h : Books cb hand tr r) {p : Report In Out}
    (hp : p ∈ tr.filterMap Event.reported?) (hprimary : p.attempt.isPrimary = true) :
    p.attempt = r.decision.attempt 0 := by
  obtain ⟨i, -, ha, hi⟩ := h.exists_attempt (h.reported_mem_asked hp)
  have hzero : p.attempt.index = 0 := by simpa [Attempt.isPrimary] using hprimary
  obtain rfl : 0 = i := by
    rw [← hi, hzero]
    rfl
  exact ha

theorem WonBy.won (hwon : WonBy tr output) (h : Books cb hand tr r) (hclean : Clean tr) :
    Won cb tr output := by
  obtain ⟨failed, p, hreported, hfailed, hsuccess, rfl⟩ := hwon
  refine ⟨failed.map fun q => (q.attempt, q.output), p.attempt, ?_, ?_, ?_⟩
  · rw [hclean.reported, hreported, List.map_append]
    rfl
  · intro c hc
    obtain ⟨q, hq, rfl⟩ := List.mem_map.mp hc
    rw [← hfailed q hq]
    exact h.judged q (by rw [hreported]; exact List.mem_append_left _ hq)
  · rw [← hsuccess]
    exact h.judged p (by rw [hreported]; exact List.mem_append_right _ (List.mem_singleton_self _))

/-- A race that was spent has exhausted its budget. -/
theorem Spent.exhausted (hspent : Spent tr r output) (h : Books cb [] tr r) (hclean : Clean tr)
    (hanswered : Answered cb tr) : Exhausted cb r.decision tr output := by
  obtain ⟨p, hp, hprimary, rfl⟩ := hspent.primary
  refine ⟨?_, hanswered, ?_, verdict_of_reported h hclean hspent.failed, ?_⟩
  · rw [h.asked, hspent.all_due]
  · have hconserved := h.conserved
    rw [hspent.none_left, List.append_nil, List.append_nil] at hconserved
    rw [hclean.reported, List.map_map]
    exact hconserved
  · rw [hclean.reported, ← h.eq_attempt_zero hp hprimary]
    exact List.mem_map_of_mem hp

/-- A race is not both won and exhausted. -/
theorem not_won_and_exhausted : ¬ (Won cb tr output ∧ Exhausted cb d tr output) := by
  rintro ⟨⟨failed, a, hconsumed, -, hsuccess⟩, hexhausted⟩
  have hfailure := hexhausted.failed (a, output)
    (by rw [hconsumed]; exact List.mem_append_right _ (List.mem_singleton_self _))
  cases hsuccess.symm.trans hfailure

end Ends

end Race

namespace Journey

/-- What a session in a race can come to. -/
structure Result (cb : Callbacks In Out) (d : Decision) (j : Journey In Out) : Prop where
  once : j.endings.length ≤ 1
  either : ∀ output, .returned output ∈ j.endings →
    Won cb j.events output ∨ Exhausted cb d j.events output
  exclusive : ∀ output, ¬ (Won cb j.events output ∧ Exhausted cb d j.events output)
  failure : ∀ a output recovery, cb.recovery output a = .ok recovery →
    (cb.verdict a output = .ok .failure ↔
      recovery = .retry ∨ recovery = .unavailable ∧ cb.handleUnavailable = true)
  success : ∀ a output recovery, cb.recovery output a = .ok recovery →
    (cb.verdict a output = .ok .success ↔
      ¬ (recovery = .retry ∨ recovery = .unavailable ∧ cb.handleUnavailable = true))
  kept : .crashed .primaryMissing ∉ j.endings

theorem result_of_endings {cb : Callbacks In Out} {d : Decision} {j : Journey In Out}
    (once : j.endings.length ≤ 1)
    (either : ∀ output, .returned output ∈ j.endings →
      Won cb j.events output ∨ Exhausted cb d j.events output)
    (kept : .crashed .primaryMissing ∉ j.endings) : Result cb d j :=
  ⟨once, either, fun _ => not_won_and_exhausted, fun _ _ _ => Callbacks.verdict_eq_failure_iff,
    fun _ _ _ => Callbacks.verdict_eq_success_iff, kept⟩

/-- What a race ends with, whatever happens and whenever it is polled. -/
theorem result_run {svc : Service In Out} {now : Instant} {es : Estimators} {request : In}
    {d : Decision} {ls : List (Listener In Out)} (hdeadline : svc.deadline = none)
    (h : svc.Races now es request d ls) (opened : List Nat) (acts : List Act) :
    Result svc.callbacks d ((enter svc now opened es request).run svc acts) := by
  have hcourse := course_run (course_enter h opened) acts
  generalize (enter svc now opened es request).run svc acts = j at hcourse
  obtain ⟨p, hstands, hphase⟩ := hcourse.stands
  -- Whatever the task did since, the session ended as the race did.
  have hfinished : ∀ output r, p = .finished output r → j.endings = [.returned output] →
      Result svc.callbacks d j := by
    rintro output r rfl hended
    obtain ⟨hbooks, hclean, hanswered, htimed, hend⟩ := hstands
    refine result_of_endings (by simp [hended]) (fun output' ho => ?_) (by simp [hended])
    rw [hended] at ho
    cases List.mem_singleton.mp ho
    refine hend.imp (fun hwon => hwon.won hbooks hclean) fun hspent => ?_
    rw [← htimed.decision]
    exact hspent.exhausted hbooks hclean hanswered
  cases hphase with
  | held r stage quiet ended =>
    exact result_of_endings (by simp [ended]) (by simp [ended]) (by simp [ended])
  | dropped r stage quiet ended =>
    exact result_of_endings (by simp [ended]) (by simp [ended]) (by simp [ended])
  | bounded r output stage quiet ended deadline =>
    rw [hdeadline] at deadline
    cases deadline
  | broken fault r stage quiet ended =>
    have hfault : fault ≠ .primaryMissing := hstands.1
    refine result_of_endings (by simp [ended]) (by simp [ended]) ?_
    rw [ended, List.mem_singleton]
    exact fun h => hfault (Session.Ending.crashed.inj h).symm
  | finished output r stage quiet ended => exact hfinished output r rfl ended
  | straggling output r left stage ended => exact hfinished output r rfl ended
  | settled output r f stage ended => exact hfinished output r rfl ended
  | torn output r f hand stage ended => exact hfinished output r rfl ended

/-- The slow service returns the output of its hedge. -/
theorem result_run_slowFirst :
    slowFirst.deadline = none ∧
      Result slowFirst.callbacks .standard
        ((enter slowFirst 0 [] [] 7).run slowFirst slowFirstActs) ∧
      ((enter slowFirst 0 [] [] 7).run slowFirst slowFirstActs).endings = [.returned 8] :=
  ⟨rfl, result_run rfl races_slowFirst [] slowFirstActs, by decide +kernel⟩

end Journey

end RequestHedging
