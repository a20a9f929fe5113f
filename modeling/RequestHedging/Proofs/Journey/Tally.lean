import RequestHedging.Proofs.Journey.Chronicle
import RequestHedging.Proofs.Journey.Direct
import RequestHedging.Proofs.Journey.Overdue

/-!
# What the deadline counts

When a deadline ends a session, its output is made from the number of attempts issued.  If the
input of the primary attempt was granted, the inner service was called as often
(`counted_fresh`): no hedge is issued without being called in the same poll.  The number is kept
in a word of 32 bits, so one more call than the greatest such word is counted as none.

If that input was refused, the request goes to the inner service all the same, but as no attempt,
and the deadline counts none where there was one call (`not_counted_of_refused`).
-/

namespace RequestHedging

open Race Trace

variable {In Out : Type}

namespace Journey

/-- The first thing asked for is the input of an attempt, with this answer. -/
def Asks (cb : Callbacks In Out) (j : Journey In Out) (answer : In × Option In) : Prop :=
  ∃ a request, j.events.head? = some (.copied a request) ∧ cb.copy request a = .ok answer

/-- What a deadline makes of the time since the first poll and of a number of attempts. -/
structure Counted (svc : Service In Out) (j : Journey In Out) (since : Duration) (issued : UInt32) :
    Prop where
  /-- Its output is the result. -/
  returned : ∃ deadline, svc.deadline = some deadline ∧
    j.endings = [.returned (deadline.output since issued)]
  /-- The inner service is called at most as often as there are words. -/
  within : j.calls.length ≤ UInt32.size
  /-- If the input of the primary attempt was granted, the number is that of the calls of the inner
  service, as far as a word can hold it, -/
  granted : ∀ left input, Asks svc.callbacks j (left, some input) →
    issued.toNat = j.calls.length % UInt32.size
  /-- and if it was refused, it is nothing, but the inner service was called once. -/
  refused : ∀ left, Asks svc.callbacks j (left, none) → issued = 0 ∧ j.calls.length = 1
  /-- There is nothing else. -/
  answered : ∃ left input?, Asks svc.callbacks j (left, input?)

theorem Asks.unique {cb : Callbacks In Out} {j : Journey In Out} {answer answer' : In × Option In}
    (h : Asks cb j answer) (h' : Asks cb j answer') : answer = answer' := by
  obtain ⟨a, request, hhead, hcopy⟩ := h
  obtain ⟨a', request', hhead', hcopy'⟩ := h'
  obtain ⟨rfl, rfl⟩ := Event.copied.inj (Option.some.inj (hhead.symm.trans hhead'))
  exact Except.ok.inj (hcopy.symm.trans hcopy')

/-- Of the last words of a session, only those of the deadline say that it passed. -/
theorem eq_of_gaveUp_mem_lastWords {svc : Service In Out} {first now : Instant} {issued n : UInt32}
    {since : Duration}
    (h : .gaveUp since n ∈ (lastWords svc first now issued : List (Entry In Out))) :
    since = elapsed first now ∧ n = issued := by
  rcases eq_of_mem_lastWords h with h | h
  · cases h
  · cases h
    exact ⟨rfl, rfl⟩

section Counted

variable {svc : Service In Out} {now : Instant} {es : Estimators} {request : In}
  {j : Journey In Out} {since : Duration} {n : UInt32}

/-- An attempt that was issued was called, and stragglers call nothing. -/
theorem length_calls {d : Decision} {start : Instant} {ls : List (Listener In Out)}
    (hcourse : Course svc d start ls j) (hvigil : Vigil svc j)
    (hcrash : ∀ fault, .crashed fault ∉ j.endings) :
    j.calls.length = (j.events.filterMap Event.issued?).length := by
  have hnone : j.laterEvents.filterMap Event.call? = [] := by
    refine List.filterMap_eq_nil_iff.mpr fun event hevent => ?_
    have hsilent := (silent_stragglers hcourse hvigil event hevent).2
    cases event <;> simp_all
  rw [calls, List.filterMap_append, hnone, List.append_nil, (hvigil.called hcrash).length_eq,
    ← map_attempt_calls, List.length_map]

/-- The deadline of a request that is raced counts its calls. -/
theorem counted_of_races {d : Decision} {ls : List (Listener In Out)}
    (hraces : svc.Races now es request d ls) (hcourse : Course svc d now ls j)
    (hvigil : Vigil svc j) (h : Chronicle svc d ls now es request j)
    (hmem : .gaveUp since n ∈ j.trace.map Prod.snd) : Counted svc j since n := by
  obtain ⟨left, input, hcopy⟩ := hraces.granted
  obtain ⟨rest, hopening⟩ := h.opening
  have hasks : Asks svc.callbacks j (left, some input) :=
    ⟨d.attempt 0, request, by rw [← hopening]; rfl, hcopy⟩
  obtain ⟨last, htrace, hlast⟩ := h.session
  rw [htrace] at hmem
  have hlate : .gaveUp since n ∈ last := by
    rcases List.mem_append.mp hmem with hmem | hmem
    · rcases List.mem_append.mp hmem with hmem | hmem
      · cases (Session.aside_preface svc now es request _ hmem).2
      · cases isGaveUp_written hmem
    · exact hmem
  cases hlast with
  | nothing => cases hlate
  | spawned => cases List.mem_singleton.mp hlate
  | late deadline first now' bounded stage quiet ended =>
    obtain ⟨rfl, rfl⟩ := eq_of_gaveUp_mem_lastWords hlate
    obtain ⟨p, hstands, -⟩ := hcourse.stands
    obtain ⟨hand, hbooks⟩ := hstands.exists_books
    have hcalls := length_calls hcourse hvigil (by simp [ended])
    refine ⟨⟨deadline, bounded, ended⟩, hcalls ▸ hbooks.length_issued_le, fun _ _ _ => ?_,
      fun left' h' => ?_, left, _, hasks⟩
    · rw [hcalls, UInt32.toNat_ofNat']
    · cases hasks.unique h'

/-- The deadline of a request whose primary input is refused counts nothing. -/
theorem counted_of_direct {before : List (Entry In Out)} {input : In} {start : Option Instant}
    (hpasses : Session.Passes svc now es request before input start)
    (h : Direct svc before input now start j) (hmem : .gaveUp since n ∈ j.trace.map Prod.snd) :
    Counted svc j since n := by
  obtain ⟨last, htrace, hfares⟩ := h.told
  have hbefore : .gaveUp since n ∉ before := by
    intro hmem
    cases hpasses with
    | disabled hdisabled => cases List.mem_singleton.mp hmem
    | refused d left henabled hdecision hcopy =>
      rcases List.mem_append.mp hmem with hmem | hmem
      · cases (Session.aside_preface svc now es request _ hmem).2
      · cases List.mem_singleton.mp hmem
  have hlate : .gaveUp since n ∈ last := by
    rw [htrace] at hmem
    exact (List.mem_cons.mp ((List.mem_append.mp hmem).resolve_left hbefore)).resolve_left (by simp)
  cases hfares with
  | bounded deadline first now' hdeadline hstart stage ended =>
    obtain ⟨rfl, rfl⟩ := eq_of_gaveUp_mem_lastWords hlate
    cases hpasses with
    -- No deadline counts for a request that hedging is not enabled for.
    | disabled hdisabled => cases hstart
    | refused d left henabled hdecision hcopy =>
      have hbefore : (Session.preface svc now es request ++
          [Entry.race (.copied (d.attempt 0) request)]).filterMap Entry.race? =
            [.copied (d.attempt 0) request] := by
        rw [List.filterMap_append, Session.filterMap_race_preface]
        rfl
      have hevents := h.events_eq
      have hcalls : j.calls.length = 1 := by
        rw [h.calls_eq (by rw [hbefore]; rfl)]
        rfl
      rw [hbefore] at hevents
      have hasks : Asks svc.callbacks j (input, none) :=
        ⟨d.attempt 0, request, by rw [hevents]; rfl, hcopy⟩
      refine ⟨⟨deadline, hdeadline, ended⟩, hcalls ▸ (1 : UInt32).toNat_lt.le,
        fun left' input' h' => ?_, fun _ _ => ⟨rfl, hcalls⟩, input, none, hasks⟩
      cases hasks.unique h'
  | _ => cases hlate

/-- What a deadline counts, whatever happens. -/
theorem counted_fresh (svc : Service In Out) (now : Instant) (opened : List Nat) (request : In)
    (acts : List Act) {t : Instant}
    (h : (t, .gaveUp since n) ∈ ((fresh now opened request).run svc acts).trace) :
    Counted svc ((fresh now opened request).run svc acts) since n := by
  rcases run_of_unpolled svc (unpolled_fresh now opened request) acts with
    hunpolled | ⟨now', opened', es, after, hrun⟩
  · rw [hunpolled.trace] at h
    cases h
  · rw [hrun] at h ⊢
    have hmem : .gaveUp since n ∈
        ((enter svc now' opened' es request).run svc after).trace.map Prod.snd :=
      List.mem_map_of_mem h
    rcases enter_cases svc now' opened' es request with
      ⟨d, ls, hraces⟩ | ⟨before, input, start, hpasses, hdirect⟩ | ⟨d, crash, -, hbroken⟩
    · exact counted_of_races hraces (course_run (course_enter hraces opened') after)
        (vigil_run (course_enter hraces opened') (vigil_enter hraces opened') after)
        (chronicle_run hraces opened' after) hmem
    · exact counted_of_direct hpasses (direct_run hdirect after) hmem
    · rw [(broken_run hbroken after).trace] at hmem
      rcases List.mem_append.mp hmem with hmem | hmem
      · cases (Session.aside_preface svc now' es request _ hmem).2
      · cases List.mem_singleton.mp hmem

end Counted

/-- The slow service for those who cannot wait, where the input of the primary attempt is
refused. -/
def refusing : Service Nat Nat :=
  { impatient with
    callbacks := { impatient.callbacks with
      copy := fun n a => .ok (n, if a.isPrimary then none else some n) } }

def punctualActs : List Act := [.poll [], .advance (.ofSeconds 1), .poll []]

def givenUp (j : Journey In Out) : List (Instant × Duration × UInt32) :=
  j.trace.filterMap fun e => match e.2 with
    | .gaveUp since issued => some (e.1, since, issued)
    | _ => none

theorem mem_givenUp {j : Journey In Out} {t : Instant} {since : Duration} {issued : UInt32} :
    (t, since, issued) ∈ j.givenUp ↔ (t, .gaveUp since issued) ∈ j.trace := by
  unfold givenUp
  rw [List.mem_filterMap]
  constructor
  · rintro ⟨⟨t', e⟩, he, hsome⟩
    cases e <;> simp_all
  · exact fun h => ⟨_, h, rfl⟩

/-- The slow service gives up after a second, with one attempt issued. -/
theorem counted_fresh_impatient :
    (1000000000, .gaveUp (.ofSeconds 1) 1) ∈ ((fresh 0 [] 7).run impatient punctualActs).trace ∧
      Counted impatient ((fresh 0 [] 7).run impatient punctualActs) (.ofSeconds 1) 1 ∧
      ((fresh 0 [] 7).run impatient punctualActs).endings = [.returned 101] ∧
      ((fresh 0 [] 7).run impatient punctualActs).calls.length = 1 := by
  have hmem : (1000000000, .gaveUp (.ofSeconds 1) 1) ∈
      ((fresh 0 [] 7).run impatient punctualActs).trace :=
    mem_givenUp.mp (by decide +kernel)
  exact ⟨hmem, counted_fresh impatient 0 [] 7 punctualActs hmem, by decide +kernel,
    by decide +kernel⟩

/-- If the input of the primary attempt is refused, the deadline does not count its call. -/
theorem not_counted_of_refused :
    ¬ ∀ (svc : Service Nat Nat) (request : Nat) (acts : List Act) (t : Instant) (since : Duration)
      (issued : UInt32), (t, .gaveUp since issued) ∈ ((fresh 0 [] request).run svc acts).trace →
        issued.toNat = ((fresh 0 [] request).run svc acts).calls.length := by
  intro h
  have hmem : (1000000000, .gaveUp (.ofSeconds 1) 0) ∈
      ((fresh 0 [] 7).run refusing punctualActs).trace :=
    mem_givenUp.mp (by decide +kernel)
  exact absurd (h refusing 7 punctualActs _ _ _ hmem) (by decide +kernel)

end Journey

end RequestHedging
