import RequestHedging.Proofs.Journey.Concert
import RequestHedging.Proofs.Journey.Direct
import RequestHedging.Proofs.Journey.Overdue
import RequestHedging.Proofs.Trace.Recorded

/-!
# What is told of hedges

A hedge is told of four times: the callback is told before it is issued, it is logged and
measured when it is issued, and the inner service is called with it.  After every poll these
are the same hedges in the same order, and the three notifications of a hedge stand before its
call (`channels_fresh`).  A hedge whose input is refused is told of nowhere.

How a race ends by itself is logged once, with the number of attempts issued, and if all
attempts failed it is measured once, with the number of hedges.
-/

namespace RequestHedging

open Race Trace

variable {In Out : Type}

namespace Journey

/-! ## What is observed -/

/-- All that was observed of a request, of its session and then of its task. -/
def observed (j : Journey In Out) : List (Entry In Out) := (j.trace ++ j.aftermath).map Prod.snd

/-- The events of a race are seen by the session, and after it by the task. -/
theorem filterMap_race_observed (j : Journey In Out) :
    j.observed.filterMap Entry.race? = j.events ++ j.laterEvents := by
  rw [observed, List.filterMap_map, List.filterMap_append]
  rfl

/-! ## Entries that show no hedge -/

theorem isSignal_preface {svc : Service In Out} {now : Instant} {es : Estimators} {request : In} :
    ∀ e ∈ Session.preface svc now es request, e.isSignal = false := by
  intro e he
  rcases List.mem_cons.mp he with rfl | he
  · rfl
  · rcases List.mem_append.mp he with he | he
    · rw [Service.eq_of_mem_resolve he]
      rfl
    · rcases Service.eq_of_mem_decide he with ⟨name, rfl⟩ | ⟨message, rfl⟩ <;> rfl

theorem isSignal_lastWords {svc : Service In Out} {first now : Instant} {issued : UInt32} :
    ∀ e ∈ (lastWords svc first now issued : List (Entry In Out)), e.isSignal = false := by
  intro e he
  rcases eq_of_mem_lastWords he with rfl | rfl <;> rfl

/-- No last word tells of a hedge or of the end of a race. -/
theorem LastWords.isSignal {svc : Service In Out} {j : Journey In Out}
    {last : List (Entry In Out)} (h : LastWords svc j last) : ∀ e ∈ last, e.isSignal = false := by
  cases h with
  | nothing => simp
  | spawned => exact List.forall_mem_singleton.mpr rfl
  | late deadline first now => exact isSignal_lastWords

/-! ## The channels -/

/-- What is told of the hedges of a request, and of the end of its race. -/
structure Channels (cb : Callbacks In Out) (j : Journey In Out) (hedges : List Attempt) :
    Prop where
  /-- The callback is told about the hedges, -/
  announced : j.observed.filterMap Entry.announced? = hedges
  /-- they are measured -/
  measured : j.observed.filterMap Entry.hedgeMeasured? = hedges
  /-- and logged, -/
  logged : j.observed.filterMap Entry.hedgeLogged? = hedges
  /-- and the inner service is called with them. -/
  called : (j.calls.map Call.attempt).filter Attempt.isHedge = hedges
  /-- They are those whose input was granted, -/
  granted : (j.events.filterMap (Event.granted? cb)).filter Attempt.isHedge = hedges
  /-- and none whose input was refused. -/
  refused : ∀ a request left, .copied a request ∈ j.events →
    cb.copy request a = .ok (left, none) → a ∉ hedges
  /-- All is told of a hedge before the inner service is called with it. -/
  heralded : ∀ before t call after,
    j.trace ++ j.aftermath = before ++ (t, .race (.called call)) :: after →
    call.attempt.isHedge = true → ∃ delay,
      [.race (.announced call.attempt delay), .log (.hedgeIssued call.attempt),
        .measured (.hedge call.attempt)].Sublist (before.map Prod.snd)
  /-- There are fewer of them than words, so with the primary attempt there may be as many. -/
  within : hedges.length < UInt32.size
  /-- That all attempts failed is measured once, with the number of hedges, unless the count of the
  attempts has wrapped round, -/
  exhausted : ∀ a, Ends cb j a .failure → ∃ told : UInt32,
    j.observed.filterMap Entry.exhaustionMeasured? = [told] ∧
      told.toNat = (1 + hedges.length) % UInt32.size - 1
  /-- and only then. -/
  unexhausted : (¬ ∃ a, Ends cb j a .failure) →
    j.observed.filterMap Entry.exhaustionMeasured? = []
  /-- How the race ended is logged once, with the number of attempts issued, unless that has
  wrapped round, -/
  ended : ∀ a outcome, Ends cb j a outcome → ∃ issued : UInt32,
    j.observed.filterMap Entry.endLogged? = [(a, issued, outcome)] ∧
      issued.toNat = (1 + hedges.length) % UInt32.size
  /-- if it ended by itself. -/
  unended : (¬ ∃ a outcome, Ends cb j a outcome) → j.observed.filterMap Entry.endLogged? = []

section Raced

variable {svc : Service In Out} {d : Decision} {ls : List (Listener In Out)} {now : Instant}
  {es : Estimators} {request : In} {j : Journey In Out} {α : Type}

/-- What a view of the signals shows of a request that is raced, it shows of its events. -/
theorem Chronicle.filterMap_observed (h : Chronicle svc d ls now es request j)
    {view : Entry In Out → Option α} {f : Event In Out → Option α}
    (hview : ∀ e, e.isSignal = false → view e = none)
    (hwritten : ∀ event, (written svc.telemetry ls event).filterMap view = (f event).toList) :
    j.observed.filterMap view = j.events.filterMap f ++ j.laterEvents.filterMap f := by
  have hnone : ∀ {entries : List (Entry In Out)}, (∀ e ∈ entries, e.isSignal = false) →
      entries.filterMap view = [] :=
    fun hentries => List.filterMap_eq_nil_iff.mpr fun e he => hview e (hentries e he)
  obtain ⟨last, htrace, hlast⟩ := h.session
  obtain ⟨last', haftermath, hlast'⟩ := h.task
  have hwords' : ∀ e ∈ last', e.isSignal = false := by
    rcases hlast' with rfl | ⟨-, crash, rfl⟩
    · simp
    · exact List.forall_mem_singleton.mpr rfl
  rw [observed, List.map_append, htrace, haftermath]
  simp only [List.filterMap_append, hnone isSignal_preface, hnone hlast.isSignal, hnone hwords',
    filterMap_written hwritten, List.nil_append, List.append_nil]

end Raced

/-! ## Before a call -/

/-- An element that is neither before nor behind a list is in it. -/
theorem exists_split_of_middle {α : Type} {xs ys zs before after : List α} {e : α}
    (h : xs ++ ys ++ zs = before ++ e :: after) (hxs : e ∉ xs) (hzs : e ∉ zs) :
    ∃ middle rest, ys = middle ++ e :: rest ∧ before = xs ++ middle := by
  rw [List.append_assoc] at h
  rcases List.append_eq_append_iff.mp h with ⟨middle, rfl, hrest⟩ | ⟨rest, hxs', hrest⟩
  · rcases List.append_eq_append_iff.mp hrest with ⟨rest, -, hzs'⟩ | ⟨rest, hys, hzs'⟩
    · exact absurd (by rw [hzs']; simp) hzs
    · cases rest with
      | nil =>
        rw [List.nil_append] at hzs'
        exact absurd (by rw [← hzs']; simp) hzs
      | cons e' rest =>
        obtain ⟨rfl, -⟩ := List.cons.inj hzs'
        exact ⟨middle, rest, hys, rfl⟩
  · cases rest with
    | nil =>
      rw [List.nil_append] at hrest
      cases ys with
      | nil =>
        rw [List.nil_append] at hrest
        exact absurd (by rw [← hrest]; simp) hzs
      | cons y ys =>
        obtain ⟨rfl, -⟩ := List.cons.inj hrest
        exact ⟨[], ys, rfl, by simpa using hxs'.symm⟩
    | cons e' rest =>
      obtain ⟨rfl, -⟩ := List.cons.inj hrest
      exact absurd (by rw [hxs']; simp) hxs

/-- The calls for a request that is raced are all written in the events of its session. -/
theorem Chronicle.exists_split_of_called {svc : Service In Out} {ls : List (Listener In Out)}
    {now : Instant} {es : Estimators} {request : In} {j : Journey In Out}
    (h : Chronicle svc d ls now es request j)
    (hsilent : ∀ event ∈ j.laterEvents, event.asked? = none ∧ event.called? = none)
    {before after : List (Instant × Entry In Out)} {t : Instant} {call : Call In}
    (hsplit : j.trace ++ j.aftermath = before ++ (t, .race (.called call)) :: after) :
    ∃ middle rest, j.events.flatMap (written svc.telemetry ls) =
        middle ++ .race (.called call) :: rest ∧
      before.map Prod.snd = Session.preface svc now es request ++ middle := by
  have hmapped := congrArg (List.map Prod.snd) hsplit
  obtain ⟨last, htrace, hlast⟩ := h.session
  obtain ⟨last', haftermath, hlast'⟩ := h.task
  rw [List.map_append, List.map_append, List.map_cons, htrace, haftermath,
    List.append_assoc] at hmapped
  have hnot : ∀ {entries : List (Entry In Out)}, (∀ e ∈ entries, e.isSignal = false) →
      .race (.called call) ∉ entries := fun hentries hmem => by cases hentries _ hmem
  -- Neither the preface nor the last words are calls, and the task calls nobody.
  refine exists_split_of_middle hmapped (hnot isSignal_preface) ?_
  rw [List.mem_append, List.mem_append, not_or, not_or]
  refine ⟨hnot hlast.isSignal, fun hmem => ?_, ?_⟩
  · obtain ⟨event, hevent, hwritten⟩ := List.mem_flatMap.mp hmem
    obtain rfl := eq_of_race_mem_written hwritten
    cases (hsilent _ hevent).2
  · rcases hlast' with rfl | ⟨-, crash, rfl⟩ <;> simp

/-! ## Requests without a race -/

/-- An entry that shows no hedge, and nothing of a race but a primary attempt. -/
def Hedgeless : Entry In Out → Prop
  | .race (.copied a _) => a.isHedge = false
  | .race (.called call) => call.attempt.isHedge = false
  | e => e.isSignal = false

theorem hedgeless_of_not_isSignal {e : Entry In Out} (h : e.isSignal = false) : Hedgeless e := by
  cases e with
  | race event => cases h
  | _ => exact h

section Hedgeless

variable {cb : Callbacks In Out} {j : Journey In Out}

theorem race_mem_observed {event : Event In Out} (h : event ∈ j.events ++ j.laterEvents) :
    .race event ∈ j.observed := by
  rw [← filterMap_race_observed] at h
  obtain ⟨e, he, hsome⟩ := List.mem_filterMap.mp h
  cases e with
  | race event' =>
    cases hsome
    exact he
  | _ => cases hsome

/-- A view that shows signals only, and no events, shows nothing of such a request. -/
theorem filterMap_of_hedgeless {α : Type} {view : Entry In Out → Option α}
    (h : ∀ e ∈ j.observed, Hedgeless e) (hrace : ∀ event, view (.race event) = none)
    (hview : ∀ e, e.isSignal = false → view e = none) : j.observed.filterMap view = [] := by
  refine List.filterMap_eq_nil_iff.mpr fun e he => ?_
  have hhedgeless := h e he
  cases e with
  | race event => exact hrace event
  | _ => exact hview _ hhedgeless

/-- A request that shows no hedge does not end by a race. -/
theorem not_ends_of_hedgeless (h : ∀ event ∈ j.events, Hedgeless (.race event)) (a : Attempt)
    (outcome : Outcome) : ¬ Ends cb j a outcome := by
  have hnone : ∀ {α : Type} {f : Event In Out → Option α},
      (∀ event, Hedgeless (.race event) → f event = none) → j.events.filterMap f = [] :=
    fun hf => List.filterMap_eq_nil_iff.mpr fun event he => hf event (h event he)
  intro hends
  cases hends with
  | won output returned kept last =>
    rw [hnone fun event he => by cases event <;> first | rfl | cases he] at last
    cases last
  | exhausted output returned kept primary issued =>
    rw [hnone fun event he => by cases event <;> first | rfl | cases he] at issued
    cases issued

/-- A request without a race has no hedges. -/
theorem channels_of_hedgeless (h : ∀ e ∈ j.observed, Hedgeless e) : Channels cb j [] := by
  have hevent : ∀ event ∈ j.events ++ j.laterEvents, Hedgeless (.race event) :=
    fun event hevent => h _ (race_mem_observed hevent)
  have hnot : ∀ a outcome, ¬ Ends cb j a outcome :=
    not_ends_of_hedgeless fun event he => hevent event (List.mem_append_left _ he)
  constructor
  · refine List.filterMap_eq_nil_iff.mpr fun e he => ?_
    have hhedgeless := h e he
    cases e with
    | race event => cases event <;> first | rfl | cases hhedgeless
    | _ => rfl
  · exact filterMap_of_hedgeless h (fun _ => rfl) hedgeMeasured?_of_not_isSignal
  · exact filterMap_of_hedgeless h (fun _ => rfl) hedgeLogged?_of_not_isSignal
  · refine List.filter_eq_nil_iff.mpr fun a ha => ?_
    obtain ⟨call, hcall, rfl⟩ := List.mem_map.mp ha
    obtain ⟨event, he, hsome⟩ := List.mem_filterMap.mp hcall
    have hplain := hevent event he
    cases event with
    | called call' =>
      cases hsome
      exact Bool.eq_false_iff.mp hplain
    | _ => cases hsome
  · refine List.filter_eq_nil_iff.mpr fun a ha => ?_
    obtain ⟨event, he, hsome⟩ := List.mem_filterMap.mp ha
    have hplain := hevent event (List.mem_append_left _ he)
    cases event with
    | copied a' request =>
      simp only [Event.granted?] at hsome
      split at hsome
      · cases hsome
        exact Bool.eq_false_iff.mp hplain
      · cases hsome
    | _ => cases hsome
  · exact fun a request left _ _ => List.not_mem_nil
  · intro before t call after hsplit hhedge
    have hmem : .race (.called call) ∈ j.observed := by
      rw [observed, hsplit]
      simp
    exact absurd hhedge (Bool.eq_false_iff.mp (h _ hmem))
  · exact (0 : UInt32).toNat_lt
  · exact fun a hends => absurd hends (hnot a _)
  · exact fun _ => filterMap_of_hedgeless h (fun _ => rfl) exhaustionMeasured?_of_not_isSignal
  · exact fun a outcome hends => absurd hends (hnot a outcome)
  · exact fun _ => filterMap_of_hedgeless h (fun _ => rfl) endLogged?_of_not_isSignal

end Hedgeless

/-! ## Every request -/

section Channels

variable {svc : Service In Out} {now : Instant} {es : Estimators} {request : In}
  {j : Journey In Out}

/-- What is told of the hedges of a request that is raced. -/
theorem channels_of_races {d : Decision} {ls : List (Listener In Out)}
    (hlogs : svc.telemetry.logs = true) (hmetrics : svc.telemetry.metrics = true)
    (h : Concert svc d j) (hcourse : Course svc d now ls j) (hvigil : Vigil svc j)
    (hchronicle : Chronicle svc d ls now es request j) :
    Channels svc.callbacks j (j.events.filterMap Event.announced?) := by
  have hsilent := silent_stragglers hcourse hvigil
  have hissued := filter_isHedge_issued h.unison
  have hcount : (j.events.filterMap Event.issued?).length =
      1 + (j.events.filterMap Event.announced?).length := by
    rw [h.unison.issued, List.length_cons, Nat.add_comm]
  have hlogged : j.observed.filterMap Entry.endLogged? = j.events.filterMap Event.closing? := by
    rw [hchronicle.filterMap_observed endLogged?_of_not_isSignal
      (endLogged?_written hlogs hmetrics), h.later_eq_nil fun _ _ _ h => h, List.append_nil]
  have hexhausted : j.observed.filterMap Entry.exhaustionMeasured? =
      j.events.filterMap Event.exhausted? := by
    rw [hchronicle.filterMap_observed exhaustionMeasured?_of_not_isSignal
      (exhaustionMeasured?_written hlogs hmetrics), h.later_eq_nil ?_, List.append_nil]
    intro event _ _ hclosing
    cases event <;> first | rfl | cases hclosing
  have hhedge : j.events.filterMap Event.hedge? ++ j.laterEvents.filterMap Event.hedge? =
      j.events.filterMap Event.announced? := by
    rw [filterMap_hedge, hissued, h.later_eq_nil ?_, List.append_nil]
    intro event _ hnot _
    cases event <;> first | rfl | cases hnot
  constructor
  · have hview : (Entry.announced? : Entry In Out → Option Attempt) =
        fun e => e.race?.bind Event.announced? := rfl
    rw [hview, ← List.filterMap_filterMap, filterMap_race_observed, List.filterMap_append,
      h.later_eq_nil fun _ h _ _ => h, List.append_nil]
  · rw [hchronicle.filterMap_observed hedgeMeasured?_of_not_isSignal
      (hedgeMeasured?_written hlogs hmetrics), hhedge]
  · rw [hchronicle.filterMap_observed hedgeLogged?_of_not_isSignal
      (hedgeLogged?_written hlogs hmetrics), hhedge]
  · rw [h.called hsilent, hissued]
  · rw [h.unison.granted, hissued]
  · exact fun a request' left ha hcopy => h.not_announced_of_refused hcourse ha hcopy
  · intro before t call after hsplit hhedged
    obtain ⟨middle, rest, hmiddle, hbefore⟩ := hchronicle.exists_split_of_called hsilent hsplit
    obtain ⟨delay, htold⟩ := sublist_written_of_called hlogs hmetrics h.unison hmiddle hhedged
    rw [hbefore]
    exact ⟨delay, htold.trans (List.sublist_append_right _ _)⟩
  · obtain ⟨p, hstands, -⟩ := hcourse.stands
    obtain ⟨hand, hbooks⟩ := hstands.exists_books
    have hle := hbooks.length_issued_le
    rwa [hcount, Nat.one_add] at hle
  -- What is left is about the end of the race.
  all_goals
    rcases h.closing hcourse with ⟨hopen, hnot⟩ | ⟨b, outcome, hclosing, hends⟩
  · exact fun a ha => absurd ha (hnot a _)
  · intro a ha
    obtain ⟨rfl, rfl⟩ := (hends a _).mp ha
    refine ⟨_, by rw [hexhausted, filterMap_exhausted, hclosing]; rfl, ?_⟩
    rw [toNat_hedgesAmong, UInt32.toNat_ofNat', hcount]
  · intro _
    rw [hexhausted, filterMap_exhausted, hopen]
    rfl
  · intro hnone
    rw [hexhausted, filterMap_exhausted, hclosing]
    cases outcome with
    | success => rfl
    | failure => exact absurd ⟨b, (hends b _).mpr ⟨rfl, rfl⟩⟩ hnone
  · exact fun a outcome ha => absurd ha (hnot a outcome)
  · intro a outcome' ha
    obtain ⟨rfl, rfl⟩ := (hends a _).mp ha
    exact ⟨_, hlogged.trans hclosing, by rw [UInt32.toNat_ofNat', hcount]⟩
  · exact fun _ => hlogged.trans hopen
  · exact fun hnone => absurd ⟨b, outcome, (hends b _).mpr ⟨rfl, rfl⟩⟩ hnone

/-- What is told of the hedges of any request, whatever happens to it. -/
theorem channels_fresh (hlogs : svc.telemetry.logs = true) (hmetrics : svc.telemetry.metrics = true)
    (honHedge : ∀ a delay crash, svc.callbacks.onHedge a delay ≠ .error crash) (now : Instant)
    (opened : List Nat) (request : In) (acts : List Act) :
    ∃ hedges, Channels svc.callbacks ((fresh now opened request).run svc acts) hedges := by
  have hpreface : ∀ (now' : Instant) (es : Estimators) (d : Decision), ∀ e ∈
      Session.preface svc now' es request ++ [.race (.copied (d.attempt 0) request)],
      Hedgeless e := by
    intro now' es d e he
    rcases List.mem_append.mp he with he | he
    · exact hedgeless_of_not_isSignal (isSignal_preface e he)
    · rw [List.mem_singleton.mp he]
      exact (rfl : (d.attempt 0).isHedge = false)
  rcases run_of_unpolled svc (unpolled_fresh now opened request) acts with
    hunpolled | ⟨now', opened', es, after, hrun⟩
  · refine ⟨[], channels_of_hedgeless ?_⟩
    rw [observed, hunpolled.trace, hunpolled.quiet]
    exact fun e he => absurd he List.not_mem_nil
  · rw [hrun]
    rcases enter_cases svc now' opened' es request with
      ⟨d, ls, hraces⟩ | ⟨before, input, start, hpasses, hdirect⟩ | ⟨d, crash, -, hbroken⟩
    · have hcourse := course_enter hraces opened'
      exact ⟨_, channels_of_races hlogs hmetrics (concert_run honHedge hraces opened' after)
        (course_run hcourse after) (vigil_run hcourse (vigil_enter hraces opened') after)
        (chronicle_run hraces opened' after)⟩
    · obtain ⟨hquiet, last, htrace, hfares⟩ := direct_run hdirect after
      refine ⟨[], channels_of_hedgeless fun e he => ?_⟩
      rw [observed, hquiet, List.append_nil, htrace] at he
      rcases List.mem_append.mp he with hbefore | he
      · cases hpasses with
        | disabled hdisabled =>
          rw [List.mem_singleton.mp hbefore]
          exact (rfl : (Entry.asked request : Entry In Out).isSignal = false)
        | refused d left henabled hdecision hcopy => exact hpreface now' es d e hbefore
      · rcases List.mem_cons.mp he with rfl | he
        · exact (rfl : Attempt.only.isHedge = false)
        · cases hfares with
          | bounded deadline first now'' =>
            exact hedgeless_of_not_isSignal (isSignal_lastWords e he)
          | _ => cases he
    · have hbroken' : Broken _ crash ((enter svc now' opened' es request).run svc after) :=
        broken_run hbroken after
      refine ⟨[], channels_of_hedgeless ?_⟩
      rw [observed, hbroken'.quiet, List.append_nil, hbroken'.trace]
      exact hpreface now' es d

end Channels

def recorded : Service Nat Nat :=
  { slowFirst with telemetry := { slowFirst.telemetry with logs := true, metrics := true } }

/-- The hedge of the slow service is told on every channel. -/
theorem channels_fresh_recorded :
    (∀ a delay crash, recorded.callbacks.onHedge a delay ≠ .error crash) ∧
      Channels recorded.callbacks ((fresh 0 [] 7).run recorded (.poll [] :: slowFirstActs))
        [⟨1, true⟩] ∧
      ((fresh 0 [] 7).run recorded (.poll [] :: slowFirstActs)).observed.filterMap
        Entry.endLogged? = [(⟨1, true⟩, 2, .success)] := by
  have honHedge : ∀ a delay crash, recorded.callbacks.onHedge a delay ≠ .error crash := by
    intro a delay crash h
    cases h
  obtain ⟨hedges, hchannels⟩ :=
    channels_fresh rfl rfl honHedge 0 [] 7 (.poll [] :: slowFirstActs)
  have hhedges : hedges = [⟨1, true⟩] := by
    rw [← hchannels.announced]
    decide +kernel
  exact ⟨honHedge, hhedges ▸ hchannels, by decide +kernel⟩

end Journey

end RequestHedging