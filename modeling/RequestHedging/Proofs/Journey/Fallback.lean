import RequestHedging.Proofs.Journey.Lone
import RequestHedging.Proofs.Journey.Reporting
import RequestHedging.Proofs.Traffic
import RequestHedging.Resolution.Registry

/-!
# Failing policies and resolvers

If the policy of a request fails, or its resolver crashes, the request goes on as if the policy
never hedged, or as if nothing governed the request, and leaves one warning (`fallback_fresh`).

The decision is made in the first poll, and the resolver is not asked again.  Both services then
decide against hedges for the same listeners (`Service.Abstains`), so the first poll leads to the
same session (`exists_poll_of_abstains`), and from then on the same happens to both requests,
whatever was observed before (`exists_step_retold`).  That the one call is all is `sent_enter`.
-/

namespace RequestHedging

open Race Trace

variable {In Out : Type}

def Breakdown.text : Breakdown → String
  | .failed f => f.message
  | .crashed _ => "hedge policy panicked"

namespace Service

def unhedged (svc : Service In Out) : Service In Out :=
  { svc with resolver := fun request => (svc.resolver request).map fun r =>
      { r with policy := .disabled } }

def ungoverned (svc : Service In Out) : Service In Out :=
  { svc with resolver := fun _ => .ok .disabled }

/-- The policy of a request fails or its resolver crashes at a time, and what falls in for the
service; beside it, what is observed of the policy being asked, and the warning. -/
inductive Fails (svc : Service In Out) (t : Instant) (es : Estimators) (request : In) :
    Service In Out → List (Entry In Out) → Notice → Prop where
  | policy (r : Resolution In Out) (b : Breakdown) (resolved : svc.resolver request = .ok r)
      (fails : (r.policy.decide t es request).1 = .error b) :
    Fails svc t es request svc.unhedged
      (r.policy.traceName.map fun name => .decided name request).toList (.policyFailed b.text)
  | resolver (crash : Crash) (crashes : svc.resolver request = .error crash) :
    Fails svc t es request svc.ungoverned [] .resolverCrashed
  | route {Key : Type} [DecidableEq Key] (registry : RouteRegistry Key In Out) (crash : Crash)
      (resolves : svc.resolver request = (registry.resolve request).1)
      (crashes : registry.key request = .error crash) :
    Fails svc t es request svc.ungoverned [] .resolverCrashed

end Service

section Fails

variable {svc svc' : Service In Out} {t : Instant} {es : Estimators} {request : In}
  {asked : List (Entry In Out)} {notice : Notice}

/-- Only the resolver is another one. -/
theorem Service.Fails.exists_resolver (h : svc.Fails t es request svc' asked notice) :
    ∃ resolver, svc' = { svc with resolver := resolver } := by
  cases h <;> exact ⟨_, rfl⟩

theorem Service.Fails.warns (h : svc.Fails t es request svc' asked notice) :
    notice.level = .warn := by
  cases h <;> rfl

/-- Besides, it is only observed that the policy was asked. -/
theorem Service.Fails.exists_decided (h : svc.Fails t es request svc' asked notice) :
    ∀ e ∈ asked, ∃ name, e = .decided name request := by
  intro e he
  cases h with
  | policy r b resolved fails =>
    obtain ⟨name, -, hname⟩ := Option.map_eq_some_iff.mp (Option.mem_toList.mp he)
    exact ⟨name, hname.symm⟩
  | resolver => cases he
  | route => cases he

end Fails

/-! ## The first poll -/

/-- A policy that fails has learned nothing. -/
theorem Policy.estimators_of_error {p : Policy In} {t : Instant} {es : Estimators} {request : In}
    {b : Breakdown} (h : (p.decide t es request).1 = .error b) :
    (p.decide t es request).2 = es := by
  cases p with
  | fixed d => rfl
  | rule name f => rfl
  | percentile name q =>
    unfold decide at h ⊢
    dsimp only at h ⊢
    split at h
    · rfl
    · cases h

/-- A policy that fails decides against hedges. -/
theorem Service.decide_of_error {p : Policy In} {t : Instant} {es : Estimators} {request : In}
    {b : Breakdown} (h : (p.decide t es request).1 = .error b) :
    (Service.decide p t es request : Decision × List (Entry In Out) × Estimators) =
      (.disabled, (p.traceName.map fun name => .decided name request).toList ++
        [.log (.policyFailed b.text)], es) := by
  have hes := Policy.estimators_of_error h
  unfold Service.decide
  generalize p.decide t es request = decided at h hes ⊢
  obtain ⟨answer, es'⟩ := decided
  dsimp only at h hes ⊢
  rw [h, hes]
  cases b <;> rfl

/-- A key that cannot be taken makes the resolver crash. -/
theorem RouteRegistry.resolve_of_error {Key : Type} [DecidableEq Key]
    {registry : RouteRegistry Key In Out} {request : In} {crash : Crash}
    (h : registry.key request = .error crash) : (registry.resolve request).1 = .error crash := by
  simp only [resolve, h]
  rfl

/-- A service decides against hedges for a request, by what it then knows: who hears of the request,
and what was observed in between.  Nothing is learned from it. -/
structure Service.Abstains (svc : Service In Out) (t : Instant) (es : Estimators) (request : In)
    (ls : List (Listener In Out)) (told : List (Entry In Out)) : Prop where
  listeners : (svc.resolve request).1.listeners = ls
  decision : (Service.decide (svc.resolve request).1.policy t es request :
    Decision × List (Entry In Out) × Estimators).1 = .disabled
  estimators : (Service.decide (svc.resolve request).1.policy t es request :
    Decision × List (Entry In Out) × Estimators).2.2 = es
  preface : Session.preface svc t es request = .asked request :: told

section Abstains

variable {svc svc' : Service In Out} {t : Instant} {es : Estimators} {request : In}
  {asked : List (Entry In Out)} {notice : Notice}

/-- A policy that never hedges is not seen when it is asked. -/
theorem Service.abstains_of_disabled {r : Resolution In Out} {told : List (Entry In Out)}
    (hresolve : svc.resolve request = (r, told)) (hpolicy : r.policy = .disabled) (t : Instant)
    (es : Estimators) : svc.Abstains t es request r.listeners told := by
  have hdecide : (Service.decide (svc.resolve request).1.policy t es request :
      Decision × List (Entry In Out) × Estimators) = (.disabled, [], es) := by
    rw [hresolve, hpolicy]
    rfl
  refine ⟨by rw [hresolve], by rw [hdecide], by rw [hdecide], ?_⟩
  rw [Session.preface, hdecide, hresolve, List.append_nil]

/-- A service whose resolver crashes sends the request without hedges. -/
theorem Service.abstains_of_crash {crash : Crash} (h : svc.resolver request = .error crash)
    (t : Instant) (es : Estimators) : svc.Abstains t es request [] [.log .resolverCrashed] :=
  have hresolve : svc.resolve request = (.disabled, [.log .resolverCrashed]) := by
    rw [Service.resolve, h]
  Service.abstains_of_disabled hresolve rfl t es

/-- So does a service in which nothing governs requests. -/
theorem Service.abstains_ungoverned (svc : Service In Out) (request : In) (t : Instant)
    (es : Estimators) : svc.ungoverned.Abstains t es request [] [] :=
  have hresolve : svc.ungoverned.resolve request = (.disabled, []) := rfl
  Service.abstains_of_disabled hresolve rfl t es

/-- The service and the one that falls in for it both decide against hedges. -/
theorem Service.Fails.exists_abstains (h : svc.Fails t es request svc' asked notice) :
    ∃ ls, svc.Abstains t es request ls (asked ++ [.log notice]) ∧
      svc'.Abstains t es request ls [] := by
  cases h with
  | resolver crash crashes =>
    exact ⟨[], Service.abstains_of_crash crashes t es, svc.abstains_ungoverned request t es⟩
  | route registry crash resolves crashes =>
    have hcrash : svc.resolver request = .error crash :=
      resolves.trans (RouteRegistry.resolve_of_error crashes)
    exact ⟨[], Service.abstains_of_crash hcrash t es, svc.abstains_ungoverned request t es⟩
  | policy r b resolved fails =>
    have hresolve : svc.resolve request = (r, []) := by
      rw [Service.resolve, resolved]
    have hresolve' : svc.unhedged.resolve request = ({ r with policy := .disabled }, []) := by
      simp only [Service.resolve, Service.unhedged, resolved]
      rfl
    have hdecide : (Service.decide r.policy t es request :
        Decision × List (Entry In Out) × Estimators) = _ := Service.decide_of_error fails
    refine ⟨r.listeners, ⟨by rw [hresolve], ?_, ?_, ?_⟩,
      Service.abstains_of_disabled hresolve' rfl t es⟩
    · rw [hresolve, hdecide]
    · rw [hresolve, hdecide]
    · rw [Session.preface, hresolve, hdecide]
      rfl

end Abstains

namespace Session

/-- A resolver has its say in the first poll only. -/
theorem poll_of_resolver {svc : Service In Out} (resolver : In → Except Crash (Resolution In Out))
    {s : Session In Out} (h : ∀ request, s.stage ≠ .fresh request) (m : Moment) (es : Estimators) :
    poll { svc with resolver := resolver } m es s = poll svc m es s := by
  obtain ⟨stage, start⟩ := s
  cases stage with
  | fresh request => exact absurd rfl (h request)
  | direct flights => rfl
  | racing ls r => rfl

/-- The first polls of two services that abstain alike differ in what comes before the race only. -/
theorem exists_poll_of_abstains {svc : Service In Out}
    {resolver : In → Except Crash (Resolution In Out)} {m : Moment} {es : Estimators} {request : In}
    {ls : List (Listener In Out)} {told told' : List (Entry In Out)}
    (h : svc.Abstains m.now es request ls told)
    (h' : { svc with resolver := resolver }.Abstains m.now es request ls told')
    (henabled : svc.enabled request = true) :
    ∃ polled : Polled In Out,
      poll svc m es (ofRequest request) =
        { polled with entries := .asked request :: told ++ polled.entries } ∧
      poll { svc with resolver := resolver } m es (ofRequest request) =
        { polled with entries := .asked request :: told' ++ polled.entries } := by
  refine ⟨bound svc m.now (commence svc m .disabled ls es request), ?_, ?_⟩
  · rw [poll_ofRequest henabled h.decision h.estimators, h.listeners, h.preface]
  · have henabled' : { svc with resolver := resolver }.enabled request = true := henabled
    rw [poll_ofRequest henabled' h'.decision h'.estimators, h'.listeners, h'.preface]
    rfl

end Session

namespace Journey

/-! ## After the first poll -/

theorem conclude_retold (j : Journey In Out) (trace : List (Instant × Entry In Out))
    (p : Session.Progress In Out) :
    ({ j with trace := trace }).conclude p = { j.conclude p with trace := trace } := by
  cases p <;> rfl

/-- What was observed of a request before has nothing to do with what happens to it, and the
resolver has had its say. -/
theorem exists_step_retold (svc : Service In Out) {j : Journey In Out}
    (h : ∀ session, j.stage = .held session → ∀ request, session.stage ≠ .fresh request)
    (act : Act) :
    ∃ later, ∀ resolver trace,
      ({ j with trace := trace }).step { svc with resolver := resolver } act =
        { j.step svc act with trace := trace ++ later } := by
  cases act with
  | advance by_ => exact ⟨[], fun resolver trace => by rw [List.append_nil]; rfl⟩
  | complete calls => exact ⟨[], fun resolver trace => by rw [List.append_nil]; rfl⟩
  | drop =>
    refine ⟨[], fun resolver trace => ?_⟩
    rw [List.append_nil]
    obtain ⟨now, opened, seen, stage, before, aftermath, endings⟩ := j
    cases stage <;> rfl
  | drive es =>
    refine ⟨[], fun resolver trace => ?_⟩
    rw [List.append_nil]
    by_cases hstraggling : ∃ task, j.stage = .straggling task
    · obtain ⟨task, htask⟩ := hstraggling
      rw [step, step, drive_of_straggling htask,
        drive_of_straggling (j := { j with trace := trace }) htask]
      rfl
    · have hnot : ∀ task, j.stage ≠ .straggling task := fun task htask => hstraggling ⟨task, htask⟩
      rw [step, step, drive_of_not_straggling es hnot,
        drive_of_not_straggling (j := { j with trace := trace }) es hnot]
  | poll es =>
    by_cases hheld : ∃ session, j.stage = .held session
    · obtain ⟨session, hsession⟩ := hheld
      refine ⟨stamped j.now (session.poll svc j.moment es).entries, fun resolver trace => ?_⟩
      rw [step, step, poll_of_held hsession, poll_of_held (j := { j with trace := trace }) hsession,
        Session.poll_of_resolver resolver (h session hsession)]
      exact conclude_retold (j.observe _) _ _
    · have hnot : ∀ session, j.stage ≠ .held session := fun s hs => hheld ⟨s, hs⟩
      refine ⟨[], fun resolver trace => ?_⟩
      rw [List.append_nil, step, step, poll_of_not_held es hnot,
        poll_of_not_held (j := { j with trace := trace }) es hnot]

/-- Two requests of which the same is observed, but for what comes right behind the question
whether hedging is enabled; all else is the same. -/
def Beside (t : Instant) (request : In) (extra : List (Entry In Out)) (j j' : Journey In Out) :
    Prop :=
  ∃ rest, j.trace = stamped t (.asked request :: extra) ++ rest ∧
    j' = { j with trace := stamped t [.asked request] ++ rest }

section Beside

variable {svc svc' : Service In Out} {t : Instant} {es : Estimators} {request : In}
  {asked : List (Entry In Out)} {notice : Notice}

/-- The first poll puts the two requests beside each other. -/
theorem beside_enter (h : svc.Fails t es request svc' asked notice)
    (henabled : svc.enabled request = true) (opened : List Nat) :
    Beside t request (asked ++ [.log notice]) (enter svc t opened es request)
      (enter svc' t opened es request) := by
  obtain ⟨ls, habstains, habstains'⟩ := h.exists_abstains
  obtain ⟨resolver, rfl⟩ := h.exists_resolver
  obtain ⟨polled, hpoll, hpoll'⟩ :=
    Session.exists_poll_of_abstains (m := ⟨t, opened⟩) habstains habstains' henabled
  have hmoment : (fresh t opened request : Journey In Out).moment = ⟨t, opened⟩ := rfl
  rw [enter, enter, poll_of_held (j := fresh t opened request) rfl,
    poll_of_held (j := fresh t opened request) rfl, hmoment, hpoll, hpoll']
  refine ⟨stamped t polled.entries, ?_, ?_⟩
  · rw [trace_conclude, ← stamped_append]
    rfl
  · exact conclude_retold ((fresh t opened request : Journey In Out).observe _) _ _

/-- There they stay, whatever happens. -/
theorem beside_run (h : svc.Fails t es request svc' asked notice)
    (henabled : svc.enabled request = true) (opened : List Nat) (acts : List Act) :
    Beside t request (asked ++ [.log notice]) ((enter svc t opened es request).run svc acts)
      ((enter svc' t opened es request).run svc' acts) := by
  obtain ⟨resolver, rfl⟩ := h.exists_resolver
  induction acts using List.reverseRecOn with
  | nil => exact beside_enter h henabled opened
  | append_singleton acts act ih =>
    have hunderway := underway_run svc t opened es request acts
    rw [run_append, run_append]
    generalize (enter svc t opened es request).run svc acts = j at ih hunderway ⊢
    obtain ⟨rest, htrace, hsame⟩ := ih
    rw [hsame]
    -- Past its first poll a session has no use for the resolver.
    obtain ⟨later, hstep⟩ := exists_step_retold svc
      (fun session hsession => (hunderway.held hsession).2.1) act
    have htrace' : (j.step svc act).trace = j.trace ++ later :=
      congrArg Journey.trace (hstep svc.resolver j.trace)
    refine ⟨rest ++ later, ?_, ?_⟩
    · show (j.step svc act).trace = _
      rw [htrace', htrace, List.append_assoc]
    · show Journey.step _ { j with trace := _ } act = _
      rw [hstep, List.append_assoc]
      rfl

/-- Of such requests the same calls were made, if what is observed of one only is no event. -/
theorem Beside.calls_eq {extra : List (Entry In Out)} {j j' : Journey In Out}
    (h : Beside t request extra j j') (hextra : ∀ e ∈ extra, e.race? = none) :
    j'.calls = j.calls := by
  obtain ⟨rest, htrace, rfl⟩ := h
  have hevents : extra.filterMap Entry.race? = [] := List.filterMap_eq_nil_iff.mpr hextra
  have hcons : (.asked request :: extra).filterMap Entry.race? = extra.filterMap Entry.race? := rfl
  have hsame : ({ j with trace := stamped t [.asked request] ++ rest }).events = j.events := by
    rw [events, events, htrace, List.filterMap_append, List.filterMap_append]
    congr 1
    rw [stamped, stamped, filterMap_race_stamp, filterMap_race_stamp, hcons, hevents]
    rfl
  rw [calls, calls, hsame]
  rfl

end Beside

/-! ## Who hears of the request -/

section Unheard

variable {svc : Service In Out} {j : Journey In Out}

theorem filterMap_heard_preface (svc : Service In Out) (now : Instant) (es : Estimators)
    (request : In) : (Session.preface svc now es request).filterMap Entry.heard? = [] := by
  rw [← filterMap_heard_news, (Session.aside_preface svc now es request).news]
  rfl

/-- Of a request that goes straight to the inner service, nobody hears. -/
theorem Direct.heard_eq {before : List (Entry In Out)} {input : In} {begun : Instant}
    {start : Option Instant} (h : Direct svc before input begun start j)
    (hbefore : before.filterMap Entry.heard? = []) : j.heard = [] := by
  rw [heard_eq_map, h.quiet, List.append_nil, h.filterMap_trace (fun _ _ => rfl) fun _ => rfl,
    hbefore]
  rfl

/-- Nobody hears of a request that has no listeners. -/
theorem heard_run_of_no_listeners {t : Instant} {es : Estimators} {request : In}
    (h : (svc.resolve request).1.listeners = []) (opened : List Nat) (acts : List Act) :
    ((enter svc t opened es request).run svc acts).heard = [] := by
  rcases enter_cases svc t opened es request with
    ⟨d, ls, hraces⟩ | ⟨before, input, start, hpasses, hdirect⟩ | ⟨d, crash, -, hbroken⟩
  · rw [(course_run (course_enter hraces opened) acts).record.heard_eq, ← hraces.listeners, h]
    exact List.flatMap_eq_nil_iff.mpr fun p _ => rfl
  · refine (direct_run hdirect acts).heard_eq ?_
    cases hpasses with
    | disabled => rfl
    | refused d left =>
      rw [List.filterMap_append, filterMap_heard_preface]
      rfl
  · have hend : Broken _ crash ((enter svc t opened es request).run svc acts) :=
      broken_run hbroken acts
    obtain ⟨-, hquiet, htrace, -⟩ := hend
    rw [heard_eq_map, hquiet, List.append_nil, htrace, List.filterMap_append,
      filterMap_heard_preface]
    rfl

end Unheard

/-! ## How the request ends -/

/-- A request was sent once, without hedges, where its policy failed or its resolver crashed, as
the other service sends it. -/
structure FallsBack (svc svc' : Service In Out) (t : Instant) (request : In) (acts : List Act)
    (asked : List (Entry In Out)) (notice : Notice) (j j' : Journey In Out) : Prop where
  /-- The same happens to the request at the same times, but for what is observed of the policy
  being asked, and a record, -/
  beside : Beside t request (asked ++ [.log notice]) j j'
  asked : ∀ e ∈ asked, ∃ name, e = .decided name request
  /-- which is a warning. -/
  warns : notice.level = .warn
  /-- If it is the resolver that crashed, nobody hears of the request. -/
  unheard : ∀ crash, svc.resolver request = .error crash → j.heard = [] ∧ j'.heard = []
  /-- The inner service is called once, and its output is returned, whatever it means, unless the
  deadline passes before, -/
  sent : ∃ call, Sent svc t j call ∧ Sent svc' t j' call
  /-- or the request is dropped. -/
  answered : .drop ∉ acts → (∃ session, j.stage = .held session) ∨ j.endings ≠ []

/-- A request whose policy fails or whose resolver crashes is sent once, and nothing else comes of
the failure than a warning. -/
theorem fallback_fresh {svc svc' : Service In Out} {t : Instant} {es : Estimators} {request : In}
    {asked : List (Entry In Out)} {notice : Notice}
    (h : svc.Fails t es request svc' asked notice) (henabled : svc.enabled request = true)
    (hcopy : ∀ request a crash, svc.callbacks.copy request a ≠ .error crash)
    (hrecovery : ∀ output a crash, svc.callbacks.recovery output a ≠ .error crash)
    {now : Instant} {acts : List Act} (hfirst : firstPoll? now acts = some (t, es))
    (opened : List Nat) :
    FallsBack svc svc' t request acts asked notice ((fresh now opened request).run svc acts)
      ((fresh now opened request).run svc' acts) := by
  have hanswered : .drop ∉ acts → _ := held_or_ended_run svc (j := fresh now opened request)
    (.inl ⟨_, rfl⟩)
  obtain ⟨opened', after, hrun⟩ :=
    exists_run_of_firstPoll? (unpolled_fresh now opened request) rfl hfirst
  rw [hrun svc] at hanswered ⊢
  rw [hrun svc']
  have hbeside := beside_run h henabled opened' after
  obtain ⟨ls, habstains, habstains'⟩ := h.exists_abstains
  refine ⟨hbeside, h.exists_decided, h.warns, fun crash hcrash => ?_, ?_, hanswered⟩
  · have hls : ls = [] := by
      rw [← habstains.listeners, (Service.abstains_of_crash hcrash t es).listeners]
    subst hls
    exact ⟨heard_run_of_no_listeners habstains.listeners opened' after,
      heard_run_of_no_listeners habstains'.listeners opened' after⟩
  · have hcallbacks : svc'.callbacks = svc.callbacks := by
      obtain ⟨resolver, rfl⟩ := h.exists_resolver
      rfl
    obtain ⟨call, hsent⟩ := sent_enter hcopy hrecovery habstains.decision rfl opened' after
    obtain ⟨call', hsent'⟩ := sent_enter (hcallbacks ▸ hcopy) (hcallbacks ▸ hrecovery)
      habstains'.decision rfl opened' after
    have hextra : ∀ e ∈ asked ++ [.log notice], e.race? = none := by
      intro e he
      rcases List.mem_append.mp he with he | he
      · obtain ⟨name, rfl⟩ := h.exists_decided e he
        rfl
      · rw [List.mem_singleton.mp he]
        rfl
    have hcalls : [call'] = [call] := by
      rw [← hsent'.called, ← hsent.called, hbeside.calls_eq hextra]
    obtain rfl : call' = call := List.singleton_inj.mp hcalls
    exact ⟨call', hsent, hsent'⟩

def undecided : Service Nat Nat :=
  { slowFirst with
    resolver := fun _ => .ok ⟨.rule (some "quota") fun _ =>
      .error (.failed (.because .policy "no data")), [.callback "log" fun _ => .ok ()]⟩ }

/-- Long enough for the primary attempt of the slow service to return. -/
def patientActs : List Act := [.poll [], .advance (.ofSeconds 2), .poll [], .advance (.ofSeconds 3),
  .poll []]

/-- A policy that fails leaves the slow service with its primary attempt. -/
theorem fallback_fresh_undecided :
    undecided.Fails 0 [] 7 undecided.unhedged [.decided "quota" 7] (.policyFailed "no data") ∧
      undecided.enabled 7 = true ∧
      (∀ request a crash, undecided.callbacks.copy request a ≠ .error crash) ∧
      (∀ output a crash, undecided.callbacks.recovery output a ≠ .error crash) ∧
      firstPoll? 0 patientActs = some (0, []) ∧
      FallsBack undecided undecided.unhedged 0 7 patientActs [.decided "quota" 7]
        (.policyFailed "no data") ((fresh 0 [] 7).run undecided patientActs)
        ((fresh 0 [] 7).run undecided.unhedged patientActs) ∧
      ((fresh 0 [] 7).run undecided patientActs).calls.map Call.attempt = [⟨0, true⟩] ∧
      ((fresh 0 [] 7).run undecided patientActs).endings = [.returned 7] := by
  have hfails : undecided.Fails 0 [] 7 undecided.unhedged [.decided "quota" 7]
      (.policyFailed "no data") :=
    .policy ⟨.rule (some "quota") fun _ => .error (.failed (.because .policy "no data")),
      [.callback "log" fun _ => .ok ()]⟩ (.failed (.because .policy "no data")) rfl rfl
  have hcopy : ∀ request a crash, undecided.callbacks.copy request a ≠ .error crash := by
    rintro request a crash ⟨⟩
  have hrecovery : ∀ output a crash, undecided.callbacks.recovery output a ≠ .error crash := by
    rintro output a crash ⟨⟩
  have hfirst : firstPoll? 0 patientActs = some (0, []) := rfl
  exact ⟨hfails, rfl, hcopy, hrecovery, hfirst,
    fallback_fresh hfails rfl hcopy hrecovery hfirst [], by decide +kernel,
    by decide +kernel⟩

end Journey

end RequestHedging
