import RequestHedging.Proofs.Race.Turns
import RequestHedging.Proofs.Trace.Written
import RequestHedging.Session
import RequestHedging.Task

/-!
# A session in a race

A session in a race does what its race does, until the race or the deadline ends it
(`Session.exists_led_poll`), and a task does what its stragglers do
(`Task.exists_led_poll`).  The first poll of a request that is raced is the poll of such a
session, after what starting the race leaves in the trace (`exists_poll_ofRequest`).
-/

namespace RequestHedging

open Race

variable {In Out : Type}

/-- What is decided about a request at its first poll: it is raced, by a decision and in front of
listeners, and the input of its primary attempt is not refused. -/
structure Service.Races (svc : Service In Out) (now : Instant) (es : Estimators) (request : In)
    (d : Decision) (ls : List (Listener In Out)) : Prop where
  enabled : svc.enabled request = true
  decision : (Service.decide (svc.resolve request).1.policy now es request :
    Decision × List (Entry In Out) × Estimators).1 = d
  listeners : (svc.resolve request).1.listeners = ls
  granted : ∃ left input, svc.callbacks.copy request (d.attempt 0) = .ok (left, some input)

/-- All that resolving a request shows is that the resolver crashed. -/
theorem Service.eq_of_mem_resolve {svc : Service In Out} {request : In} {e : Entry In Out}
    (h : e ∈ (svc.resolve request).2) : e = .log .resolverCrashed := by
  unfold Service.resolve at h
  split at h
  · cases h
  · exact List.mem_singleton.mp h

/-- All that deciding a request shows is that its policy was asked, and that it failed. -/
theorem Service.eq_of_mem_decide {p : Policy In} {now : Instant} {es : Estimators} {request : In}
    {e : Entry In Out} (h : e ∈ (Service.decide p now es request :
      Decision × List (Entry In Out) × Estimators).2.1) :
    (∃ name, e = .decided name request) ∨ ∃ message, e = .log (.policyFailed message) := by
  have hasked : e ∈ (p.traceName.map fun name => (.decided name request : Entry In Out)).toList →
      ∃ name, e = .decided name request := by
    intro he
    obtain ⟨name, -, rfl⟩ := Option.map_eq_some_iff.mp (Option.mem_toList.mp he)
    exact ⟨name, rfl⟩
  unfold Service.decide at h
  dsimp only at h
  split at h
  · exact .inl (hasked h)
  · rcases List.mem_append.mp h with h | h
    · exact .inl (hasked h)
    · exact .inr ⟨_, List.mem_singleton.mp h⟩
  · rcases List.mem_append.mp h with h | h
    · exact .inl (hasked h)
    · exact .inr ⟨_, List.mem_singleton.mp h⟩

namespace Session

/-- Where a session stands after its race was polled, and what is observed at last. -/
inductive Led (svc : Service In Out) (now : Instant) (ls : List (Listener In Out))
    (start : Instant) : Race.Progress In Out → List (Entry In Out) → Progress In Out → Prop where
  | waits (r : Race In Out)
      (hopen : ∀ deadline, svc.deadline = some deadline → now < start + deadline.after.nanos) :
    Led svc now ls start (.pending r) [] (.pending ⟨.racing ls r, some start⟩)
  | bounded (r : Race In Out) (deadline : Deadline Out) (hdeadline : svc.deadline = some deadline)
      (hpassed : start + deadline.after.nanos ≤ now) :
    Led svc now ls start (.pending r)
      (Trace.logged svc.telemetry (.deadlinePassed r.issued) ++
        [.gaveUp (elapsed start now) r.issued])
      (.ended (.returned (deadline.output (elapsed start now) r.issued)) r.flights.callNumbers)
  | breaks (fault : Fault) (r : Race In Out) :
    Led svc now ls start (.crashed fault r) [] (.ended (.crashed fault) r.flights.callNumbers)
  | ends (output : Out) (r : Race In Out)
      (hcancelled : svc.spawner = none ∨ r.flights.isEmpty = true) :
    Led svc now ls start (.finished output r) []
      (.ended (.returned output) r.flights.callNumbers)
  | hands (output : Out) (r : Race In Out) (hspawner : svc.spawner.isSome = true)
      (hleft : r.flights.isEmpty = false) :
    Led svc now ls start (.finished output r) [.spawned]
      (.handedOver output ls ⟨r.request, r.flights⟩)

section Poll

variable {svc : Service In Out} {m : Moment} {ls : List (Listener In Out)} {start : Instant}

/-- What is observed at last is no news. -/
theorem Led.news_last {now : Instant} {p : Race.Progress In Out} {last : List (Entry In Out)}
    {q : Progress In Out} (h : Led svc now ls start p last q) : Trace.news last = [] := by
  cases h with
  | bounded r deadline =>
    rw [Trace.news_append, Trace.logged]
    split <;> rfl
  | _ => rfl

theorem Led.filterMap_race_last {now : Instant} {p : Race.Progress In Out}
    {last : List (Entry In Out)} {q : Progress In Out} (h : Led svc now ls start p last q) :
    last.filterMap Entry.race? = [] := by
  rw [← Trace.filterMap_race_news, h.news_last]
  rfl

/-- A pending race is left pending, or bounded by a deadline. -/
theorem exists_led_bound (r : Race In Out) (entries : List (Entry In Out)) (es : Estimators) :
    ∃ last, (bound svc m.now ⟨entries, es, .pending ⟨.racing ls r, some start⟩⟩).entries =
        entries ++ last ∧
      Led svc m.now ls start (.pending r) last
        (bound svc m.now ⟨entries, es, .pending ⟨.racing ls r, some start⟩⟩).progress := by
  unfold bound
  cases hdeadline : svc.deadline with
  | none => exact ⟨[], (List.append_nil _).symm, .waits r (by simp [hdeadline])⟩
  | some deadline =>
    dsimp only
    split
    · rename_i hpassed
      exact ⟨_, rfl, .bounded r deadline hdeadline hpassed⟩
    · rename_i hopen
      refine ⟨[], (List.append_nil _).symm, .waits r ?_⟩
      rintro deadline' hdeadline'
      cases hdeadline.symm.trans hdeadline'
      exact Nat.lt_of_not_le hopen

/-- A finished race is handed over if there is a spawner and anything is left. -/
theorem led_abandon (now : Instant) (output : Out) (r : Race In Out) :
    Led svc now ls start (.finished output r) (abandon svc ls output r).1
      (abandon svc ls output r).2 := by
  unfold abandon
  split
  · rename_i h
    obtain ⟨hspawner, hleft⟩ := Bool.and_eq_true_iff.mp h
    exact .hands output r hspawner (by simpa using hleft)
  · rename_i h
    refine .ends output r ?_
    cases hs : svc.spawner with
    | none => exact .inl rfl
    | some spawner => exact .inr (by simpa [hs] using h)

/-- A session in a race does what its race does. -/
theorem exists_led_poll (svc : Service In Out) (m : Moment) (ls : List (Listener In Out))
    (start : Instant) (r : Race In Out) (es : Estimators) :
    ∃ last, (poll svc m es ⟨.racing ls r, some start⟩).entries =
        (Trace.ofEvents svc.telemetry ls m.now (r.poll svc.callbacks m).1 es).1 ++ last ∧
      Led svc m.now ls start (r.poll svc.callbacks m).2 last
        (poll svc m es ⟨.racing ls r, some start⟩).progress := by
  simp only [poll, pollUnbounded, pollRace]
  cases (r.poll svc.callbacks m).2 with
  | pending r' => exact exists_led_bound r' _ _
  | finished output r' =>
    have hled : Led svc m.now ls start (.finished output r') (abandon svc ls output r').1
        (abandon svc ls output r').2 := led_abandon m.now output r'
    dsimp only
    generalize abandon svc ls output r' = left at hled ⊢
    obtain ⟨last, progress⟩ := left
    cases hled with
    | ends _ _ hcancelled => exact ⟨[], rfl, .ends output r' hcancelled⟩
    | hands _ _ hspawner hleft => exact ⟨_, rfl, .hands output r' hspawner hleft⟩
  | crashed fault r' => exact ⟨[], (List.append_nil _).symm, .breaks fault r'⟩

end Poll

/-! ## The first poll -/

/-- Neither news nor the end of a session. -/
def Aside (entries : List (Entry In Out)) : Prop :=
  ∀ e ∈ entries, e.isNews = false ∧ e.isGaveUp = false

theorem Aside.append {entries entries' : List (Entry In Out)} (h : Aside entries)
    (h' : Aside entries') : Aside (entries ++ entries') := by
  intro e he
  rcases List.mem_append.mp he with he | he
  · exact h e he
  · exact h' e he

theorem Aside.news {entries : List (Entry In Out)} (h : Aside entries) :
    Trace.news entries = [] := by
  apply List.filter_eq_nil_iff.mpr
  intro e he
  rw [(h e he).1]
  exact Bool.false_ne_true

theorem aside_resolve (svc : Service In Out) (request : In) : Aside (svc.resolve request).2 := by
  intro e he
  rw [Service.eq_of_mem_resolve he]
  exact ⟨rfl, rfl⟩

theorem aside_decide {p : Policy In} {now : Instant} {es : Estimators} {request : In}
    {decided : Decision × List (Entry In Out) × Estimators}
    (h : Service.decide p now es request = decided) : Aside decided.2.1 := by
  subst h
  intro e he
  rcases Service.eq_of_mem_decide he with ⟨name, rfl⟩ | ⟨message, rfl⟩ <;> exact ⟨rfl, rfl⟩

/-! ## What polls show -/

section Inner

variable {svc : Service In Out} {m : Moment} {es : Estimators} {start : Option Instant}

/-- Resolving and deciding a request shows that a policy was asked, and warnings. -/
theorem isInner_decide {request : In} : ∀ e ∈ (svc.resolve request).2 ++
    (Service.decide (svc.resolve request).1.policy m.now es request :
      Decision × List (Entry In Out) × Estimators).2.1, e.isInner = true := by
  intro e he
  rcases List.mem_append.mp he with he | he
  · rw [Service.eq_of_mem_resolve he]
    rfl
  · rcases Service.eq_of_mem_decide he with ⟨name, rfl⟩ | ⟨message, rfl⟩ <;> rfl

theorem isInner_pollDirect {flights : Flights In Out} :
    ∀ e ∈ (pollDirect svc m es start flights).entries, e.isInner = true := by
  intro e he
  have hmade : e ∈ (((flights.wake m).poll svc.callbacks.serve m).made.map fun call =>
      (.race (.called call) : Entry In Out)) := by
    unfold pollDirect at he
    dsimp only at he
    split at he <;> exact he
  obtain ⟨call, -, rfl⟩ := List.mem_map.mp hmade
  rfl

theorem isInner_pollRace {ls : List (Listener In Out)} {r : Race In Out} :
    ∀ e ∈ (pollRace svc m es start ls r).entries, e.isInner = true := by
  intro e he
  unfold pollRace at he
  dsimp only at he
  split at he
  · exact Trace.isInner_ofEvents he
  · exact Trace.isInner_ofEvents he
  · rcases List.mem_append.mp he with he | he
    · exact Trace.isInner_ofEvents he
    · unfold abandon at he
      split at he
      · rw [List.mem_singleton.mp he]
        rfl
      · cases he

theorem isInner_enter {request : In} :
    ∀ e ∈ (enter svc m es start request).entries, e.isInner = true := by
  intro e he
  unfold enter at he
  dsimp only at he
  rcases List.mem_append.mp he with he | he
  · rcases List.mem_append.mp he with he | he
    · exact isInner_decide e he
    · exact Trace.isInner_ofEvents he
  · split at he
    · cases he
    · exact isInner_pollDirect e he
    · exact isInner_pollRace e he

end Inner

/-- What was observed before stays in front. -/
theorem bound_prepend (svc : Service In Out) (now : Instant) (before : List (Entry In Out))
    (p : Polled In Out) :
    bound svc now { p with entries := before ++ p.entries } =
      { bound svc now p with entries := before ++ (bound svc now p).entries } := by
  unfold bound
  dsimp only
  split
  · split
    · rfl
    · split
      · simp only [List.append_assoc]
      · rfl
  · rfl

/-- What is observed of a request before its race starts. -/
def preface (svc : Service In Out) (now : Instant) (es : Estimators) (request : In) :
    List (Entry In Out) :=
  .asked request :: ((svc.resolve request).2 ++
    (Service.decide (svc.resolve request).1.policy now es request :
      Decision × List (Entry In Out) × Estimators).2.1)

theorem aside_preface (svc : Service In Out) (now : Instant) (es : Estimators) (request : In) :
    Aside (preface svc now es request) := by
  have hrest : Aside ((svc.resolve request).2 ++
      (Service.decide (svc.resolve request).1.policy now es request :
        Decision × List (Entry In Out) × Estimators).2.1) :=
    (aside_resolve svc request).append (aside_decide rfl)
  intro e he
  rcases List.mem_cons.mp he with rfl | he
  · exact ⟨rfl, rfl⟩
  · exact hrest e he

theorem filterMap_race_preface (svc : Service In Out) (now : Instant) (es : Estimators)
    (request : In) : (preface svc now es request).filterMap Entry.race? = [] := by
  rw [← Trace.filterMap_race_news, (aside_preface svc now es request).news]
  rfl

/-- What a request goes on with once it is decided. -/
def commence (svc : Service In Out) (m : Moment) (d : Decision) (ls : List (Listener In Out))
    (es : Estimators) (request : In) : Polled In Out :=
  let (events, start) := Race.start svc.callbacks m.now d request
  let (entries, es) := Trace.ofEvents svc.telemetry ls m.now events es
  let polled : Polled In Out :=
    match start with
    | .crashed crash => ⟨[], es, .ended (.crashed (.callback crash)) []⟩
    | .refused left => pollDirect svc m es (some m.now) (directFlight m.now left)
    | .racing race => pollRace svc m es (some m.now) ls race
  { polled with entries := entries ++ polled.entries }

/-- The first poll of a request that hedging is enabled for decides it, and goes on by that. -/
theorem poll_ofRequest {svc : Service In Out} {m : Moment} {es : Estimators} {request : In}
    {d : Decision} {es' : Estimators} (henabled : svc.enabled request = true)
    (hdecision : (Service.decide (svc.resolve request).1.policy m.now es request :
      Decision × List (Entry In Out) × Estimators).1 = d)
    (hestimators : (Service.decide (svc.resolve request).1.policy m.now es request :
      Decision × List (Entry In Out) × Estimators).2.2 = es') :
    poll svc m es (ofRequest request) =
      { bound svc m.now (commence svc m d (svc.resolve request).1.listeners es' request) with
        entries := preface svc m.now es request ++
          (bound svc m.now
            (commence svc m d (svc.resolve request).1.listeners es' request)).entries } := by
  have hentries : preface svc m.now es request ++
      (commence svc m d (svc.resolve request).1.listeners es' request).entries =
        .asked request :: (enter svc m es (some m.now) request).entries := by
    subst hdecision hestimators
    exact (List.append_assoc _ _ _).symm
  rw [poll, ← bound_prepend, hentries]
  subst hdecision hestimators
  congr 1
  simp only [pollUnbounded, ofRequest, henabled, if_true]
  rfl

section Commence

variable {svc : Service In Out} {d : Decision} {request left : In}

/-- If the input of the primary attempt is refused, the inner service gets the request. -/
theorem commence_of_refused (h : svc.callbacks.copy request (d.attempt 0) = .ok (left, none))
    (m : Moment) (ls : List (Listener In Out)) (es : Estimators) :
    commence svc m d ls es request =
      { pollDirect svc m es (some m.now) (directFlight m.now left) with
        entries := [.race (.copied (d.attempt 0) request)] ++
          (pollDirect svc m es (some m.now) (directFlight m.now left)).entries } := by
  rw [commence, start_of_refused h]
  rfl

/-- A request whose primary input cannot be made ends at once. -/
theorem commence_of_crash {crash : Crash}
    (h : svc.callbacks.copy request (d.attempt 0) = .error crash) (m : Moment)
    (ls : List (Listener In Out)) (es : Estimators) :
    commence svc m d ls es request =
      ⟨[.race (.copied (d.attempt 0) request)], es, .ended (.crashed (.callback crash)) []⟩ := by
  rw [commence, start_of_crash h]
  rfl

end Commence

def opening (d : Decision) (request : In) : List (Event In Out) :=
  [.copied (d.attempt 0) request, .issued (d.attempt 0)]

def beginning (svc : Service In Out) (d : Decision) (ls : List (Listener In Out)) (now : Instant)
    (es : Estimators) (request : In) : List (Entry In Out) :=
  preface svc now es request ++ (opening d request).flatMap (Trace.written svc.telemetry ls)

/-- The news of the beginning is the primary attempt. -/
theorem news_beginning (svc : Service In Out) (d : Decision) (ls : List (Listener In Out))
    (now : Instant) (es : Estimators) (request : In) :
    Trace.news (beginning svc d ls now es request) =
      [.race (.copied (d.attempt 0) request), .race (.issued (d.attempt 0))] := by
  rw [beginning, Trace.news_append, (aside_preface svc now es request).news,
    Trace.news_flatMap_written]
  rfl

theorem isGaveUp_beginning {svc : Service In Out} {d : Decision} {ls : List (Listener In Out)}
    {now : Instant} {es : Estimators} {request : In} :
    ∀ e ∈ beginning svc d ls now es request, e.isGaveUp = false := by
  intro e he
  rcases List.mem_append.mp he with he | he
  · exact (aside_preface svc now es request e he).2
  · exact Trace.isGaveUp_written he

/-- The first poll of a request that is raced starts the race and polls it. -/
theorem exists_poll_ofRequest {svc : Service In Out} {m : Moment} {es : Estimators} {request : In}
    {d : Decision} {ls : List (Listener In Out)} (h : svc.Races m.now es request d ls) :
    ∃ es' r,
      poll svc m es (ofRequest request) =
        { poll svc m es' ⟨.racing ls r, some m.now⟩ with
          entries := beginning svc d ls m.now es request ++
            (poll svc m es' ⟨.racing ls r, some m.now⟩).entries } ∧
      Running svc.callbacks d m.now m.now (opening d request) r ∧ r.Poised m.now ∧
      ∃ input, r.flights = Flights.none.issue (d.attempt 0) m.now input := by
  obtain ⟨left, input, hgranted⟩ := h.granted
  obtain ⟨r, hstart, hrunning, hpoised, hflights⟩ := exists_running_start hgranted m.now
  obtain ⟨henabled, hdecision, rfl, -⟩ := h
  obtain ⟨es', hestimators⟩ : ∃ es', (Service.decide (svc.resolve request).1.policy m.now es
    request : Decision × List (Entry In Out) × Estimators).2.2 = es' := ⟨_, rfl⟩
  refine ⟨(Trace.ofEvents svc.telemetry (svc.resolve request).1.listeners m.now
    (opening d request) es').2, r, ?_, hrunning, hpoised, input, hflights⟩
  rw [poll_ofRequest henabled hdecision hestimators, commence, hstart]
  dsimp only
  rw [bound_prepend, Trace.ofEvents_eq, beginning, List.append_assoc]
  rfl

end Session

/-! ## A task -/

namespace Task

/-- Where a task stands after its stragglers were polled, and what is observed at last. -/
inductive Led (ls : List (Listener In Out)) :
    Stragglers.Progress In Out → List (Entry In Out) → Progress In Out → Prop where
  | waits (left : Stragglers In Out) : Led ls (.pending left) [] (.pending ⟨ls, left⟩)
  | ends : Led ls .done [] .done
  | breaks (crash : Crash) (left : Stragglers In Out) :
    Led ls (.crashed crash left) [.taskCrashed crash] (.crashed left.flights.callNumbers)

theorem Led.news_last {ls : List (Listener In Out)} {p : Stragglers.Progress In Out}
    {last : List (Entry In Out)} {q : Progress In Out} (h : Led ls p last q) :
    Trace.news last = [] := by
  cases h <;> rfl

/-- A task does what its stragglers do. -/
theorem exists_led_poll (svc : Service In Out) (m : Moment) (ls : List (Listener In Out))
    (left : Stragglers In Out) (es : Estimators) :
    ∃ last, (poll svc m es ⟨ls, left⟩).entries =
        (Trace.ofEvents svc.telemetry ls m.now (left.poll svc.callbacks m).1 es).1 ++ last ∧
      Led ls (left.poll svc.callbacks m).2 last (poll svc m es ⟨ls, left⟩).progress := by
  simp only [poll]
  cases (left.poll svc.callbacks m).2 with
  | pending left' => exact ⟨[], (List.append_nil _).symm, .waits left'⟩
  | done => exact ⟨[], (List.append_nil _).symm, .ends⟩
  | crashed crash left' => exact ⟨_, rfl, .breaks crash left'⟩

end Task

end RequestHedging
