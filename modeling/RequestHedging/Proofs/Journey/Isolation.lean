import RequestHedging.Proofs.Journey.Deadline
import RequestHedging.Proofs.Trace.Voiced
import RequestHedging.Proofs.Traffic

/-!
# Listeners are isolated

Two services that differ only in what listeners answer treat every request alike, whatever
happens to it (`isolated_fresh`).  A step takes requests that stand alike to requests that stand
alike (`Alike.step`): in both the same race is polled, and what its events leave is the same but
for the complaints of listeners.
-/

namespace RequestHedging

open Race Trace Traffic

variable {In Out : Type}

/-- Resolutions with the same policy, and with listeners that differ in what they answer, if at
all. -/
inductive Resolution.Alike :
    Except Crash (Resolution In Out) → Except Crash (Resolution In Out) → Prop where
  | crashed (crash : Crash) : Alike (.error crash) (.error crash)
  | resolved (policy : Policy In) (ls ls' : List (Listener In Out))
      (listeners : List.Forall₂ Listener.Alike ls ls') :
    Alike (.ok ⟨policy, ls⟩) (.ok ⟨policy, ls'⟩)

namespace Service

/-- Services that differ in what listeners answer, if at all. -/
structure Alike (svc svc' : Service In Out) : Prop where
  others : svc' = { svc with resolver := svc'.resolver }
  resolver : ∀ request, Resolution.Alike (svc.resolver request) (svc'.resolver request)

def listeners (svc : Service In Out) (request : In) : List (Listener In Out) :=
  (svc.resolve request).1.listeners

section Resolve

variable {svc svc' : Service In Out}

theorem Alike.resolve (h : svc.Alike svc') (request : In) :
    (svc'.resolve request).1.policy = (svc.resolve request).1.policy ∧
      (svc'.resolve request).2 = (svc.resolve request).2 ∧
      List.Forall₂ Listener.Alike (svc.listeners request) (svc'.listeners request) := by
  have hresolver := h.resolver request
  simp only [listeners, Service.resolve]
  generalize svc.resolver request = answer at hresolver ⊢
  generalize svc'.resolver request = answer' at hresolver ⊢
  cases hresolver with
  | crashed crash => exact ⟨rfl, rfl, .nil⟩
  | resolved policy ls ls' listeners => exact ⟨rfl, rfl, listeners⟩

end Resolve

end Service

/-! ## A poll of the session -/

namespace Session

/-- Sessions of a request that stand alike, each in front of its own listeners. -/
inductive Alike (svc svc' : Service In Out) (request : In) :
    Session In Out → Session In Out → Prop where
  | fresh : Alike svc svc' request (.ofRequest request) (.ofRequest request)
  | direct (f : Flights In Out) (start : Option Instant) :
    Alike svc svc' request ⟨.direct f, start⟩ ⟨.direct f, start⟩
  | racing (r : Race In Out) (start : Option Instant) :
    Alike svc svc' request ⟨.racing (svc.listeners request) r, start⟩
      ⟨.racing (svc'.listeners request) r, start⟩

inductive Progress.Alike (svc svc' : Service In Out) (request : In) :
    Progress In Out → Progress In Out → Prop where
  | pending (s s' : Session In Out) (session : s.Alike svc svc' request s') :
    Progress.Alike svc svc' request (.pending s) (.pending s')
  | ended (ending : Ending Out) (cancelled : List Nat) :
    Progress.Alike svc svc' request (.ended ending cancelled) (.ended ending cancelled)
  | handedOver (output : Out) (left : Stragglers In Out) :
    Progress.Alike svc svc' request (.handedOver output (svc.listeners request) left)
      (.handedOver output (svc'.listeners request) left)

structure Polled.Alike (svc svc' : Service In Out) (request : In) (now : Instant)
    (p p' : Polled In Out) : Prop where
  entries : Echoes (svc.listeners request) (svc'.listeners request) (stamped now p.entries)
    (stamped now p'.entries)
  estimators : p.estimators = p'.estimators
  progress : p.progress.Alike svc svc' request p'.progress

section Poll

variable {svc svc' : Service In Out} {request : In} {m : Moment} {start : Option Instant}

/-- What was observed before is put in front. -/
theorem Polled.Alike.prepend {now : Instant} {before before' : List (Entry In Out)}
    {p p' : Polled In Out} (h : p.Alike svc svc' request now p')
    (hbefore : Echoes (svc.listeners request) (svc'.listeners request) (stamped now before)
      (stamped now before')) :
    Polled.Alike svc svc' request now { p with entries := before ++ p.entries }
      { p' with entries := before' ++ p'.entries } := by
  refine ⟨?_, h.estimators, h.progress⟩
  rw [stamped_append, stamped_append]
  exact hbefore.append h.entries

theorem alike_pollDirect (h : svc.Alike svc') (es : Estimators) (f : Flights In Out) :
    Polled.Alike svc svc' request m.now (pollDirect svc m es start f)
      (pollDirect svc' m es start f) := by
  have hsame : pollDirect svc' m es start f = pollDirect svc m es start f := by
    rw [h.others]
    rfl
  have hcalls : ∀ made : List (Call In),
      Echoes (svc.listeners request) (svc'.listeners request)
        (stamped m.now (made.map fun call => (.race (.called call) : Entry In Out)))
        (stamped m.now (made.map fun call => .race (.called call))) := by
    intro made
    refine echoes_of_others m.now fun e he => ?_
    obtain ⟨call, -, rfl⟩ := List.mem_map.mp he
    rfl
  rw [hsame, pollDirect]
  split
  · exact ⟨hcalls _, rfl, .pending _ _ (.direct _ _)⟩
  · exact ⟨hcalls _, rfl, .ended _ _⟩
  · exact ⟨hcalls _, rfl, .ended _ _⟩

theorem alike_pollRace (h : svc.Alike svc') (es : Estimators) (r : Race In Out) :
    Polled.Alike svc svc' request m.now (pollRace svc m es start (svc.listeners request) r)
      (pollRace svc' m es start (svc'.listeners request) r) := by
  obtain ⟨-, -, hlisteners⟩ := h.resolve request
  have hcallbacks : svc'.callbacks = svc.callbacks := by rw [h.others]
  have htelemetry : svc'.telemetry = svc.telemetry := by rw [h.others]
  have hspawner : svc'.spawner = svc.spawner := by rw [h.others]
  unfold pollRace
  rw [hcallbacks, htelemetry]
  rcases r.poll svc.callbacks m with ⟨events, progress⟩
  have hentries := echoes_flatMap_written hlisteners svc.telemetry m.now events
  have hestimators := estimators_ofEvents hlisteners svc.telemetry m.now events es
  rw [← ofEvents_eq m.now events es, ← ofEvents_eq m.now events es] at hentries
  cases progress with
  | pending race => exact ⟨hentries, hestimators, .pending _ _ (.racing race start)⟩
  | crashed fault race => exact ⟨hentries, hestimators, .ended _ _⟩
  | finished output race =>
    dsimp only
    unfold abandon
    rw [hspawner]
    cases (svc.spawner.isSome && !race.flights.isEmpty) with
    | true =>
      refine ⟨?_, hestimators, .handedOver output _⟩
      show Echoes _ _ (stamped m.now (_ ++ [.spawned])) (stamped m.now (_ ++ [.spawned]))
      rw [stamped_append, stamped_append]
      exact hentries.append (echoes_of_others m.now (List.forall_mem_singleton.mpr rfl))
    | false =>
      refine ⟨?_, hestimators, .ended _ _⟩
      show Echoes _ _ (stamped m.now (_ ++ [])) (stamped m.now (_ ++ []))
      rw [List.append_nil, List.append_nil]
      exact hentries

/-- Resolving and deciding a request has nothing to do with what listeners answer. -/
theorem echoes_resolve (now : Instant) (es : Estimators) :
    Echoes (svc.listeners request) (svc'.listeners request)
      (stamped now ((svc.resolve request).2 ++ (Service.decide (svc.resolve request).1.policy now es
        request : Decision × List (Entry In Out) × Estimators).2.1))
      (stamped now ((svc.resolve request).2 ++ (Service.decide (svc.resolve request).1.policy now es
        request : Decision × List (Entry In Out) × Estimators).2.1)) := by
  refine echoes_of_others now fun e he => ?_
  rcases List.mem_append.mp he with he | he
  · rw [Service.eq_of_mem_resolve he]
    rfl
  · rcases Service.eq_of_mem_decide he with ⟨name, rfl⟩ | ⟨message, rfl⟩ <;> rfl

theorem alike_enter (h : svc.Alike svc') (es : Estimators) :
    Polled.Alike svc svc' request m.now (enter svc m es start request)
      (enter svc' m es start request) := by
  obtain ⟨hpolicy, hresolved, hlisteners⟩ := h.resolve request
  have hcallbacks : svc'.callbacks = svc.callbacks := by rw [h.others]
  have htelemetry : svc'.telemetry = svc.telemetry := by rw [h.others]
  have hbefore := @echoes_resolve _ _ svc svc' request m.now es
  unfold enter
  dsimp only
  rw [hpolicy, hresolved, hcallbacks, htelemetry]
  rcases hdecided : (Service.decide (svc.resolve request).1.policy m.now es request :
    Decision × List (Entry In Out) × Estimators) with ⟨d, decided, es'⟩
  rw [hdecided] at hbefore
  dsimp only at hbefore ⊢
  rcases Race.start svc.callbacks m.now d request with ⟨events, started⟩
  have hentries := echoes_flatMap_written hlisteners svc.telemetry m.now events
  have hestimators := estimators_ofEvents hlisteners svc.telemetry m.now events es'
  rw [← ofEvents_eq m.now events es', ← ofEvents_eq m.now events es'] at hentries
  have htold := hbefore.append hentries
  rw [← stamped_append, ← stamped_append] at htold
  refine Polled.Alike.prepend ?_ htold
  dsimp only
  change (ofEvents svc.telemetry (svc.resolve request).1.listeners m.now events es').2 =
    (ofEvents svc.telemetry (svc'.resolve request).1.listeners m.now events es').2 at hestimators
  rw [← hestimators]
  cases started with
  | crashed crash => exact ⟨⟨rfl, rfl, rfl⟩, rfl, .ended _ _⟩
  | refused left => exact alike_pollDirect h _ _
  | racing r => exact alike_pollRace h _ r

/-- A deadline has nothing to do with what listeners answer. -/
theorem Polled.Alike.bound (h : svc.Alike svc') {now : Instant} {p p' : Polled In Out}
    (hp : p.Alike svc svc' request now p') :
    (Session.bound svc now p).Alike svc svc' request now (Session.bound svc' now p') := by
  have hdeadline : svc'.deadline = svc.deadline := by rw [h.others]
  have htelemetry : svc'.telemetry = svc.telemetry := by rw [h.others]
  obtain ⟨entries, es, progress⟩ := p
  obtain ⟨entries', es', progress'⟩ := p'
  obtain ⟨hentries, hestimators, hprogress⟩ := hp
  unfold Session.bound
  rw [hdeadline, htelemetry]
  cases hprogress with
  | ended ending cancelled => exact ⟨hentries, hestimators, .ended _ _⟩
  | handedOver output left => exact ⟨hentries, hestimators, .handedOver _ _⟩
  | pending s s' session =>
    have hbounded : s'.boundedFrom = s.boundedFrom := by cases session <;> rfl
    have hissued : s'.issued = s.issued := by cases session <;> rfl
    have hnumbers : s'.callNumbers = s.callNumbers := by cases session <;> rfl
    cases svc.deadline with
    | none => exact ⟨hentries, hestimators, .pending _ _ session⟩
    | some deadline =>
      dsimp only
      rw [hbounded, hissued, hnumbers]
      cases s.boundedFrom with
      | none => exact ⟨hentries, hestimators, .pending _ _ session⟩
      | some first =>
        dsimp only
        split
        · refine ⟨?_, hestimators, .ended _ _⟩
          show Echoes _ _ (stamped now (entries ++ _)) (stamped now (entries' ++ _))
          rw [stamped_append now entries, stamped_append now entries']
          refine hentries.append (echoes_of_others now fun e he => ?_)
          rcases Journey.eq_of_mem_lastWords he with rfl | rfl <;> rfl
        · exact ⟨hentries, hestimators, .pending _ _ session⟩

/-- Polls of sessions that stand alike come to the same. -/
theorem Alike.poll (h : svc.Alike svc') {s s' : Session In Out} (hs : s.Alike svc svc' request s')
    (m : Moment) (es : Estimators) :
    (s.poll svc m es).Alike svc svc' request m.now (s'.poll svc' m es) := by
  have henabled : svc'.enabled = svc.enabled := by rw [h.others]
  refine Polled.Alike.bound h ?_
  unfold pollUnbounded
  cases hs with
  | direct f start => exact alike_pollDirect h es f
  | racing r start => exact alike_pollRace h es r
  | fresh =>
    have hasked : Echoes (svc.listeners request) (svc'.listeners request)
        (stamped m.now [.asked request]) (stamped m.now [.asked request]) :=
      echoes_of_others m.now (List.forall_mem_singleton.mpr rfl)
    simp only [ofRequest, henabled]
    refine Polled.Alike.prepend ?_ hasked
    split
    · exact alike_enter h es
    · exact alike_pollDirect h es _

end Poll

end Session

/-! ## A poll of the task -/

namespace Task

inductive Progress.Alike (svc svc' : Service In Out) (request : In) :
    Progress In Out → Progress In Out → Prop where
  | pending (left : Stragglers In Out) :
    Progress.Alike svc svc' request (.pending ⟨svc.listeners request, left⟩)
      (.pending ⟨svc'.listeners request, left⟩)
  | done : Progress.Alike svc svc' request .done .done
  | crashed (cancelled : List Nat) :
    Progress.Alike svc svc' request (.crashed cancelled) (.crashed cancelled)

/-- Polls of tasks with the same stragglers come to the same. -/
theorem alike_poll {svc svc' : Service In Out} (h : svc.Alike svc') (request : In)
    (left : Stragglers In Out) (m : Moment) (es : Estimators) :
    Echoes (svc.listeners request) (svc'.listeners request)
        (stamped m.now (poll svc m es ⟨svc.listeners request, left⟩).entries)
        (stamped m.now (poll svc' m es ⟨svc'.listeners request, left⟩).entries) ∧
      (poll svc m es ⟨svc.listeners request, left⟩).estimators =
        (poll svc' m es ⟨svc'.listeners request, left⟩).estimators ∧
      (poll svc m es ⟨svc.listeners request, left⟩).progress.Alike svc svc' request
        (poll svc' m es ⟨svc'.listeners request, left⟩).progress := by
  obtain ⟨-, -, hlisteners⟩ := h.resolve request
  have hcallbacks : svc'.callbacks = svc.callbacks := by rw [h.others]
  have htelemetry : svc'.telemetry = svc.telemetry := by rw [h.others]
  unfold poll
  dsimp only
  rw [hcallbacks, htelemetry]
  rcases left.poll svc.callbacks m with ⟨events, progress⟩
  have hentries := echoes_flatMap_written hlisteners svc.telemetry m.now events
  have hestimators := estimators_ofEvents hlisteners svc.telemetry m.now events es
  rw [← ofEvents_eq m.now events es, ← ofEvents_eq m.now events es] at hentries
  cases progress with
  | pending left' => exact ⟨hentries, hestimators, .pending left'⟩
  | done => exact ⟨hentries, hestimators, .done⟩
  | crashed crash left' =>
    refine ⟨?_, hestimators, .crashed _⟩
    show Echoes _ _ (stamped m.now (_ ++ [.taskCrashed crash]))
      (stamped m.now (_ ++ [.taskCrashed crash]))
    rw [stamped_append, stamped_append]
    exact hentries.append (echoes_of_others m.now (List.forall_mem_singleton.mpr rfl))

end Task

/-! ## The journey -/

namespace Journey

/-- Two requests are in the same hands, each in front of its own listeners. -/
inductive Stage.Alike (svc svc' : Service In Out) (request : In) :
    Stage In Out → Stage In Out → Prop where
  | held (s s' : Session In Out) (session : s.Alike svc svc' request s') :
    Stage.Alike svc svc' request (.held s) (.held s')
  | straggling (left : Stragglers In Out) :
    Stage.Alike svc svc' request (.straggling ⟨svc.listeners request, left⟩)
      (.straggling ⟨svc'.listeners request, left⟩)
  | gone : Stage.Alike svc svc' request .over .over

/-- The same happened to a request of both services, but for the complaints of listeners. -/
structure Alike (svc svc' : Service In Out) (request : In) (j j' : Journey In Out) : Prop where
  now : j.now = j'.now
  opened : j.opened = j'.opened
  seen : j.seen = j'.seen
  endings : j.endings = j'.endings
  stage : j.stage.Alike svc svc' request j'.stage
  trace : Echoes (svc.listeners request) (svc'.listeners request) j.trace j'.trace
  aftermath : Echoes (svc.listeners request) (svc'.listeners request) j.aftermath j'.aftermath

section Alike

variable {svc svc' : Service In Out} {request : In} {j j' : Journey In Out}

theorem alike_fresh (svc svc' : Service In Out) (now : Instant) (opened : List Nat) (request : In) :
    Alike svc svc' request (fresh now opened request) (fresh now opened request) :=
  ⟨rfl, rfl, rfl, rfl, .held _ _ .fresh, ⟨rfl, rfl, rfl⟩, ⟨rfl, rfl, rfl⟩⟩

theorem Alike.moment (h : Alike svc svc' request j j') : j'.moment = j.moment := by
  rw [Journey.moment, Journey.moment, h.now, h.opened]

/-- A poll of the session. -/
theorem Alike.poll (hsvc : svc.Alike svc') (h : Alike svc svc' request j j') (es : Estimators) :
    Alike svc svc' request (j.poll svc es) (j'.poll svc' es) := by
  have hstage := h.stage
  generalize hs : j.stage = stage at hstage
  generalize hs' : j'.stage = stage' at hstage
  cases hstage with
  | held s s' session =>
    obtain ⟨hentries, -, hprogress⟩ := session.poll hsvc j.moment es
    rw [poll_of_held hs, poll_of_held hs', h.moment]
    have htrace := h.trace.append hentries
    have hseen : Alike svc svc' request
        { j.observe (s.poll svc j.moment es).entries with stage := .over }
        { j'.observe (s'.poll svc' j.moment es).entries with stage := .over } := by
      refine ⟨h.now, h.opened, h.now, h.endings, .gone, ?_, h.aftermath⟩
      rw [observe, observe, ← h.now]
      exact htrace
    generalize (s.poll svc j.moment es).progress = p at hprogress ⊢
    generalize (s'.poll svc' j.moment es).progress = p' at hprogress ⊢
    cases hprogress with
    | pending t t' session' => exact { hseen with stage := .held _ _ session' }
    | ended ending cancelled =>
      exact { hseen with endings := congrArg (· ++ [ending]) h.endings, stage := .gone }
    | handedOver output left =>
      exact { hseen with
        endings := congrArg (· ++ [Session.Ending.returned output]) h.endings
        stage := .straggling left }
  | straggling left =>
    rw [poll_of_not_held es (by simp [hs]), poll_of_not_held es (by simp [hs'])]
    exact h
  | gone =>
    rw [poll_of_not_held es (by simp [hs]), poll_of_not_held es (by simp [hs'])]
    exact h

/-- A poll of the task. -/
theorem Alike.drive (hsvc : svc.Alike svc') (h : Alike svc svc' request j j') (es : Estimators) :
    Alike svc svc' request (j.drive svc es) (j'.drive svc' es) := by
  have hstage := h.stage
  generalize hs : j.stage = stage at hstage
  generalize hs' : j'.stage = stage' at hstage
  cases hstage with
  | straggling left =>
    obtain ⟨hentries, -, hprogress⟩ := Task.alike_poll hsvc request left j.moment es
    have haftermath := h.aftermath.append hentries
    have hseen : Alike svc svc' request
        { j.follow (Task.poll svc j.moment es ⟨svc.listeners request, left⟩).entries with
          stage := .over }
        { j'.follow (Task.poll svc' j.moment es ⟨svc'.listeners request, left⟩).entries with
          stage := .over } := by
      refine ⟨h.now, h.opened, h.seen, h.endings, .gone, h.trace, ?_⟩
      rw [follow, follow, ← h.now]
      exact haftermath
    rw [drive_of_straggling hs, drive_of_straggling hs', h.moment]
    generalize (Task.poll svc j.moment es ⟨svc.listeners request, left⟩).progress = p
      at hprogress ⊢
    generalize (Task.poll svc' j.moment es ⟨svc'.listeners request, left⟩).progress = p'
      at hprogress ⊢
    cases hprogress with
    | pending left' => exact { hseen with stage := .straggling left' }
    | done => exact hseen
    | crashed cancelled => exact hseen
  | held s s' session =>
    rw [drive_of_not_straggling es (by simp [hs]), drive_of_not_straggling es (by simp [hs'])]
    exact h
  | gone =>
    rw [drive_of_not_straggling es (by simp [hs]), drive_of_not_straggling es (by simp [hs'])]
    exact h

theorem Alike.drop (h : Alike svc svc' request j j') :
    Alike svc svc' request j.drop j'.drop := by
  have hstage := h.stage
  generalize hs : j.stage = stage at hstage
  generalize hs' : j'.stage = stage' at hstage
  unfold Journey.drop
  rw [hs, hs']
  cases hstage with
  | held s s' session => exact { h with stage := .gone }
  | straggling left => exact h
  | gone => exact h

/-- Whatever happens, requests that stood alike stand alike. -/
theorem Alike.step (hsvc : svc.Alike svc') (h : Alike svc svc' request j j') (act : Act) :
    Alike svc svc' request (j.step svc act) (j'.step svc' act) := by
  cases act with
  | advance by_ => exact { h with now := congrArg (· + by_.nanos) h.now }
  | complete calls => exact { h with opened := congrArg (· ++ calls) h.opened }
  | poll es => exact h.poll hsvc es
  | drop => exact h.drop
  | drive es => exact h.drive hsvc es

/-- Requests that stand alike do so whatever happens. -/
theorem alike_run (hsvc : svc.Alike svc') (h : Alike svc svc' request j j') (acts : List Act) :
    Alike svc svc' request (j.run svc acts) (j'.run svc' acts) := by
  induction acts generalizing j j' with
  | nil => exact h
  | cons act acts ih => exact ih (h.step hsvc act)

/-- What is learned of requests that stand alike is the same. -/
theorem Alike.estimators_shows (hsvc : svc.Alike svc') (h : Alike svc svc' request j j')
    (es : Estimators) (deed : Deed) : (j.shows svc es deed).2 = (j'.shows svc' es deed).2 := by
  have hstage := h.stage
  generalize hs : j.stage = stage at hstage
  generalize hs' : j'.stage = stage' at hstage
  cases hstage with
  | held s s' session =>
    cases deed with
    | poll =>
      simp only [shows, hs, hs', h.moment]
      exact (session.poll hsvc j.moment es).estimators
    | _ => simp only [shows, hs, hs']
  | straggling left =>
    cases deed with
    | drive =>
      simp only [shows, hs, hs', h.moment]
      exact (Task.alike_poll hsvc request left j.moment es).2.1
    | _ => simp only [shows, hs, hs']
  | gone => cases deed <;> simp only [shows, hs, hs']

end Alike

/-- The complaints of listeners: when, about which attempt, and of which position. -/
def complaints (j : Journey In Out) : List (Instant × Attempt × Nat) :=
  (j.trace ++ j.aftermath).filterMap fun e => e.2.complaint?.map fun c => (e.1, c)

/-- The reports that listeners heard and did not answer: when, about which attempt, and at which
position. -/
def unanswered (ls : List (Listener In Out)) (j : Journey In Out) :
    List (Instant × Attempt × Nat) :=
  (j.trace ++ j.aftermath).filterMap fun e => (unanswered? ls e.2).map fun c => (e.1, c)

/-- Two services did the same for a request, but for the complaints of listeners. -/
structure Isolated (svc svc' : Service In Out) (request : In) (j j' : Journey In Out) :
    Prop where
  /-- The request is in the same hands, it ended alike, and all but complaints was observed of it
  at the same times; complaints stand right behind what was heard. -/
  alike : Alike svc svc' request j j'
  /-- The listeners heard the same reports. -/
  heard : j.heard = j'.heard
  /-- There is one complaint for each report that was not answered, -/
  complained : j.complaints = j.unanswered (svc.listeners request) ∧
    j'.complaints = j'.unanswered (svc'.listeners request)
  /-- and it is a warning that names the attempt and the position of the listener. -/
  warned : ∀ t a position, (t, a, position) ∈ j.complaints ++ j'.complaints →
    ∃ n : Notice, (t, .log n) ∈ j.trace ++ j.aftermath ++ (j'.trace ++ j'.aftermath) ∧
      n.level = .warn ∧ (Telemetry.attemptKey, .number a.index.toNat) ∈ n.details ∧
      ("listener.position", .number position) ∈ n.details
  /-- Whatever is done next, the same is learned from it. -/
  estimators : ∀ es deed, (j.shows svc es deed).2 = (j'.shows svc' es deed).2

/-- What listeners answer makes no difference to a request, whatever happens to it. -/
theorem isolated_fresh {svc svc' : Service In Out} (h : svc.Alike svc') (now : Instant)
    (opened : List Nat) (request : In) (acts : List Act) :
    Isolated svc svc' request ((fresh now opened request).run svc acts)
      ((fresh now opened request).run svc' acts) := by
  have halike := alike_run h (alike_fresh svc svc' now opened request) acts
  have hechoes := halike.trace.append halike.aftermath
  refine ⟨halike, ?_, ⟨complaints_of_voiced hechoes.voiced, complaints_of_voiced hechoes.voiced'⟩,
    ?_, halike.estimators_shows h⟩
  · have hheard : ∀ e : Instant × Entry In Out, e.2.isComplaint = true → e.2.heard? = none := by
      rintro ⟨t, e⟩ he
      cases e <;> first | rfl | cases he
    rw [Journey.heard, ← filterMap_muted hheard, hechoes.same, filterMap_muted hheard,
      Journey.heard]
  · intro t a position hmem
    rw [complaints, complaints, ← List.filterMap_append] at hmem
    obtain ⟨⟨t', e⟩, he, hsome⟩ := List.mem_filterMap.mp hmem
    obtain ⟨⟨a', position'⟩, hcomplaint, heq⟩ := Option.map_eq_some_iff.mp hsome
    cases heq
    obtain ⟨n, rfl, hlevel, hattempt, hposition⟩ := Entry.warns_of_complaint hcomplaint
    exact ⟨n, he, hlevel, hattempt, hposition⟩

/-- The slow service, with a listener that fails in front and one that crashes behind. -/
def heckled : Service Nat Nat :=
  { slowFirst with
    resolver := fun _ => .ok ⟨.fixed .standard,
      [.callback "log" fun _ => .error (.failed (.because .listener "full")),
        .callback "page" fun _ => .error (.crashed ⟨"bug"⟩)]⟩ }

def applauded : Service Nat Nat :=
  { slowFirst with
    resolver := fun _ => .ok ⟨.fixed .standard,
      [.callback "log" fun _ => .ok (), .callback "page" fun _ => .ok ()]⟩ }

/-- Listeners that fail or crash leave a complaint about each attempt, and change nothing else. -/
theorem isolated_fresh_heckled :
    heckled.Alike applauded ∧
      Isolated heckled applauded 7 ((fresh 0 [] 7).run heckled (.poll [] :: slowFirstActs))
        ((fresh 0 [] 7).run applauded (.poll [] :: slowFirstActs)) ∧
      ((fresh 0 [] 7).run heckled (.poll [] :: slowFirstActs)).complaints =
        [(3000000000, ⟨1, true⟩, 0), (3000000000, ⟨1, true⟩, 1), (5000000000, ⟨0, false⟩, 0),
          (5000000000, ⟨0, false⟩, 1)] ∧
      ((fresh 0 [] 7).run applauded (.poll [] :: slowFirstActs)).complaints = [] := by
  have halike : heckled.Alike applauded :=
    ⟨rfl, fun _ => .resolved _ _ _ (.cons (.callback _ _ _) (.cons (.callback _ _ _) .nil))⟩
  exact ⟨halike, isolated_fresh halike 0 [] 7 (.poll [] :: slowFirstActs), by decide +kernel,
    by decide +kernel⟩

end Journey

end RequestHedging
