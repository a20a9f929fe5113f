import RequestHedging.Proofs.Journey.FirstPoll

/-!
# Traffic

Any number of requests to one service, with the same estimators.  Requests come in, their
callers poll or drop them, time passes, calls of the inner service are opened, and the
tasks of stragglers are driven, in any order and as often as one likes.

Each request makes its own journey.  What the traffic adds is that a poll finds the
estimators as the last poll of any request left them, and that all that is observed is kept
in one order.
-/

namespace RequestHedging

variable {In Out : Type}

namespace Traffic

inductive Deed where
  /-- Calls of the inner service are opened. -/
  | complete (calls : List Nat)
  /-- The caller polls the session. -/
  | poll
  /-- The caller drops the session. -/
  | drop
  /-- The spawner polls the task. -/
  | drive

/-- What a deed is to the request, with the estimators as they are. -/
def Deed.act (es : Estimators) : Deed → Journey.Act
  | complete calls => .complete calls
  | poll => .poll es
  | drop => .drop
  | drive => .drive es

inductive Act (In : Type) where
  | arrive (request : In)
  | advance (by_ : Duration)
  | touch (i : Nat) (deed : Deed)

end Traffic

open Race Traffic

/-- Requests under way, numbered in the order in which they came in. -/
structure Traffic (In Out : Type) where
  now : Instant
  estimators : Estimators
  journeys : List (Journey In Out)
  /-- What was observed, when, and of which request. -/
  trace : List (Instant × Nat × Entry In Out)

/-- What is observed when something is done about a request, and the estimators after it. -/
def Journey.shows (svc : Service In Out) (es : Estimators) (j : Journey In Out) (deed : Deed) :
    List (Entry In Out) × Estimators :=
  match deed, j.stage with
  | .poll, .held session =>
    let polled := session.poll svc j.moment es
    (polled.entries, polled.estimators)
  | .drive, .straggling task =>
    let polled := task.poll svc j.moment es
    (polled.entries, polled.estimators)
  | _, _ => ([], es)

namespace Traffic

def mark (now : Instant) (i : Nat) (entries : List (Entry In Out)) :
    List (Instant × Nat × Entry In Out) :=
  entries.map fun e => (now, i, e)

def touch (svc : Service In Out) (t : Traffic In Out) (i : Nat) (deed : Deed) : Traffic In Out :=
  match t.journeys[i]? with
  | none => t
  | some j =>
    let (entries, es) := j.shows svc t.estimators deed
    { t with
      estimators := es
      journeys := t.journeys.set i (j.step svc (deed.act t.estimators))
      trace := t.trace ++ mark t.now i entries }

def step (svc : Service In Out) (t : Traffic In Out) : Act In → Traffic In Out
  | .arrive request => { t with journeys := t.journeys ++ [.fresh t.now [] request] }
  | .advance d =>
    { t with
      now := t.now + d.nanos
      journeys := t.journeys.map fun j => j.step svc (.advance d) }
  | .touch i deed => t.touch svc i deed

def run (svc : Service In Out) (t : Traffic In Out) (acts : List (Act In)) : Traffic In Out :=
  acts.foldl (step svc) t

def quiet (now : Instant) (es : Estimators) : Traffic In Out := ⟨now, es, [], []⟩

def about (i : Nat) (trace : List (Instant × Nat × Entry In Out)) : List (Instant × Entry In Out) :=
  (trace.filter fun x => x.2.1 = i).map fun x => (x.1, x.2.2)

section About

variable {i k : Nat} {trace : List (Instant × Nat × Entry In Out)}

theorem about_append (i : Nat) (trace trace' : List (Instant × Nat × Entry In Out)) :
    about i (trace ++ trace') = about i trace ++ about i trace' := by
  rw [about, List.filter_append, List.map_append]
  rfl

theorem about_eq_nil (h : ∀ x ∈ trace, x.2.1 ≠ i) : about i trace = [] := by
  rw [about, List.filter_eq_nil_iff.mpr, List.map_nil]
  intro x hx
  simpa using h x hx

theorem mem_mark {now : Instant} {entries : List (Entry In Out)}
    {x : Instant × Nat × Entry In Out} (h : x ∈ mark now i entries) :
    x.1 = now ∧ x.2.1 = i ∧ x.2.2 ∈ entries := by
  obtain ⟨e, he, rfl⟩ := List.mem_map.mp h
  exact ⟨rfl, rfl, he⟩

theorem about_mark (i : Nat) (now : Instant) (entries : List (Entry In Out)) :
    about i (mark now i entries) = entries.map fun e => (now, e) := by
  rw [about, List.filter_eq_self.mpr, mark, List.map_map]
  · rfl
  · intro x hx
    exact decide_eq_true (mem_mark hx).2.1

theorem mem_about {x : Instant × Entry In Out} : x ∈ about i trace ↔ (x.1, i, x.2) ∈ trace := by
  constructor
  · intro hx
    obtain ⟨⟨now, k, e⟩, hfilter, rfl⟩ := List.mem_map.mp hx
    obtain ⟨hmem, hk⟩ := List.mem_filter.mp hfilter
    obtain rfl : k = i := of_decide_eq_true hk
    exact hmem
  · intro hx
    exact List.mem_map.mpr ⟨(x.1, i, x.2), List.mem_filter.mpr ⟨hx, decide_eq_true rfl⟩, rfl⟩

end About

section Step

variable {svc : Service In Out} {t : Traffic In Out}

theorem now_touch (svc : Service In Out) (t : Traffic In Out) (i : Nat) (deed : Deed) :
    (t.touch svc i deed).now = t.now := by
  unfold touch
  split <;> rfl

/-- Time does not go back. -/
theorem now_le_step (act : Act In) : t.now ≤ (t.step svc act).now := by
  cases act with
  | arrive request => exact Nat.le_refl _
  | advance d => exact Nat.le_add_right _ _
  | touch i deed => exact Nat.le_of_eq (now_touch svc t i deed).symm

/-- Time does not go back. -/
theorem now_le_run (acts : List (Act In)) : t.now ≤ (t.run svc acts).now := by
  induction acts generalizing t with
  | nil => exact Nat.le_refl _
  | cons act acts ih => exact Nat.le_trans (now_le_step act) ih

end Step

end Traffic

/-! ## What is done about one request -/

namespace Journey

variable {svc : Service In Out} {es : Estimators} {j : Journey In Out}

/-- What is done about a request polls its session or its task, or shows nothing. -/
theorem shows_cases (svc : Service In Out) (es : Estimators) (j : Journey In Out) (deed : Deed) :
    (∃ session, deed = .poll ∧ j.stage = .held session ∧ j.shows svc es deed =
        ((session.poll svc j.moment es).entries, (session.poll svc j.moment es).estimators)) ∨
      (∃ task, deed = .drive ∧ j.stage = .straggling task ∧ j.shows svc es deed =
        ((task.poll svc j.moment es).entries, (task.poll svc j.moment es).estimators)) ∨
      (j.shows svc es deed = ([], es) ∧ (j.step svc (deed.act es)).trace = j.trace ∧
        (j.step svc (deed.act es)).aftermath = j.aftermath) := by
  cases deed with
  | complete calls => exact .inr (.inr ⟨rfl, rfl, rfl⟩)
  | drop =>
    refine .inr (.inr ⟨rfl, ?_⟩)
    rw [Deed.act, step, drop]
    split <;> exact ⟨rfl, rfl⟩
  | poll =>
    rw [Deed.act, step]
    cases hstage : j.stage with
    | held session => exact .inl ⟨session, rfl, rfl, by simp only [shows, hstage]⟩
    | straggling task =>
      refine .inr (.inr ⟨by simp only [shows, hstage], ?_⟩)
      rw [poll_of_not_held es (by simp [hstage])]
      exact ⟨rfl, rfl⟩
    | _ =>
      refine .inr (.inr ⟨by simp only [shows, hstage], ?_⟩)
      rw [poll_of_not_held es (by simp [hstage])]
      exact ⟨rfl, rfl⟩
  | drive =>
    rw [Deed.act, step]
    cases hstage : j.stage with
    | straggling task => exact .inr (.inl ⟨task, rfl, rfl, by simp only [shows, hstage]⟩)
    | held session =>
      refine .inr (.inr ⟨by simp only [shows, hstage], ?_⟩)
      rw [drive_of_not_straggling es (by simp [hstage])]
      exact ⟨rfl, rfl⟩
    | _ =>
      refine .inr (.inr ⟨by simp only [shows, hstage], ?_⟩)
      rw [drive_of_not_straggling es (by simp [hstage])]
      exact ⟨rfl, rfl⟩

theorem aftermath_drive (svc : Service In Out) (es : Estimators) {task : Task In Out}
    (h : j.stage = .straggling task) : (j.drive svc es).aftermath =
      j.aftermath ++ (task.poll svc j.moment es).entries.map fun e => (j.now, e) := by
  rw [drive_of_straggling h]
  rfl

theorem now_act (svc : Service In Out) (es : Estimators) (j : Journey In Out) (deed : Deed) :
    (j.step svc (deed.act es)).now = j.now := by
  rw [now_step]
  cases deed <;> rfl

/-- What is shown is what the journey keeps. -/
theorem observed_step (svc : Service In Out) (es : Estimators) (deed : Deed)
    (hquiet : ∀ session, j.stage = .held session → j.aftermath = []) :
    (j.step svc (deed.act es)).trace ++ (j.step svc (deed.act es)).aftermath =
      j.trace ++ j.aftermath ++ (j.shows svc es deed).1.map fun e => (j.now, e) := by
  rcases shows_cases svc es j deed with
    ⟨session, rfl, hheld, hshows⟩ | ⟨task, rfl, htask, hshows⟩ | ⟨hshows, htrace, haftermath⟩
  · rw [Deed.act, step, poll_of_held hheld, trace_conclude, aftermath_conclude, hshows, observe,
      hquiet session hheld, List.append_nil, List.append_nil]
  · rw [Deed.act, step, trace_drive, aftermath_drive svc es htask, hshows, List.append_assoc]
  · rw [hshows, htrace, haftermath]
    exact (List.append_nil _).symm

end Journey

/-! ## After the first poll -/

namespace Session

/-- If the session is in a race, its reports go to these listeners. -/
def Tells (ls : List (Listener In Out)) (s : Session In Out) : Prop :=
  ∀ ls' r, s.stage = .racing ls' r → ls' = ls

variable {svc : Service In Out} {m : Moment} {es : Estimators}

/-- A request comes in with its first poll. -/
theorem exists_poll_fresh (svc : Service In Out) (m : Moment) (es : Estimators) (request : In) :
    ∃ rest, (poll svc m es (ofRequest request)).entries = .asked request :: rest ∧
      ∀ e ∈ rest, e.request? = none := by
  obtain ⟨last, -, hlast, hentries, -⟩ :=
    exists_bound svc m.now (pollUnbounded svc m es (ofRequest request))
  obtain ⟨rest, hrest, hinner⟩ : ∃ rest, (pollUnbounded svc m es (ofRequest request)).entries =
      .asked request :: rest ∧ ∀ e ∈ rest, e.isInner = true := by
    refine ⟨_, rfl, ?_⟩
    split
    · exact isInner_enter
    · exact isInner_pollDirect
  refine ⟨rest ++ last, ?_, ?_⟩
  · rw [poll, hentries, hrest, List.cons_append]
  · intro e he
    rcases List.mem_append.mp he with he | he
    · exact Entry.request?_of_isInner (hinner e he)
    · exact hlast e he

/-- No request comes in with a later poll. -/
theorem request?_poll {s : Session In Out} (h : ∀ request, s.stage ≠ .fresh request) :
    ∀ e ∈ (poll svc m es s).entries, e.request? = none := by
  obtain ⟨last, -, hlast, hentries, -⟩ := exists_bound svc m.now (pollUnbounded svc m es s)
  have hinner : ∀ e ∈ (pollUnbounded svc m es s).entries, e.isInner = true := by
    obtain ⟨stage, start⟩ := s
    cases stage with
    | fresh request => exact absurd rfl (h request)
    | direct flights => exact isInner_pollDirect
    | racing ls r => exact isInner_pollRace
  intro e he
  rw [poll, hentries] at he
  rcases List.mem_append.mp he with he | he
  · exact Entry.request?_of_isInner (hinner e he)
  · exact hlast e he

end Session

namespace Task

theorem Led.request?_last {ls : List (Listener In Out)} {p : Stragglers.Progress In Out}
    {last : List (Entry In Out)} {q : Progress In Out} (h : Led ls p last q) :
    ∀ e ∈ last, e.request? = none := by
  cases h <;> simp

theorem request?_poll {svc : Service In Out} {m : Moment} {es : Estimators} (task : Task In Out) :
    ∀ e ∈ (task.poll svc m es).entries, e.request? = none := by
  obtain ⟨ls, left⟩ := task
  obtain ⟨last, hentries, hled⟩ := exists_led_poll svc m ls left es
  intro e he
  rw [hentries] at he
  rcases List.mem_append.mp he with he | he
  · exact Entry.request?_of_isInner (Trace.isInner_ofEvents he)
  · exact hled.request?_last e he

end Task

namespace Journey

/-- Where a request stands after its first poll. -/
inductive Underway (ls : List (Listener In Out)) (j : Journey In Out) : Prop where
  | direct (flights : Flights In Out) (start : Option Instant)
      (stage : j.stage = .held ⟨.direct flights, start⟩) (quiet : j.aftermath = [])
  | racing (r : Race In Out) (start : Option Instant)
      (stage : j.stage = .held ⟨.racing ls r, start⟩) (quiet : j.aftermath = [])
  | straggling (left : Stragglers In Out) (stage : j.stage = .straggling ⟨ls, left⟩)
  | gone (stage : j.stage = .over)

section Underway

variable {svc : Service In Out} {ls : List (Listener In Out)} {j : Journey In Out}
  {es : Estimators}

/-- A request that is raced is under way. -/
theorem Course.underway {d : Decision} {start : Instant} (h : Course svc d start ls j) :
    Underway ls j := by
  cases hstage : j.stage with
  | held session =>
    obtain ⟨r, rfl, hquiet, -⟩ := h.held hstage
    exact .racing r _ hstage hquiet
  | straggling task =>
    obtain ⟨ls', left⟩ := task
    obtain ⟨-, -, rfl, -⟩ := h.straggling hstage
    exact .straggling left hstage
  | _ => exact .gone hstage

theorem Plain.underway {asked : List Attempt} (h : Plain asked j) : Underway ls j := by
  rcases h.stage with hover | ⟨flights, start, hheld⟩
  · exact .gone hover
  · exact .direct flights start hheld h.quiet

/-- After its first poll a request is never as new as before. -/
theorem underway_run (svc : Service In Out) (now : Instant) (opened : List Nat) (es : Estimators)
    (request : In) (acts : List Act) :
    Underway (svc.resolve request).1.listeners
      ((enter svc now opened es request).run svc acts) := by
  cases henabled : svc.enabled request with
  | false => exact (plain_run (plain_enter_of_disabled henabled now opened es) acts).underway
  | true =>
    rcases races_or_plain_enter henabled now opened es rfl with hraces | hplain
    · exact (course_run (course_enter hraces opened) acts).underway
    · exact (plain_run hplain acts).underway

/-- While its caller has it, its session is past the first poll, and was not handed over. -/
theorem Underway.held (h : Underway ls j) {session : Session In Out}
    (hheld : j.stage = .held session) :
    j.aftermath = [] ∧ (∀ request, session.stage ≠ .fresh request) ∧ session.Tells ls := by
  cases h with
  | direct flights start stage quiet =>
    cases hheld.symm.trans stage
    refine ⟨quiet, ?_, ?_⟩
    · rintro request ⟨⟩
    · rintro ls' r ⟨⟩
  | racing r start stage quiet =>
    cases hheld.symm.trans stage
    refine ⟨quiet, ?_, ?_⟩
    · rintro request ⟨⟩
    · rintro ls' r' ⟨⟩
      rfl
  | straggling left stage => cases hheld.symm.trans stage
  | gone stage => cases hheld.symm.trans stage

/-- A task tells the listeners of its request. -/
theorem Underway.listeners (h : Underway ls j) {task : Task In Out}
    (htask : j.stage = .straggling task) : task.listeners = ls := by
  cases h with
  | straggling left stage =>
    cases htask.symm.trans stage
    rfl
  | _ => cases htask.symm.trans ‹j.stage = _›

/-- No request comes in with what is done later. -/
theorem Underway.request?_shows (h : Underway ls j) (deed : Deed) :
    ∀ e ∈ (j.shows svc es deed).1, e.request? = none := by
  intro e he
  rcases shows_cases svc es j deed with
    ⟨session, -, hheld, hshows⟩ | ⟨task, -, -, hshows⟩ | ⟨hshows, -⟩
  · rw [hshows] at he
    exact Session.request?_poll (h.held hheld).2.1 e he
  · rw [hshows] at he
    exact task.request?_poll e he
  · rw [hshows] at he
    cases he

end Underway

end Journey

/-- A service that takes as many seconds as it is asked for, and hedges after one. -/
def Traffic.relay : Service Nat Nat :=
  { slowFirst with
    callbacks := { slowFirst.callbacks with serve := fun n _ => ⟨.lasting (.ofSeconds n), .ok n⟩ }
    resolver := fun _ => .ok ⟨.fixed ⟨1, some (.ofSeconds 1)⟩, [.estimator "latency"]⟩
    spawner := none }

end RequestHedging
