import RequestHedging.Proofs.Journey.Course

/-!
# Deadlines

A deadline decides nothing about a race.  It looks at what a poll left, and if that is
pending and the time is over, it ends the session (`Journey.poll_eq_bound`).  So a request
goes on as it would without the deadline until the first poll at or after it, and if that
poll leaves it pending, it is cut short there and nothing more is observed of it
(`Journey.truncation_fresh`).

Time is looked at only in polls.  A poll that comes after the deadline is still a poll of
the race, and all hedges due by then are issued in it.
-/

namespace RequestHedging

open Race Trace

variable {In Out : Type}

def Service.unbounded (svc : Service In Out) : Service In Out := { svc with deadline := none }

/-- The first of the times of polls is the start, and no poll was at or after the deadline. -/
def Deadline.IsOpen (deadline : Deadline Out) (polls : List Instant) : Prop :=
  ∀ start ∈ polls.head?, ∀ t ∈ polls, t < start + deadline.after.nanos

namespace Session

/-- From when a deadline counts, if the session is polled at a time. -/
def countsFrom (svc : Service In Out) (now : Instant) (s : Session In Out) : Option Instant :=
  match s.stage with
  | .fresh request => if svc.enabled request then some now else none
  | _ => s.boundedFrom

section Poll

variable {svc : Service In Out} {m : Moment} {es : Estimators} {s s' : Session In Out}
  {boundedFrom : Option Instant}

/-- Without a deadline a poll is what it is before deadlines are looked at. -/
theorem poll_unbounded (svc : Service In Out) (m : Moment) (es : Estimators)
    (s : Session In Out) : poll svc.unbounded m es s = pollUnbounded svc m es s := by
  have hpoll : pollUnbounded svc.unbounded m es s = pollUnbounded svc m es s := rfl
  rw [poll, hpoll, bound]
  split
  · rename_i deadline _ hdeadline
    cases hdeadline
  · rfl

/-- A deadline counts from then on, whenever the session is polled next. -/
theorem countsFrom_pollDirect {flights : Flights In Out}
    (h : (pollDirect svc m es boundedFrom flights).progress = .pending s') (now : Instant) :
    s'.countsFrom svc now = boundedFrom := by
  unfold pollDirect at h
  dsimp only at h
  split at h
  · cases h
    rfl
  · cases h
  · cases h

theorem countsFrom_pollRace {ls : List (Listener In Out)} {r : Race In Out}
    (h : (pollRace svc m es boundedFrom ls r).progress = .pending s') (now : Instant) :
    s'.countsFrom svc now = boundedFrom := by
  unfold pollRace at h
  dsimp only at h
  split at h
  · cases h
    rfl
  · cases h
  · rename_i output r' _
    dsimp only [abandon] at h
    split at h <;> cases h

theorem countsFrom_enter {request : In}
    (h : (enter svc m es boundedFrom request).progress = .pending s') (now : Instant) :
    s'.countsFrom svc now = boundedFrom := by
  unfold enter at h
  dsimp only at h
  split at h
  · cases h
  · exact countsFrom_pollDirect h now
  · exact countsFrom_pollRace h now

/-- A deadline counts from the first poll of a request that is hedged. -/
theorem countsFrom_pollUnbounded (h : (pollUnbounded svc m es s).progress = .pending s')
    (now : Instant) : s'.countsFrom svc now = s.countsFrom svc m.now := by
  unfold pollUnbounded at h
  unfold countsFrom at *
  split at h
  · rename_i flights hstage
    rw [hstage]
    exact countsFrom_pollDirect h now
  · rename_i ls r hstage
    rw [hstage]
    exact countsFrom_pollRace h now
  · rename_i request hstage
    rw [hstage]
    dsimp only at h ⊢
    split at h
    · rename_i henabled
      rw [if_pos henabled]
      exact countsFrom_enter h now
    · rename_i henabled
      rw [if_neg henabled]
      exact countsFrom_pollDirect h now

/-! ## Only the deadline gives up -/

theorem isGaveUp_of_isInner {e : Entry In Out} (h : e.isInner = true) : e.isGaveUp = false := by
  cases e <;> simp_all

theorem isGaveUp_pollUnbounded :
    ∀ e ∈ (pollUnbounded svc m es s).entries, e.isGaveUp = false := by
  intro e he
  unfold pollUnbounded at he
  split at he
  · exact isGaveUp_of_isInner (isInner_pollDirect e he)
  · exact isGaveUp_of_isInner (isInner_pollRace e he)
  · rcases List.mem_cons.mp he with rfl | he
    · rfl
    · split at he
      · exact isGaveUp_of_isInner (isInner_enter e he)
      · exact isGaveUp_of_isInner (isInner_pollDirect e he)

end Poll

end Session

namespace Journey

/-! ## Times of polls -/

/-- The times at which the caller polls, from a time on. -/
def pollTimes : Instant → List Act → List Instant
  | _, [] => []
  | now, .advance d :: acts => pollTimes (now + d.nanos) acts
  | now, .poll _ :: acts => now :: pollTimes now acts
  | now, _ :: acts => pollTimes now acts

theorem pollTimes_append (svc : Service In Out) (j : Journey In Out) (acts acts' : List Act) :
    pollTimes j.now (acts ++ acts') =
      pollTimes j.now acts ++ pollTimes (j.run svc acts).now acts' := by
  induction acts generalizing j with
  | nil => rfl
  | cons act acts ih =>
    have hnow := now_step svc j act
    have hrest := ih (j.step svc act)
    cases act with
    | poll es =>
      rw [hnow] at hrest
      exact congrArg (j.now :: ·) hrest
    | _ =>
      rw [hnow] at hrest
      exact hrest

theorem le_of_mem_pollTimes {now t : Instant} {acts : List Act} (h : t ∈ pollTimes now acts) :
    now ≤ t := by
  induction acts generalizing now with
  | nil => cases h
  | cons act acts ih =>
    cases act with
    | advance d => exact Nat.le_trans (Nat.le_add_right _ _) (ih h)
    | poll es =>
      rcases List.mem_cons.mp h with rfl | h
      · exact Nat.le_refl _
      · exact ih h
    | _ => exact ih h

/-! ## One poll -/

/-- What is observed last of a request whose deadline passed. -/
def lastWords (svc : Service In Out) (start : Instant) (now : Instant) (issued : UInt32) :
    List (Entry In Out) :=
  logged svc.telemetry (.deadlinePassed issued) ++ [.gaveUp (elapsed start now) issued]

/-- Last words are of the deadline only. -/
theorem eq_of_mem_lastWords {svc : Service In Out} {start now : Instant} {issued : UInt32}
    {e : Entry In Out} (h : e ∈ lastWords svc start now issued) :
    e = .log (.deadlinePassed issued) ∨ e = .gaveUp (elapsed start now) issued := by
  rcases List.mem_append.mp h with h | h
  · unfold logged at h
    split at h
    · exact .inl (List.mem_singleton.mp h)
    · cases h
  · exact .inr (List.mem_singleton.mp h)

/-- What a deadline makes of a journey that was just polled. -/
def bound (svc : Service In Out) (j : Journey In Out) : Journey In Out :=
  match j.stage, svc.deadline with
  | .held s, some deadline =>
    match s.boundedFrom with
    | none => j
    | some start =>
      if start + deadline.after.nanos ≤ j.now then
        { j with
          stage := .over
          trace := j.trace ++ (lastWords svc start j.now s.issued).map fun e => (j.now, e)
          endings := j.endings ++ [.returned (deadline.output (elapsed start j.now) s.issued)] }
      else j
  | _, _ => j

theorem bound_of_not_held {svc : Service In Out} {j : Journey In Out}
    (h : ∀ s, j.stage ≠ .held s) : j.bound svc = j := by
  unfold bound
  split
  · rename_i s _ hs _
    exact absurd hs (h s)
  · rfl

/-- A deadline looks only at what a poll left. -/
theorem poll_eq_bound (svc : Service In Out) (es : Estimators) (j : Journey In Out) :
    j.poll svc es = (j.poll svc.unbounded es).bound svc := by
  cases hstage : j.stage with
  | held s =>
    simp only [poll, hstage, Session.poll_unbounded]
    rw [Session.poll, show j.moment.now = j.now from rfl]
    generalize Session.pollUnbounded svc j.moment es s = polled
    obtain ⟨entries, es', progress⟩ := polled
    cases progress with
    | pending s' =>
      cases hdeadline : svc.deadline with
      | none => simp only [Session.bound, bound, conclude, hdeadline]
      | some deadline =>
        cases hfrom : s'.boundedFrom with
        | none => simp only [Session.bound, bound, conclude, hdeadline, hfrom]
        | some start =>
          by_cases hpassed : start + deadline.after.nanos ≤ j.now
          · simp only [Session.bound, bound, conclude, hdeadline, hfrom, observe, if_pos hpassed,
              lastWords, List.map_append, List.append_assoc]
          · simp only [Session.bound, bound, conclude, hdeadline, hfrom, observe, if_neg hpassed]
            exact (if_neg hpassed).symm
    | ended ending cancelled => rfl
    | handedOver output ls left => rfl
  | straggling task =>
    simp only [poll, hstage]
    exact (bound_of_not_held (by simp [hstage])).symm
  | _ =>
    simp only [poll, hstage]
    exact (bound_of_not_held (by simp [hstage])).symm

/-! ## Runs -/

/-- A request that was not given up, and whose deadline counts from a time, or from its first
poll if there was none. -/
structure Counting (svc : Service In Out) (start : Option Instant) (j : Journey In Out) :
    Prop where
  counts : ∀ s, j.stage = .held s → ∀ now, s.countsFrom svc now = some (start.getD now)
  unended : ∀ s, j.stage = .held s → j.endings = [] ∧ j.aftermath = []
  kept : ∀ e ∈ j.trace, e.2.isGaveUp = false

/-- A request that hedging is enabled for counts from its first poll. -/
theorem counting_fresh {svc : Service In Out} {request : In}
    (henabled : svc.enabled request = true) (now : Instant) (opened : List Nat) :
    Counting svc none (fresh now opened request) := by
  constructor
  · rintro s hs now'
    cases hs
    exact if_pos henabled
  · exact fun _ _ => ⟨rfl, rfl⟩
  · exact fun e he => absurd he List.not_mem_nil

section Runs

variable {svc : Service In Out} {deadline : Deadline Out} {start : Option Instant}
  {j : Journey In Out}

/-- A session whose deadline always counts from one time was polled before. -/
theorem boundedFrom_of_countsFrom {s : Session In Out} {first : Instant}
    (h : ∀ now, s.countsFrom svc now = some first) : s.boundedFrom = some first := by
  unfold Session.countsFrom at h
  split at h
  · rename_i request
    have hnow := h first
    split at hnow
    · rename_i henabled
      have hlater := h (first + 1)
      rw [if_pos henabled] at hlater
      exact absurd (Option.some.inj hlater) (Nat.succ_ne_self first)
    · cases hnow
  · exact h 0

/-- What a poll leaves counts from the first poll. -/
theorem Counting.poll (h : Counting svc start j) (es : Estimators) :
    Counting svc (some (start.getD j.now)) (j.poll svc.unbounded es) := by
  by_cases hheld : ∃ s, j.stage = .held s
  · obtain ⟨s, hs⟩ := hheld
    obtain ⟨hended, hquiet⟩ := h.unended s hs
    have hkept : ∀ e ∈ (j.observe (Session.pollUnbounded svc j.moment es s).entries).trace,
        e.2.isGaveUp = false := by
      intro e he
      rcases List.mem_append.mp he with he | he
      · exact h.kept e he
      · obtain ⟨e', he', rfl⟩ := List.mem_map.mp he
        exact Session.isGaveUp_pollUnbounded e' he'
    simp only [Journey.poll, hs, Session.poll_unbounded]
    cases hprogress : (Session.pollUnbounded svc j.moment es s).progress with
    | pending s' =>
      refine ⟨?_, fun _ _ => ⟨hended, hquiet⟩, hkept⟩
      rintro s'' hs'' now
      cases hs''
      exact (Session.countsFrom_pollUnbounded hprogress now).trans (h.counts s hs j.now)
    | ended ending cancelled => exact ⟨by simp [conclude], by simp [conclude], hkept⟩
    | handedOver output ls left => exact ⟨by simp [conclude], by simp [conclude], hkept⟩
  · have hnot : ∀ s, j.stage ≠ .held s := fun s hs => hheld ⟨s, hs⟩
    rw [poll_of_not_held es hnot]
    exact ⟨fun s hs => absurd hs (hnot s), fun s hs => absurd hs (hnot s), h.kept⟩

/-- Before the deadline a poll does not look at it. -/
theorem Counting.poll_eq (h : Counting svc start j) (hdeadline : svc.deadline = some deadline)
    (hearly : j.now < start.getD j.now + deadline.after.nanos) (es : Estimators) :
    j.poll svc es = j.poll svc.unbounded es := by
  have hpolled := (h.poll es).counts
  have hnow : (j.poll svc.unbounded es).now = j.now := now_step svc.unbounded j (.poll es)
  rw [poll_eq_bound]
  unfold bound
  split
  · rename_i s deadline' hs hd
    cases hdeadline.symm.trans hd
    rw [boundedFrom_of_countsFrom (hpolled s hs)]
    exact if_neg (Nat.not_le_of_lt (hnow ▸ hearly))
  · rfl

theorem not_held_drive (es : Estimators) (h : ∀ s, j.stage ≠ .held s) :
    ∀ s, (j.drive svc es).stage ≠ .held s := by
  intro s
  unfold drive
  split
  · exact Stage.ofTask_ne_held _ s
  · exact h s

/-- All that is not a poll keeps this. -/
theorem Counting.step (h : Counting svc start j) {act : Act} (hact : ∀ es, act ≠ .poll es) :
    Counting svc start (j.step svc.unbounded act) := by
  cases act with
  | advance d => exact ⟨h.counts, h.unended, h.kept⟩
  | complete calls => exact ⟨h.counts, h.unended, h.kept⟩
  | poll es => exact absurd rfl (hact es)
  | drop =>
    by_cases hheld : ∃ s, j.stage = .held s
    · obtain ⟨s, hs⟩ := hheld
      have hdrop : j.drop = { j with stage := .over } := by rw [drop, hs]
      rw [Journey.step, hdrop]
      exact ⟨by simp, by simp, h.kept⟩
    · rw [Journey.step, drop_of_not_held fun s hs => hheld ⟨s, hs⟩]
      exact h
  | drive es =>
    by_cases hstraggling : ∃ task, j.stage = .straggling task
    · obtain ⟨task, htask⟩ := hstraggling
      have hnot : ∀ s, (j.drive svc.unbounded es).stage ≠ .held s :=
        not_held_drive es (by simp [htask])
      refine ⟨fun s hs => absurd hs (hnot s), fun s hs => absurd hs (hnot s), ?_⟩
      rw [Journey.step, trace_drive]
      exact h.kept
    · rw [Journey.step, drive_of_not_straggling es fun task htask => hstraggling ⟨task, htask⟩]
      exact h

/-- Only a poll looks at the deadline. -/
theorem step_unbounded (svc : Service In Out) (j : Journey In Out) {act : Act}
    (hact : ∀ es, act ≠ .poll es) : j.step svc act = j.step svc.unbounded act := by
  cases act with
  | poll es => exact absurd rfl (hact es)
  | _ => rfl

theorem pollTimes_step (svc : Service In Out) (j : Journey In Out) {act : Act}
    (hact : ∀ es, act ≠ .poll es) (acts : List Act) :
    pollTimes j.now (act :: acts) = pollTimes (j.step svc act).now acts := by
  rw [now_step]
  cases act with
  | poll es => exact absurd rfl (hact es)
  | _ => rfl

/-- With a poll there is a first poll: an earlier one, or this one. -/
theorem first_pollTimes (start : Option Instant) (now : Instant) (es : Estimators)
    (acts : List Act) :
    start.or (pollTimes now (.poll es :: acts)).head? = some (start.getD now) := by
  cases start <;> rfl

/-- As long as no poll comes at or after the deadline, it makes no difference. -/
theorem Counting.run (h : Counting svc start j) (hdeadline : svc.deadline = some deadline)
    (acts : List Act)
    (hopen : ∀ first ∈ start.or (pollTimes j.now acts).head?, ∀ t ∈ pollTimes j.now acts,
      t < first + deadline.after.nanos) :
    j.run svc acts = j.run svc.unbounded acts ∧
      Counting svc (start.or (pollTimes j.now acts).head?) (j.run svc.unbounded acts) := by
  induction acts generalizing j start with
  | nil =>
    rw [pollTimes, List.head?_nil, Option.or_none]
    exact ⟨rfl, h⟩
  | cons act acts ih =>
    by_cases hact : ∃ es, act = .poll es
    · obtain ⟨es, rfl⟩ := hact
      have hnow : (j.poll svc.unbounded es).now = j.now := now_step svc.unbounded j (.poll es)
      rw [first_pollTimes] at hopen ⊢
      have hearly := hopen _ rfl j.now List.mem_cons_self
      have hrest := ih (h.poll es) (by
        rintro first hmem t ht
        rw [hnow] at ht
        exact hopen first hmem t (List.mem_cons_of_mem _ ht))
      constructor
      · show (j.poll svc es).run svc acts = _
        rw [h.poll_eq hdeadline hearly es]
        exact hrest.1
      · exact hrest.2
    · have hnot : ∀ es, act ≠ .poll es := fun es hes => hact ⟨es, hes⟩
      rw [pollTimes_step svc.unbounded j hnot] at hopen ⊢
      have hrest := ih (h.step hnot) hopen
      constructor
      · show (j.step svc act).run svc acts = _
        rw [step_unbounded svc j hnot]
        exact hrest.1
      · exact hrest.2

/-- Once its caller has it no more, a request does not come back, and has no deadline. -/
theorem step_of_not_held (svc : Service In Out) (h : ∀ s, j.stage ≠ .held s) (act : Act) :
    (∀ s, (j.step svc act).stage ≠ .held s) ∧ (j.step svc act).trace = j.trace ∧
      j.step svc act = j.step svc.unbounded act := by
  cases act with
  | advance d => exact ⟨h, rfl, rfl⟩
  | complete calls => exact ⟨h, rfl, rfl⟩
  | poll es =>
    rw [step, step, poll_of_not_held es h, poll_of_not_held es h]
    exact ⟨h, rfl, rfl⟩
  | drop =>
    rw [step, step, drop_of_not_held h]
    exact ⟨h, rfl, rfl⟩
  | drive es =>
    exact ⟨not_held_drive es h, trace_drive svc es j, rfl⟩

/-- Without a session nothing more is observed of it, and the deadline plays no part. -/
theorem run_of_not_held (svc : Service In Out) (h : ∀ s, j.stage ≠ .held s) (acts : List Act) :
    (j.run svc acts).trace = j.trace ∧ j.run svc acts = j.run svc.unbounded acts := by
  induction acts generalizing j with
  | nil => exact ⟨rfl, rfl⟩
  | cons act acts ih =>
    obtain ⟨hnot, htrace, hstep⟩ := step_of_not_held svc h act
    obtain ⟨hrest, hrun⟩ := ih hnot
    refine ⟨hrest.trans htrace, hrun.trans ?_⟩
    rw [hstep]
    rfl

end Runs

/-! ## What a deadline does -/

/-- A request that was cut short after a poll that left its session pending. -/
structure CutShort (svc : Service In Out) (deadline : Deadline Out) (first : Instant)
    (s : Session In Out) (polled cut : Journey In Out) : Prop where
  /-- Nobody has the request: what was in flight is not handed to a task. -/
  stage : cut.stage = .over
  /-- The output of the deadline is the result, of the time since the first poll. -/
  returned : cut.endings = [.returned (deadline.output (elapsed first polled.now) s.issued)]
  /-- After that poll nothing is observed but that the deadline passed, -/
  trace : cut.trace =
    polled.trace ++ (lastWords svc first polled.now s.issued).map fun e => (polled.now, e)
  /-- once, -/
  once : (cut.trace.filter fun e => e.2.isGaveUp) =
    [(polled.now, .gaveUp (elapsed first polled.now) s.issued)]
  /-- and nothing of stragglers. -/
  quiet : cut.aftermath = []

/-- What the deadline of a service makes of a request, compared with the service without it. -/
structure Truncation (svc : Service In Out) (deadline : Deadline Out) (j : Journey In Out) :
    Prop where
  /-- Until a poll comes at or after the deadline, it makes no difference. -/
  untouched : ∀ acts, deadline.IsOpen (pollTimes j.now acts) →
    j.run svc acts = j.run svc.unbounded acts
  /-- If without it the session has ended by the first such poll, it never makes one. -/
  settled : ∀ before es after, deadline.IsOpen (pollTimes j.now before) →
    (∀ s, ((j.run svc.unbounded before).poll svc.unbounded es).stage ≠ .held s) →
    j.run svc (before ++ .poll es :: after) = j.run svc.unbounded (before ++ .poll es :: after)
  /-- If that poll leaves it pending, the request is cut short, whatever happens next. -/
  cut : ∀ before es after first s, deadline.IsOpen (pollTimes j.now before) →
    (pollTimes j.now (before ++ [.poll es])).head? = some first →
    first + deadline.after.nanos ≤ (j.run svc.unbounded before).now →
    ((j.run svc.unbounded before).poll svc.unbounded es).stage = .held s →
    CutShort svc deadline first s ((j.run svc.unbounded before).poll svc.unbounded es)
      (j.run svc (before ++ .poll es :: after))

section Truncation

variable {svc : Service In Out} {deadline : Deadline Out} {start : Option Instant}
  {j : Journey In Out}

/-- One of the last words says that the deadline passed. -/
theorem filter_lastWords (svc : Service In Out) (first now : Instant) (issued : UInt32) :
    ((lastWords svc first now issued).map fun e => (now, e)).filter (fun e => e.2.isGaveUp) =
      [(now, .gaveUp (elapsed first now) issued)] := by
  unfold lastWords logged
  split <;> rfl

/-- A poll at or after the deadline that leaves the session pending is the last. -/
theorem Counting.cutShort (h : Counting svc start j) (hdeadline : svc.deadline = some deadline)
    (hlate : start.getD j.now + deadline.after.nanos ≤ j.now) {es : Estimators}
    {s : Session In Out} (hs : (j.poll svc.unbounded es).stage = .held s) (after : List Act) :
    CutShort svc deadline (start.getD j.now) s (j.poll svc.unbounded es)
      ((j.poll svc es).run svc after) := by
  have hpolled := h.poll es
  have hfrom := boundedFrom_of_countsFrom (hpolled.counts s hs)
  obtain ⟨hended, hquiet⟩ := hpolled.unended s hs
  have hnow : (j.poll svc.unbounded es).now = j.now := now_step svc.unbounded j (.poll es)
  rw [poll_eq_bound svc]
  generalize j.poll svc.unbounded es = polled at hpolled hs hended hquiet hnow
  have hbound : polled.bound svc =
      { polled with
        stage := .over
        trace := polled.trace ++
          (lastWords svc (start.getD j.now) polled.now s.issued).map fun e => (polled.now, e)
        endings := polled.endings ++
          [.returned (deadline.output (elapsed (start.getD j.now) polled.now) s.issued)] } := by
    simp only [bound, hs, hdeadline, hfrom]
    rw [hnow]
    exact if_pos hlate
  have hrun := run_of_over svc (j := polled.bound svc) (by rw [hbound]) after
  rw [hbound] at hrun ⊢
  obtain ⟨hover, htrace, haftermath, hendings⟩ := hrun
  constructor
  · exact hover
  · rw [hendings, hended, List.nil_append]
  · exact htrace
  · have hnone : polled.trace.filter (fun e => e.2.isGaveUp) = [] := by
      apply List.filter_eq_nil_iff.mpr
      intro e he
      rw [hpolled.kept e he]
      exact Bool.false_ne_true
    rw [htrace, List.filter_append, hnone, filter_lastWords, List.nil_append]
  · exact haftermath.trans hquiet

/-- A deadline only cuts requests short. -/
theorem truncation_fresh (hdeadline : svc.deadline = some deadline) {request : In}
    (henabled : svc.enabled request = true) (now : Instant) (opened : List Nat) :
    Truncation svc deadline (fresh now opened request) := by
  have hfresh := counting_fresh henabled now opened
  have hrun : ∀ acts, deadline.IsOpen (pollTimes now acts) →
      (fresh now opened request).run svc acts = (fresh now opened request).run svc.unbounded acts ∧
        Counting svc (pollTimes now acts).head? ((fresh now opened request).run svc.unbounded acts) :=
    fun acts hopen => hfresh.run hdeadline acts hopen
  constructor
  · exact fun acts hopen => (hrun acts hopen).1
  · intro before es after hopen hnot
    obtain ⟨hbefore, -⟩ := hrun before hopen
    rw [run_append, run_append, hbefore]
    show (Journey.poll svc es _).run svc after = (Journey.poll svc.unbounded es _).run _ after
    rw [poll_eq_bound svc, bound_of_not_held hnot]
    exact (run_of_not_held svc hnot after).2
  · intro before es after first s hopen hfirst hlate hs
    obtain ⟨hbefore, hcounting⟩ := hrun before hopen
    have htimes := pollTimes_append svc.unbounded (fresh now opened request) before [.poll es]
    have hstart : first = (pollTimes now before).head?.getD
        ((fresh now opened request).run svc.unbounded before).now := by
      rw [htimes, List.head?_append] at hfirst
      cases hhead : (pollTimes now before).head? with
      | none =>
        rw [show (pollTimes (fresh now opened request).now before).head? = none from hhead] at hfirst
        exact (Option.some.inj hfirst).symm
      | some first' =>
        rw [show (pollTimes (fresh now opened request).now before).head? = some first' from hhead]
          at hfirst
        exact (Option.some.inj hfirst).symm
    subst hstart
    rw [run_append, hbefore]
    exact hcounting.cutShort hdeadline hlate hs after

/-- A deadline of one second, whose output shows how many attempts were issued. -/
def oneSecond : Deadline Nat := ⟨.ofSeconds 1, fun _ issued => 100 + issued⟩

def impatient : Service Nat Nat := { slowFirst with deadline := some oneSecond }

/-- The slow service returns the output of the deadline after a second, and its own without one. -/
theorem truncation_fresh_impatient :
    impatient.deadline = some oneSecond ∧ impatient.enabled 7 = true ∧
      Truncation impatient oneSecond (fresh 0 [] 7) ∧
      ((fresh 0 [] 7).run impatient
        [.poll [], .advance (.ofSeconds 1), .poll [], .advance (.ofSeconds 9), .poll []]).endings =
          [.returned 101] ∧
      ((fresh 0 [] 7).run impatient.unbounded
        [.poll [], .advance (.ofSeconds 1), .poll [], .advance (.ofSeconds 9), .poll []]).endings =
          [.returned 7] :=
  ⟨rfl, rfl, truncation_fresh rfl rfl 0 [], by decide +kernel, by decide +kernel⟩

end Truncation

end Journey

end RequestHedging
