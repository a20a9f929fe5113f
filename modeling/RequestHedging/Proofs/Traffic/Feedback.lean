import RequestHedging.Proofs.Journey.Schedule
import RequestHedging.Proofs.Traffic.Learning

/-!
# The feedback of latencies

A service whose policy reads an estimator that its listeners feed is a loop: what its
requests report decides how later ones are hedged.  However its requests are interleaved,
each is decided once, at its first poll, by the successes that were reported before and are
still in the window, each as often as there are listeners that feed the estimator, and by
nothing else (`feedback_run`).  From then on its hedges are on a schedule that no report
changes.
-/

namespace RequestHedging

open Race Latency Traffic

variable {In Out : Type}

/-- A service that decides by an estimator, which its listeners feed. -/
structure Loop (In Out : Type) where
  service : Service In Out
  /-- The name of the estimator. -/
  estimator : String
  options : Options
  /-- When the estimator was made. -/
  created : Instant
  policy : PercentilePolicy In
  listeners : List (Listener In Out)
  decides : service.DecidesBy estimator policy listeners

namespace Loop

def feeders (l : Loop In Out) : Nat := l.listeners.countP (Listener.feeds l.estimator)

/-- The successes reported among what was observed, each with the age of the estimator then. -/
def successes (l : Loop In Out) (trace : List (Instant × Nat × Entry In Out)) : Multiset Sample :=
  (trace.map fun x => x.2.2.samples l.options (x.1 - l.created)).sum

/-- The samples in the window, if so much was observed by now. -/
def visible (l : Loop In Out) (now : Instant) (trace : List (Instant × Nat × Entry In Out)) :
    Multiset Sample :=
  l.options.visible (now - l.created) (l.feeders • l.successes trace)

/-- The decision on a request, if so much was observed by now. -/
def judge (l : Loop In Out) (now : Instant) (trace : List (Instant × Nat × Entry In Out))
    (request : In) : Decision :=
  l.policy.judge l.options (l.visible now trace) request

variable {l : Loop In Out}

theorem successes_append (l : Loop In Out) (trace trace' : List (Instant × Nat × Entry In Out)) :
    l.successes (trace ++ trace') = l.successes trace + l.successes trace' := by
  rw [successes, List.map_append, List.sum_append]
  rfl

theorem successes_mark (l : Loop In Out) (now : Instant) (i : Nat)
    (entries : List (Entry In Out)) :
    l.successes (mark now i entries) = Trace.samples l.options (now - l.created) entries := by
  rw [successes, mark, List.map_map]
  rfl

/-- A sample comes from the report of a success. -/
theorem exists_reported {s : Sample} {trace : List (Instant × Nat × Entry In Out)}
    (h : s ∈ l.successes trace) :
    ∃ x ∈ trace, ∃ p, x.2.2 = .race (.reported p) ∧ p.outcome = .success ∧
      s = ⟨x.1 - l.created, l.options.micros p.elapsed⟩ := by
  induction trace with
  | nil => exact absurd h (Multiset.notMem_zero s)
  | cons x trace ih =>
    rcases Multiset.mem_add.mp h with h | h
    · obtain ⟨p, hp, hsuccess, hs⟩ := Entry.exists_report_of_mem_samples h
      exact ⟨x, List.mem_cons_self, p, hp, hsuccess, hs⟩
    · obtain ⟨x', hx', hrest⟩ := ih h
      exact ⟨x', List.mem_cons_of_mem x hx', hrest⟩

/-! ## The invariant -/

def Keeps (l : Loop In Out) (now : Instant) (trace : List (Instant × Nat × Entry In Out))
    (es : Estimators) : Prop :=
  es.Keeps l.estimator l.options l.created now (l.feeders • l.successes trace)

theorem Keeps.created_le {now : Instant} {trace : List (Instant × Nat × Entry In Out)}
    {es : Estimators} (h : l.Keeps now trace es) : l.created ≤ now := by
  obtain ⟨e, -, hkeeps⟩ := h
  calc l.created ≤ l.created + (now - l.created) := Nat.le_add_right _ _
    _ = now := hkeeps.now_eq.symm

/-- How far a request has come, and where its first poll is in what was observed. -/
inductive Standing (l : Loop In Out) (trace : List (Instant × Nat × Entry In Out)) (i : Nat)
    (j : Journey In Out) : Prop where
  | waiting (request : In) (unpolled : j.Unpolled request) (silent : ∀ x ∈ trace, x.2.1 ≠ i)
  | begun (request : In) (start : Instant) (opened : List Nat) (es : Estimators)
      (acts : List Journey.Act) (before rest : List (Instant × Nat × Entry In Out))
      (split : trace = before ++ (start, i, .asked request) :: rest)
      (silent : ∀ x ∈ before, x.2.1 ≠ i)
      (once : ∀ x ∈ rest, x.2.1 = i → x.2.2.request? = none)
      (decision : (Service.decide (l.service.resolve request).1.policy start es request :
        Decision × List (Entry In Out) × Estimators).1 = l.judge start before request)
      (run : j = (Journey.enter l.service start opened es request).run l.service acts)

section Standing

variable {trace trace' : List (Instant × Nat × Entry In Out)} {i : Nat} {j : Journey In Out}
  {es : Estimators}

/-- What is observed of others does not matter. -/
theorem Standing.elsewhere (h : l.Standing trace i j) (hother : ∀ x ∈ trace', x.2.1 ≠ i) :
    l.Standing (trace ++ trace') i j := by
  cases h with
  | waiting request unpolled silent =>
    refine .waiting request unpolled ?_
    intro x hx
    rcases List.mem_append.mp hx with hx | hx
    · exact silent x hx
    · exact hother x hx
  | begun request start opened es acts before rest split silent once decision run =>
    refine .begun request start opened es acts before (rest ++ trace') ?_ silent ?_ decision run
    · rw [split, List.append_assoc, List.cons_append]
    · intro x hx hi
      rcases List.mem_append.mp hx with hx | hx
      · exact once x hx hi
      · exact absurd hi (hother x hx)

/-- Time that passes changes nothing. -/
theorem Standing.advance (h : l.Standing trace i j) (d : Duration) :
    l.Standing trace i (j.step l.service (.advance d)) := by
  cases h with
  | waiting request unpolled silent =>
    rcases unpolled.step l.service (.advance d) with hunpolled | ⟨es, hact, -⟩
    · exact .waiting request hunpolled silent
    · cases hact
  | begun request start opened es acts before rest split silent once decision run =>
    refine .begun request start opened es (acts ++ [.advance d]) before rest split silent once
      decision ?_
    rw [Journey.run_append, ← run]
    rfl

/-- Whatever is reported of a request, the listeners of the loop are told. -/
theorem Standing.tells (h : l.Standing trace i j) :
    (∀ session, j.stage = .held session → j.aftermath = [] ∧ session.Tells l.listeners) ∧
      ∀ task, j.stage = .straggling task → task.listeners = l.listeners := by
  cases h with
  | waiting request unpolled silent =>
    constructor
    · intro session hsession
      refine ⟨unpolled.quiet, ?_⟩
      rcases unpolled.stage with hfresh | hover
      · cases hsession.symm.trans hfresh
        rintro ls' r ⟨⟩
      · cases hsession.symm.trans hover
    · intro task htask
      rcases unpolled.stage with hfresh | hover
      · cases htask.symm.trans hfresh
      · cases htask.symm.trans hover
  | begun request start opened es acts before rest split silent once decision run =>
    have hunderway := Journey.underway_run l.service start opened es request acts
    rw [l.decides.resolve, ← run] at hunderway
    constructor
    · intro session hsession
      obtain ⟨hquiet, -, htells⟩ := hunderway.held hsession
      exact ⟨hquiet, htells⟩
    · intro task htask
      exact hunderway.listeners htask

/-- What is done about a request takes it further, and is decided by what was learned. -/
theorem Standing.touch (h : l.Standing trace i j) (hkeeps : l.Keeps j.now trace es)
    (hlt : j.now - l.created < Word.greatest) (deed : Deed) :
    l.Standing (trace ++ mark j.now i (j.shows l.service es deed).1) i
      (j.step l.service (deed.act es)) := by
  have hobserved := Journey.observed_step l.service es deed
    fun session hsession => (h.tells.1 session hsession).1
  cases h with
  | waiting request unpolled silent =>
    rcases unpolled.step l.service (deed.act es) with hunpolled | ⟨es', hact, hheld, henter⟩
    · -- a journey keeps what is shown, and this one is still empty
      have hnone : (j.shows l.service es deed).1 = [] := by
        rw [hunpolled.trace, hunpolled.quiet, unpolled.trace, unpolled.quiet] at hobserved
        simpa using hobserved
      rw [hnone, mark, List.map_nil, List.append_nil]
      exact .waiting request hunpolled silent
    · -- the first poll: all that was observed so far is learned, and decides
      obtain ⟨rfl, rfl⟩ : deed = .poll ∧ es' = es := by
        cases deed with
        | poll =>
          cases hact
          exact ⟨rfl, rfl⟩
        | _ => cases hact
      obtain ⟨rest, hentries, hrest⟩ :=
        Session.exists_poll_fresh l.service j.moment es' request
      have hshows : (j.shows l.service es' .poll).1 = .asked request :: rest := by
        simp only [Journey.shows, hheld, hentries]
      rw [hshows, henter]
      refine .begun request j.now j.opened es' [] trace _ rfl silent ?_ ?_ rfl
      · intro x hx _
        exact hrest _ (mem_mark hx).2.2
      · rw [l.decides.resolve]
        exact (Service.decide_of_keeps hkeeps hlt rfl).1
  | begun request start opened es' acts before rest split silent once decision run =>
    have hunderway := Journey.underway_run l.service start opened es' request acts
    rw [← run] at hunderway
    refine .begun request start opened es' (acts ++ [deed.act es]) before
      (rest ++ mark j.now i (j.shows l.service es deed).1) ?_ silent ?_ decision ?_
    · rw [split, List.append_assoc, List.cons_append]
    · intro x hx hi
      rcases List.mem_append.mp hx with hx | hx
      · exact once x hx hi
      · exact hunderway.request?_shows deed _ (mem_mark hx).2.2
    · rw [Journey.run_append, ← run]
      rfl

end Standing

/-- A request among others: its time is theirs, and what was observed of it is what it shows. -/
structure Placed (l : Loop In Out) (now : Instant) (trace : List (Instant × Nat × Entry In Out))
    (i : Nat) (j : Journey In Out) : Prop where
  now_eq : j.now = now
  standing : l.Standing trace i j
  traced : about i trace = j.trace ++ j.aftermath

section Placed

variable {now : Instant} {trace trace' : List (Instant × Nat × Entry In Out)} {i : Nat}
  {j : Journey In Out} {es : Estimators}

/-- What is observed of other requests does not concern the one. -/
theorem Placed.elsewhere (h : l.Placed now trace i j) (hother : ∀ x ∈ trace', x.2.1 ≠ i) :
    l.Placed now (trace ++ trace') i j :=
  ⟨h.now_eq, h.standing.elsewhere hother, by
    rw [about_append, about_eq_nil hother, List.append_nil, h.traced]⟩

theorem Placed.advance (h : l.Placed now trace i j) (d : Duration) :
    l.Placed (now + d.nanos) trace i (j.step l.service (.advance d)) :=
  ⟨congrArg (· + d.nanos) h.now_eq, h.standing.advance d, h.traced⟩

/-- What is done about a request, the estimators learn. -/
theorem Placed.touch (h : l.Placed now trace i j) (hkeeps : l.Keeps now trace es)
    (hlt : now - l.created < Word.greatest) (deed : Deed) :
    l.Placed now (trace ++ mark now i (j.shows l.service es deed).1) i
        (j.step l.service (deed.act es)) ∧
      l.Keeps now (trace ++ mark now i (j.shows l.service es deed).1)
        (j.shows l.service es deed).2 := by
  obtain ⟨rfl, hstanding, htraced⟩ := h
  obtain ⟨hheld, hlisteners⟩ := hstanding.tells
  refine ⟨⟨Journey.now_act l.service es j deed, hstanding.touch hkeeps hlt deed, ?_⟩, ?_⟩
  · rw [about_append, about_mark, htraced]
    exact (Journey.observed_step l.service es deed fun s hs => (hheld s hs).1).symm
  · rw [Keeps, successes_append, successes_mark, nsmul_add]
    exact learned_shows l.decides hkeeps hlt deed (fun s hs => (hheld s hs).2) hlisteners

end Placed

structure Tuned (l : Loop In Out) (t : Traffic In Out) : Prop where
  keeps : l.Keeps t.now t.trace t.estimators
  since : ∀ x ∈ t.trace, l.created ≤ x.1
  numbered : ∀ x ∈ t.trace, x.2.1 < t.journeys.length
  placed : ∀ i j, t.journeys[i]? = some j → l.Placed t.now t.trace i j

section Tuned

variable {t : Traffic In Out}

/-- Before any request, a new estimator has nothing to learn. -/
theorem tuned_quiet {now : Instant} {es : Estimators}
    (hnew : es.get? l.estimator = some (.new l.options l.created)) (hle : l.created ≤ now) :
    l.Tuned (quiet now es) where
  keeps := by
    have hkeeps := (Usage.keeps_new l.options l.created).advance (now - l.created)
    rw [Nat.zero_add] at hkeeps
    dsimp only at hkeeps
    rw [Nat.add_sub_cancel' hle] at hkeeps
    refine ⟨_, hnew, ?_⟩
    show Usage.Keeps _ _ _ (l.feeders • (0 : Multiset Sample)) _
    rw [nsmul_zero]
    exact hkeeps
  since := by rintro x ⟨⟩
  numbered := by rintro x ⟨⟩
  placed := by rintro i j ⟨⟩

/-- A request that comes in leaves a loop tuned. -/
theorem Tuned.arrive (h : l.Tuned t) (request : In) :
    l.Tuned (t.step l.service (.arrive request)) := by
  refine ⟨h.keeps, h.since, ?_, ?_⟩
  · intro x hx
    have hlt := h.numbered x hx
    simp only [step, List.length_append, List.length_singleton]
    omega
  · intro i j hj
    simp only [step] at hj
    rcases Nat.lt_or_ge i t.journeys.length with hi | hi
    · rw [List.getElem?_append_left hi] at hj
      exact h.placed i j hj
    · rw [List.getElem?_append_right hi, List.getElem?_singleton] at hj
      split at hj
      · cases hj
        have hsilent : ∀ x ∈ t.trace, x.2.1 ≠ i :=
          fun x hx => Nat.ne_of_lt (Nat.lt_of_lt_of_le (h.numbered x hx) hi)
        exact ⟨rfl, .waiting request (Journey.unpolled_fresh t.now [] request) hsilent,
          about_eq_nil hsilent⟩
      · cases hj

theorem Tuned.advance (h : l.Tuned t) (d : Duration) :
    l.Tuned (t.step l.service (.advance d)) := by
  refine ⟨?_, h.since, ?_, ?_⟩
  · have hle := h.keeps.created_le
    obtain ⟨e, hget, hkeeps⟩ := h.keeps
    have hage : t.now + d.nanos - l.created = t.now - l.created + d.nanos :=
      Nat.sub_add_comm hle
    refine ⟨e, hget, ?_⟩
    simp only [step, hage]
    exact hkeeps.advance d.nanos
  · intro x hx
    simp only [step, List.length_map]
    exact h.numbered x hx
  · intro i j hj
    simp only [step, List.getElem?_map] at hj
    obtain ⟨j', hj', rfl⟩ := Option.map_eq_some_iff.mp hj
    exact (h.placed i j' hj').advance d

theorem Tuned.touch (h : l.Tuned t) (hlt : t.now - l.created < Word.greatest) (i : Nat)
    (deed : Deed) : l.Tuned (t.touch l.service i deed) := by
  unfold Traffic.touch
  cases hj : t.journeys[i]? with
  | none => exact h
  | some j =>
    have hi : i < t.journeys.length := (List.getElem?_eq_some_iff.mp hj).1
    obtain ⟨hplaced, hkeeps⟩ := (h.placed i j hj).touch h.keeps hlt deed
    refine ⟨hkeeps, ?_, ?_, ?_⟩
    · intro x hx
      rcases List.mem_append.mp hx with hx | hx
      · exact h.since x hx
      · rw [(mem_mark hx).1]
        exact h.keeps.created_le
    · intro x hx
      rw [List.length_set]
      rcases List.mem_append.mp hx with hx | hx
      · exact h.numbered x hx
      · rw [(mem_mark hx).2.1]
        exact hi
    · intro k j' hj'
      by_cases hk : k = i
      · subst hk
        rw [List.getElem?_set_self hi] at hj'
        cases hj'
        exact hplaced
      · rw [List.getElem?_set_ne (Ne.symm hk)] at hj'
        refine (h.placed k j' hj').elsewhere fun x hx hother => hk ?_
        rw [← hother, (mem_mark hx).2.1]

/-- Whatever happens next, the loop stays tuned. -/
theorem Tuned.step (h : l.Tuned t) (hlt : t.now - l.created < Word.greatest) (act : Act In) :
    l.Tuned (t.step l.service act) := by
  cases act with
  | arrive request => exact h.arrive request
  | advance d => exact h.advance d
  | touch i deed => exact h.touch hlt i deed

/-- Whatever happens, the loop stays tuned, while the age of the estimator fits a word. -/
theorem tuned_run (h : l.Tuned t) (acts : List (Act In))
    (hlt : (t.run l.service acts).now - l.created < Word.greatest) :
    l.Tuned (t.run l.service acts) := by
  induction acts generalizing t with
  | nil => exact h
  | cons act acts ih =>
    have hle : t.now ≤ (t.run l.service (act :: acts)).now := now_le_run (act :: acts)
    exact ih (h.step (Nat.lt_of_le_of_lt (Nat.sub_le_sub_right hle _) hlt) act) hlt

end Tuned

/-! ## The feedback -/

/-- A request that was decided once, at its first poll, and is hedged by that decision. -/
structure Follows (svc : Service In Out) (request : In) (start : Instant) (d : Decision)
    (j : Journey In Out) : Prop where
  decided : ∃ opened es acts, j = (Journey.enter svc start opened es request).run svc acts ∧
    (Service.decide (svc.resolve request).1.policy start es request :
      Decision × List (Entry In Out) × Estimators).1 = d
  /-- However long the race goes on, it is by this decision. -/
  raced : ∀ ls r from_, j.stage = .held ⟨.racing ls r, from_⟩ → r.decision = d
  /-- If its primary attempt is granted, the hedges are on the schedule of the decision. -/
  schedule : (∃ left input, svc.callbacks.copy request (d.attempt 0) = .ok (left, some input)) →
    j.Schedule d start
  /-- If not, no hedge is asked for. -/
  refused : (∀ left input, svc.callbacks.copy request (d.attempt 0) ≠ .ok (left, some input)) →
    j.events.filterMap Event.asked? = [d.attempt 0]

/-- How what was observed of all requests decides each of them. -/
structure Feedback (l : Loop In Out) (t : Traffic In Out) : Prop where
  /-- What is observed of a request is what its session and its task show. -/
  traced : ∀ i j, t.journeys[i]? = some j → about i t.trace = j.trace ++ j.aftermath
  /-- It comes in with the first thing observed of it, and never again. -/
  once : ∀ i j, t.journeys[i]? = some j → about i t.trace = [] ∨
    ∃ start request rest, about i t.trace = (start, .asked request) :: rest ∧
      ∀ x ∈ rest, x.2.request? = none
  /-- It is decided by the samples that are in the window when it comes in. -/
  decided : ∀ before start i request rest,
    t.trace = before ++ (start, i, .asked request) :: rest → l.service.enabled request = true →
    ∃ j, t.journeys[i]? = some j ∧
      Follows l.service request start (l.judge start before request) j
  /-- If a sample is asked for, nothing is hedged without the report of a success in the window. -/
  informed : ∀ before start i request rest,
    t.trace = before ++ (start, i, .asked request) :: rest → 1 ≤ l.policy.minSamples →
    (l.judge start before request).isHedging = true →
    ∃ x ∈ before, ∃ p, x.2.2 = .race (.reported p) ∧ p.outcome = .success ∧
      ⟨x.1 - l.created, l.options.micros p.elapsed⟩ ∈ l.visible start before ∧
      (l.options.rotations.toNat ≤ l.options.window.nanos →
        start - x.1 < l.options.window.nanos)

section Feedback

variable {t : Traffic In Out}

/-- There is only one place where a request comes in. -/
theorem split_unique {before before' rest rest' : List (Instant × Nat × Entry In Out)}
    {start start' : Instant} {i : Nat} {request request' : In}
    (h : before ++ (start, i, .asked request) :: rest =
      before' ++ (start', i, .asked request') :: rest')
    (silent : ∀ x ∈ before', x.2.1 ≠ i)
    (once : ∀ x ∈ rest', x.2.1 = i → x.2.2.request? = none) :
    before = before' ∧ start = start' ∧ request = request' := by
  -- of two different places one would be before or after the other, where nothing like it is
  rcases List.append_eq_append_iff.mp h with ⟨between, hbefore, hrest⟩ | ⟨between, hbefore, hrest⟩
  · cases between with
    | nil =>
      cases hrest
      exact ⟨by rw [hbefore, List.append_nil], rfl, rfl⟩
    | cons x between =>
      cases hrest
      refine absurd rfl (silent (start, i, .asked request) ?_)
      rw [hbefore]
      exact List.mem_append_right _ List.mem_cons_self
  · cases between with
    | nil =>
      cases hrest
      exact ⟨by rw [hbefore, List.append_nil], rfl, rfl⟩
    | cons x between =>
      cases hrest
      have hnone := once (start, i, .asked request)
        (List.mem_append_right _ List.mem_cons_self) rfl
      cases hnone

/-- After its first poll, a request that hedging is enabled for follows what was decided then. -/
theorem follows_run {svc : Service In Out} {request : In} (henabled : svc.enabled request = true)
    {start : Instant} {es : Estimators} {d : Decision}
    (hdecision : (Service.decide (svc.resolve request).1.policy start es request :
      Decision × List (Entry In Out) × Estimators).1 = d)
    (opened : List Nat) (acts : List Journey.Act) :
    Follows svc request start d ((Journey.enter svc start opened es request).run svc acts) := by
  have hdecided : ∃ opened' es' acts', (Journey.enter svc start opened es request).run svc acts =
      (Journey.enter svc start opened' es' request).run svc acts' ∧
      (Service.decide (svc.resolve request).1.policy start es' request :
        Decision × List (Entry In Out) × Estimators).1 = d := ⟨opened, es, acts, rfl, hdecision⟩
  by_cases hgranted : ∃ left input, svc.callbacks.copy request (d.attempt 0) = .ok (left, some input)
  · have hcourse := Journey.course_run
      (Journey.course_enter ⟨henabled, hdecision, rfl, hgranted⟩ opened) acts
    refine ⟨hdecided, ?_, fun _ => hcourse.schedule, ?_⟩
    · intro ls r from_ hheld
      obtain ⟨r', hsession, -, -, hrunning, -⟩ := hcourse.held hheld
      cases hsession
      exact hrunning.timed.decision
    · obtain ⟨left, input, hgranted⟩ := hgranted
      exact fun hrefused => absurd hgranted (hrefused left input)
  · have hplain : Journey.Plain [d.attempt 0]
        ((Journey.enter svc start opened es request).run svc acts) := by
      rcases Journey.races_or_plain_enter henabled start opened es hdecision with hraces | hplain
      · exact absurd hraces.granted hgranted
      · exact Journey.plain_run hplain acts
    refine ⟨hdecided, ?_, fun h => absurd h hgranted, fun _ => hplain.asked⟩
    intro ls r from_ hheld
    rcases hplain.stage with hover | ⟨flights, start', hdirect⟩
    · cases hheld.symm.trans hover
    · cases hheld.symm.trans hdirect

/-- A request comes in once, and before anything else is observed of it. -/
theorem Tuned.once (h : l.Tuned t) {i : Nat} {j : Journey In Out} (hj : t.journeys[i]? = some j) :
    about i t.trace = [] ∨ ∃ start request rest,
      about i t.trace = (start, .asked request) :: rest ∧ ∀ x ∈ rest, x.2.request? = none := by
  cases (h.placed i j hj).standing with
  | waiting request unpolled silent => exact .inl (about_eq_nil silent)
  | begun request start opened es acts before rest split silent once decision run =>
    refine .inr ⟨start, request, about i rest, ?_, ?_⟩
    · rw [split, about_append, about_eq_nil silent, List.nil_append]
      simp [about]
    · intro x hx
      exact once (x.1, i, x.2) (mem_about.mp hx) rfl

/-- From its first poll on, a request follows what was decided then. -/
theorem Tuned.decided (h : l.Tuned t) {before rest : List (Instant × Nat × Entry In Out)}
    {start : Instant} {i : Nat} {request : In}
    (hsplit : t.trace = before ++ (start, i, .asked request) :: rest)
    (henabled : l.service.enabled request = true) :
    ∃ j, t.journeys[i]? = some j ∧
      Follows l.service request start (l.judge start before request) j := by
  have hmem : (start, i, .asked request) ∈ t.trace := by
    rw [hsplit]
    exact List.mem_append_right _ List.mem_cons_self
  obtain ⟨j, hj⟩ : ∃ j, t.journeys[i]? = some j :=
    ⟨_, List.getElem?_eq_getElem (h.numbered _ hmem)⟩
  refine ⟨j, hj, ?_⟩
  cases (h.placed i j hj).standing with
  | waiting request' unpolled silent => exact absurd rfl (silent _ hmem)
  | begun request' start' opened es acts before' rest' split silent once decision run =>
    obtain ⟨rfl, rfl, rfl⟩ := split_unique (hsplit.symm.trans split) silent once
    rw [run]
    exact follows_run henabled decision opened acts

/-- Where a hedge is decided on, a success was reported before. -/
theorem Tuned.informed (h : l.Tuned t) {before rest : List (Instant × Nat × Entry In Out)}
    {start : Instant} {i : Nat} {request : In}
    (hsplit : t.trace = before ++ (start, i, .asked request) :: rest)
    (hmin : 1 ≤ l.policy.minSamples) (hhedging : (l.judge start before request).isHedging = true) :
    ∃ x ∈ before, ∃ p, x.2.2 = .race (.reported p) ∧ p.outcome = .success ∧
      ⟨x.1 - l.created, l.options.micros p.elapsed⟩ ∈ l.visible start before ∧
      (l.options.rotations.toNat ≤ l.options.window.nanos →
        start - x.1 < l.options.window.nanos) := by
  have hcard : 0 < (l.visible start before).card :=
    Nat.lt_of_lt_of_le (UInt64.le_iff_toNat_le.mp hmin)
      (PercentilePolicy.le_card_of_isHedging hhedging)
  obtain ⟨s, hs⟩ := Multiset.card_pos_iff_exists_mem.mp hcard
  have hsuccess : s ∈ l.successes before :=
    Multiset.mem_of_mem_nsmul (Multiset.mem_of_mem_filter hs)
  obtain ⟨x, hx, p, hp, houtcome, rfl⟩ := exists_reported hsuccess
  refine ⟨x, hx, p, hp, houtcome, hs, ?_⟩
  intro hle
  have hage := Usage.age_lt_of_mem_visible hle hs
  have hsince : l.created ≤ x.1 := h.since x (hsplit ▸ List.mem_append_left _ hx)
  rwa [Nat.sub_sub_sub_cancel_right hsince] at hage

/-- However the requests to a service are interleaved, each is decided once, by the successes that
were reported before and are in the window. -/
theorem feedback_run (l : Loop In Out) {now : Instant} {es : Estimators}
    (hnew : es.get? l.estimator = some (.new l.options l.created)) (hle : l.created ≤ now)
    (acts : List (Act In))
    (hlt : ((quiet now es).run l.service acts).now - l.created < Word.greatest) :
    l.Feedback ((quiet now es).run l.service acts) := by
  have htuned := tuned_run (tuned_quiet hnew hle) acts hlt
  exact {
    traced := fun i j hj => (htuned.placed i j hj).traced
    once := fun _ _ hj => htuned.once hj
    decided := fun _ _ _ _ _ hsplit henabled => htuned.decided hsplit henabled
    informed := fun _ _ _ _ _ hsplit hmin hhedging => htuned.informed hsplit hmin hhedging }

end Feedback

/-! ## A loop -/

def median : PercentilePolicy Nat := ⟨⟨4602678819172646912⟩, 1, 2, fun _ => true, by decide +kernel⟩

/-- A service that takes as many seconds as it is asked for, and learns each latency twice. -/
def learner : Loop Nat Nat where
  service :=
    { relay with
      resolver := fun _ => .ok ⟨.percentile "latency" median, [.estimator "latency",
        .estimator "latency"]⟩ }
  estimator := "latency"
  options := .standard
  created := 0
  policy := median
  listeners := [.estimator "latency", .estimator "latency"]
  decides := fun _ => rfl

/-- A request of one second, and after it one of five that is slower than what was learned. -/
def oneThenFive : List (Act Nat) :=
  [.arrive 1, .touch 0 .poll, .advance (.ofSeconds 1), .touch 0 .poll, .arrive 5,
    .touch 1 .poll, .advance (.ofSeconds 2), .touch 1 .poll]

/-- The second request is hedged by the latency of the first. -/
theorem feedback_run_learner :
    ((quiet 0 [("latency", .new .standard 0)]).run learner.service oneThenFive).now -
        learner.created < Word.greatest ∧
      learner.Feedback ((quiet 0 [("latency", .new .standard 0)]).run learner.service oneThenFive) ∧
      ((quiet 0 [("latency", .new .standard 0)]).run learner.service oneThenFive).journeys.map
          (fun j => j.events.filterMap Event.asked?) =
        [[⟨0, true⟩], [⟨0, false⟩, ⟨1, true⟩]] :=
  ⟨by decide +kernel, feedback_run learner rfl (Nat.le_refl 0) oneThenFive (by decide +kernel),
    by decide +kernel⟩

end Loop

end RequestHedging
