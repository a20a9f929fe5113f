import Mathlib.Algebra.BigOperators.Group.Multiset.Basic
import RequestHedging.Proofs.Latency.Window
import RequestHedging.Proofs.Traffic

/-!
# What an estimator learns

An estimator that is fed by listeners takes a sample from each report of a success that
the listeners hear, once for each of them that feeds it, and from nothing else that is
observed.  `learned_poll` says so of a poll of a session and `learned_drive` of a poll of
a task, whatever else they show.

A policy that decides by the estimator decides by these samples, as far as they are in the
window (`Service.decide_of_keeps`).
-/

namespace RequestHedging

open Race Trace Latency Traffic

variable {In Out : Type}

/-! ## Estimators by name -/

namespace Estimators

theorem get?_put_self {es : Estimators} {name : String} {e : Estimator}
    (h : es.get? name = some e) (e' : Estimator) : (es.put name e').get? name = some e' := by
  induction es with
  | nil => cases h
  | cons x es ih =>
    obtain ⟨n, old⟩ := x
    unfold put
    by_cases hn : n = name
    · rw [if_pos hn]
      simp [get?, hn]
    · rw [if_neg hn]
      simp only [get?, List.find?_cons, hn, decide_false] at h ⊢
      exact ih h

theorem get?_put_of_ne {name name' : String} (hne : name' ≠ name) (es : Estimators)
    (e : Estimator) : (es.put name' e).get? name = es.get? name := by
  induction es with
  | nil => rfl
  | cons x es ih =>
    obtain ⟨n, old⟩ := x
    unfold put
    by_cases hn : n = name'
    · subst hn
      rw [if_pos rfl]
      simp [get?, hne]
    · rw [if_neg hn]
      by_cases hname : n = name
      · simp [get?, hname]
      · simp only [get?, List.find?_cons, hname, decide_false] at ih ⊢
        exact ih

/-- The estimator of a name covers the samples recorded since it was made. -/
def Keeps (name : String) (o : Options) (created now : Instant) (samples : Multiset Sample)
    (es : Estimators) : Prop :=
  ∃ e, es.get? name = some e ∧ Usage.Keeps o created (now - created) samples ⟨now, e⟩

end Estimators

/-! ## Samples in what is observed -/

def Listener.feeds (name : String) : Listener In Out → Bool
  | .estimator name' => name' = name
  | .callback .. => false

/-- What an estimator of some age takes from a report: how long a success took. -/
def Report.samples (o : Options) (age : Nat) (p : Report In Out) : Multiset Sample :=
  match p.outcome with
  | .success => {⟨age, o.micros p.elapsed⟩}
  | .failure => 0

/-- What it takes from anything observed: reports are all it hears of. -/
def Entry.samples (o : Options) (age : Nat) : Entry In Out → Multiset Sample
  | .race (.reported p) => p.samples o age
  | _ => 0

/-- A sample is how long a success took. -/
theorem Entry.exists_report_of_mem_samples {o : Options} {age : Nat} {s : Sample}
    {e : Entry In Out} (h : s ∈ e.samples o age) :
    ∃ p, e = .race (.reported p) ∧ p.outcome = .success ∧ s = ⟨age, o.micros p.elapsed⟩ := by
  have hno : ∀ s, s ∉ (0 : Multiset Sample) := Multiset.notMem_zero
  cases e with
  | race event =>
    cases event with
    | reported p =>
      unfold samples Report.samples at h
      dsimp only at h
      split at h
      · rename_i hsuccess
        exact ⟨p, rfl, hsuccess, Multiset.mem_singleton.mp h⟩
      · exact absurd h (hno s)
    | _ => exact absurd h (hno s)
  | _ => exact absurd h (hno s)

namespace Trace

variable {o : Options} {age : Nat}

def samples (o : Options) (age : Nat) (entries : List (Entry In Out)) : Multiset Sample :=
  (entries.map (Entry.samples o age)).sum

@[simp] theorem samples_append (entries entries' : List (Entry In Out)) :
    samples o age (entries ++ entries') = samples o age entries + samples o age entries' := by
  rw [samples, List.map_append, List.sum_append]
  rfl

theorem samples_eq_zero {entries : List (Entry In Out)}
    (h : ∀ e ∈ entries, e.samples o age = 0) : samples o age entries = 0 := by
  apply List.sum_eq_zero
  intro s hs
  obtain ⟨e, he, rfl⟩ := List.mem_map.mp hs
  exact h e he

theorem samples_plain (entries : List (Entry In Out)) :
    samples o age (plain entries) = samples o age entries := by
  induction entries with
  | nil => rfl
  | cons e entries ih =>
    have hcons : samples o age (e :: entries) = e.samples o age + samples o age entries := rfl
    cases hrecord : e.isRecord with
    | true =>
      have hnone : e.samples o age = 0 := by
        cases e <;> first | rfl | cases hrecord
      rw [hcons, hnone, zero_add, ← ih, plain, List.filter_cons, hrecord]
      rfl
    | false =>
      rw [hcons, ← ih, plain, List.filter_cons, hrecord]
      rfl

/-- Nothing is learned from a report beyond what it is itself. -/
theorem samples_told (ls : List (Listener In Out)) (event : Event In Out) :
    samples o age (told ls event) = (Entry.race event).samples o age := by
  cases event with
  | reported p =>
    have hhearings : samples o age (hearings ls p) = 0 := by
      apply samples_eq_zero
      intro e he
      obtain ⟨l, -, rfl⟩ := List.mem_map.mp he
      rfl
    show (Entry.race (.reported p)).samples o age + samples o age (hearings ls p) = _
    rw [hhearings, add_zero]
  | _ => exact add_zero _

/-- The samples in the events of a race are those of its reports. -/
theorem samples_ofEvents (t : Telemetry) (ls : List (Listener In Out)) (now : Instant)
    (events : List (Event In Out)) (es : Estimators) :
    samples o age (ofEvents t ls now events es).1 =
      (events.map fun event => (Entry.race event).samples o age).sum := by
  rw [← samples_plain, plain_ofEvents]
  induction events with
  | nil => rfl
  | cons event events ih =>
    rw [List.flatMap_cons, samples_append, samples_told, ih]
    rfl

theorem samples_of_mute {entries : List (Entry In Out)} (h : Session.Mute entries) :
    samples o age entries = 0 := by
  apply samples_eq_zero
  intro e he
  cases e with
  | race event =>
    have hnone := (h event he).2
    cases event with
    | reported p => cases hnone
    | _ => rfl
  | _ => rfl

end Trace

/-! ## Learning -/

section Learning

variable {name : String} {o : Options} {created now : Instant} {samples : Multiset Sample}
  {es : Estimators} {ls : List (Listener In Out)}

/-- After entries were observed, an estimator has learned what is in them, once for each listener
that feeds it. -/
def Learned (name : String) (o : Options) (created now : Instant) (ls : List (Listener In Out))
    (samples : Multiset Sample) (entries : List (Entry In Out)) (es : Estimators) : Prop :=
  es.Keeps name o created now (samples +
    ls.countP (Listener.feeds name) • Trace.samples o (now - created) entries)

theorem keeps_add_nsmul_zero (h : es.Keeps name o created now samples) (k : Nat) :
    es.Keeps name o created now (samples + k • 0) := by
  rw [nsmul_zero, add_zero]
  exact h

/-- From what says nothing of a report, there is nothing to learn. -/
theorem learned_of_mute {entries : List (Entry In Out)} (h : es.Keeps name o created now samples)
    (hmute : Session.Mute entries) : Learned name o created now ls samples entries es := by
  unfold Learned
  rw [Trace.samples_of_mute hmute]
  exact keeps_add_nsmul_zero h _

theorem Learned.append {entries entries' : List (Entry In Out)} {es' : Estimators}
    (h : Learned name o created now ls samples entries es)
    (h' : ∀ samples, es.Keeps name o created now samples →
      Learned name o created now ls samples entries' es') :
    Learned name o created now ls samples (entries ++ entries') es' := by
  have hboth := h' _ h
  unfold Learned at hboth ⊢
  rw [Trace.samples_append, nsmul_add, ← add_assoc]
  exact hboth

/-- A listener teaches an estimator that it feeds, and no other. -/
theorem keeps_hear (h : es.Keeps name o created now samples) (hlt : now - created < Word.greatest)
    (l : Listener In Out) (p : Report In Out) :
    (l.hear now es p).2.Keeps name o created now
      (samples + if l.feeds name then p.samples o (now - created) else 0) := by
  obtain ⟨e, hget, hkeeps⟩ := h
  cases l with
  | callback =>
    rw [Listener.feeds, if_neg Bool.false_ne_true, add_zero]
    exact ⟨e, hget, hkeeps⟩
  | estimator name' =>
    by_cases hname : name' = name
    · subst hname
      have huses := hkeeps.uses [.record p.elapsed p.outcome] hlt
      have hsamples : recorded o (now - created) [.record p.elapsed p.outcome] =
          p.samples o (now - created) := by
        unfold Report.samples
        cases p.outcome <;> rfl
      rw [hsamples] at huses
      rw [Listener.feeds, if_pos (by simp)]
      simp only [Listener.hear, hget]
      exact ⟨_, Estimators.get?_put_self hget _, huses⟩
    · rw [Listener.feeds, if_neg (by simpa using hname), add_zero]
      unfold Listener.hear
      dsimp only
      split
      · exact ⟨e, hget, hkeeps⟩
      · exact ⟨e, (Estimators.get?_put_of_ne hname _ _).trans hget, hkeeps⟩

/-- All listeners that feed an estimator teach it the same. -/
theorem keeps_tell (h : es.Keeps name o created now samples) (hlt : now - created < Word.greatest)
    (p : Report In Out) (ls : List (Listener In Out)) (position : Nat) :
    (tell now p ls position es).2.Keeps name o created now
      (samples + ls.countP (Listener.feeds name) • p.samples o (now - created)) := by
  induction ls generalizing es samples position with
  | nil =>
    rw [List.countP_nil, zero_nsmul, add_zero]
    exact h
  | cons l ls ih =>
    have hrest := ih (keeps_hear h hlt l p) (position + 1)
    have hcount : samples + (l :: ls).countP (Listener.feeds name) • p.samples o (now - created) =
        samples + (if l.feeds name then p.samples o (now - created) else 0) +
          ls.countP (Listener.feeds name) • p.samples o (now - created) := by
      rw [List.countP_cons, add_nsmul, add_assoc]
      congr 1
      rw [add_comm]
      congr 1
      split
      · exact one_nsmul _
      · exact zero_nsmul _
    rw [hcount]
    exact hrest

variable (ls) in
/-- From the events of a race an estimator learns what is in its reports. -/
theorem learned_ofEvents (h : es.Keeps name o created now samples)
    (hlt : now - created < Word.greatest) (t : Telemetry) (events : List (Event In Out)) :
    Learned name o created now ls samples (ofEvents t ls now events es).1
      (ofEvents t ls now events es).2 := by
  unfold Learned
  rw [samples_ofEvents]
  induction events generalizing es samples with
  | nil =>
    rw [List.map_nil, List.sum_nil, nsmul_zero, add_zero]
    exact h
  | cons event events ih =>
    have hfirst : (enter t ls now es event).2.Keeps name o created now (samples +
        ls.countP (Listener.feeds name) • (Entry.race event).samples o (now - created)) := by
      cases event with
      | reported p => exact keeps_tell h hlt p ls 0
      | issued a =>
        have hsame : (enter t ls now es (.issued a)).2 = es := by
          unfold enter
          dsimp only
          split <;> rfl
        rw [hsame]
        exact keeps_add_nsmul_zero h _
      | _ => exact keeps_add_nsmul_zero h _
    have hrest := ih hfirst
    rw [List.map_cons, List.sum_cons, nsmul_add, ← add_assoc]
    exact hrest

end Learning

/-! ## Deciding -/

def PercentilePolicy.judge (q : PercentilePolicy In) (o : Options) (visible : Multiset Sample)
    (request : In) : Decision :=
  if q.accepts request then
    if visible.card < q.minSamples.toNat then .disabled
    else ⟨q.maxHedges,
      some (o.quantile (.ofMultiset (visible.map Sample.micros)) q.percentile.fraction)⟩
  else .noHedges

section Deciding

variable {name : String} {q : PercentilePolicy In} {o : Options} {created now : Instant}
  {samples : Multiset Sample} {es : Estimators} {e : Estimator} {request : In}

/-- Whoever is hedged, enough samples were visible. -/
theorem PercentilePolicy.le_card_of_isHedging {visible : Multiset Sample}
    (h : (q.judge o visible request).isHedging = true) : q.minSamples.toNat ≤ visible.card := by
  unfold judge at h
  split at h
  · split at h
    · cases h
    · exact Nat.le_of_not_lt ‹_›
  · cases h

/-- A percentile policy reads its estimator twice, and both answers are about the same samples. -/
theorem PercentilePolicy.decide_of_keeps (q : PercentilePolicy In) (request : In)
    (h : Usage.Keeps o created (now - created) samples ⟨now, e⟩)
    (hlt : now - created < Word.greatest) :
    (q.decide e now request).1 = q.judge o (o.visible (now - created) samples) request ∧
      Usage.Keeps o created (now - created) samples ⟨now, (q.decide e now request).2⟩ := by
  have hcount : (e.sampleCount now).1 = (o.visible (now - created) samples).card := h.count hlt
  have hread : Usage.Keeps o created (now - created) samples ⟨now, (e.sampleCount now).2⟩ :=
    h.read hlt
  unfold decide judge
  split
  · simp only [hcount]
    split
    · exact ⟨rfl, hread⟩
    · constructor
      · rw [← hread.percentile hlt]
        rfl
      · exact hread.read hlt
  · exact ⟨rfl, h⟩

/-- A service whose policy is a percentile policy decides by the samples of its estimator. -/
theorem Service.decide_of_keeps {decided : Decision × List (Entry In Out) × Estimators}
    (h : es.Keeps name o created now samples) (hlt : now - created < Word.greatest)
    (hdecided : Service.decide (.percentile name q) now es request = decided) :
    decided.1 = q.judge o (o.visible (now - created) samples) request ∧ decided.2.1 = [] ∧
      decided.2.2.Keeps name o created now samples := by
  obtain ⟨e, hget, hkeeps⟩ := h
  obtain ⟨hjudge, hkeeps'⟩ := PercentilePolicy.decide_of_keeps q request hkeeps hlt
  have hdecide : (Service.decide (.percentile name q) now es request :
      Decision × List (Entry In Out) × Estimators) =
      ((q.decide e now request).1, [], es.put name (q.decide e now request).2) := by
    simp only [Service.decide, Policy.decide, hget]
    rfl
  obtain rfl := hdecided.symm.trans hdecide
  exact ⟨hjudge, rfl, _, Estimators.get?_put_self hget _, hkeeps'⟩

end Deciding

/-! ## Polls -/

/-- The service has all requests decided by one percentile policy, in front of the same
listeners. -/
def Service.DecidesBy (svc : Service In Out) (name : String) (q : PercentilePolicy In)
    (ls : List (Listener In Out)) : Prop :=
  ∀ request, svc.resolver request = .ok ⟨.percentile name q, ls⟩

theorem Service.DecidesBy.resolve {svc : Service In Out} {name : String}
    {q : PercentilePolicy In} {ls : List (Listener In Out)} (h : svc.DecidesBy name q ls)
    (request : In) : svc.resolve request = (⟨.percentile name q, ls⟩, []) := by
  unfold Service.resolve
  rw [h request]

section Polls

variable {svc : Service In Out} {name : String} {q : PercentilePolicy In}
  {ls : List (Listener In Out)} {o : Options} {created : Instant} {samples : Multiset Sample}
  {es : Estimators} {m : Moment}

/-- A poll of a race teaches what it reports. -/
theorem learned_pollRace (h : es.Keeps name o created m.now samples)
    (hlt : m.now - created < Word.greatest) (start : Option Instant) (r : Race In Out) :
    Learned name o created m.now ls samples (Session.pollRace svc m es start ls r).entries
      (Session.pollRace svc m es start ls r).estimators := by
  have hevents := learned_ofEvents ls h hlt svc.telemetry (r.poll svc.callbacks m).1
  unfold Session.pollRace
  dsimp only
  split
  · exact hevents
  · exact hevents
  · refine hevents.append fun samples' h' => learned_of_mute h' ?_
    unfold Session.abandon
    split <;> simp [Session.Mute]

theorem learned_pollDirect (h : es.Keeps name o created m.now samples) (start : Option Instant)
    (flights : Flights In Out) :
    Learned name o created m.now ls samples (Session.pollDirect svc m es start flights).entries
      (Session.pollDirect svc m es start flights).estimators := by
  obtain ⟨hmute, -, hsame⟩ := Session.mute_pollDirect svc m es start flights
  rw [hsame]
  exact learned_of_mute h hmute

/-- To decide a request is to look at the estimator, not to teach it. -/
theorem learned_enter (hsvc : svc.DecidesBy name q ls) (h : es.Keeps name o created m.now samples)
    (hlt : m.now - created < Word.greatest) (start : Option Instant) (request : In) :
    Learned name o created m.now ls samples (Session.enter svc m es start request).entries
      (Session.enter svc m es start request).estimators := by
  unfold Session.enter
  rw [hsvc.resolve]
  dsimp only
  rcases hdecided : (Service.decide (.percentile name q) m.now es request :
    Decision × List (Entry In Out) × Estimators) with ⟨d, log, es'⟩
  obtain ⟨-, hnone, hkeeps⟩ := Service.decide_of_keeps h hlt hdecided
  obtain rfl : log = [] := hnone
  have hstart := learned_ofEvents ls hkeeps hlt svc.telemetry
    (Race.start svc.callbacks m.now d request).1
  refine hstart.append fun samples' h' => ?_
  dsimp only
  split
  · exact learned_of_mute h' (by simp [Session.Mute])
  · exact learned_pollDirect h' _ _
  · exact learned_pollRace h' hlt _ _

/-- From a poll of a session an estimator learns what is in the reports that the poll shows. -/
theorem learned_poll (hsvc : svc.DecidesBy name q ls) (h : es.Keeps name o created m.now samples)
    (hlt : m.now - created < Word.greatest) {s : Session In Out} (htells : s.Tells ls) :
    Learned name o created m.now ls samples (s.poll svc m es).entries
      (s.poll svc m es).estimators := by
  have hunbounded : Learned name o created m.now ls samples (s.pollUnbounded svc m es).entries
      (s.pollUnbounded svc m es).estimators := by
    obtain ⟨stage, start⟩ := s
    cases stage with
    | fresh request =>
      have hasked : Learned name o created m.now ls samples [.asked request] es :=
        learned_of_mute h (by simp [Session.Mute])
      unfold Session.pollUnbounded
      dsimp only
      split
      · exact hasked.append fun samples' h' => learned_enter hsvc h' hlt _ request
      · exact hasked.append fun samples' h' => learned_pollDirect h' _ _
    | direct flights => exact learned_pollDirect h start flights
    | racing ls' r =>
      obtain rfl := htells ls' r rfl
      exact learned_pollRace h hlt start r
  -- the deadline adds nothing that an estimator hears of
  obtain ⟨last, hlast, -, hentries, hsame⟩ := Session.exists_bound svc m.now
    (s.pollUnbounded svc m es)
  rw [Session.poll, hentries, hsame]
  exact hunbounded.append fun samples' h' => learned_of_mute h' hlast

/-- From a poll of a task an estimator learns what is in the reports that the poll shows. -/
theorem learned_drive (h : es.Keeps name o created m.now samples)
    (hlt : m.now - created < Word.greatest) (left : Stragglers In Out) :
    Learned name o created m.now ls samples (Task.poll svc m es ⟨ls, left⟩).entries
      (Task.poll svc m es ⟨ls, left⟩).estimators := by
  have hevents := learned_ofEvents ls h hlt svc.telemetry (left.poll svc.callbacks m).1
  unfold Task.poll
  dsimp only
  split
  · exact hevents
  · exact hevents
  · exact hevents.append fun samples' h' => learned_of_mute h' (by simp [Session.Mute])

/-- From what is done about a request an estimator learns what is in the reports shown. -/
theorem learned_shows {j : Journey In Out} (hsvc : svc.DecidesBy name q ls)
    (h : es.Keeps name o created j.now samples)
    (hlt : j.now - created < Word.greatest) (deed : Deed)
    (hheld : ∀ session, j.stage = .held session → session.Tells ls)
    (hlisteners : ∀ task, j.stage = .straggling task → task.listeners = ls) :
    Learned name o created j.now ls samples (j.shows svc es deed).1 (j.shows svc es deed).2 := by
  rcases j.shows_cases svc es deed with
    ⟨session, -, hsession, hshows⟩ | ⟨⟨ls', left⟩, -, htask, hshows⟩ | ⟨hshows, -⟩
  · rw [hshows]
    exact learned_poll (m := j.moment) hsvc h hlt (hheld session hsession)
  · obtain rfl : ls' = ls := hlisteners _ htask
    rw [hshows]
    exact learned_drive (m := j.moment) h hlt left
  · rw [hshows]
    exact learned_of_mute h (by simp [Session.Mute])

end Polls

end RequestHedging
