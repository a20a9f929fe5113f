import Mathlib.Algebra.Order.Group.Multiset
import RequestHedging.Proofs.Latency.Ring

/-!
# The sliding window of an estimator

However an estimator is used, its answers are those on the samples of the last steps:
`sliding_run` says which, and what follows.  Answers depend on when samples were recorded
only through the step that each was recorded in, and on nothing else that was done.
-/

namespace RequestHedging.Latency

/-- What can be done with an estimator, and time that passes. -/
inductive Use
  | advance (by_ : Duration)
  | record (latency : Duration) (outcome : Outcome)
  | count
  | percentile (p : Binary64)

namespace Use

def isQuiet : Use → Bool
  | count | percentile _ | record _ .failure => true
  | _ => false

def span : List Use → Nat
  | [] => 0
  | advance d :: uses => d.nanos + span uses
  | _ :: uses => span uses

end Use

structure Sample where
  /-- The nanoseconds from making the estimator to recording. -/
  age : Nat
  /-- The microseconds, up to the largest latency. -/
  micros : Nat
deriving DecidableEq

def Options.micros (o : Options) (latency : Duration) : Nat :=
  min latency.wordMicros.toNat o.maxMicros

/-- The samples that uses record, from an age of the estimator on. -/
def recorded (o : Options) : Nat → List Use → Multiset Sample
  | _, [] => 0
  | age, .advance d :: uses => recorded o (age + d.nanos) uses
  | age, .record latency .success :: uses => ⟨age, o.micros latency⟩ ::ₘ recorded o age uses
  | age, _ :: uses => recorded o age uses

/-- The steps in which samples were recorded, and their values. -/
def Options.log (o : Options) (samples : Multiset Sample) : Multiset (Nat × Nat) :=
  samples.map fun s => (s.age / o.stepNanos, s.micros)

/-- The samples recorded less than all steps of the window ago. -/
def Options.visible (o : Options) (age : Nat) (samples : Multiset Sample) : Multiset Sample :=
  samples.filter fun s => age / o.stepNanos - s.age / o.stepNanos < o.rotations.toNat

/-- An estimator in use. -/
structure Usage where
  now : Instant
  estimator : Estimator

namespace Usage

def step (u : Usage) : Use → Usage
  | .advance d => { u with now := u.now + d.nanos }
  | .record latency outcome =>
    { u with estimator := u.estimator.record u.now latency outcome }
  | .count => { u with estimator := (u.estimator.sampleCount u.now).2 }
  | .percentile p => { u with estimator := (u.estimator.percentile u.now p).2 }

def run (o : Options) (created : Instant) (uses : List Use) : Usage :=
  uses.foldl step ⟨created, .new o created⟩

def count (u : Usage) : Nat := (u.estimator.sampleCount u.now).1

def percentile (u : Usage) (p : Binary64) : Duration := (u.estimator.percentile u.now p).1

def Agrees (u u' : Usage) : Prop := u.count = u'.count ∧ ∀ p, u.percentile p = u'.percentile p

end Usage

/-! ## The samples recorded -/

theorem Use.span_append (uses uses' : List Use) :
    span (uses ++ uses') = span uses + span uses' := by
  induction uses with
  | nil => exact (Nat.zero_add _).symm
  | cons use uses ih =>
    cases use with
    | advance d => simp only [List.cons_append, span, ih, Nat.add_assoc]
    | _ => exact ih

theorem recorded_append (o : Options) (age : Nat) (uses uses' : List Use) :
    recorded o age (uses ++ uses') =
      recorded o age uses + recorded o (age + Use.span uses) uses' := by
  induction uses generalizing age with
  | nil => exact (Multiset.zero_add _).symm
  | cons use uses ih =>
    cases use with
    | advance d =>
      simp only [List.cons_append, recorded, Use.span, ih, Nat.add_assoc]
    | record latency outcome =>
      cases outcome with
      | success => simp only [List.cons_append, recorded, Use.span, ih, Multiset.cons_add]
      | failure => exact ih age
    | _ => exact ih age

/-- Samples are recorded while the uses go on. -/
theorem age_le_of_mem_recorded {o : Options} {s : Sample} {age : Nat} {uses : List Use}
    (h : s ∈ recorded o age uses) : s.age ≤ age + Use.span uses := by
  induction uses generalizing age with
  | nil => exact absurd h (Multiset.notMem_zero s)
  | cons use uses ih =>
    cases use with
    | advance d =>
      rw [Use.span, ← Nat.add_assoc]
      exact ih h
    | record latency outcome =>
      cases outcome with
      | success =>
        rcases Multiset.mem_cons.mp h with rfl | h
        · exact Nat.le_add_right _ _
        · exact ih h
      | failure => exact ih h
    | _ => exact ih h

/-- Questions and failures leave no trace in the samples. -/
theorem Use.span_filter (uses : List Use) :
    span (uses.filter fun use => !use.isQuiet) = span uses := by
  induction uses with
  | nil => rfl
  | cons use uses ih =>
    cases use with
    | advance d => exact congrArg (d.nanos + ·) ih
    | record latency outcome => cases outcome <;> exact ih
    | _ => exact ih

/-- Without the uses that leave no sample, the same is recorded. -/
theorem recorded_filter (o : Options) (age : Nat) (uses : List Use) :
    recorded o age (uses.filter fun use => !use.isQuiet) = recorded o age uses := by
  induction uses generalizing age with
  | nil => rfl
  | cons use uses ih =>
    cases use with
    | advance d => exact ih (age + d.nanos)
    | record latency outcome =>
      cases outcome with
      | success => exact congrArg (_ ::ₘ ·) (ih age)
      | failure => exact ih age
    | _ => exact ih age

theorem recorded_advances (o : Options) (age : Nat) (ds : List Duration) :
    recorded o age (ds.map .advance) = 0 := by
  induction ds generalizing age with
  | nil => rfl
  | cons d ds ih => exact ih (age + d.nanos)

theorem Options.log_add (o : Options) (samples samples' : Multiset Sample) :
    o.log (samples + samples') = o.log samples + o.log samples' :=
  Multiset.map_add _ _ _

/-- Of when a sample was recorded only the step is logged. -/
theorem log_record {o : Options} {age age' : Nat} (h : age / o.stepNanos = age' / o.stepNanos)
    (latency : Duration) (outcome : Outcome) :
    o.log (recorded o age [.record latency outcome]) =
      o.log (recorded o age' [.record latency outcome]) := by
  cases outcome with
  | success => simp only [recorded, Options.log, Multiset.map_cons, h]
  | failure => rfl

/-- The second of two records in the same step might as well be made with the first. -/
theorem log_records {o : Options} {before middle : List Use}
    (h : Use.span before / o.stepNanos = (Use.span before + Use.span middle) / o.stepNanos)
    (l l' : Duration) (outcome outcome' : Outcome) (after : List Use) :
    o.log (recorded o 0
        (before ++ .record l outcome :: (middle ++ .record l' outcome' :: after))) =
      o.log (recorded o 0 before) + (o.log (recorded o (Use.span before) [.record l outcome]) +
        (o.log (recorded o (Use.span before) middle) +
          (o.log (recorded o (Use.span before) [.record l' outcome']) +
            o.log (recorded o (Use.span before + Use.span middle) after)))) := by
  have hcons : ∀ age l outcome uses, recorded o age (.record l outcome :: uses) =
      recorded o age [.record l outcome] + recorded o age uses :=
    fun age l outcome uses => recorded_append o age [.record l outcome] uses
  rw [recorded_append, Nat.zero_add, hcons _ l, recorded_append, hcons _ l',
    log_record h l' outcome']
  simp only [Options.log_add]

/-! ## The invariant -/

namespace Usage

/-- An estimator of some age covers the samples recorded so far, up to the step in which it was
looked at last. -/
structure Keeps (o : Options) (created : Instant) (age : Nat) (samples : Multiset Sample)
    (u : Usage) : Prop where
  options_eq : u.estimator.options = o
  created_eq : u.estimator.created = created
  now_eq : u.now = created + age
  covers : ∃ k ≤ age / o.stepNanos, u.estimator.Covers k (o.log samples)

section Keeps

variable {o : Options} {created : Instant} {age : Nat} {samples : Multiset Sample} {u : Usage}

theorem keeps_new (o : Options) (created : Instant) :
    Keeps o created 0 0 ⟨created, .new o created⟩ :=
  ⟨rfl, rfl, rfl, 0, Nat.zero_le _, Estimator.covers_new o created⟩

/-- Looking at the window moves the estimator to the current step. -/
theorem Keeps.rotate (h : Keeps o created age samples u) (hlt : age < Word.greatest) :
    (u.estimator.rotate u.now).Covers (age / o.stepNanos) (o.log samples) := by
  obtain ⟨rfl, rfl, hnow, k, hk, hcovers⟩ := h
  have hage : u.now - u.estimator.created = age := by rw [hnow, Nat.add_sub_cancel_left]
  have hrotate := hcovers.rotate (hage ▸ hlt) (hage ▸ hk)
  rwa [hage] at hrotate

/-- A question keeps the samples. -/
theorem Keeps.read (h : Keeps o created age samples u) (hlt : age < Word.greatest) :
    Keeps o created age samples { u with estimator := u.estimator.rotate u.now } :=
  ⟨(u.estimator.options_rotate u.now).trans h.options_eq,
    (u.estimator.created_rotate u.now).trans h.created_eq, h.now_eq, _, Nat.le_refl _, h.rotate hlt⟩

theorem Keeps.advance (h : Keeps o created age samples u) (n : Nat) :
    Keeps o created (age + n) samples { u with now := u.now + n } := by
  obtain ⟨k, hk, hcovers⟩ := h.covers
  have hle : k ≤ (age + n) / o.stepNanos :=
    Nat.le_trans hk (Nat.div_le_div_right (Nat.le_add_right _ _))
  have hnow : u.now + n = created + (age + n) := by rw [h.now_eq, Nat.add_assoc]
  exact ⟨h.options_eq, h.created_eq, hnow, k, hle, hcovers⟩

theorem Keeps.write (h : Keeps o created age samples u) (hlt : age < Word.greatest)
    (micros : Nat) :
    Keeps o created age (⟨age, micros⟩ ::ₘ samples)
      { u with estimator := (u.estimator.rotate u.now).write micros } := by
  have hread := h.read hlt
  have hlog : o.log (⟨age, micros⟩ ::ₘ samples) = (age / o.stepNanos, micros) ::ₘ o.log samples :=
    Multiset.map_cons _ _ _
  refine ⟨hread.options_eq, hread.created_eq, h.now_eq, age / o.stepNanos, Nat.le_refl _, ?_⟩
  rw [hlog]
  exact (h.rotate hlt).write micros

/-- What is done with an estimator keeps this, while its age fits a word. -/
theorem Keeps.uses (h : Keeps o created age samples u) (uses : List Use)
    (hlt : age + Use.span uses < Word.greatest) :
    Keeps o created (age + Use.span uses) (samples + recorded o age uses) (uses.foldl step u) := by
  induction uses generalizing age samples u with
  | nil => exact (Multiset.add_zero samples).symm ▸ h
  | cons use uses ih =>
    have hage : age < Word.greatest := Nat.lt_of_le_of_lt (Nat.le_add_right _ _) hlt
    cases use with
    | advance d =>
      have hspan : age + Use.span (.advance d :: uses) = age + d.nanos + Use.span uses :=
        (Nat.add_assoc _ _ _).symm
      rw [hspan] at hlt ⊢
      exact ih (h.advance d.nanos) hlt
    | record latency outcome =>
      cases outcome with
      | success =>
        have hwrite := ih (h.write hage (o.micros latency)) hlt
        have hsamples : samples + recorded o age (.record latency .success :: uses) =
            ⟨age, o.micros latency⟩ ::ₘ samples + recorded o age uses := by
          rw [recorded, Multiset.add_cons, Multiset.cons_add]
        rw [hsamples]
        have hmicros : u.step (.record latency .success) =
            { u with estimator := (u.estimator.rotate u.now).write (o.micros latency) } := by
          rw [step, Estimator.record, Options.micros, h.options_eq]
        rw [List.foldl_cons, hmicros]
        exact hwrite
      | failure => exact ih h hlt
    | count => exact ih (h.read hage) hlt
    | percentile p => exact ih (h.read hage) hlt

/-- After any uses, an estimator keeps the samples that they recorded. -/
theorem keeps_run (o : Options) (created : Instant) {uses : List Use}
    (hlt : Use.span uses < Word.greatest) :
    Keeps o created (Use.span uses) (recorded o 0 uses) (run o created uses) := by
  have h := (keeps_new o created).uses uses (by rwa [Nat.zero_add])
  rwa [Nat.zero_add, Multiset.zero_add] at h

/-! ## Answers -/

/-- The samples of the last steps are the visible ones. -/
theorem recent_log (o : Options) (age : Nat) (samples : Multiset Sample) :
    recent o.rotations.toNat (age / o.stepNanos) (o.log samples) =
      (o.visible age samples).map Sample.micros := by
  have hpos := o.rotations_pos
  rw [recent, Options.log, Multiset.filter_map, Multiset.map_map, Options.visible]
  congr 1
  apply Multiset.filter_congr
  intro s _
  simp only [Function.comp_apply]
  omega

/-- What is read is the histogram of the visible samples. -/
theorem Keeps.readable (h : Keeps o created age samples u) (hlt : age < Word.greatest) :
    (u.estimator.rotate u.now).readable =
      .ofMultiset ((o.visible age samples).map Sample.micros) := by
  have hoptions : (u.estimator.rotate u.now).options = o :=
    (u.estimator.options_rotate u.now).trans h.options_eq
  have hplace := (h.rotate hlt).holds 0 (u.estimator.rotate u.now).options.rotations_pos
  rw [hoptions, Nat.add_zero, recent_log] at hplace
  exact (Estimator.readable_eq_place _).trans hplace

/-- The number of samples is that of the visible ones. -/
theorem Keeps.count (h : Keeps o created age samples u) (hlt : age < Word.greatest) :
    u.count = (o.visible age samples).card := by
  rw [Usage.count, Estimator.sampleCount]
  dsimp only
  rw [h.readable hlt, Histogram.size_ofMultiset, Multiset.card_map]

/-- A percentile is the quantile of the visible samples. -/
theorem Keeps.percentile (h : Keeps o created age samples u) (hlt : age < Word.greatest)
    (p : Binary64) :
    u.percentile p =
      o.quantile (.ofMultiset ((o.visible age samples).map Sample.micros)) p.fraction := by
  have hoptions : (u.estimator.rotate u.now).options = o :=
    (u.estimator.options_rotate u.now).trans h.options_eq
  rw [Usage.percentile, Estimator.percentile]
  dsimp only
  rw [Estimator.quantile, h.readable hlt, hoptions]

end Keeps

/-! ## The window -/

/-- What an estimator answers after uses, and what its answers do not depend on. -/
structure Sliding (o : Options) (created : Instant) (uses : List Use) : Prop where
  past : ∀ s ∈ recorded o 0 uses, s.age ≤ Use.span uses
  count : (run o created uses).count = (o.visible (Use.span uses) (recorded o 0 uses)).card
  percentile : ∀ p, (run o created uses).percentile p =
    o.quantile (.ofMultiset ((o.visible (Use.span uses) (recorded o 0 uses)).map Sample.micros))
      p.fraction
  fresh : o.rotations.toNat ≤ o.window.nanos →
    ∀ s ∈ o.visible (Use.span uses) (recorded o 0 uses), Use.span uses - s.age < o.window.nanos
  /-- Only the steps in which the samples were recorded matter, and their values. -/
  logged : ∀ uses', Use.span uses' = Use.span uses →
    o.log (recorded o 0 uses') = o.log (recorded o 0 uses) →
    (run o created uses').Agrees (run o created uses)
  /-- Questions and failures can be left out or added anywhere. -/
  quiet : ∀ uses',
    (uses'.filter fun use => !use.isQuiet) = (uses.filter fun use => !use.isQuiet) →
    (run o created uses').Agrees (run o created uses)
  /-- Time can pass in any number of parts. -/
  parts : ∀ before d after (ds : List Duration), uses = before ++ .advance d :: after →
    Use.span (ds.map .advance) = d.nanos →
    (run o created (before ++ (ds.map .advance ++ after))).Agrees (run o created uses)
  /-- Two records in the same step can be swapped. -/
  swaps : ∀ before l outcome middle l' outcome' after,
    uses = before ++ .record l outcome :: (middle ++ .record l' outcome' :: after) →
    Use.span before / o.stepNanos = (Use.span before + Use.span middle) / o.stepNanos →
    (run o created (before ++ .record l' outcome' :: (middle ++ .record l outcome :: after))).Agrees
      (run o created uses)

/-- Unless the step is raised to a nanosecond, all steps fit the window. -/
theorem rotations_mul_stepNanos_le {o : Options} (h : o.rotations.toNat ≤ o.window.nanos) :
    o.rotations.toNat * o.stepNanos ≤ o.window.nanos := by
  have hstep : 1 ≤ o.window.nanos / o.rotations.toNat := (Nat.one_le_div_iff o.rotations_pos).mpr h
  calc o.rotations.toNat * o.stepNanos
      ≤ o.rotations.toNat * (o.window.nanos / o.rotations.toNat) :=
        Nat.mul_le_mul_left _ ((Nat.min_le_left _ _).trans (Nat.max_le.mpr ⟨hstep, Nat.le_refl _⟩))
    _ ≤ o.window.nanos := Nat.mul_div_le _ _

/-- A visible sample is younger than the window. -/
theorem age_lt_of_mem_visible {o : Options} (h : o.rotations.toNat ≤ o.window.nanos) {age : Nat}
    {samples : Multiset Sample} {s : Sample} (hs : s ∈ o.visible age samples) :
    age - s.age < o.window.nanos := by
  have hvisible := (Multiset.mem_filter.mp hs).2
  have hle : age / o.stepNanos + 1 ≤ s.age / o.stepNanos + o.rotations.toNat := by omega
  have hage : age < s.age + o.window.nanos := by
    calc age
        < (age / o.stepNanos + 1) * o.stepNanos :=
          Nat.lt_mul_of_div_lt (Nat.lt_succ_self _) o.stepNanos_pos
      _ ≤ (s.age / o.stepNanos + o.rotations.toNat) * o.stepNanos := Nat.mul_le_mul_right _ hle
      _ = s.age / o.stepNanos * o.stepNanos + o.rotations.toNat * o.stepNanos := Nat.add_mul _ _ _
      _ ≤ s.age + o.window.nanos :=
        Nat.add_le_add (Nat.div_mul_le_self _ _) (rotations_mul_stepNanos_le h)
  have hpos : 0 < o.window.nanos := Nat.lt_of_lt_of_le (by decide) o.milli_le_window
  omega

/-- Answers depend only on the age and the log. -/
theorem agrees_of_log {o : Options} {created : Instant} {uses uses' : List Use}
    (hlt : Use.span uses < Word.greatest) (hspan : Use.span uses' = Use.span uses)
    (hlog : o.log (recorded o 0 uses') = o.log (recorded o 0 uses)) :
    (run o created uses').Agrees (run o created uses) := by
  have hlt' : Use.span uses' < Word.greatest := hspan ▸ hlt
  have hvisible : (o.visible (Use.span uses') (recorded o 0 uses')).map Sample.micros =
      (o.visible (Use.span uses) (recorded o 0 uses)).map Sample.micros := by
    rw [← recent_log, ← recent_log, hlog, hspan]
  constructor
  · rw [(keeps_run o created hlt').count hlt', (keeps_run o created hlt).count hlt,
      ← Multiset.card_map Sample.micros, hvisible, Multiset.card_map]
  · intro p
    rw [(keeps_run o created hlt').percentile hlt', (keeps_run o created hlt).percentile hlt,
      hvisible]

/-- Whatever is done with an estimator, its window slides, while its age fits a word. -/
theorem sliding_run (o : Options) (created : Instant) {uses : List Use}
    (h : Use.span uses < Word.greatest) : Sliding o created uses where
  past := by
    intro s hs
    have hle := age_le_of_mem_recorded hs
    rwa [Nat.zero_add] at hle
  count := (keeps_run o created h).count h
  percentile := (keeps_run o created h).percentile h
  fresh := fun hle _ hs => age_lt_of_mem_visible hle hs
  logged := fun _ hspan hlog => agrees_of_log h hspan hlog
  quiet := by
    intro uses' hsame
    refine agrees_of_log h ?_ (congrArg o.log ?_)
    · rw [← Use.span_filter uses', hsame, Use.span_filter]
    · rw [← recorded_filter o 0 uses', hsame, recorded_filter]
  parts := by
    intro before d after ds huses hspan
    subst huses
    refine agrees_of_log h ?_ (congrArg o.log ?_)
    · simp only [Use.span_append, Use.span, hspan]
    · simp only [recorded_append, recorded, recorded_advances, hspan, Multiset.zero_add]
  swaps := by
    intro before l outcome middle l' outcome' after huses hstep
    subst huses
    refine agrees_of_log h ?_ ?_
    · simp only [Use.span_append, Use.span]
    · rw [log_records hstep, log_records hstep]
      generalize o.log (recorded o _ [.record l outcome]) = first
      generalize o.log (recorded o _ [.record l' outcome']) = second
      generalize o.log (recorded o _ middle) = between
      rw [add_left_comm second between, add_left_comm second first, add_left_comm between first]

/-- A sample that leaves the window, one that stays, and a failure. -/
def expiring : List Use :=
  [.record (Duration.ofMillis 5) .success, .advance (Duration.ofSeconds 50), .count,
    .record (Duration.ofMillis 7) .success, .record (Duration.ofMillis 9) .failure,
    .advance (Duration.ofSeconds 75)]

/-- Of the expiring samples, one is left in the window. -/
theorem sliding_run_expiring :
    Use.span expiring < Word.greatest ∧ Sliding .standard 0 expiring ∧
      (run .standard 0 expiring).count = 1 :=
  ⟨by decide, sliding_run .standard 0 (by decide), by decide +kernel⟩

end Usage

end RequestHedging.Latency
