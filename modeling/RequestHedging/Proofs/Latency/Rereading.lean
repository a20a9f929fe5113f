import RequestHedging.Policy.Percentile
import RequestHedging.Proofs.Latency.Window

/-!
# Reading again at the same time

To look at the window is to catch up on the steps passed, and there is nothing to catch up on when
one looks again at the same time.  So the answers to questions that are asked at the same time
are about the same samples (`Steady`), as long as the age of the estimator fits a word.

At the greatest reading this is no longer so.  The next rotation is due at the greatest word then,
which is not after the reading, so that each question turns the ring by one place and is answered
from fewer samples, until there are none (`Fading`).
-/

namespace RequestHedging

open Latency

/-- What a percentile policy decides by a count of samples and a latency. -/
def PercentilePolicy.weigh {In : Type} (q : PercentilePolicy In) (request : In) (count : Nat)
    (delay : Duration) : Decision :=
  if q.accepts request then
    if count < q.minSamples.toNat then .disabled else ⟨q.maxHedges, some delay⟩
  else .noHedges

/-- A percentile policy looks at the window for the count, and once more for the latency. -/
theorem PercentilePolicy.decide_eq_weigh {In : Type} (q : PercentilePolicy In) (e : Estimator)
    (now : Instant) (request : In) :
    (q.decide e now request).1 = q.weigh request (e.rotate now).readable.size
      (((e.rotate now).rotate now).quantile q.percentile.fraction) := by
  unfold decide weigh
  split
  · dsimp only [Estimator.sampleCount, Estimator.percentile]
    split <;> rfl
  · rfl

namespace Latency

/-! ## Questions -/

def Use.looks : Use → Bool
  | count | percentile _ => true
  | _ => false

theorem Use.span_record (latency : Duration) (outcome : Outcome) (uses : List Use) :
    span (.record latency outcome :: uses) = span uses :=
  rfl

section Quiet

variable {asked : List Use} (h : ∀ use ∈ asked, use.isQuiet = true)

include h

theorem Use.filter_quiet : (asked.filter fun use => !use.isQuiet) = [] := by
  apply List.filter_eq_nil_iff.mpr
  intro use huse
  rw [h use huse]
  exact Bool.false_ne_true

/-- Questions take no time. -/
theorem Use.span_quiet : span asked = 0 := by
  rw [← span_filter, filter_quiet h]
  rfl

/-- Questions record nothing. -/
theorem recorded_quiet (o : Options) (age : Nat) : recorded o age asked = 0 := by
  rw [← recorded_filter, Use.filter_quiet h]
  rfl

end Quiet

/-! ## Reading after turns -/

namespace Estimator

variable {e : Estimator} {now : Instant}

theorem readable_turns (e : Estimator) (n : Nat) : (e.turns n).readable = e.kept n := by
  rw [readable_eq_place, place_turns e e.options.rotations_pos, Nat.add_zero]

/-- What is written is kept until the ring has turned once. -/
theorem kept_write (e : Estimator) (micros n : Nat) :
    (e.write micros).kept n =
      if n < e.options.rotations.toNat then (e.kept n).record micros else .empty := by
  have hoptions : (e.write micros).options = e.options := rfl
  rw [kept, kept, hoptions]
  split
  · exact place_write e micros n
  · rfl

/-! ## At the greatest reading -/

/-- Once caught up on everything, the next rotation is due at the greatest word. -/
theorem toNat_nextRotation_rotate (hlate : Word.greatest ≤ now - e.created)
    (hnext : 0 < e.nextRotation.toNat) : (e.rotate now).nextRotation.toNat = Word.greatest := by
  have hreading := toNat_reading_of_late hlate
  have hle : e.nextRotation ≤ e.reading now := by
    rw [UInt64.le_iff_toNat_le, hreading]
    exact Word.toNat_le_greatest _
  have hcaught : Word.greatest - e.nextRotation.toNat <
      ((Word.greatest - e.nextRotation.toNat) / e.options.stepNanos + 1) * e.options.stepNanos :=
    Nat.lt_mul_of_div_lt (Nat.lt_succ_self _) e.options.stepNanos_pos
  rw [toNat_nextRotation_of_le hnext hle, hreading]
  omega

/-- From then on there is always one turn due. -/
theorem rotate_of_overdue (hlate : Word.greatest ≤ now - e.created)
    (hnext : e.nextRotation.toNat = Word.greatest) : e.rotate now = e.turn := by
  have hreading : e.reading now = e.nextRotation :=
    UInt64.toNat_inj.mp ((toNat_reading_of_late hlate).trans hnext.symm)
  have hdue : (e.due e.nextRotation).toNat = 1 := by
    rw [toNat_due (hnext ▸ by decide) (UInt64.le_refl _), Nat.sub_self, Nat.zero_div]
  have hsame : Word.add e.nextRotation (Word.mul (e.due e.nextRotation) e.stepWord) =
      e.nextRotation := by
    apply UInt64.toNat_inj.mp
    rw [Word.toNat_add, hnext]
    exact Nat.min_eq_right (Nat.le_add_right _ _)
  rw [rotate_of_le (UInt64.le_of_eq hreading.symm), hreading, hsame, hdue,
    Nat.min_eq_left e.options.rotations_pos]
  rfl

end Estimator

/-! ## Uses at the greatest reading -/

namespace Usage

/-- The histogram that a question asked now is answered from. -/
def shown (u : Usage) : Histogram := (u.estimator.rotate u.now).readable

/-- The estimator is so old that its age does not fit below the greatest word. -/
structure Late (u : Usage) : Prop where
  late : Word.greatest ≤ u.now - u.estimator.created
  next_pos : 0 < u.estimator.nextRotation.toNat

section Late

variable {u : Usage}

/-- When it is late, the next rotation is due at the greatest word. -/
theorem Late.toNat_nextRotation (h : u.Late) :
    (u.estimator.rotate u.now).nextRotation.toNat = Word.greatest :=
  Estimator.toNat_nextRotation_rotate h.late h.next_pos

theorem Late.created (h : u.Late) :
    Word.greatest ≤ u.now - (u.estimator.rotate u.now).created := by
  rw [Estimator.created_rotate]
  exact h.late

theorem Late.read (h : u.Late) : Late { u with estimator := u.estimator.rotate u.now } where
  late := h.created
  next_pos := h.toNat_nextRotation ▸ (by decide)

theorem Late.write (h : u.Late) (micros : Nat) :
    Late { u with estimator := (u.estimator.rotate u.now).write micros } where
  late := h.created
  next_pos := h.read.next_pos

/-- Each question turns the ring by one place. -/
theorem Late.rotate_asked (h : u.Late) {asked : List Use}
    (hquiet : ∀ use ∈ asked, use.isQuiet = true) :
    (asked.foldl step u).estimator.rotate (asked.foldl step u).now =
      (u.estimator.rotate u.now).turns (asked.countP Use.looks) := by
  induction asked generalizing u with
  | nil => rfl
  | cons use asked ih =>
    have hrest := fun use' huse' => hquiet use' (List.mem_cons_of_mem use huse')
    have hlook : (asked.foldl step
          { u with estimator := u.estimator.rotate u.now }).estimator.rotate
        (asked.foldl step { u with estimator := u.estimator.rotate u.now }).now =
          (u.estimator.rotate u.now).turns (asked.countP Use.looks + 1) := by
      rw [ih h.read hrest, Estimator.rotate_of_overdue h.created h.toNat_nextRotation]
      rfl
    cases use with
    | advance d => exact absurd (hquiet _ List.mem_cons_self) Bool.false_ne_true
    | record latency outcome =>
      cases outcome with
      | success => exact absurd (hquiet _ List.mem_cons_self) Bool.false_ne_true
      | failure => exact ih h hrest
    | count =>
      rw [List.countP_cons_of_pos rfl]
      exact hlook
    | percentile p =>
      rw [List.countP_cons_of_pos rfl]
      exact hlook

/-- Each question that is asked late turns the ring once more. -/
theorem Late.shown_asked (h : u.Late) (asked : List Use)
    (hquiet : ∀ use ∈ asked, use.isQuiet = true) :
    (asked.foldl step u).shown =
      (u.estimator.rotate u.now).kept (asked.countP Use.looks) := by
  rw [shown, h.rotate_asked hquiet, Estimator.readable_turns]

/-- A question after a record turns the ring once more. -/
theorem Late.rotate_write (h : u.Late) (micros : Nat) :
    ((u.estimator.rotate u.now).write micros).rotate u.now =
      ((u.estimator.rotate u.now).write micros).turn :=
  Estimator.rotate_of_overdue h.created h.toNat_nextRotation

end Late

/-- What is always known of an estimator in use. -/
structure Since (o : Options) (created : Instant) (age : Nat) (u : Usage) : Prop where
  options_eq : u.estimator.options = o
  created_eq : u.estimator.created = created
  now_eq : u.now = created + age
  next_pos : 0 < u.estimator.nextRotation.toNat

section Since

variable {o : Options} {created : Instant} {age : Nat} {u : Usage}

/-- The next rotation is not moved back. -/
theorem Estimator.le_nextRotation_rotate {e : Estimator} (h : 0 < e.nextRotation.toNat)
    (now : Instant) : e.nextRotation.toNat ≤ (e.rotate now).nextRotation.toNat := by
  rcases UInt64.lt_or_le (e.reading now) e.nextRotation with hlt | hle
  · rw [Estimator.rotate_of_lt hlt]
  · rw [Estimator.toNat_nextRotation_of_le h hle]
    exact Nat.le_min.mpr ⟨Nat.le_add_right _ _, Word.toNat_le_greatest _⟩

theorem since_new (o : Options) (created : Instant) : Since o created 0 ⟨created, .new o created⟩ :=
  ⟨rfl, rfl, rfl, o.toNat_wordNanos_step.symm ▸ o.stepNanos_pos⟩

theorem Since.read (h : Since o created age u) :
    Since o created age { u with estimator := u.estimator.rotate u.now } :=
  ⟨(u.estimator.options_rotate u.now).trans h.options_eq,
    (u.estimator.created_rotate u.now).trans h.created_eq, h.now_eq,
    Nat.lt_of_lt_of_le h.next_pos (Estimator.le_nextRotation_rotate h.next_pos _)⟩

theorem Since.uses (h : Since o created age u) (uses : List Use) :
    Since o created (age + Use.span uses) (uses.foldl step u) := by
  induction uses generalizing age u with
  | nil => exact h
  | cons use uses ih =>
    cases use with
    | advance d =>
      have hadvance : Since o created (age + d.nanos) { u with now := u.now + d.nanos } :=
        ⟨h.options_eq, h.created_eq, by rw [h.now_eq, Nat.add_assoc], h.next_pos⟩
      rw [Use.span, ← Nat.add_assoc]
      exact ih hadvance
    | record latency outcome =>
      cases outcome with
      | success =>
        obtain ⟨hoptions, hcreated, hnow, hnext⟩ := h.read
        exact ih ⟨hoptions, hcreated, hnow, hnext⟩
      | failure => exact ih h
    | count => exact ih h.read
    | percentile p => exact ih h.read

/-- What is known of a new estimator is known after all uses. -/
theorem since_run (o : Options) (created : Instant) (uses : List Use) :
    Since o created (Use.span uses) (run o created uses) := by
  have h := (since_new o created).uses uses
  rwa [Nat.zero_add] at h

/-- From the greatest age on, an estimator is late. -/
theorem Since.late (h : Since o created age u) (hage : Word.greatest ≤ age) : u.Late := by
  refine ⟨?_, h.next_pos⟩
  rw [h.now_eq, h.created_eq, Nat.add_sub_cancel_left]
  exact hage

/-- A successful record catches up and writes. -/
theorem Since.step_record (h : Since o created age u) (latency : Duration) :
    u.step (.record latency .success) =
      { u with estimator := (u.estimator.rotate u.now).write (o.micros latency) } := by
  rw [step, Estimator.record, Options.micros, h.options_eq]

end Since

/-! ## Reading again -/

/-- Questions that are asked at the same time are answered from the same samples, and from one more
after a record. -/
structure Steady (o : Options) (created : Instant) (uses : List Use) : Prop where
  agrees : ∀ asked, (∀ use ∈ asked, use.isQuiet = true) →
    (run o created (uses ++ asked)).Agrees (run o created uses)
  shown : ∀ asked, (∀ use ∈ asked, use.isQuiet = true) →
    (run o created (uses ++ asked)).shown = (run o created uses).shown
  recorded : ∀ latency asked, (∀ use ∈ asked, use.isQuiet = true) →
    (run o created (uses ++ .record latency .success :: asked)).shown =
      (run o created uses).shown.record (o.micros latency)
  counted : ∀ latency asked, (∀ use ∈ asked, use.isQuiet = true) →
    (run o created (uses ++ .record latency .success :: asked)).count =
      (run o created uses).count + 1
  /-- A decision is made by the number of some samples and by a latency of the same ones. -/
  decided : ∀ {In : Type} (q : PercentilePolicy In) (request : In),
    (q.decide (run o created uses).estimator (run o created uses).now request).1 =
      q.weigh request (run o created uses).shown.size
        (o.quantile (run o created uses).shown q.percentile.fraction)

/-- Questions that are asked at the same time are answered from one place of the ring after another,
and then from no samples. -/
structure Fading (o : Options) (created : Instant) (uses : List Use) (kept : Nat → Histogram) :
    Prop where
  empty : ∀ n, o.rotations.toNat ≤ n → kept n = .empty
  shown : ∀ asked, (∀ use ∈ asked, use.isQuiet = true) →
    (run o created (uses ++ asked)).shown = kept (asked.countP Use.looks)
  /-- The record turns the ring as well, so that the place that was read before it is lost. -/
  recorded : ∀ latency asked, (∀ use ∈ asked, use.isQuiet = true) →
    (run o created (uses ++ .record latency .success :: asked)).shown =
      if asked.countP Use.looks + 1 < o.rotations.toNat then
        (kept (asked.countP Use.looks + 1)).record (o.micros latency)
      else .empty
  counted : ∀ latency asked, (∀ use ∈ asked, use.isQuiet = true) →
    o.rotations.toNat ≤ asked.countP Use.looks + 1 →
    (run o created (uses ++ .record latency .success :: asked)).count = 0
  /-- A decision is made by the number of some samples and by a latency of others. -/
  decided : ∀ {In : Type} (q : PercentilePolicy In) (request : In),
    (q.decide (run o created uses).estimator (run o created uses).now request).1 =
      q.weigh request (kept 0).size (o.quantile (kept 1) q.percentile.fraction)

section Reading

variable {o : Options} {created : Instant} {uses : List Use}

theorem run_append (o : Options) (created : Instant) (uses uses' : List Use) :
    run o created (uses ++ uses') = uses'.foldl step (run o created uses) :=
  List.foldl_append

/-- A decision is made by what is shown, and by what is shown after one more look. -/
theorem decide_run {In : Type} (o : Options) (created : Instant) (uses : List Use)
    (q : PercentilePolicy In) (request : In) :
    (q.decide (run o created uses).estimator (run o created uses).now request).1 =
      q.weigh request (run o created uses).shown.size
        (o.quantile (run o created (uses ++ [.count])).shown q.percentile.fraction) := by
  rw [PercentilePolicy.decide_eq_weigh, Estimator.quantile, Estimator.options_rotate,
    Estimator.options_rotate, (since_run o created uses).options_eq, run_append]
  rfl

/-- While the age fits, what is shown depends only on what was recorded. -/
theorem shown_run (hspan : Use.span uses < Word.greatest) :
    (run o created uses).shown = .ofMultiset
      ((o.visible (Use.span uses) (Latency.recorded o 0 uses)).map Sample.micros) :=
  (keeps_run o created hspan).readable hspan

/-- Below the greatest age, answers are steady. -/
theorem steady_of_lt (hspan : Use.span uses < Word.greatest) : Steady o created uses := by
  have hshown : ∀ asked, (∀ use ∈ asked, use.isQuiet = true) →
      (run o created (uses ++ asked)).shown = (run o created uses).shown := by
    intro asked hquiet
    have hsame : Use.span (uses ++ asked) = Use.span uses := by
      rw [Use.span_append, Use.span_quiet hquiet, Nat.add_zero]
    rw [shown_run (hsame ▸ hspan), shown_run hspan, hsame, recorded_append, recorded_quiet hquiet,
      Multiset.add_zero]
  have hrecorded : ∀ latency asked, (∀ use ∈ asked, use.isQuiet = true) →
      (run o created (uses ++ .record latency .success :: asked)).shown =
        (run o created uses).shown.record (o.micros latency) := by
    intro latency asked hquiet
    have hsame : Use.span (uses ++ .record latency .success :: asked) = Use.span uses := by
      rw [Use.span_append, Use.span_record, Use.span_quiet hquiet, Nat.add_zero]
    have hvisible : o.visible (Use.span uses)
        (Latency.recorded o 0 (uses ++ .record latency .success :: asked)) =
          ⟨Use.span uses, o.micros latency⟩ ::ₘ
            o.visible (Use.span uses) (Latency.recorded o 0 uses) := by
      have hnew : Use.span uses / o.stepNanos - Use.span uses / o.stepNanos < o.rotations.toNat :=
        (Nat.sub_self _).symm ▸ o.rotations_pos
      rw [recorded_append, Latency.recorded, recorded_quiet hquiet, Nat.zero_add,
        Multiset.add_cons, Multiset.add_zero]
      exact Multiset.filter_cons_of_pos _ hnew
    rw [shown_run (hsame ▸ hspan), shown_run hspan, hsame, hvisible, Multiset.map_cons,
      Histogram.ofMultiset_cons]
  refine ⟨?_, hshown, hrecorded, ?_, ?_⟩
  · intro asked hquiet
    refine agrees_of_log hspan ?_ (congrArg o.log ?_)
    · rw [Use.span_append, Use.span_quiet hquiet, Nat.add_zero]
    · rw [recorded_append, recorded_quiet hquiet, Multiset.add_zero]
  · intro latency asked hquiet
    have hsize := congrArg Histogram.size (hrecorded latency asked hquiet)
    rwa [Histogram.size_record] at hsize
  · intro In q request
    rw [decide_run, hshown [.count] (by simp [Use.isQuiet])]

/-- From the greatest age on, they fade. -/
theorem fading_of_le (hspan : Word.greatest ≤ Use.span uses) :
    Fading o created uses
      ((run o created uses).estimator.rotate (run o created uses).now).kept := by
  have hsince := since_run o created uses
  have hlate := hsince.late hspan
  have hoptions := hsince.read.options_eq
  have hrecorded : ∀ latency asked, (∀ use ∈ asked, use.isQuiet = true) →
      (run o created (uses ++ .record latency .success :: asked)).shown =
        if asked.countP Use.looks + 1 < o.rotations.toNat then
          (((run o created uses).estimator.rotate (run o created uses).now).kept
            (asked.countP Use.looks + 1)).record (o.micros latency)
        else .empty := by
    intro latency asked hquiet
    rw [run_append, List.foldl_cons, hsince.step_record, shown,
      (hlate.write _).rotate_asked hquiet]
    dsimp only
    rw [hlate.rotate_write]
    show (Estimator.turns _ (asked.countP Use.looks + 1)).readable = _
    rw [Estimator.readable_turns, Estimator.kept_write]
    dsimp only at hoptions
    rw [hoptions]
  have hshown : ∀ asked, (∀ use ∈ asked, use.isQuiet = true) →
      (run o created (uses ++ asked)).shown =
        ((run o created uses).estimator.rotate (run o created uses).now).kept
          (asked.countP Use.looks) := by
    intro asked hquiet
    rw [run_append]
    exact hlate.shown_asked asked hquiet
  refine ⟨?_, hshown, hrecorded, ?_, ?_⟩
  · intro n hn
    dsimp only at hoptions
    rw [Estimator.kept, hoptions, if_neg (Nat.not_lt.mpr hn)]
  · intro latency asked hquiet hround
    have hsize := congrArg Histogram.size (hrecorded latency asked hquiet)
    rwa [if_neg (Nat.not_lt.mpr hround)] at hsize
  · intro In q request
    have hfirst := hshown [] (by simp)
    rw [List.append_nil] at hfirst
    rw [decide_run, hshown [.count] (by simp [Use.isQuiet]), hfirst]
    rfl

end Reading

/-- Looking again at the same time changes no answer while the age of an estimator fits a word, and
loses samples from then on. -/
theorem rereading_run (o : Options) (created : Instant) (uses : List Use) :
    (Use.span uses < Word.greatest → Steady o created uses) ∧
      (Word.greatest ≤ Use.span uses → Fading o created uses
        ((run o created uses).estimator.rotate (run o created uses).now).kept) :=
  ⟨steady_of_lt, fading_of_le⟩

def aged : List Use := [.advance (Duration.ofNanos Word.greatest)]

/-- The least ring, which a question empties. -/
def single : Options := Options.standard.withRotations 1

/-- The expiring samples are answered steadily, and the sample of an aged estimator fades. -/
theorem rereading_run_aged :
    Use.span expiring < Word.greatest ∧ Word.greatest ≤ Use.span aged ∧
      Steady .standard 0 expiring ∧
      Fading single 0 aged ((run single 0 aged).estimator.rotate (run single 0 aged).now).kept :=
  ⟨by decide, by decide +kernel, (rereading_run .standard 0 expiring).1 (by decide),
    (rereading_run single 0 aged).2 (by decide +kernel)⟩

/-- An aged estimator answers the same question differently when it is asked again. -/
theorem not_steady_aged : ¬ ∀ o created uses, Steady o created uses := by
  intro h
  have hcounted := (h single 0 aged).counted (.ofMillis 1) [] (by simp)
  exact absurd hcounted (by decide +kernel)

end Usage

end Latency

end RequestHedging
