import RequestHedging.Proofs.Binary64.Nearest
import RequestHedging.Proofs.Latency.Bucket
import RequestHedging.Proofs.Latency.CatchUp

/-!
# What a percentile tells

The rank of a fraction is the place of a sample (`Binary64.rank_le`), although it is found by
multiplying doubles: up to `2 ^ 53` samples a count is a double, and rounding keeps the order.  So
an estimator answers with the bucket of the sample of that rank, and the answer is that sample
with an error of less than one part in 128, cut off at the largest latency (`percentile_run`).
-/

namespace RequestHedging

namespace Binary64

/-! ## Ranks -/

section Rank

variable {fraction n : Nat}

theorem fraction_le (x : Binary64) : x.fraction ≤ one := by
  unfold Binary64.fraction
  split
  · exact Nat.le_refl one
  · split
    · exact Nat.zero_le one
    · exact Nat.min_le_right _ _

/-- A count that is not too large is a double. -/
theorem grains_ofCount (hn : n ≤ 2 * octave) : grains (ofCount n) = n * one := by
  obtain ⟨e, hone⟩ := exists_one_eq
  obtain ⟨m, hm⟩ := exists_grains_eq hn e
  rw [← hone] at hm
  rw [ofCount, nearest_of_grains Nat.one_pos (hm.symm.trans (Nat.mul_one _).symm), hm]

/-- A whole number is not rounded up. -/
theorem ceil_mul_one (n : Nat) : (n * one + (one - 1)) / one = n := by
  have hpos := one_pos
  rw [Nat.mul_comm, Nat.mul_add_div hpos, Nat.div_eq_of_lt (Nat.sub_lt hpos Nat.one_pos),
    Nat.add_zero]

theorem one_le_rank (fraction n : Nat) : 1 ≤ rank fraction n := Nat.le_max_left 1 _

/-- The rank of a fraction of some samples is that of one of them. -/
theorem rank_le (hfraction : fraction ≤ one) (hpos : 0 < n) (hn : n ≤ 2 * octave) :
    rank fraction n ≤ n := by
  have hproduct : nearest (fraction * grains (ofCount n)) (one * one) ≤ ofCount n := by
    apply nearest_le_nearest (Nat.mul_pos one_pos one_pos) Nat.one_pos
    rw [grains_ofCount hn, Nat.mul_one, Nat.mul_left_comm]
    exact Nat.mul_le_mul_left n (Nat.mul_le_mul_right one hfraction)
  have hgrains : grains (nearest (fraction * grains (ofCount n)) (one * one)) ≤ n * one :=
    (grains_strictMono.monotone hproduct).trans (grains_ofCount hn).le
  have hceil := Nat.div_le_div_right (c := one) (Nat.add_le_add_right hgrains (one - 1))
  rw [ceil_mul_one] at hceil
  exact Nat.max_le.mpr ⟨hpos, hceil⟩

/-- A fraction of zero has the first rank. -/
theorem rank_zero (n : Nat) : rank 0 n = 1 := by
  have hzero : nearest (0 * grains (ofCount n)) (one * one) = 0 :=
    nearest_of_grains (Nat.mul_pos one_pos one_pos)
      (by rw [grains_zero, Nat.zero_mul, Nat.zero_mul, Nat.zero_mul])
  rw [rank, hzero, grains_zero, Nat.zero_add, Nat.div_eq_of_lt (Nat.sub_lt one_pos Nat.one_pos)]
  rfl

/-- A fraction of one has the last rank. -/
theorem rank_one (hpos : 0 < n) (hn : n ≤ 2 * octave) : rank one n = n := by
  have hsame : nearest (one * grains (ofCount n)) (one * one) = ofCount n := by
    apply nearest_of_grains (Nat.mul_pos one_pos one_pos)
    rw [grains_ofCount hn, Nat.mul_comm one, Nat.mul_assoc, Nat.mul_assoc]
  rw [rank, hsame, grains_ofCount hn, ceil_mul_one]
  exact Nat.max_eq_right hpos

end Rank

end Binary64

namespace Latency

/-! ## Answers -/

def Options.capped (o : Options) (micros : Nat) : Duration :=
  (Duration.ofMicros micros).min o.maxLatency

/-- An answer is that for the sample of the rank that a fraction of the samples has. -/
structure Tells (o : Options) (samples : Multiset Nat) (p : Binary64) (s : Nat)
    (answer : Duration) : Prop where
  rank_pos : 1 ≤ Binary64.rank p.fraction samples.card
  rank_le : Binary64.rank p.fraction samples.card ≤ samples.card
  sample : (Histogram.inOrder samples)[Binary64.rank p.fraction samples.card - 1]? = some s
  answer_eq : answer = o.capped (min (bucketHigh s) o.maxMicros)
  greatest : IsGreatest (bucket s) (bucketHigh s)
  low : (o.capped s).nanos ≤ answer.nanos
  high : 128 * answer.nanos ≤ 129 * (s * 1000)
  exact : s < 256 → answer = o.capped s
  le_maxLatency : answer.nanos ≤ o.maxLatency.nanos
  /-- The fraction zero asks for the least sample, and the fraction one for the greatest. -/
  first : p.fraction = 0 → Binary64.rank p.fraction samples.card = 1
  last : p.fraction = Binary64.one → Binary64.rank p.fraction samples.card = samples.card

section Tells

variable {o : Options} {samples : Multiset Nat} {s : Nat}

/-- A capped latency is so many microseconds, or the largest latency. -/
theorem nanos_capped {n : Nat} (hn : n < Nat.pow 2 63) :
    (o.capped n).nanos = min (n * 1000) o.maxLatency.nanos := by
  have hfits : n * 1000 ≤ Duration.longestNanos := by
    have hlong : Nat.pow 2 63 * 1000 ≤ Duration.longestNanos := by decide +kernel
    exact Nat.le_trans (Nat.mul_le_mul_right 1000 hn.le) hlong
  rw [Options.capped, Duration.nanos_min, Duration.ofMicros, Duration.nanos_ofNanos,
    Nat.min_eq_left hfits]

theorem maxMicros_lt (h : o.maxLatency.nanos / 1000 < Nat.pow 2 63) :
    o.maxMicros < Nat.pow 2 63 := by
  have hword : o.maxLatency.wordMicros.toNat ≤ o.maxLatency.nanos / 1000 := by
    rw [Duration.wordMicros, Word.toNat_clamp]
    exact Nat.min_le_left _ _
  have htwo : 2 < Nat.pow 2 63 := by decide
  exact Nat.max_lt.mpr ⟨htwo, Nat.lt_of_le_of_lt hword h⟩

/-- A histogram of samples up to the largest latency answers for the sample of the rank. -/
theorem exists_tells (hlatency : o.maxLatency.nanos / 1000 < Nat.pow 2 63)
    (hmicros : ∀ s ∈ samples, s ≤ o.maxMicros) (hsome : samples ≠ 0)
    (hcount : samples.card ≤ 2 * Binary64.octave) (p : Binary64) :
    ∃ s, Tells o samples p s (o.quantile (.ofMultiset samples) p.fraction) := by
  have hpos : 0 < samples.card := Multiset.card_pos.mpr hsome
  have hrank := Binary64.one_le_rank p.fraction samples.card
  have hle := Binary64.rank_le p.fraction_le hpos hcount
  obtain ⟨s, hs⟩ :
      ∃ s, (Histogram.inOrder samples)[Binary64.rank p.fraction samples.card - 1]? = some s :=
    ⟨_, List.getElem?_eq_getElem (by rw [Histogram.inOrder, Multiset.length_sort]; omega)⟩
  have hmost := maxMicros_lt hlatency
  have hmem : s ≤ o.maxMicros :=
    hmicros s ((Multiset.mem_sort (· ≤ ·)).mp (List.mem_of_getElem? hs))
  have hword : s < Nat.pow 2 63 := Nat.lt_of_le_of_lt hmem hmost
  have hanswer : o.quantile (.ofMultiset samples) p.fraction =
      o.capped (min (bucketHigh s) o.maxMicros) := by
    rw [Options.quantile, Histogram.size_ofMultiset, if_neg (Nat.ne_of_gt hpos)]
    dsimp only
    rw [Histogram.valueAtRank_ofMultiset samples hrank hs, bucketHigh_bucketLow hword,
      Options.capped]
  have hnanos := nanos_capped (o := o) (n := min (bucketHigh s) o.maxMicros) (by omega)
  have hself := le_bucketHigh hword
  have hnarrow := bucketHigh_le hword
  refine ⟨s, hrank, hle, hs, hanswer, isGreatest_bucketHigh hword, ?_, ?_, ?_, ?_, ?_, ?_⟩
  · rw [hanswer, hnanos, nanos_capped hword]
    omega
  · rw [hanswer, hnanos]
    omega
  · intro hsmall
    rw [hanswer, bucketHigh_of_lt hsmall, Nat.min_eq_left hmem]
  · rw [hanswer, hnanos]
    exact Nat.min_le_right _ _
  · intro hzero
    rw [hzero, Binary64.rank_zero]
  · intro hone
    rw [hone, Binary64.rank_one hpos hcount]

end Tells

/-! ## The samples of a histogram -/

namespace Estimator

/-- Every histogram of the ring holds some of the samples. -/
def Draws (e : Estimator) (samples : Multiset Nat) : Prop :=
  ∀ j < e.options.rotations.toNat, ∃ held ≤ samples, e.place j = .ofMultiset held

section Draws

variable {e : Estimator} {samples : Multiset Nat}

theorem draws_new (o : Options) (now : Instant) : (new o now).Draws 0 :=
  fun j _ => ⟨0, Multiset.zero_le 0, place_new o now j⟩

theorem Draws.turns (h : e.Draws samples) (n : Nat) : (e.turns n).Draws samples := by
  intro j hj
  rw [options_turns] at hj
  rw [place_turns e hj, kept]
  split
  · rename_i hlt
    exact h (n + j) hlt
  · exact ⟨0, Multiset.zero_le _, rfl⟩

/-- Looking at the window loses samples at most. -/
theorem Draws.rotate (h : e.Draws samples) (now : Instant) : (e.rotate now).Draws samples := by
  unfold Estimator.rotate
  dsimp only
  split
  · exact h
  · exact h.turns _

theorem Draws.write (h : e.Draws samples) (micros : Nat) :
    (e.write micros).Draws (micros ::ₘ samples) := by
  intro j hj
  obtain ⟨held, hle, hplace⟩ := h j hj
  refine ⟨micros ::ₘ held, (Multiset.cons_le_cons_iff _).mpr hle, ?_⟩
  rw [place_write, hplace, Histogram.ofMultiset_cons]

/-- The histogram that is read holds some of the samples. -/
theorem Draws.readable (h : e.Draws samples) : ∃ held ≤ samples, e.readable = .ofMultiset held := by
  rw [readable_eq_place]
  exact h 0 e.options.rotations_pos

end Draws

end Estimator

/-! ## Answers in use -/

/-- Latencies are recorded in whole microseconds, up to the largest one. -/
theorem micros_le_of_mem_recorded {o : Options} {sample : Sample} {age : Nat} {uses : List Use}
    (h : sample ∈ recorded o age uses) : sample.micros ≤ o.maxMicros := by
  induction uses generalizing age with
  | nil => exact absurd h (Multiset.notMem_zero sample)
  | cons use uses ih =>
    cases use with
    | record latency outcome =>
      cases outcome with
      | success =>
        rcases Multiset.mem_cons.mp h with rfl | h
        · exact Nat.min_le_right _ _
        · exact ih h
      | failure => exact ih h
    | _ => exact ih h

namespace Usage

def latencies (o : Options) (uses : List Use) : Multiset Nat :=
  (recorded o 0 uses).map Sample.micros

/-- The latencies recorded less than all steps of the window ago. -/
def window (o : Options) (uses : List Use) : Multiset Nat :=
  (o.visible (Use.span uses) (recorded o 0 uses)).map Sample.micros

/-- The samples in the window were recorded. -/
theorem window_le_latencies (o : Options) (uses : List Use) : window o uses ≤ latencies o uses :=
  Multiset.map_le_map (Multiset.filter_le _ _)

/-- However old an estimator is, its histograms hold what was recorded. -/
theorem draws_run (o : Options) (created : Instant) (uses : List Use) :
    (run o created uses).estimator.options = o ∧
      (run o created uses).estimator.Draws (latencies o uses) := by
  refine ⟨(since_run o created uses).options_eq, ?_⟩
  induction uses using List.reverseRecOn with
  | nil => exact Estimator.draws_new o created
  | append_singleton uses use ih =>
    have hcaught := ih.rotate (run o created uses).now
    rw [run_concat, latencies, recorded_append, Nat.zero_add, Multiset.map_add]
    rcases (since_run o created uses).step_cases use with
      ⟨-, hstays, hnone⟩ | ⟨-, -, ⟨hread, hnone⟩ | ⟨micros, hwrite, hone⟩⟩
    · rw [hstays, hnone, Multiset.map_zero, Multiset.add_zero]
      exact ih
    · rw [hread, hnone, Multiset.map_zero, Multiset.add_zero]
      exact hcaught
    · rw [hwrite, hone, Multiset.map_singleton, Multiset.add_comm, Multiset.singleton_add]
      exact hcaught.write micros

/-- The samples that answers are read from after uses, which are those of the window while the age
of the estimator fits a word. -/
structure Reads (o : Options) (created : Instant) (uses : List Use) (samples : Multiset Nat) :
    Prop where
  recorded : samples ≤ latencies o uses
  readable : ((run o created uses).estimator.rotate (run o created uses).now).readable =
    .ofMultiset samples
  count : (run o created uses).count = samples.card
  window : Use.span uses < Word.greatest → samples = window o uses

/-- Answers to all fractions tell about samples, if there are any. -/
structure Estimates (o : Options) (samples : Multiset Nat) (answer : Binary64 → Duration) :
    Prop where
  none : samples = 0 → ∀ p, answer p = Duration.zero
  some : samples ≠ 0 → ∀ p, ∃ s, Tells o samples p s (answer p)

/-- There are samples that all answers are read from. -/
theorem exists_reads (o : Options) (created : Instant) (uses : List Use) :
    ∃ samples, Reads o created uses samples := by
  by_cases hspan : Use.span uses < Word.greatest
  · have hkeeps := keeps_run o created hspan
    exact ⟨window o uses, window_le_latencies o uses, hkeeps.readable hspan,
      (hkeeps.count hspan).trans (Multiset.card_map _ _).symm, fun _ => rfl⟩
  · have hdraws := (draws_run o created uses).2.rotate (run o created uses).now
    obtain ⟨held, hle, hread⟩ := hdraws.readable
    refine ⟨held, hle, hread, ?_, fun h => absurd h hspan⟩
    rw [count, Estimator.sampleCount]
    dsimp only
    rw [hread, Histogram.size_ofMultiset]

/-- However an estimator was used, it tells about the samples that it reads, whatever the fraction,
with an error of less than one part in 128. -/
theorem percentile_run (o : Options) (created : Instant) {uses : List Use}
    (hlatency : o.maxLatency.nanos / 1000 < Nat.pow 2 63)
    (hcount : (run o created uses).count ≤ Nat.pow 2 53) :
    ∃ samples, Reads o created uses samples ∧
      Estimates o samples (run o created uses).percentile := by
  obtain ⟨samples, hreads⟩ := exists_reads o created uses
  have hoptions := (draws_run o created uses).1
  have hanswer : ∀ p, (run o created uses).percentile p =
      o.quantile (.ofMultiset samples) p.fraction := by
    intro p
    rw [Usage.percentile, Estimator.percentile]
    dsimp only
    rw [Estimator.quantile, hreads.readable, Estimator.options_rotate, hoptions]
  refine ⟨samples, hreads, ?_, ?_⟩
  · intro hnone p
    rw [hanswer, Options.quantile, Histogram.size_ofMultiset, hnone, Multiset.card_zero]
    exact if_pos rfl
  · intro hsome p
    rw [hanswer]
    refine exists_tells hlatency ?_ hsome (hreads.count ▸ hcount) p
    intro s hs
    obtain ⟨sample, hmem, rfl⟩ := Multiset.mem_map.mp (Multiset.mem_of_le hreads.recorded hs)
    exact micros_le_of_mem_recorded hmem

/-- Latencies of which one shares its bucket, one is beyond the largest, and one has left the
window. -/
def spread : List Use :=
  [.record (Duration.ofMicros 40) .success, .advance (Duration.ofSeconds 130),
    .record (Duration.ofMicros 1000) .success, .record (Duration.ofMicros 70) .success,
    .record (Duration.ofSeconds 90) .success]

/-- The median of the spread latencies is the greatest latency of its bucket. -/
theorem percentile_run_spread :
    Options.standard.maxLatency.nanos / 1000 < Nat.pow 2 63 ∧
      (run .standard 0 spread).count ≤ Nat.pow 2 53 ∧
      (∃ samples, Reads .standard 0 spread samples ∧
        Estimates .standard samples (run .standard 0 spread).percentile) ∧
      (run .standard 0 spread).percentile ⟨0x3FE0000000000000⟩ = Duration.ofMicros 1003 :=
  ⟨by decide +kernel, by decide +kernel,
    percentile_run .standard 0 (by decide +kernel) (by decide +kernel), by decide +kernel⟩

end Usage

end Latency

end RequestHedging
