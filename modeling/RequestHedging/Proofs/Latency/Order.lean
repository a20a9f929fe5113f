import RequestHedging.Proofs.Latency.Percentile
import RequestHedging.Proofs.Latency.Rereading

/-!
# The order of percentiles

The sample of a rank, the bucket of a sample and what is told of a bucket all keep the order.  So
a greater fraction of the same samples is not answered with less, and one more sample does not
raise the least of them or lower the greatest (`ordered_run`).
-/

namespace RequestHedging

namespace Binary64

/-! ## Fractions in order -/

/-- A double is at most another as numbers are; what is no number is not comparable. -/
def AtMost (x y : Binary64) : Prop :=
  x.isNaN = false ∧ y.isNaN = false ∧
    match x.isNegative, y.isNegative with
    | true, true => y.magnitude ≤ x.magnitude
    | true, false => True
    | false, true => x.magnitude = 0 ∧ y.magnitude = 0
    | false, false => x.magnitude ≤ y.magnitude

section Order

variable {x y : Binary64}

theorem fraction_of_isNaN (h : x.isNaN = true) : x.fraction = one := if_pos h

/-- To take the nearest fraction keeps the order of numbers. -/
theorem fraction_le_fraction (h : x.AtMost y) : x.fraction ≤ y.fraction := by
  obtain ⟨hx, hy, hsigns⟩ := h
  unfold fraction
  rw [if_neg (ne_true_of_eq_false hx), if_neg (ne_true_of_eq_false hy)]
  split at hsigns
  · rename_i hnegative _
    rw [if_pos hnegative]
    exact Nat.zero_le _
  · rename_i hnegative _
    rw [if_pos hnegative]
    exact Nat.zero_le _
  · rename_i hpositive _
    rw [if_neg (ne_true_of_eq_false hpositive), hsigns.1, grains_zero, Nat.zero_min]
    exact Nat.zero_le _
  · rename_i hpositive hpositive'
    rw [if_neg (ne_true_of_eq_false hpositive), if_neg (ne_true_of_eq_false hpositive')]
    exact min_le_min_right one (grains_strictMono.monotone hsigns)

/-- A greater fraction of a count has no lower rank. -/
theorem rank_le_rank {fraction fraction' : Nat} (h : fraction ≤ fraction') (n : Nat) :
    rank fraction n ≤ rank fraction' n := by
  have hpos := Nat.mul_pos one_pos one_pos
  have hproduct := nearest_le_nearest hpos hpos
    (Nat.mul_le_mul_right (one * one) (Nat.mul_le_mul_right (grains (ofCount n)) h))
  have hgrains := grains_strictMono.monotone hproduct
  exact max_le_max_left 1 (Nat.div_le_div_right (Nat.add_le_add_right hgrains (one - 1)))

end Order

end Binary64

namespace Latency

/-! ## Buckets in order -/

section Bucket

variable {u v : Nat}

theorem bucketLow_add_width_mono (huv : u ≤ v) :
    bucketLow u + bucketWidth u ≤ bucketLow v + bucketWidth v := by
  rcases Nat.eq_zero_or_pos u with rfl | hpos
  · exact Nat.le_trans (bucketWidth_pos v) (Nat.le_add_left _ _)
  · have hv : v ≠ 0 := Nat.ne_of_gt (Nat.lt_of_lt_of_le hpos huv)
    have hlog : u.log2 ≤ v.log2 :=
      (Nat.le_log2 hv).mpr (Nat.le_trans (Nat.log2_self_le (Nat.ne_of_gt hpos)) huv)
    rcases Nat.eq_or_lt_of_le hlog with hsame | hlt
    · rw [bucketWidth_eq_of_log2 hsame]
      exact Nat.add_le_add_right (bucketLow_mono huv) _
    · calc bucketLow u + bucketWidth u
          ≤ 2 ^ (u.log2 + 1) := bucketLow_add_width_le u
        _ ≤ 2 ^ v.log2 := Nat.pow_le_pow_right Nat.two_pos hlt
        _ ≤ bucketLow v := two_pow_log2_le_bucketLow hv
        _ ≤ bucketLow v + bucketWidth v := Nat.le_add_right _ _

/-- The greatest values of the buckets are in the order of the buckets, up to the greatest word,
which stands for itself. -/
theorem bucketHigh_le_bucketHigh (huv : u ≤ v) (hv : v ≤ Word.greatest) :
    bucketHigh u ≤ bucketHigh v := by
  have hends := bucketLow_add_width_mono huv
  unfold bucketHigh
  split
  · rename_i hgreatest
    rw [if_pos (Nat.le_antisymm hv (hgreatest ▸ huv))]
  · split <;> omega

end Bucket

/-! ## Samples in order -/

namespace Histogram

variable {samples : Multiset Nat} {s t : Nat}

/-- Samples are in increasing order by their places. -/
theorem le_of_getElem? {i j : Nat} (hij : i ≤ j) (hs : (inOrder samples)[i]? = some s)
    (ht : (inOrder samples)[j]? = some t) : s ≤ t := by
  obtain ⟨hi, rfl⟩ := List.getElem?_eq_some_iff.mp hs
  obtain ⟨hj, rfl⟩ := List.getElem?_eq_some_iff.mp ht
  rcases Nat.eq_or_lt_of_le hij with rfl | hlt
  · exact Nat.le_refl _
  · exact List.pairwise_iff_getElem.mp (samples.pairwise_sort (· ≤ ·)) i j hi hj hlt

theorem mem_of_getElem? {i : Nat} (hs : (inOrder samples)[i]? = some s) : s ∈ samples :=
  (Multiset.mem_sort (· ≤ ·)).mp (List.mem_of_getElem? hs)

theorem exists_getElem? (samples : Multiset Nat) {i : Nat} (hi : i < samples.card) :
    ∃ s, (inOrder samples)[i]? = some s :=
  ⟨_, List.getElem?_eq_getElem (by rwa [inOrder, Multiset.length_sort])⟩

theorem exists_place (hs : s ∈ samples) :
    ∃ i < samples.card, (inOrder samples)[i]? = some s := by
  obtain ⟨i, hi⟩ := List.mem_iff_getElem?.mp ((Multiset.mem_sort (· ≤ ·)).mpr hs)
  have hlt := (List.getElem?_eq_some_iff.mp hi).1
  rw [Multiset.length_sort] at hlt
  exact ⟨i, hlt, hi⟩

/-- The first sample is the least one. -/
theorem le_of_mem_of_first (ht : t ∈ samples) (hs : (inOrder samples)[0]? = some s) : s ≤ t := by
  obtain ⟨i, -, hi⟩ := exists_place ht
  exact le_of_getElem? (Nat.zero_le i) hs hi

/-- The last sample is the greatest one. -/
theorem le_of_mem_of_last (ht : t ∈ samples)
    (hs : (inOrder samples)[samples.card - 1]? = some s) : t ≤ s := by
  obtain ⟨i, hlt, hi⟩ := exists_place ht
  exact le_of_getElem? (by omega) hi hs

end Histogram

/-! ## Answers in order -/

section Answers

variable {o : Options} {samples : Multiset Nat} {s t : Nat}

def Options.told (o : Options) (s : Nat) : Duration :=
  o.capped (min (bucketHigh (bucketLow s)) o.maxMicros)

theorem maxMicros_le (o : Options) : o.maxMicros ≤ Word.greatest :=
  Nat.max_le.mpr ⟨by decide, Word.toNat_le_greatest _⟩

theorem told_le_told (hst : s ≤ t) (ht : t ≤ o.maxMicros) : o.told s ≤ o.told t := by
  have hword : bucketLow t ≤ Word.greatest :=
    (bucketLow_le t).trans (ht.trans (maxMicros_le o))
  have hmicros := min_le_min_right o.maxMicros
    (bucketHigh_le_bucketHigh (bucketLow_mono hst) hword)
  show (o.told s).nanos ≤ (o.told t).nanos
  unfold Options.told Options.capped
  rw [Duration.nanos_min, Duration.nanos_min]
  exact min_le_min_right _ (min_le_min_right _ (Nat.mul_le_mul_right 1000 hmicros))

/-- A quantile is what is told of the sample of its rank. -/
theorem quantile_eq_told {fraction : Nat} (hpos : 0 < samples.card)
    (hs : (Histogram.inOrder samples)[Binary64.rank fraction samples.card - 1]? = some s) :
    o.quantile (.ofMultiset samples) fraction = o.told s := by
  rw [Options.quantile, Histogram.size_ofMultiset, if_neg (Nat.ne_of_gt hpos)]
  dsimp only
  rw [Histogram.valueAtRank_ofMultiset samples (Binary64.one_le_rank _ _) hs]
  rfl

/-- A greater fraction of the same samples is not answered with less. -/
theorem quantile_le_quantile (hmicros : ∀ s ∈ samples, s ≤ o.maxMicros)
    (hcount : samples.card ≤ 2 * Binary64.octave) {fraction fraction' : Nat}
    (hle : fraction ≤ fraction') (hone : fraction' ≤ Binary64.one) :
    o.quantile (.ofMultiset samples) fraction ≤ o.quantile (.ofMultiset samples) fraction' := by
  rcases Nat.eq_zero_or_pos samples.card with hnone | hpos
  · have hzero : ∀ fraction, o.quantile (.ofMultiset samples) fraction = Duration.zero := by
      intro fraction
      rw [Options.quantile, Histogram.size_ofMultiset, if_pos hnone]
    rw [hzero, hzero]
    exact Nat.le_refl 0
  · have hrank := Binary64.rank_le_rank hle samples.card
    have hrank' := Binary64.rank_le hone hpos hcount
    have hfirst := Binary64.one_le_rank fraction samples.card
    obtain ⟨s, hs⟩ := Histogram.exists_getElem? samples
      (i := Binary64.rank fraction samples.card - 1) (by omega)
    obtain ⟨t, ht⟩ := Histogram.exists_getElem? samples
      (i := Binary64.rank fraction' samples.card - 1) (by omega)
    rw [quantile_eq_told hpos hs, quantile_eq_told hpos ht]
    exact told_le_told (Histogram.le_of_getElem? (Nat.sub_le_sub_right hrank 1) hs ht)
      (hmicros t (Histogram.mem_of_getElem? ht))

/-- One more sample does not raise the least one. -/
theorem quantile_zero_cons_le (hmicros : ∀ s ∈ samples, s ≤ o.maxMicros)
    (hpos : 0 < samples.card) (new : Nat) :
    o.quantile (.ofMultiset (new ::ₘ samples)) 0 ≤ o.quantile (.ofMultiset samples) 0 := by
  have hpos' : 0 < (new ::ₘ samples).card := Multiset.card_cons new samples ▸ Nat.succ_pos _
  obtain ⟨s, hs⟩ := Histogram.exists_getElem? _ hpos
  obtain ⟨t, ht⟩ := Histogram.exists_getElem? _ hpos'
  rw [quantile_eq_told hpos (s := s) (by rwa [Binary64.rank_zero]),
    quantile_eq_told hpos' (s := t) (by rwa [Binary64.rank_zero])]
  have hmem := Histogram.mem_of_getElem? hs
  exact told_le_told (Histogram.le_of_mem_of_first (Multiset.mem_cons_of_mem hmem) ht)
    (hmicros s hmem)

/-- One more sample does not lower the greatest one, if the rank of all samples is the last one. -/
theorem quantile_one_le_cons {new : Nat} (hmicros : ∀ s ∈ new ::ₘ samples, s ≤ o.maxMicros)
    (hpos : 0 < samples.card) (hlast : Binary64.rank Binary64.one samples.card = samples.card)
    (hlast' : Binary64.rank Binary64.one (samples.card + 1) = samples.card + 1) :
    o.quantile (.ofMultiset samples) Binary64.one ≤
      o.quantile (.ofMultiset (new ::ₘ samples)) Binary64.one := by
  have hcard : (new ::ₘ samples).card = samples.card + 1 := Multiset.card_cons new samples
  obtain ⟨s, hs⟩ := Histogram.exists_getElem? samples (i := samples.card - 1) (by omega)
  obtain ⟨t, ht⟩ := Histogram.exists_getElem? (new ::ₘ samples)
    (i := (new ::ₘ samples).card - 1) (by omega)
  rw [quantile_eq_told hpos (s := s) (by rwa [hlast]),
    quantile_eq_told (hcard ▸ Nat.succ_pos _) (s := t) (by rwa [hcard, hlast', ← hcard])]
  have hmem : s ∈ new ::ₘ samples := Multiset.mem_cons_of_mem (Histogram.mem_of_getElem? hs)
  exact told_le_told (Histogram.le_of_mem_of_last hmem ht)
    (hmicros t (Histogram.mem_of_getElem? ht))

end Answers

/-! ## Answers in use -/

namespace Usage

/-- Answers given at the same time, whatever is asked before them, are in the order of their
fractions; and a record raises no least latency and lowers no greatest one. -/
structure Ordered (o : Options) (created : Instant) (uses : List Use) : Prop where
  fractions : ∀ p p' asked asked', (∀ use ∈ asked, use.isQuiet = true) →
    (∀ use ∈ asked', use.isQuiet = true) → p.fraction ≤ p'.fraction →
    (run o created (uses ++ asked)).percentile p ≤ (run o created (uses ++ asked')).percentile p'
  numbers : ∀ p p' asked asked', (∀ use ∈ asked, use.isQuiet = true) →
    (∀ use ∈ asked', use.isQuiet = true) → p.AtMost p' →
    (run o created (uses ++ asked)).percentile p ≤ (run o created (uses ++ asked')).percentile p'
  /-- What is no number counts as one, which no answer is above. -/
  noNumber : ∀ p p' asked asked', (∀ use ∈ asked, use.isQuiet = true) →
    (∀ use ∈ asked', use.isQuiet = true) → p'.isNaN = true →
    (run o created (uses ++ asked)).percentile p ≤ (run o created (uses ++ asked')).percentile p'
  least : ∀ p latency asked asked', (∀ use ∈ asked, use.isQuiet = true) →
    (∀ use ∈ asked', use.isQuiet = true) → p.fraction = 0 → 0 < (run o created uses).count →
    (run o created (uses ++ .record latency .success :: asked')).percentile p ≤
      (run o created (uses ++ asked)).percentile p
  /-- For the greatest latency the rank of all samples has to be that of the last one, which
  rounding may spoil beyond `2 ^ 53` samples. -/
  greatest : ∀ p latency asked asked', (∀ use ∈ asked, use.isQuiet = true) →
    (∀ use ∈ asked', use.isQuiet = true) → p.fraction = Binary64.one →
    0 < (run o created uses).count →
    Binary64.rank Binary64.one ((run o created uses).count + 1) = (run o created uses).count + 1 →
    (run o created (uses ++ asked)).percentile p ≤
      (run o created (uses ++ .record latency .success :: asked')).percentile p
  exact : ∀ n, 0 < n → n ≤ Nat.pow 2 53 → Binary64.rank Binary64.one n = n

section Ordered

variable {o : Options} {created : Instant} {uses : List Use}

/-- An answer is read from the histogram that is shown. -/
theorem percentile_eq_quantile_shown (o : Options) (created : Instant) (uses : List Use)
    (p : Binary64) :
    (run o created uses).percentile p = o.quantile (run o created uses).shown p.fraction := by
  rw [Usage.percentile, Estimator.percentile]
  dsimp only
  rw [Estimator.quantile, (since_run o created uses).read.options_eq]
  rfl

/-- No sample in the window is above the largest latency. -/
theorem le_maxMicros_of_mem_window {s : Nat} (hs : s ∈ window o uses) : s ≤ o.maxMicros := by
  obtain ⟨sample, hmem, rfl⟩ :=
    Multiset.mem_map.mp (Multiset.mem_of_le (window_le_latencies o uses) hs)
  exact micros_le_of_mem_recorded hmem

/-- Answers are in the order of their fractions, as long as an estimator is not too old and has
not too many samples. -/
theorem ordered_run (o : Options) (created : Instant) {uses : List Use}
    (hspan : Use.span uses < Word.greatest)
    (hcount : (run o created uses).count ≤ Nat.pow 2 53) : Ordered o created uses := by
  have hsteady : Steady o created uses := steady_of_lt hspan
  have hwindow : (run o created uses).shown = .ofMultiset (window o uses) := shown_run hspan
  have hcard : (run o created uses).count = (window o uses).card := by
    show (run o created uses).shown.size = _
    rw [hwindow, Histogram.size_ofMultiset]
  have hmicros : ∀ s ∈ window o uses, s ≤ o.maxMicros := fun s => le_maxMicros_of_mem_window
  rw [hcard] at hcount
  have hasked : ∀ p asked, (∀ use ∈ asked, use.isQuiet = true) →
      (run o created (uses ++ asked)).percentile p =
        o.quantile (.ofMultiset (window o uses)) p.fraction := by
    intro p asked hquiet
    rw [percentile_eq_quantile_shown, hsteady.shown asked hquiet, hwindow]
  have hrecorded : ∀ p latency asked, (∀ use ∈ asked, use.isQuiet = true) →
      (run o created (uses ++ .record latency .success :: asked)).percentile p =
        o.quantile (.ofMultiset (o.micros latency ::ₘ window o uses)) p.fraction := by
    intro p latency asked hquiet
    rw [percentile_eq_quantile_shown, hsteady.recorded latency asked hquiet, hwindow,
      Histogram.ofMultiset_cons]
  have hfractions : ∀ p p' asked asked', (∀ use ∈ asked, use.isQuiet = true) →
      (∀ use ∈ asked', use.isQuiet = true) → p.fraction ≤ p'.fraction →
      (run o created (uses ++ asked)).percentile p ≤
        (run o created (uses ++ asked')).percentile p' := by
    intro p p' asked asked' hquiet hquiet' hle
    rw [hasked p asked hquiet, hasked p' asked' hquiet']
    exact quantile_le_quantile hmicros hcount hle p'.fraction_le
  refine ⟨hfractions, ?_, ?_, ?_, ?_, fun n hpos hn => Binary64.rank_one hpos hn⟩
  · intro p p' asked asked' hquiet hquiet' hle
    exact hfractions p p' asked asked' hquiet hquiet' (Binary64.fraction_le_fraction hle)
  · intro p p' asked asked' hquiet hquiet' hnan
    exact hfractions p p' asked asked' hquiet hquiet'
      ((Binary64.fraction_of_isNaN hnan).symm ▸ p.fraction_le)
  · intro p latency asked asked' hquiet hquiet' hzero hpos
    rw [hasked p asked hquiet, hrecorded p latency asked' hquiet', hzero]
    exact quantile_zero_cons_le hmicros (hcard ▸ hpos) _
  · intro p latency asked asked' hquiet hquiet' hone hpos hlast
    rw [hcard] at hpos hlast
    rw [hasked p asked hquiet, hrecorded p latency asked' hquiet', hone]
    refine quantile_one_le_cons ?_ hpos (Binary64.rank_one hpos hcount) hlast
    intro s hs
    rcases Multiset.mem_cons.mp hs with rfl | hs
    · exact Nat.min_le_right _ _
    · exact hmicros s hs

/-- Beyond `2 ^ 53` samples the rank of all of them may be that of the last but one. -/
example : Binary64.rank Binary64.one (Nat.pow 2 53 + 1) = Nat.pow 2 53 := by decide +kernel

/-- The spread latencies are answered in the order of their fractions. -/
theorem ordered_run_spread :
    Use.span spread < Word.greatest ∧ (run .standard 0 spread).count ≤ Nat.pow 2 53 ∧
      0 < (run .standard 0 spread).count ∧ Ordered .standard 0 spread :=
  ⟨by decide, by decide +kernel, by decide +kernel,
    ordered_run .standard 0 (by decide) (by decide +kernel)⟩

end Ordered

end Usage

end Latency

end RequestHedging
