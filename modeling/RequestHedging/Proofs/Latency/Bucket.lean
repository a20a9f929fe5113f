import Mathlib.Data.Multiset.Sort
import Mathlib.Order.Bounds.Basic
import Mathlib.Order.Monotone.Basic
import RequestHedging.Proofs.Latency.Ring

/-!
# Order statistics of a histogram

Buckets keep the order of values, so a histogram is the sorted list of its samples, each with the
least value of its bucket in its place (`expand_ofMultiset`).  Looking for a rank finds what
stands in that list at that place (`valueAtRank_ofMultiset`): the bucket of the sample of that
rank.

The greatest value of a bucket is known from any value in it, and is beyond each of them by less
than one part in 128 (`isGreatest_bucketHigh`, `bucketHigh_le`).
-/

namespace RequestHedging.Latency

/-! ## Buckets -/

section Bucket

variable {u v : Nat}

/-- A power of two is cut into 128 buckets, unless its values have a bucket each. -/
theorem bucketWidth_cases (v : Nat) :
    bucketWidth v = 1 ∨ Nat.pow 2 v.log2 = 128 * bucketWidth v := by
  rcases Nat.le_total v.log2 7 with hsmall | hlarge
  · left
    rw [bucketWidth, Nat.sub_eq_zero_of_le hsmall]
  · right
    obtain ⟨e, he⟩ := Nat.exists_eq_add_of_le hlarge
    rw [bucketWidth, he, Nat.add_sub_cancel_left]
    exact Nat.pow_add 2 7 e

/-- A bucket of width one holds one value. -/
theorem bucketLow_of_width_eq_one (h : bucketWidth v = 1) : bucketLow v = v := by
  rw [bucketLow, h, Nat.div_one, Nat.mul_one]

/-- A bucket does not reach below the power of two at or below its values. -/
theorem two_pow_log2_le_bucketLow (hv : v ≠ 0) : Nat.pow 2 v.log2 ≤ bucketLow v := by
  have hle : Nat.pow 2 v.log2 ≤ v := Nat.log2_self_le hv
  rcases bucketWidth_cases v with hone | hpow
  · rwa [bucketLow_of_width_eq_one hone]
  · rw [bucketLow, hpow]
    apply Nat.mul_le_mul_right
    rw [Nat.le_div_iff_mul_le (bucketWidth_pos v), ← hpow]
    exact hle

/-- A bucket does not reach above the next power of two. -/
theorem bucketLow_add_width_le (v : Nat) :
    bucketLow v + bucketWidth v ≤ Nat.pow 2 (v.log2 + 1) := by
  have hlt : v < Nat.pow 2 (v.log2 + 1) := Nat.lt_log2_self
  rcases bucketWidth_cases v with hone | hpow
  · rw [bucketLow_of_width_eq_one hone, hone]
    exact hlt
  · have hnext : Nat.pow 2 (v.log2 + 1) = 256 * bucketWidth v := by
      have hdouble : Nat.pow 2 (v.log2 + 1) = Nat.pow 2 v.log2 * 2 := rfl
      rw [hdouble, hpow]
      omega
    rw [hnext] at hlt ⊢
    rw [bucketLow, ← Nat.succ_mul]
    exact Nat.mul_le_mul_right _ ((Nat.div_lt_iff_lt_mul (bucketWidth_pos v)).mpr hlt)

/-- The least value of a bucket is in it. -/
theorem log2_bucketLow (v : Nat) : (bucketLow v).log2 = v.log2 := by
  rcases Nat.eq_zero_or_pos v with rfl | hpos
  · rfl
  · have hle := two_pow_log2_le_bucketLow (Nat.ne_of_gt hpos)
    have hne : bucketLow v ≠ 0 :=
      Nat.ne_of_gt (Nat.lt_of_lt_of_le (Nat.two_pow_pos v.log2) hle)
    rw [Nat.log2_eq_iff hne]
    exact ⟨hle, Nat.lt_of_le_of_lt (bucketLow_le v) Nat.lt_log2_self⟩

theorem bucketWidth_eq_of_log2 (h : u.log2 = v.log2) : bucketWidth u = bucketWidth v := by
  rw [bucketWidth, bucketWidth, h]

theorem bucketWidth_bucketLow (v : Nat) : bucketWidth (bucketLow v) = bucketWidth v :=
  bucketWidth_eq_of_log2 (log2_bucketLow v)

/-- The least value of a bucket is the least of its own bucket. -/
theorem bucketLow_bucketLow (v : Nat) : bucketLow (bucketLow v) = bucketLow v := by
  rw [bucketLow, bucketWidth_bucketLow, bucketLow, Nat.mul_div_cancel _ (bucketWidth_pos v)]

/-- Buckets keep the order of values. -/
theorem bucketLow_mono : Monotone bucketLow := by
  intro u v huv
  rcases Nat.eq_zero_or_pos u with rfl | hpos
  · exact Nat.zero_le _
  · have hu : u ≠ 0 := Nat.ne_of_gt hpos
    have hv : v ≠ 0 := Nat.ne_of_gt (Nat.lt_of_lt_of_le hpos huv)
    have hlog : u.log2 ≤ v.log2 :=
      (Nat.le_log2 hv).mpr (Nat.le_trans (Nat.log2_self_le hu) huv)
    rcases Nat.eq_or_lt_of_le hlog with hsame | hlt
    · rw [bucketLow, bucketLow, bucketWidth_eq_of_log2 hsame]
      exact Nat.mul_le_mul_right _ (Nat.div_le_div_right huv)
    · -- In between is a power of two, where a bucket begins.
      calc bucketLow u ≤ u := bucketLow_le u
        _ ≤ 2 ^ (u.log2 + 1) := Nat.lt_log2_self.le
        _ ≤ 2 ^ v.log2 := Nat.pow_le_pow_right Nat.two_pos hlt
        _ ≤ bucketLow v := two_pow_log2_le_bucketLow hv

/-- A value less than a width above the least value of a bucket is in it. -/
theorem bucketLow_eq_of_lt (hle : bucketLow v ≤ u) (hlt : u < bucketLow v + bucketWidth v) :
    bucketLow u = bucketLow v := by
  rcases Nat.eq_zero_or_pos v with rfl | hpos
  · obtain rfl : u = 0 := Nat.lt_one_iff.mp hlt
    rfl
  · have hlow := Nat.le_trans (two_pow_log2_le_bucketLow (Nat.ne_of_gt hpos)) hle
    have hhigh := Nat.lt_of_lt_of_le hlt (bucketLow_add_width_le v)
    have hne : u ≠ 0 := Nat.ne_of_gt (Nat.lt_of_lt_of_le (Nat.two_pow_pos v.log2) hlow)
    have hlog : u.log2 = v.log2 := (Nat.log2_eq_iff hne).mpr ⟨hlow, hhigh⟩
    rw [bucketLow, bucketLow, bucketWidth_eq_of_log2 hlog]
    rw [bucketLow, ← Nat.succ_mul] at hlt
    rw [Nat.div_eq_of_lt_le hle hlt]

/-- The greatest value of a bucket is the one before the next bucket. -/
theorem bucketHigh_eq (hv : v < Nat.pow 2 63) :
    bucketHigh v = bucketLow v + bucketWidth v - 1 := by
  have hlog : v.log2 + 1 ≤ 63 := by
    rcases Nat.eq_zero_or_pos v with rfl | hpos
    · decide
    · exact (Nat.log2_lt (Nat.ne_of_gt hpos)).mpr hv
  have hend : bucketLow v + bucketWidth v ≤ Nat.pow 2 63 :=
    Nat.le_trans (bucketLow_add_width_le v) (Nat.pow_le_pow_right Nat.two_pos hlog)
  have hword : Nat.pow 2 63 < Word.greatest := by decide
  rw [bucketHigh, if_neg (by omega), Nat.min_eq_left (by omega)]

def bucket (v : Nat) : Set Nat := fun u => bucketLow u = bucketLow v

/-- What is computed as the greatest value of a bucket is the greatest in it. -/
theorem isGreatest_bucketHigh (hv : v < Nat.pow 2 63) : IsGreatest (bucket v) (bucketHigh v) := by
  have hpos := bucketWidth_pos v
  rw [bucketHigh_eq hv]
  constructor
  · exact bucketLow_eq_of_lt (by omega) (by omega)
  · intro u hu
    have hlt := lt_bucketLow_add_width u
    have hwidth : bucketWidth u = bucketWidth v := by
      rw [← bucketWidth_bucketLow, hu, bucketWidth_bucketLow]
    rw [hu, hwidth] at hlt
    omega

theorem le_bucketHigh (hv : v < Nat.pow 2 63) : v ≤ bucketHigh v :=
  (isGreatest_bucketHigh hv).2 rfl

/-- The greatest value of a bucket is that of its least value. -/
theorem bucketHigh_bucketLow (hv : v < Nat.pow 2 63) : bucketHigh (bucketLow v) = bucketHigh v := by
  rw [bucketHigh_eq (Nat.lt_of_le_of_lt (bucketLow_le v) hv), bucketHigh_eq hv,
    bucketLow_bucketLow, bucketWidth_bucketLow]

/-- A bucket is narrow: its greatest value is beyond none by more than one part in 128. -/
theorem bucketHigh_le (hv : v < Nat.pow 2 63) : 128 * bucketHigh v ≤ 129 * v := by
  have hlow := bucketLow_le v
  rw [bucketHigh_eq hv]
  rcases bucketWidth_cases v with hone | hpow
  · omega
  · rcases Nat.eq_zero_or_pos v with rfl | hpos
    · exact Nat.le_refl 0
    · have hle : Nat.pow 2 v.log2 ≤ v := Nat.log2_self_le (Nat.ne_of_gt hpos)
      omega

/-- Small values have a bucket each. -/
theorem bucketHigh_of_lt (hv : v < 256) : bucketHigh v = v := by
  have hlog : v.log2 ≤ 7 := by
    rcases Nat.eq_zero_or_pos v with rfl | hpos
    · decide
    · exact Nat.le_of_lt_succ ((Nat.log2_lt (Nat.ne_of_gt hpos)).mpr hv)
  have hone : bucketWidth v = 1 := by
    rw [bucketWidth, Nat.sub_eq_zero_of_le hlog]
  have hword : 256 < Nat.pow 2 63 := by decide
  rw [bucketHigh_eq (Nat.lt_trans hv hword), bucketLow_of_width_eq_one hone, hone,
    Nat.add_sub_cancel]

end Bucket

/-! ## Samples in order -/

namespace Histogram

/-- The samples that cells stand for, each as the least value of its bucket. -/
def expand (cells : List Cell) : List Nat := cells.flatMap fun c => List.replicate c.count c.low

section Expand

variable {low : Nat} {cells : List Cell}

theorem expand_cons (c : Cell) (cells : List Cell) :
    expand (c :: cells) = List.replicate c.count c.low ++ expand cells :=
  List.flatMap_cons

/-- Looking for a rank finds what stands at its place. -/
theorem seek_eq {rank : Nat} (hrank : 0 < rank) (cells : List Cell) :
    seek rank cells = (expand cells)[rank - 1]? := by
  induction cells generalizing rank with
  | nil => rfl
  | cons c cells ih =>
    rw [seek, expand_cons]
    split
    · rename_i hle
      rw [List.getElem?_append_left (by rw [List.length_replicate]; omega),
        List.getElem?_replicate, if_pos (by omega)]
    · rename_i hgt
      rw [ih (by omega), List.getElem?_append_right (by rw [List.length_replicate]; omega),
        List.length_replicate, Nat.sub_right_comm]

/-- One more sample is one more in the list. -/
theorem perm_expand_bump (low : Nat) (cells : List Cell) :
    (expand (bump low cells)).Perm (low :: expand cells) := by
  induction cells with
  | nil => exact .refl _
  | cons c cells ih =>
    rcases Nat.lt_trichotomy low c.low with hlt | rfl | hgt
    · rw [bump_of_lt hlt, expand_cons]
      exact .refl _
    · rw [bump_self, expand_cons, expand_cons]
      exact .refl _
    · rw [bump_of_gt hgt, expand_cons, expand_cons]
      exact (ih.append_left _).trans List.perm_middle

theorem low_le_of_mem_bump {c : Cell} (h : c ∈ bump low cells) :
    c.low = low ∨ ∃ c' ∈ cells, c.low = c'.low := by
  induction cells with
  | nil =>
    rw [bump, List.mem_singleton] at h
    exact .inl (congrArg Cell.low h)
  | cons c' cells ih =>
    have hothers : c ∈ c' :: cells → c.low = low ∨ ∃ c'' ∈ c' :: cells, c.low = c''.low :=
      fun hmem => .inr ⟨c, hmem, rfl⟩
    unfold bump at h
    split at h
    · rcases List.mem_cons.mp h with rfl | h
      · exact .inl rfl
      · exact hothers h
    · split at h
      · rcases List.mem_cons.mp h with rfl | h
        · exact .inr ⟨c', List.mem_cons_self, rfl⟩
        · exact hothers (List.mem_cons_of_mem _ h)
      · rcases List.mem_cons.mp h with rfl | h
        · exact hothers List.mem_cons_self
        · rcases ih h with hlow | ⟨c'', hmem, hlow⟩
          · exact .inl hlow
          · exact .inr ⟨c'', List.mem_cons_of_mem _ hmem, hlow⟩

/-- Cells stay in increasing order. -/
theorem pairwise_bump (h : cells.Pairwise (·.low < ·.low)) :
    (bump low cells).Pairwise (·.low < ·.low) := by
  induction cells with
  | nil => exact List.pairwise_singleton _ _
  | cons c cells ih =>
    obtain ⟨hhead, htail⟩ := List.pairwise_cons.mp h
    rcases Nat.lt_trichotomy low c.low with hlt | rfl | hgt
    · rw [bump_of_lt hlt]
      refine List.pairwise_cons.mpr ⟨fun c' hmem => ?_, h⟩
      rcases List.mem_cons.mp hmem with rfl | hmem
      · exact hlt
      · exact Nat.lt_trans hlt (hhead c' hmem)
    · rw [bump_self]
      exact List.pairwise_cons.mpr ⟨hhead, htail⟩
    · rw [bump_of_gt hgt]
      refine List.pairwise_cons.mpr ⟨fun c' hmem => ?_, ih htail⟩
      rcases low_le_of_mem_bump hmem with hlow | ⟨c'', hmem, hlow⟩
      · exact hlow ▸ hgt
      · exact hlow ▸ hhead c'' hmem

theorem pairwise_expand (h : cells.Pairwise (·.low < ·.low)) : (expand cells).Pairwise (· ≤ ·) := by
  refine List.pairwise_flatMap.mpr ⟨fun c _ => ?_, h.imp fun hlt u hu v hv => ?_⟩
  · exact List.pairwise_replicate.mpr (.inr (Nat.le_refl _))
  · rw [List.eq_of_mem_replicate hu, List.eq_of_mem_replicate hv]
    exact hlt.le

end Expand

def inOrder (samples : Multiset Nat) : List Nat := samples.sort (· ≤ ·)

section Samples

variable (samples : Multiset Nat)

/-- The cells of a histogram are in order. -/
theorem pairwise_ofMultiset : (ofMultiset samples).cells.Pairwise (·.low < ·.low) := by
  induction samples using Multiset.induction_on with
  | empty => exact .nil
  | cons value samples ih =>
    rw [ofMultiset_cons]
    exact pairwise_bump ih

/-- Cells stand for the samples, each taken to the least value of its bucket. -/
theorem coe_expand_ofMultiset :
    (expand (ofMultiset samples).cells : Multiset Nat) = samples.map bucketLow := by
  induction samples using Multiset.induction_on with
  | empty => rfl
  | cons value samples ih =>
    rw [ofMultiset_cons, Multiset.map_cons, ← ih]
    exact Quot.sound (perm_expand_bump _ _)

/-- A histogram is the list of its samples in order, of which only the buckets are known. -/
theorem expand_ofMultiset :
    expand (ofMultiset samples).cells = (inOrder samples).map bucketLow := by
  have hsorted : ((inOrder samples).map bucketLow).Pairwise (· ≤ ·) :=
    (samples.pairwise_sort (· ≤ ·)).map _ fun _ _ hle => bucketLow_mono hle
  refine List.Perm.eq_of_pairwise' (pairwise_expand (pairwise_ofMultiset samples)) hsorted ?_
  apply Multiset.coe_eq_coe.mp
  rw [coe_expand_ofMultiset, ← Multiset.map_coe, inOrder, Multiset.sort_eq]

/-- The value found for a rank is that of the sample of the rank, up to its bucket. -/
theorem valueAtRank_ofMultiset {rank s : Nat} (hrank : 0 < rank)
    (hs : (inOrder samples)[rank - 1]? = some s) :
    (ofMultiset samples).valueAtRank rank = bucketLow s := by
  rw [valueAtRank, seek_eq hrank, expand_ofMultiset, List.getElem?_map, hs]
  rfl

end Samples

end Histogram

end RequestHedging.Latency
