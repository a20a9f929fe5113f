import RequestHedging.Word

/-!
# Buckets

Latencies are counted in buckets.  Values below 256 have a bucket each; above, each
power of two is cut into 128 buckets of one width, so that a bucket is never wider
than `1 / 128` of the values in it.
-/

namespace RequestHedging.Latency

def bucketWidth (value : Nat) : Nat := Nat.pow 2 (value.log2 - 7)

def bucketLow (value : Nat) : Nat := value / bucketWidth value * bucketWidth value

/-- The greatest value in the bucket of a value.  The bucket at the end of the words ends one
below the greatest word, which stands for itself. -/
def bucketHigh (value : Nat) : Nat :=
  if value = Word.greatest then Word.greatest
  else min (bucketLow value + bucketWidth value) Word.greatest - 1

theorem bucketWidth_pos (value : Nat) : 0 < bucketWidth value := Nat.two_pow_pos _

theorem bucketLow_le (value : Nat) : bucketLow value ≤ value := Nat.div_mul_le_self _ _

/-- A value lies below the end of its bucket. -/
theorem lt_bucketLow_add_width (value : Nat) : value < bucketLow value + bucketWidth value := by
  have h := Nat.mod_lt value (bucketWidth_pos value)
  have h' := Nat.div_add_mod value (bucketWidth value)
  rw [Nat.mul_comm] at h'
  simp only [bucketLow]
  omega

end RequestHedging.Latency
