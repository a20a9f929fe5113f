import RequestHedging.Duration
import RequestHedging.Proofs.Word

/-!
# Durations in words

A duration is kept in two words: its whole seconds, and the nanoseconds beyond them.  To multiply
it, the nanoseconds are multiplied apart from the seconds, and the whole seconds of their product
are carried.  There is no product once the seconds pass the greatest word.

The carry loses nothing (`total_mul`), and so there is no product just where it would be longer
than the longest duration: cut off there, it is the product of all nanoseconds
(`elim_times?_words`).
-/

namespace RequestHedging.Duration

structure Words where
  seconds : UInt64
  /-- The nanoseconds beyond the whole seconds. -/
  nanos : UInt32
  nanos_lt : nanos.toNat < 1000000000

theorem longestNanos_eq : longestNanos = Word.greatest * 1000000000 + 999999999 := rfl

theorem beyond_lt (n : Nat) : n % 1000000000 < 1000000000 := Nat.mod_lt _ (by decide)

/-- What is beyond whole seconds fits in a word of half the size. -/
theorem beyond_lt_size (n : Nat) : n % 1000000000 < UInt32.size :=
  Nat.lt_trans (beyond_lt n) (by decide)

/-- The nanoseconds beyond the whole seconds fit a word of 32 bits. -/
theorem toNat_beyond (a : UInt64) : (a % 1000000000).toUInt32.toNat = a.toNat % 1000000000 := by
  rw [UInt64.toNat_toUInt32, UInt64.toNat_mod]
  exact Nat.mod_eq_of_lt (beyond_lt_size _)

theorem toNat_beyond_lt (a : UInt64) : (a % 1000000000).toUInt32.toNat < 1000000000 := by
  rw [toNat_beyond]
  exact beyond_lt _

theorem toNat_ofNat_beyond (n : Nat) : (UInt32.ofNat (n % 1000000000)).toNat = n % 1000000000 :=
  UInt32.toNat_ofNat_of_lt' (beyond_lt_size n)

namespace Words

/-! ## What words stand for -/

def total (w : Words) : Nat := w.seconds.toNat * 1000000000 + w.nanos.toNat

/-- Words hold no more than the longest duration. -/
theorem total_le (w : Words) : w.total ≤ longestNanos := by
  have hseconds := Word.toNat_le_greatest w.seconds
  have hnanos := w.nanos_lt
  rw [longestNanos_eq, total]
  omega

def duration (w : Words) : Duration := ⟨w.total, w.total_le⟩

/-! ## Multiplication -/

def product (w : Words) (n : UInt32) : UInt64 := w.nanos.toUInt64 * n.toUInt64

/-- So many times the whole seconds, and those of the nanoseconds, unless they are no word. -/
def seconds? (w : Words) (n : UInt32) : Option UInt64 := do
  Word.add? (← Word.mul? w.seconds n.toUInt64) (w.product n / 1000000000)

def times? (w : Words) (n : UInt32) : Option Words :=
  (w.seconds? n).map fun seconds =>
    ⟨seconds, (w.product n % 1000000000).toUInt32, toNat_beyond_lt _⟩

def carried (w : Words) (n : UInt32) : Nat :=
  w.seconds.toNat * n.toNat + w.nanos.toNat * n.toNat / 1000000000

section Products

variable (w : Words) (n : UInt32)

/-- The product of the nanoseconds is a word, as they are less than a second. -/
theorem toNat_product : (w.product n).toNat = w.nanos.toNat * n.toNat := by
  have hword : w.nanos.toNat * n.toNat < 2 ^ 64 :=
    Nat.lt_of_lt_of_le (Nat.mul_lt_mul'' w.nanos_lt n.toNat_lt) (by decide)
  rw [product, UInt64.toNat_mul, UInt32.toNat_toUInt64, UInt32.toNat_toUInt64]
  exact Nat.mod_eq_of_lt hword

theorem carried_eq :
    w.carried n =
      w.seconds.toNat * n.toUInt64.toNat + (w.product n / 1000000000).toNat := by
  rw [UInt64.toNat_div, toNat_product, UInt32.toNat_toUInt64]
  rfl

/-- Carrying keeps all nanoseconds. -/
theorem total_mul :
    w.total * n.toNat = w.carried n * 1000000000 + w.nanos.toNat * n.toNat % 1000000000 := by
  calc w.total * n.toNat
      = w.seconds.toNat * n.toNat * 1000000000 + w.nanos.toNat * n.toNat := by
        rw [total, Nat.add_mul, Nat.mul_right_comm]
    _ = w.seconds.toNat * n.toNat * 1000000000 +
          (w.nanos.toNat * n.toNat / 1000000000 * 1000000000 +
            w.nanos.toNat * n.toNat % 1000000000) := by
        rw [Nat.div_add_mod']
    _ = w.carried n * 1000000000 + w.nanos.toNat * n.toNat % 1000000000 := by
        rw [carried, Nat.add_mul, Nat.add_assoc]

/-- The seconds of a product are a word just if it is not too long. -/
theorem carried_le_iff : w.carried n ≤ Word.greatest ↔ w.total * n.toNat ≤ longestNanos := by
  have hbeyond := beyond_lt (w.nanos.toNat * n.toNat)
  rw [total_mul, longestNanos_eq]
  omega

/-- A product that is not too long is computed exactly. -/
theorem exists_times? (h : w.total * n.toNat ≤ longestNanos) :
    ∃ t, w.times? n = some t ∧ t.total = w.total * n.toNat := by
  have hcarried := (w.carried_le_iff n).mpr h
  rw [carried_eq] at hcarried
  obtain ⟨seconds, hseconds, htoNat⟩ := Word.exists_mul?_add? hcarried
  rw [← carried_eq] at htoNat
  refine ⟨_, congrArg (Option.map _) hseconds, ?_⟩
  rw [total_mul, total, htoNat, toNat_beyond, toNat_product]

/-- One that is too long is noticed. -/
theorem times?_eq_none (h : longestNanos < w.total * n.toNat) : w.times? n = none := by
  have hcarried := Nat.lt_of_not_le (mt (w.carried_le_iff n).mp (Nat.not_le_of_lt h))
  rw [carried_eq] at hcarried
  exact congrArg (Option.map _) (Word.mul?_add?_eq_none hcarried)

end Products

end Words

/-! ## Durations written in words -/

def words (d : Duration) : Words where
  seconds := .ofNat (d.nanos / 1000000000)
  nanos := .ofNat (d.nanos % 1000000000)
  nanos_lt := by
    rw [toNat_ofNat_beyond]
    exact beyond_lt _

/-- Words stand for the duration that was written in them. -/
theorem duration_words (d : Duration) : d.words.duration = d := by
  have hlong := d.nanos_le
  have hseconds : d.nanos / 1000000000 < UInt64.size := by
    rw [longestNanos_eq] at hlong
    have hgreatest : Word.greatest < UInt64.size := by decide
    omega
  apply Duration.ext
  show (UInt64.ofNat (d.nanos / 1000000000)).toNat * 1000000000 +
    (UInt32.ofNat (d.nanos % 1000000000)).toNat = d.nanos
  rw [UInt64.toNat_ofNat_of_lt' hseconds, toNat_ofNat_beyond]
  exact Nat.div_add_mod' _ _

/-- Multiplied in words, and cut off where that fails, a duration is multiplied exactly up to the
longest duration. -/
theorem elim_times?_words (d : Duration) (n : UInt32) :
    (d.words.times? n).elim longest Words.duration = d.times n.toNat := by
  have htotal : d.words.total = d.nanos := congrArg nanos d.duration_words
  apply Duration.ext
  rw [times, nanos_ofNanos, ← htotal]
  rcases Nat.lt_or_ge longestNanos (d.words.total * n.toNat) with hlong | hfits
  · rw [d.words.times?_eq_none n hlong, Nat.min_eq_right (Nat.le_of_lt hlong)]
    rfl
  · obtain ⟨t, htimes, ht⟩ := d.words.exists_times? n hfits
    rw [htimes, Nat.min_eq_left hfits]
    exact ht

/-- Whether three times the same seconds fit is up to the nanoseconds. -/
example :
    ((⟨6148914691236517205, 333333333, by decide⟩ : Words).times? 3).map Words.total =
        some longestNanos ∧
      ((⟨6148914691236517205, 333333334, by decide⟩ : Words).times? 3).map Words.total = none := by
  decide

end RequestHedging.Duration
