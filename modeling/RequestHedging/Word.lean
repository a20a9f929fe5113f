/-!
# Saturating words

Arithmetic on 64-bit words that stops at the greatest word instead of wrapping
round.  The view of a word is the natural number it stands for.
-/

namespace RequestHedging.Word

/-- The greatest 64-bit word, as a number. -/
def greatest : Nat := UInt64.size - 1

/-- The word nearest to a number: itself if it fits, the greatest word if not. -/
def clamp (n : Nat) : UInt64 := UInt64.ofNat (min n greatest)

@[simp] theorem toNat_clamp (n : Nat) : (clamp n).toNat = min n greatest := by
  unfold clamp
  rw [UInt64.toNat_ofNat_of_lt']
  have : greatest < UInt64.size := by decide
  omega

/-- Addition that stops at the greatest word. -/
def add (a b : UInt64) : UInt64 := clamp (a.toNat + b.toNat)

/-- Multiplication that stops at the greatest word. -/
def mul (a b : UInt64) : UInt64 := clamp (a.toNat * b.toNat)

@[simp] theorem toNat_add (a b : UInt64) : (add a b).toNat = min (a.toNat + b.toNat) greatest :=
  toNat_clamp _

@[simp] theorem toNat_mul (a b : UInt64) : (mul a b).toNat = min (a.toNat * b.toNat) greatest :=
  toNat_clamp _

end RequestHedging.Word
