import RequestHedging.Word

/-!
# Words that may overflow

Arithmetic on 64-bit words that fails where the result is no word, for what has to be shown to
stay within them or to notice when it does not.
-/

namespace RequestHedging.Word

theorem toNat_le_greatest (w : UInt64) : w.toNat ≤ greatest :=
  Nat.le_of_lt_succ w.toNat_lt

def sub? (a b : UInt64) : Option UInt64 := if b ≤ a then some (a - b) else none

def div? (a b : UInt64) : Option UInt64 := if b = 0 then none else some (a / b)

/-- Addition, unless it goes beyond the greatest word. -/
def add? (a b : UInt64) : Option UInt64 :=
  if a.toNat + b.toNat ≤ greatest then some (a + b) else none

def mul? (a b : UInt64) : Option UInt64 :=
  if a.toNat * b.toNat ≤ greatest then some (a * b) else none

section Products

variable {a b c : UInt64}

/-- A product that fits a word is exact. -/
theorem toNat_mul_of_le (h : a.toNat * b.toNat ≤ greatest) : (a * b).toNat = a.toNat * b.toNat := by
  rw [UInt64.toNat_mul]
  exact Nat.mod_eq_of_lt (Nat.lt_succ_of_le h)

theorem toNat_add_of_le (h : a.toNat + b.toNat ≤ greatest) : (a + b).toNat = a.toNat + b.toNat := by
  rw [UInt64.toNat_add]
  exact Nat.mod_eq_of_lt (Nat.lt_succ_of_le h)

/-- A product and a sum, one after the other, fit if the result does. -/
theorem exists_mul?_add? (h : a.toNat * b.toNat + c.toNat ≤ greatest) :
    ∃ w, (mul? a b).bind (add? · c) = some w ∧ w.toNat = a.toNat * b.toNat + c.toNat := by
  have hproduct : a.toNat * b.toNat ≤ greatest := Nat.le_trans (Nat.le_add_right _ _) h
  have hsum : (a * b).toNat + c.toNat ≤ greatest := by
    rw [toNat_mul_of_le hproduct]
    exact h
  refine ⟨a * b + c, ?_, ?_⟩
  · rw [mul?, if_pos hproduct, Option.bind_some, add?, if_pos hsum]
  · rw [toNat_add_of_le hsum, toNat_mul_of_le hproduct]

/-- If the result does not fit, the product or the sum fails. -/
theorem mul?_add?_eq_none (h : greatest < a.toNat * b.toNat + c.toNat) :
    (mul? a b).bind (add? · c) = none := by
  unfold mul?
  split
  · rename_i hproduct
    rw [Option.bind_some, add?, if_neg]
    rw [toNat_mul_of_le hproduct]
    exact Nat.not_le_of_lt h
  · rfl

end Products

end RequestHedging.Word
