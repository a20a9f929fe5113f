import Mathlib.Data.List.TakeWhile
import Mathlib.Tactic.Ring
import RequestHedging.Text.Numeral

/-!
# Digits written and read

The digits of a number are read back as the number, and so are they with zeros in front.  Zeros
at the end multiply by powers of ten, so a fraction without the zeros at its end is still the same
fraction (`fractionValue_fractionDigits`).
-/

namespace RequestHedging.Text

variable {n : Nat} {digits rest : List Char}

/-! ## Numerals -/

theorem numeral_ne_nil (n : Nat) : numeral n ≠ [] := Nat.toDigits_ne_nil

theorem length_numeral_pos (n : Nat) : 0 < (numeral n).length := Nat.length_toDigits_pos

theorem isDigit_of_mem_numeral {c : Char} (h : c ∈ numeral n) : c.isDigit = true :=
  Nat.isDigit_of_mem_toDigits (by decide) (by decide) h

theorem isDigit_of_mem_zeros {k : Nat} {c : Char} (h : c ∈ List.replicate k '0') :
    c.isDigit = true := by
  rw [List.eq_of_mem_replicate h]
  rfl

/-- A number has at most `k` digits if it is below `10 ^ k`. -/
theorem length_numeral_le_iff {k : Nat} (hk : 0 < k) : (numeral n).length ≤ k ↔ n < 10 ^ k :=
  Nat.length_toDigits_le_iff (by decide) hk

/-- The last digit is the remainder by ten. -/
theorem numeral_of_ten_le (h : 10 ≤ n) : numeral n = numeral (n / 10) ++ [(n % 10).digitChar] :=
  Nat.toDigits_of_base_le (by decide) h

/-- The numeral of a positive number does not start with a zero. -/
theorem head?_numeral_ne (hpos : 0 < n) : (numeral n).head? ≠ some '0' := by
  induction n using Nat.strongRecOn with
  | ind n ih =>
    rcases Nat.lt_or_ge n 10 with hlt | hge
    · have hdigit : ∀ n < 10, 0 < n → n.digitChar ≠ '0' := by decide
      rw [numeral, Nat.toDigits_of_lt_base hlt]
      exact fun hzero => hdigit n hlt hpos (Option.some.inj hzero)
    · have hsmaller := ih (n / 10) (by omega) (by omega)
      rw [numeral_of_ten_le hge, List.head?_append]
      cases hhead : (numeral (n / 10)).head? with
      | none => exact absurd (List.head?_eq_none_iff.mp hhead) (numeral_ne_nil _)
      | some c => exact fun hzero => hsmaller (hhead.trans hzero)

theorem pos_of_one_lt_length_numeral (h : 1 < (numeral n).length) : 0 < n := by
  apply Nat.pos_of_ne_zero
  rintro rfl
  exact absurd h (by decide)

/-- Ten times a positive number has one digit more. -/
theorem length_numeral_mul_pow (hpos : 0 < n) (k : Nat) :
    (numeral (n * 10 ^ k)).length = (numeral n).length + k := by
  induction k with
  | zero => rw [Nat.pow_zero, Nat.mul_one, Nat.add_zero]
  | succ k ih =>
    have hten : n * 10 ^ (k + 1) = n * 10 ^ k * 10 := by ring
    have hge : 1 ≤ n * 10 ^ k := Nat.mul_pos hpos (Nat.pow_pos (by decide))
    rw [hten, numeral_of_ten_le (by omega), Nat.mul_div_cancel _ (by decide), List.length_append,
      ih]
    rfl

/-! ## Values -/

theorem numeralValue_append (digits digits' : List Char) :
    numeralValue (digits ++ digits') =
      numeralValue digits * 10 ^ digits'.length + numeralValue digits' := by
  rw [numeralValue, Nat.ofDigitChars_append, Nat.ofDigitChars_eq_ofDigitChars_zero, Nat.mul_comm]
  rfl

theorem numeralValue_zeros (k : Nat) : numeralValue (List.replicate k '0') = 0 := by
  rw [numeralValue, Nat.ofDigitChars_replicate_zero, Nat.mul_zero]

/-- Zeros in front do not count. -/
theorem numeralValue_zeros_append (k : Nat) (digits : List Char) :
    numeralValue (List.replicate k '0' ++ digits) = numeralValue digits := by
  rw [numeralValue_append, numeralValue_zeros, Nat.zero_mul, Nat.zero_add]

/-- Each zero at the end is a factor of ten. -/
theorem numeralValue_append_zeros (digits : List Char) (k : Nat) :
    numeralValue (digits ++ List.replicate k '0') = numeralValue digits * 10 ^ k := by
  rw [numeralValue_append, numeralValue_zeros, List.length_replicate, Nat.add_zero]

/-- Zeros in front do not count. -/
theorem numeralValue_dropWhile (digits : List Char) :
    numeralValue (digits.dropWhile (· == '0')) = numeralValue digits := by
  induction digits with
  | nil => rfl
  | cons c digits ih =>
    rw [List.dropWhile_cons]
    split
    · rename_i hzero
      rw [ih, eq_of_beq hzero]
      exact (numeralValue_zeros_append 1 digits).symm
    · rfl

theorem exists_trimZeros (digits : List Char) :
    ∃ k, digits = trimZeros digits ++ List.replicate k '0' := by
  have hzeros : ∀ c ∈ digits.reverse.takeWhile (· == '0'), c = '0' := by
    intro c hc
    have hzero := List.mem_takeWhile_imp (p := fun c => c == '0') hc
    exact eq_of_beq hzero
  refine ⟨(digits.reverse.takeWhile (· == '0')).length, ?_⟩
  rw [trimZeros, ← List.reverse_inj, List.reverse_append, List.reverse_reverse,
    List.reverse_replicate, ← List.eq_replicate_of_mem hzeros, List.takeWhile_append_dropWhile]

/-! ## Fractions -/

theorem length_paddedNumeral {width : Nat} (h : (numeral n).length ≤ width) :
    (paddedNumeral width n).length = width := by
  rw [paddedNumeral, List.length_append, List.length_replicate]
  omega

theorem numeralValue_paddedNumeral (width n : Nat) :
    numeralValue (paddedNumeral width n) = n := by
  rw [paddedNumeral, numeralValue_zeros_append, numeralValue_numeral]

theorem isDigit_of_mem_fractionDigits {places : Nat} {c : Char}
    (h : c ∈ fractionDigits places n) : c.isDigit = true := by
  obtain ⟨k, hk⟩ := exists_trimZeros (paddedNumeral places n)
  have hpadded : c ∈ paddedNumeral places n := by
    rw [hk]
    exact List.mem_append_left _ h
  rcases List.mem_append.mp hpadded with hc | hc
  · exact isDigit_of_mem_zeros hc
  · exact isDigit_of_mem_numeral hc

/-- A fraction has no more digits than places, and stands for what it was written for. -/
theorem fractionValue_fractionDigits {places : Nat} (hplaces : 0 < places) (hn : n < 10 ^ places) :
    (fractionDigits places n).length ≤ places ∧
      fractionValue places (fractionDigits places n) = n := by
  obtain ⟨k, hk⟩ := exists_trimZeros (paddedNumeral places n)
  have hlength := length_paddedNumeral ((length_numeral_le_iff hplaces).mpr hn)
  have hvalue := numeralValue_paddedNumeral places n
  rw [hk, numeralValue_append_zeros] at hvalue
  rw [hk, List.length_append, List.length_replicate] at hlength
  refine ⟨by rw [fractionDigits]; omega, ?_⟩
  have hzeros : places - (fractionDigits places n).length = k := by
    rw [fractionDigits]
    omega
  rw [fractionValue, hzeros]
  exact hvalue

theorem fractionDigits_ne_nil {places : Nat} (hplaces : 0 < places) (hpos : 0 < n)
    (hn : n < 10 ^ places) : fractionDigits places n ≠ [] := by
  intro hnil
  have hvalue := (fractionValue_fractionDigits hplaces hn).2
  rw [hnil, fractionValue] at hvalue
  exact absurd (hvalue.symm.trans (Nat.zero_mul _)) (Nat.ne_of_gt hpos)

/-! ## Cutting digits off a text -/

/-- A text that does not start with a digit. -/
def Undigit (rest : List Char) : Prop := ∀ c ∈ rest.head?, c.isDigit = false

theorem spanDigits_append (h : ∀ c ∈ digits, c.isDigit = true) (hrest : Undigit rest) :
    spanDigits (digits ++ rest) = (digits, rest) := by
  have hnone : rest.takeWhile Char.isDigit = [] ∧ rest.dropWhile Char.isDigit = rest := by
    cases rest with
    | nil => exact ⟨rfl, rfl⟩
    | cons c rest =>
      have hc := hrest c rfl
      rw [List.takeWhile_cons, List.dropWhile_cons, hc]
      exact ⟨rfl, rfl⟩
  rw [spanDigits, List.takeWhile_append_of_pos h, List.dropWhile_append_of_pos h, hnone.1, hnone.2,
    List.append_nil]

end RequestHedging.Text
