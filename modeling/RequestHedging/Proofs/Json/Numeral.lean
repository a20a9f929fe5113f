import RequestHedging.Json.Token
import RequestHedging.Proofs.Binary64.Nearest
import RequestHedging.Proofs.Text.Numeral

/-!
# What a written number is read as

A number is its digits times a power of ten (`Numeral.digits`, `Numeral.exponent`).  Zeros in front
and at the end of its fraction are left out before it is rounded, and that changes neither the
number nor, therefore, the double nearest to it (`Numeral.Shows.double?_eq`).
-/

namespace RequestHedging

open Text

namespace Binary64

def scaled (digits : Nat) (exponent : Int) : Nat :=
  nearest (digits * Nat.pow 10 exponent.toNat) (Nat.pow 10 (-exponent).toNat)

/-- Zeros at the end of the digits are as good as a greater exponent. -/
theorem scaled_mul_pow (digits k : Nat) (exponent : Int) :
    scaled (digits * 10 ^ k) exponent = scaled digits (exponent + k) := by
  apply nearest_congr (Nat.pow_pos (by decide)) (Nat.pow_pos (by decide))
  have hexponents : k + exponent.toNat + (-(exponent + k)).toNat =
      (exponent + k).toNat + (-exponent).toNat := by omega
  calc digits * 10 ^ k * 10 ^ exponent.toNat * 10 ^ (-(exponent + k)).toNat
      = digits * 10 ^ (k + exponent.toNat + (-(exponent + k)).toNat) := by
        rw [pow_add, pow_add]
        ring
    _ = digits * 10 ^ ((exponent + k).toNat + (-exponent).toNat) := by rw [hexponents]
    _ = digits * 10 ^ (exponent + k).toNat * 10 ^ (-exponent).toNat := by
        rw [pow_add]
        ring

/-- A number that is not far from the doubles is read as the double nearest to it. -/
theorem ofDecimal?_eq {negative : Bool} {digits : Nat} {exponent : Int} (hpos : 0 < digits)
    (hlow : -400 ≤ (numeral digits).length + exponent)
    (hhigh : (numeral digits).length + exponent ≤ 400)
    (hfinite : scaled digits exponent < infiniteBits) :
    ofDecimal? negative digits exponent =
      some (ofMagnitude negative (scaled digits exponent)) := by
  have hnot : ¬(digits = 0 ∨ ((Nat.toDigits 10 digits).length : Int) + exponent < -400) :=
    not_or.mpr ⟨Nat.ne_of_gt hpos, Int.not_lt.mpr hlow⟩
  have hnot' : ¬ 400 < ((Nat.toDigits 10 digits).length : Int) + exponent := Int.not_lt.mpr hhigh
  unfold ofDecimal?
  dsimp only
  rw [if_neg hnot, if_neg hnot']
  exact if_pos hfinite

end Binary64

namespace Json.Numeral

def digits (n : Numeral) : List Char := n.whole ++ n.fraction.getD []

def exponent (n : Numeral) : Int := n.power.getD 0 - (n.fraction.getD []).length

/-- A number is so many units of a power of ten; its digits may have more zeros at the end. -/
def Shows (n : Numeral) (value : Nat) (exponent : Int) : Prop :=
  ∃ k : Nat, numeralValue n.digits = value * 10 ^ k ∧ n.exponent + k = exponent

variable {n : Numeral} {value : Nat} {exponent : Int}

/-- The significant digits are all that count. -/
theorem shows_significant (n : Numeral) :
    n.Shows (numeralValue n.significant.1) n.significant.2 ∧
      n.significant.1.length ≤ n.digits.length := by
  obtain ⟨k, hk⟩ := exists_trimZeros (n.fraction.getD [])
  have hfraction : ((n.fraction.getD []).reverse.dropWhile (· == '0')).reverse =
      trimZeros (n.fraction.getD []) := rfl
  have hlength : (n.fraction.getD []).length = (trimZeros (n.fraction.getD [])).length + k := by
    conv_lhs => rw [hk]
    rw [List.length_append, List.length_replicate]
  refine ⟨⟨k, ?_, ?_⟩, ?_⟩
  · rw [digits, significant, hfraction]
    dsimp only
    rw [numeralValue_dropWhile, ← numeralValue_append_zeros, List.append_assoc, ← hk]
  · rw [significant, hfraction, exponent]
    dsimp only
    omega
  · have hdrop := (List.dropWhile_suffix (l := n.whole ++ trimZeros (n.fraction.getD []))
      (· == '0')).length_le
    rw [List.length_append] at hdrop
    rw [digits, significant, hfraction, List.length_append]
    dsimp only
    omega

/-- Digits that are not too many all count one by one. -/
theorem cut_eq (h : n.digits.length ≤ mostSignificant) : n.cut = n.significant :=
  if_neg (Nat.not_lt_of_le (n.shows_significant.2.trans h))

/-- A number is read as the double nearest to it, however many zeros its digits end in. -/
theorem Shows.double?_eq (h : n.Shows value exponent) (hlength : n.digits.length ≤ mostSignificant)
    (hpos : 0 < value) (hlow : -400 ≤ (numeral value).length + exponent)
    (hhigh : (numeral value).length + exponent ≤ 400)
    (hfinite : Binary64.scaled value exponent < Binary64.infiniteBits) :
    n.double? = some (Binary64.ofMagnitude n.negative (Binary64.scaled value exponent)) := by
  obtain ⟨k, hvalue, rfl⟩ := h
  obtain ⟨⟨z, hsignificant, hplace⟩, -⟩ := n.shows_significant
  have hpow : ∀ z, 0 < 10 ^ z := fun z => Nat.pow_pos (by decide)
  have hpos' : 0 < numeralValue n.significant.1 := by
    apply Nat.pos_of_ne_zero
    intro hzero
    rw [hzero, Nat.zero_mul, hvalue] at hsignificant
    exact absurd hsignificant (Nat.ne_of_gt (Nat.mul_pos hpos (hpow k)))
  have hscaled : Binary64.scaled (numeralValue n.significant.1) n.significant.2 =
      Binary64.scaled value (n.exponent + k) := by
    rw [← hplace, ← Binary64.scaled_mul_pow, ← hsignificant, hvalue, Binary64.scaled_mul_pow]
  have hdigits : (numeral (numeralValue n.significant.1)).length + z =
      (numeral value).length + k := by
    rw [← length_numeral_mul_pow hpos', ← hsignificant, hvalue, length_numeral_mul_pow hpos]
  rw [double?, cut_eq hlength, ← hscaled]
  rw [← hscaled] at hfinite
  exact Binary64.ofDecimal?_eq hpos' (by omega) (by omega) hfinite

end Json.Numeral

end RequestHedging
