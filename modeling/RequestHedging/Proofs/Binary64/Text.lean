import RequestHedging.Binary64.Text
import RequestHedging.Proofs.Binary64.Shortest
import RequestHedging.Proofs.Json.Numeral
import RequestHedging.Proofs.Json.Token

/-!
# Doubles read back

However a double is written, with the point among its digits, with zeros around them or with a
power of ten, it is a number with the digits of its shortest decimal (`Renders`).  That decimal
rounds to the double, so what is written of a finite double is read as that double
(`exists_numeral_text`).
-/

namespace RequestHedging.Binary64

open Text Json

/-! ## Digits and points -/

/-- The most zeros, with those of a fraction, that are written around digits. -/
def mostZeros : Nat := 16

/-- A text, after its sign, is a number with the digits of `value`, the point after so many of
them. -/
structure Renders (negative : Bool) (value : Nat) (point : Int) (text : List Char)
    (n : Numeral) : Prop where
  sound : n.Sound
  negative_eq : n.negative = negative
  chars_eq : n.chars = (if negative then ['-'] else []) ++ text
  shows : n.Shows value (point - (numeral value).length)
  length_le : n.digits.length ≤ (numeral value).length + mostZeros

section Renders

variable (negative : Bool) {value : Nat} {point : Int}

/-- Zeros in front of the digits. -/
theorem renders_small (hlow : -5 < point) (hhigh : point ≤ 0) :
    Renders negative value point (positional .config (numeral value) point)
      ⟨negative, ['0'], some (List.replicate (-point).toNat '0' ++ numeral value), none⟩ where
  sound := by
    refine ⟨List.cons_ne_nil _ _, ?_, fun h => absurd h (Nat.lt_irrefl 1), ?_, ?_⟩
    · exact fun c hc => isDigit_of_mem_zeros (k := 1) hc
    · rintro ds ⟨⟩
      exact List.append_ne_nil_of_right_ne_nil _ (numeral_ne_nil value)
    · rintro ds ⟨⟩ c hc
      exact (List.mem_append.mp hc).elim isDigit_of_mem_zeros isDigit_of_mem_numeral
  negative_eq := rfl
  chars_eq := by
    rw [positional, if_pos hhigh, Numeral.chars]
    simp only [Option.elim, List.append_nil, List.cons_append, List.nil_append]
  shows := by
    refine ⟨0, ?_, ?_⟩
    · have hzeros : numeralValue (List.replicate (-point).toNat '0' ++ numeral value) = value := by
        rw [numeralValue_zeros_append, numeralValue_numeral]
      rw [Nat.pow_zero, Nat.mul_one]
      exact (numeralValue_zeros_append 1 _).trans hzeros
    · simp only [Numeral.exponent, Option.getD, List.length_append, List.length_replicate]
      omega
  length_le := by
    simp only [Numeral.digits, Option.getD, List.length_append, List.length_replicate,
      List.length_singleton, mostZeros]
    omega

/-- The point among the digits. -/
theorem renders_among (hpos : 0 < value) (hlow : 0 < point)
    (hhigh : point.toNat < (numeral value).length) :
    Renders negative value point (positional .config (numeral value) point)
      ⟨negative, (numeral value).take point.toNat, some ((numeral value).drop point.toNat),
        none⟩ where
  sound := by
    have hwhole : point.toNat ≠ 0 := by omega
    refine ⟨?_, fun c hc => isDigit_of_mem_numeral (List.mem_of_mem_take hc), ?_, ?_, ?_⟩
    · simp [numeral_ne_nil, hwhole]
    · rw [List.head?_take, if_neg hwhole]
      exact fun _ => head?_numeral_ne hpos
    · rintro ds ⟨⟩
      simpa using hhigh
    · rintro ds ⟨⟩ c hc
      exact isDigit_of_mem_numeral (List.mem_of_mem_drop hc)
  negative_eq := rfl
  chars_eq := by
    rw [positional, if_neg (Int.not_le.mpr hlow), if_pos hhigh, Numeral.chars]
    simp only [Option.elim, List.append_nil]
  shows := by
    refine ⟨0, ?_, ?_⟩
    · rw [Nat.pow_zero, Nat.mul_one]
      simp only [Numeral.digits, Option.getD, List.take_append_drop, numeralValue_numeral]
    · simp only [Numeral.exponent, Option.getD, List.length_drop]
      omega
  length_le := by
    simp only [Numeral.digits, Option.getD, List.take_append_drop]
    omega

/-- Zeros after the digits, and one after the point. -/
theorem renders_whole (hpos : 0 < value) (hlow : (numeral value).length ≤ point.toNat)
    (hhigh : point ≤ 16) :
    Renders negative value point (positional .config (numeral value) point)
      ⟨negative, numeral value ++ List.replicate (point.toNat - (numeral value).length) '0',
        some ['0'], none⟩ where
  sound := by
    refine ⟨List.append_ne_nil_of_left_ne_nil (numeral_ne_nil value) _, ?_, ?_, ?_, ?_⟩
    · exact fun c hc =>
        (List.mem_append.mp hc).elim isDigit_of_mem_numeral isDigit_of_mem_zeros
    · obtain ⟨c, digits, hdigits⟩ := List.exists_cons_of_ne_nil (numeral_ne_nil value)
      have hhead := head?_numeral_ne hpos
      rw [hdigits] at hhead ⊢
      exact fun _ => hhead
    · rintro ds ⟨⟩
      exact List.cons_ne_nil _ _
    · rintro ds ⟨⟩
      exact fun c hc => isDigit_of_mem_zeros (k := 1) hc
  negative_eq := rfl
  chars_eq := by
    have hpoint : 0 < point := by
      have := length_numeral_pos value
      omega
    have hpoint' : Style.config.keepsPoint = true := rfl
    rw [positional, if_neg (Int.not_le.mpr hpoint), if_neg (Nat.not_lt.mpr hlow), hpoint',
      Numeral.chars]
    simp only [Option.elim, List.append_nil, List.append_assoc, if_true]
  shows := by
    refine ⟨point.toNat - (numeral value).length + 1, ?_, ?_⟩
    · simp only [Numeral.digits, Option.getD, List.append_assoc]
      rw [← List.replicate_succ', numeralValue_append_zeros, numeralValue_numeral]
    · have := length_numeral_pos value
      simp only [Numeral.exponent, Option.getD, List.length_singleton]
      omega
  length_le := by
    have := length_numeral_pos value
    simp only [Numeral.digits, Option.getD, List.length_append, List.length_replicate,
      List.length_singleton, mostZeros]
    omega

/-- The point after the first digit, if there are more, and a power of ten. -/
theorem renders_exponential (value : Nat) (point : Int) :
    Renders negative value point (exponential .config (numeral value) point)
      ⟨negative, (numeral value).take 1,
        if ((numeral value).drop 1).isEmpty then none else some ((numeral value).drop 1),
        some (point - 1)⟩ := by
  have hvalue := numeralValue_numeral value
  have hdigit : ∀ c ∈ numeral value, c.isDigit = true := fun c => isDigit_of_mem_numeral
  have hsigns : Style.config.signsPower = true := rfl
  obtain ⟨c, rest, hdigits⟩ := List.exists_cons_of_ne_nil (numeral_ne_nil value)
  have hgetD : (if rest.isEmpty then none else some rest).getD [] = rest := by
    cases rest <;> rfl
  have helim : (if rest.isEmpty then none else some rest).elim [] ('.' :: ·) =
      if rest.isEmpty then [] else '.' :: rest := by
    cases rest <;> rfl
  have hmem : ∀ ds ∈ (if rest.isEmpty then none else some rest), ds ≠ [] ∧ ds = rest := by
    cases rest with
    | nil => exact fun ds h => absurd h (Option.not_mem_none ds)
    | cons d rest =>
      rintro ds ⟨⟩
      exact ⟨List.cons_ne_nil _ _, rfl⟩
  rw [exponential, hdigits, hsigns]
  rw [hdigits] at hvalue hdigit
  simp only [List.take_succ_cons, List.take_zero, List.drop_succ_cons, List.drop_zero]
  constructor
  case sound =>
    refine ⟨List.cons_ne_nil _ _, ?_, fun h => absurd h (Nat.lt_irrefl 1),
      fun ds h => (hmem ds h).1, fun ds h c hc => ?_⟩
    · intro d hd
      exact hdigit d (List.mem_cons.mpr (.inl (List.mem_singleton.mp hd)))
    · exact hdigit c (List.mem_cons_of_mem _ ((hmem ds h).2 ▸ hc))
  case negative_eq => rfl
  case chars_eq =>
    rw [Numeral.chars, helim]
    simp only [Option.elim, Numeral.powerChars, if_true, List.append_assoc]
    by_cases hneg : point - 1 < 0
    · rw [if_pos hneg, if_pos hneg]
      rfl
    · rw [if_neg hneg, if_neg hneg]
      rfl
  case shows =>
    refine ⟨0, ?_, ?_⟩
    · rw [Nat.pow_zero, Nat.mul_one, Numeral.digits, hgetD]
      exact hvalue
    · rw [Numeral.exponent, hgetD, hdigits]
      simp only [Option.getD, List.length_cons]
      omega
  case length_le =>
    rw [Numeral.digits, hgetD, hdigits]
    exact Nat.le_add_right _ _

/-- Whether written with a power of ten or without, the digits and the point are the same. -/
theorem exists_renders (hpos : 0 < value) (point : Int) :
    ∃ n, Renders negative value point
      (if Style.config.isPositional point then positional .config (numeral value) point
        else exponential .config (numeral value) point) n := by
  split
  · rename_i hpositional
    have hbounds : -5 < point ∧ point ≤ 16 := by simpa [Style.config] using hpositional
    rcases Int.lt_or_le 0 point with hlow | hhigh
    · rcases Nat.lt_or_ge point.toNat (numeral value).length with hlt | hge
      · exact ⟨_, renders_among negative hpos hlow hlt⟩
      · exact ⟨_, renders_whole negative hpos hge hbounds.2⟩
    · exact ⟨_, renders_small negative hbounds.1 hhigh⟩
  · exact ⟨_, renders_exponential negative value point⟩

end Renders

/-! ## Doubles -/

variable {m : Nat}

theorem Decimal.Fits.scaled_eq {d : Decimal} (h : d.Fits m) :
    scaled d.digits (d.place - 1074) = m := by
  have hnum : ((d.place : Int) - 1074).toNat = d.place - 1074 := by omega
  have hden : (-((d.place : Int) - 1074)).toNat = 1074 - d.place := by omega
  rw [scaled, hnum, hden]
  exact (nearest_eq_iff d.den_pos).mpr h.rounds

theorem ofMagnitude_isNegative (x : Binary64) : ofMagnitude x.isNegative x.magnitude = x := by
  have hbits : (if x.isNegative then signBit + x.magnitude else x.magnitude) = x.bits.toNat := by
    have hlt := x.bits.toNat_lt
    unfold isNegative magnitude signBit
    split <;> simp at * <;> omega
  rw [ofMagnitude, hbits, UInt64.ofNat_toNat]

/-- A positive magnitude is written by its shortest decimal. -/
theorem magnitudeText_of_pos (style : Style) (hpos : 0 < m) {d : Decimal} {point : Int}
    (hd : Decimal.shortest style.tie m = d)
    (hpoint : (numeral d.digits).length + d.place - 1074 = point) :
    magnitudeText style m =
      if style.isPositional point then positional style (numeral d.digits) point
      else exponential style (numeral d.digits) point := by
  subst hpoint
  subst hd
  rw [magnitudeText, if_neg (Nat.ne_of_gt hpos)]

/-- What is written of a finite magnitude, with any sign, is read as that magnitude. -/
theorem exists_numeral_magnitudeText (negative : Bool) (hfinite : m < infiniteBits) :
    ∃ n : Numeral, n.Sound ∧
      n.chars = (if negative then ['-'] else []) ++ magnitudeText .config m ∧
      n.double? = some (ofMagnitude negative m) := by
  rcases Nat.eq_zero_or_pos m with rfl | hpos
  · refine ⟨⟨negative, ['0'], some ['0'], none⟩, ?_, ?_, ?_⟩
    · constructor <;> simp
    · cases negative <;> rfl
    · cases negative <;> rfl
  · have hfits := Decimal.fits_shortest hpos hfinite .even
    generalize hd : Decimal.shortest .even m = d at hfits
    obtain ⟨n, hn⟩ := exists_renders negative hfits.digits_pos
      ((numeral d.digits).length + d.place - 1074)
    rw [← magnitudeText_of_pos .config hpos hd rfl] at hn
    obtain ⟨hsound, rfl, hchars, hshows, hlength⟩ := hn
    have hexponent : ((numeral d.digits).length : Int) + d.place - 1074 -
        (numeral d.digits).length = d.place - 1074 := by omega
    rw [hexponent] at hshows
    have hplace := hfits.finest_le
    have hmost : (numeral d.digits).length + d.place ≤ Decimal.mostWhole + 1075 := hfits.length_le
    unfold Decimal.finest at hplace
    unfold Decimal.mostWhole at hmost
    have hdouble := hshows.double?_eq (hlength.trans ?_) hfits.digits_pos (by omega) (by omega)
      (hfits.scaled_eq.symm ▸ hfinite)
    · rw [hfits.scaled_eq] at hdouble
      exact ⟨n, hsound, hchars, hdouble⟩
    · unfold mostZeros Numeral.mostSignificant
      omega

/-- What is written of a finite double is a number that is read as that double. -/
theorem exists_numeral_text {x : Binary64} (hfinite : x.isFinite = true) :
    ∃ n : Numeral, n.Sound ∧ n.chars = (x.text .config).toList ∧ n.double? = some x := by
  have hlt : x.magnitude < infiniteBits := of_decide_eq_true hfinite
  have hnumber : x.isNaN = false := decide_eq_false (Nat.not_lt_of_gt hlt)
  obtain ⟨n, hsound, hchars, hdouble⟩ := exists_numeral_magnitudeText x.isNegative hlt
  refine ⟨n, hsound, ?_, ?_⟩
  · rw [text, hnumber, hfinite, hchars]
    exact String.toList_ofList.symm
  · rw [hdouble, ofMagnitude_isNegative]

end RequestHedging.Binary64
