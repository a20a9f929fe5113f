import Mathlib.Order.Monotone.Basic
import Mathlib.Tactic.Ring
import RequestHedging.Binary64

/-!
# Rounding to the nearest double

A ratio rounds to a magnitude if it lies between the middles towards the magnitudes next to it,
where a middle belongs to the even one (`Rounds`).  Every ratio rounds to exactly one magnitude,
and `nearest` finds it (`nearest_eq_iff`).  So rounding does not depend on how a ratio is
written, keeps the order of ratios, and does not change what is a double already.
-/

namespace RequestHedging.Binary64

/-! ## Magnitudes in order -/

theorem exists_one_eq : ∃ e, one = Nat.pow 2 e := by
  have hpow : ∀ e, ∃ e', Nat.pow 2 e = Nat.pow 2 e' := fun e => ⟨e, rfl⟩
  unfold one
  exact hpow 1074

theorem one_pos : 0 < one := by
  obtain ⟨e, hone⟩ := exists_one_eq
  rw [hone]
  exact Nat.two_pow_pos e

theorem octave_pos : 0 < octave := Nat.two_pow_pos _

/-- The magnitudes of one octave are the multiples of a power of two, the first of the next one
included. -/
theorem grains_scaled {s w : Nat} (hw : w ≤ 2 * octave) (hs : octave ≤ w ∨ s = 0) :
    grains (s * octave + w) = w * Nat.pow 2 s := by
  have hpos := octave_pos
  rcases Nat.lt_or_ge w octave with hlt | hge
  · obtain rfl := hs.resolve_left (Nat.not_le_of_lt hlt)
    rw [Nat.zero_mul, Nat.zero_add, grains, if_pos hlt]
    exact (Nat.mul_one w).symm
  · obtain ⟨f, rfl⟩ := Nat.exists_eq_add_of_le hge
    rw [← Nat.add_assoc, ← Nat.succ_mul, grains,
      if_neg (Nat.not_lt_of_le (Nat.le_trans (Nat.le_mul_of_pos_left _ (Nat.succ_pos s))
        (Nat.le_add_right _ _)))]
    rcases Nat.lt_or_ge f octave with hf | hf
    · rw [Nat.mul_comm (s + 1), Nat.mul_add_mod, Nat.mod_eq_of_lt hf, Nat.mul_add_div hpos,
        Nat.div_eq_of_lt hf]
      rfl
    · obtain rfl : f = octave := Nat.le_antisymm (by omega) hf
      rw [← Nat.succ_mul, Nat.mul_mod_left, Nat.mul_div_cancel _ hpos]
      show (octave + 0) * 2 ^ (s + 1) = (octave + octave) * 2 ^ s
      ring

/-- Every magnitude is in an octave. -/
theorem exists_scaled (m : Nat) :
    ∃ s w, m = s * octave + w ∧ w < 2 * octave ∧ (octave ≤ w ∨ s = 0) := by
  have hpos := octave_pos
  rcases Nat.lt_or_ge m octave with hlt | hge
  · exact ⟨0, m, by omega, by omega, .inr rfl⟩
  · refine ⟨m / octave - 1, octave + m % octave, ?_, ?_, .inl (Nat.le_add_right _ _)⟩
    · have hdiv : 1 ≤ m / octave := (Nat.one_le_div_iff hpos).mpr hge
      have hsplit := Nat.div_add_mod' m octave
      have hone : (m / octave - 1) * octave + octave = m / octave * octave := by
        rw [← Nat.succ_mul, Nat.succ_eq_add_one, Nat.sub_add_cancel hdiv]
      omega
    · have := Nat.mod_lt m hpos
      omega

theorem grains_lt_succ (m : Nat) : grains m < grains (m + 1) := by
  obtain ⟨s, w, rfl, hw, hs⟩ := exists_scaled m
  have hnext : octave ≤ w + 1 ∨ s = 0 := hs.imp_left fun h => Nat.le_succ_of_le h
  rw [Nat.add_assoc, grains_scaled hw.le hs, grains_scaled hw hnext]
  exact Nat.mul_lt_mul_of_pos_right (Nat.lt_succ_self w) (Nat.two_pow_pos s)

/-- Greater bits are greater magnitudes. -/
theorem grains_strictMono : StrictMono grains := strictMono_nat_of_lt_succ grains_lt_succ

theorem grains_zero : grains 0 = 0 := if_pos octave_pos

/-- A whole number with no more binary digits than a double has is a double, and so are its
products with powers of two. -/
theorem exists_grains_eq {n : Nat} (hn : n ≤ 2 * octave) (e : Nat) :
    ∃ m, grains m = n * Nat.pow 2 e := by
  induction e generalizing n with
  | zero => exact ⟨0 * octave + n, grains_scaled hn (.inr rfl)⟩
  | succ e ih =>
    have hpow : Nat.pow 2 (e + 1) = Nat.pow 2 e * 2 := rfl
    rcases Nat.lt_or_ge n octave with hlt | hge
    · obtain ⟨m, hm⟩ := ih (n := 2 * n) (by omega)
      refine ⟨m, hm.trans ?_⟩
      rw [hpow, Nat.mul_comm 2 n, Nat.mul_assoc, Nat.mul_comm 2]
    · exact ⟨_, grains_scaled hn (.inl hge)⟩

/-! ## Rounding -/

/-- A ratio rounds to the magnitude with the given bits. -/
structure Rounds (num den m : Nat) : Prop where
  low : (grains (m - 1) + grains m) * den ≤ 2 * (num * one)
  high : 2 * (num * one) ≤ (grains m + grains (m + 1)) * den
  tie : 2 * (num * one) = (grains (m - 1) + grains m) * den ∨
    2 * (num * one) = (grains m + grains (m + 1)) * den → m % 2 = 0

section Rounds

variable {num den num' den' m m' : Nat}

/-- Of two magnitudes that a ratio rounds to, neither is greater. -/
theorem Rounds.le (hden : 0 < den) (h : Rounds num den m) (h' : Rounds num den m') : m' ≤ m := by
  by_contra hlt
  have hlt : m < m' := Nat.lt_of_not_le hlt
  have hleft : grains m ≤ grains (m' - 1) := grains_strictMono.monotone (by omega)
  have hright : grains (m + 1) ≤ grains m' := grains_strictMono.monotone hlt
  have hmiddle := Nat.mul_le_mul_right den (Nat.add_le_add hleft hright)
  have heq := Nat.le_antisymm (h.high.trans hmiddle) h'.low
  have heq' := Nat.le_antisymm h.high (hmiddle.trans h'.low)
  -- Only the middle of neighbours could round to both, but one of them is odd.
  have hsum : grains m + grains (m + 1) = grains (m' - 1) + grains m' :=
    Nat.eq_of_mul_eq_mul_right hden (heq'.symm.trans heq)
  have hnext : m + 1 = m' := grains_strictMono.injective (by omega)
  have heven := h.tie (.inr heq')
  have heven' := h'.tie (.inl heq)
  omega

/-- A ratio rounds to one magnitude only. -/
theorem Rounds.unique (hden : 0 < den) (h : Rounds num den m) (h' : Rounds num den m') : m = m' :=
  Nat.le_antisymm (h'.le hden h) (h.le hden h')

/-- Rounding does not depend on how a ratio is written. -/
theorem Rounds.congr (hden : 0 < den) (hden' : 0 < den') (hratio : num * den' = num' * den)
    (h : Rounds num den m) : Rounds num' den' m := by
  have hscale : den * (2 * (num' * one)) = den' * (2 * (num * one)) := by
    calc den * (2 * (num' * one)) = 2 * (num' * den * one) := by ring
      _ = 2 * (num * den' * one) := by rw [hratio]
      _ = den' * (2 * (num * one)) := by ring
  have hswap : ∀ g : Nat, den * (g * den') = den' * (g * den) := fun g => by ring
  refine ⟨?_, ?_, fun htie => h.tie (htie.imp ?_ ?_)⟩
  · apply Nat.le_of_mul_le_mul_left _ hden
    rw [hscale, hswap]
    exact Nat.mul_le_mul_left den' h.low
  · apply Nat.le_of_mul_le_mul_left _ hden
    rw [hscale, hswap]
    exact Nat.mul_le_mul_left den' h.high
  · intro heq
    apply Nat.eq_of_mul_eq_mul_left hden'
    rw [← hscale, ← hswap, heq]
  · intro heq
    apply Nat.eq_of_mul_eq_mul_left hden'
    rw [← hscale, ← hswap, heq]

/-! ## The nearest magnitude -/

/-- The nearest whole number is half of one away at most, and is even if it is half of one away. -/
theorem nearestWhole_bounds (num : Nat) (hden : 0 < den) :
    2 * (nearestWhole num den * den) ≤ 2 * num + den ∧
      2 * num ≤ 2 * (nearestWhole num den * den) + den ∧
      (2 * (nearestWhole num den * den) = 2 * num + den ∨
        2 * num = 2 * (nearestWhole num den * den) + den → nearestWhole num den % 2 = 0) := by
  have hsplit := Nat.div_add_mod' num den
  have hlt := Nat.mod_lt num hden
  unfold nearestWhole
  dsimp only
  generalize num / den = q at hsplit ⊢
  generalize num % den = r at hsplit hlt ⊢
  have hnext : (q + 1) * den = q * den + den := Nat.succ_mul q den
  split
  · omega
  · split
    · omega
    · split <;> omega

section Scaled

variable {s w d : Nat}

/-- In octave `s` the steps are of `2 ^ s` grains. -/
theorem grains_scaled_mul (hd : d = den * Nat.pow 2 s) (hw : w ≤ 2 * octave)
    (hs : octave ≤ w ∨ s = 0) : grains (s * octave + w) * den = w * d := by
  rw [grains_scaled hw hs, hd]
  ring

/-- The middle below is half a step away, unless the step below is shorter or there is none. -/
theorem middle_below (hden : 0 < den) (hd : d = den * Nat.pow 2 s) (hw : w ≤ 2 * octave)
    (hs : octave ≤ w ∨ s = 0) :
    (grains (s * octave + w - 1) + grains (s * octave + w)) * den + d = 2 * (w * d) ∨
      (w = octave ∧ s ≠ 0 ∧
        (grains (s * octave + w - 1) + grains (s * octave + w)) * den < 2 * (w * d)) ∨
      (w = 0 ∧ (grains (s * octave + w - 1) + grains (s * octave + w)) * den = 0) := by
  have hself := grains_scaled_mul hd hw hs
  rcases Nat.eq_zero_or_pos w with rfl | hwpos
  · obtain rfl := hs.resolve_left (Nat.not_le_of_lt octave_pos)
    refine .inr (.inr ⟨rfl, ?_⟩)
    simp only [Nat.zero_mul, Nat.zero_add, Nat.zero_sub, grains_zero]
  · by_cases hsame : octave ≤ w - 1 ∨ s = 0
    · refine .inl ?_
      have hstep : (w - 1) * d + d = w * d := by
        rw [← Nat.succ_mul, Nat.succ_eq_add_one, Nat.sub_add_cancel hwpos]
      rw [Nat.add_mul, hself, Nat.add_sub_assoc hwpos,
        grains_scaled_mul hd (Nat.le_trans (Nat.sub_le _ _) hw) hsame]
      omega
    · obtain ⟨hlt, hspos⟩ := not_or.mp hsame
      obtain rfl : w = octave := by
        have := hs.resolve_right hspos
        omega
      have hpred : grains (s * octave + octave - 1) < grains (s * octave + octave) :=
        grains_strictMono (by omega)
      have hmul := Nat.mul_lt_mul_of_pos_right hpred hden
      rw [hself] at hmul
      refine .inr (.inl ⟨rfl, hspos, ?_⟩)
      rw [Nat.add_mul, hself]
      omega

/-- The middle above is half a step away, unless the step above is longer. -/
theorem middle_above (hden : 0 < den) (hd : d = den * Nat.pow 2 s) (hw : w ≤ 2 * octave)
    (hs : octave ≤ w ∨ s = 0) :
    (grains (s * octave + w) + grains (s * octave + w + 1)) * den = 2 * (w * d) + d ∨
      (w = 2 * octave ∧
        2 * (w * d) < (grains (s * octave + w) + grains (s * octave + w + 1)) * den) := by
  have hself := grains_scaled_mul hd hw hs
  rcases Nat.lt_or_ge w (2 * octave) with hlt | hge
  · refine .inl ?_
    rw [Nat.add_mul, hself, Nat.add_assoc,
      grains_scaled_mul hd hlt (hs.imp_left Nat.le_succ_of_le), Nat.succ_mul]
    omega
  · obtain rfl : w = 2 * octave := Nat.le_antisymm hw hge
    have hmul := Nat.mul_lt_mul_of_pos_right (grains_lt_succ (s * octave + 2 * octave)) hden
    rw [hself] at hmul
    refine .inr ⟨rfl, ?_⟩
    rw [Nat.add_mul, hself]
    omega

/-- A multiple of a power of two that is near enough to a ratio is what it rounds to.  The multiple
may be at either end of its octave, but the ratio must not be beyond. -/
theorem rounds_scaled (hden : 0 < den) (hd : d = den * Nat.pow 2 s) (hw : w ≤ 2 * octave)
    (hs : octave ≤ w ∨ s = 0) (hlow : 2 * (w * d) ≤ 2 * (num * one) + d)
    (hhigh : 2 * (num * one) ≤ 2 * (w * d) + d)
    (htie : 2 * (w * d) = 2 * (num * one) + d ∨ 2 * (num * one) = 2 * (w * d) + d → w % 2 = 0)
    (hleast : s ≠ 0 → octave * d ≤ num * one) (hmost : num * one < 2 * octave * d) :
    Rounds num den (s * octave + w) := by
  have hparity : (s * octave + w) % 2 = w % 2 := by
    rw [Nat.add_mod, Nat.mul_mod, (by decide : octave % 2 = 0), Nat.mul_zero, Nat.zero_mod,
      Nat.zero_add, Nat.mod_mod]
  -- At the ends of an octave the ratio is not beyond, so the middle there is not reached.
  have hbelow : (grains (s * octave + w - 1) + grains (s * octave + w)) * den + d = 2 * (w * d) ∨
      (grains (s * octave + w - 1) + grains (s * octave + w)) * den < 2 * (num * one) ∨
      (w = 0 ∧ (grains (s * octave + w - 1) + grains (s * octave + w)) * den = 0) := by
    refine (middle_below hden hd hw hs).imp_right (.imp_left ?_)
    rintro ⟨rfl, hspos, hlt⟩
    exact hlt.trans_le (Nat.mul_le_mul_left 2 (hleast hspos))
  have habove : (grains (s * octave + w) + grains (s * octave + w + 1)) * den = 2 * (w * d) + d ∨
      2 * (num * one) < (grains (s * octave + w) + grains (s * octave + w + 1)) * den := by
    refine (middle_above hden hd hw hs).imp_right ?_
    rintro ⟨rfl, hlt⟩
    exact (Nat.mul_le_mul_left 2 hmost.le).trans_lt hlt
  refine ⟨by omega, by omega, fun heq => hparity.trans ?_⟩
  rcases heq with heq | heq
  · rcases hbelow with h | h | ⟨rfl, -⟩
    · exact htie (.inl (by omega))
    · exact absurd heq.symm (Nat.ne_of_lt h)
    · rfl
  · rcases habove with h | h
    · exact htie (.inr (heq.trans h))
    · exact absurd heq (Nat.ne_of_lt h)

end Scaled

/-- What is computed as nearest is what the ratio rounds to. -/
theorem rounds_nearest (num : Nat) (hden : 0 < den) : Rounds num den (nearest num den) := by
  have hpow : ∀ e, 0 < Nat.pow 2 e := Nat.two_pow_pos
  unfold nearest
  dsimp only
  generalize hshift : (num * one / den).log2 - 52 = s
  have hd : 0 < den * Nat.pow 2 s := Nat.mul_pos hden (hpow s)
  obtain ⟨hlow, hhigh, htie⟩ := nearestWhole_bounds (num * one) hd
  have hmost : num * one < 2 * octave * (den * Nat.pow 2 s) := by
    have hlog : num * one / den < 2 ^ (53 + s) :=
      Nat.lt_of_lt_of_le Nat.lt_log2_self (Nat.pow_le_pow_right (by decide) (by omega))
    calc num * one < 2 ^ (53 + s) * den := (Nat.div_lt_iff_lt_mul hden).mp hlog
      _ = 2 * 2 ^ 52 * (den * 2 ^ s) := by rw [pow_add]; ring
  have hleast : s ≠ 0 → octave * (den * Nat.pow 2 s) ≤ num * one := by
    intro hs
    have hne : num * one / den ≠ 0 := by
      intro hzero
      rw [hzero, Nat.log2_zero] at hshift
      omega
    have hlog : 2 ^ (52 + s) ≤ num * one / den := by
      rw [(by omega : 52 + s = (num * one / den).log2)]
      exact Nat.log2_self_le hne
    calc 2 ^ 52 * (den * 2 ^ s) = 2 ^ (52 + s) * den := by rw [pow_add]; ring
      _ ≤ num * one := (Nat.le_div_iff_mul_le hden).mp hlog
  generalize nearestWhole (num * one) (den * Nat.pow 2 s) = w at hlow hhigh htie ⊢
  generalize hd' : den * Nat.pow 2 s = d at *
  refine rounds_scaled hden hd'.symm ?_ ?_ hlow hhigh htie hleast hmost
  · by_contra hgt
    have hmul := Nat.mul_le_mul_right d (Nat.lt_of_not_le hgt)
    rw [Nat.succ_mul] at hmul
    omega
  · by_contra hnot
    obtain ⟨hlt, hs⟩ := not_or.mp hnot
    have hmul := Nat.mul_le_mul_right d (Nat.lt_of_not_le hlt)
    rw [Nat.succ_mul] at hmul
    have := hleast hs
    omega

theorem nearest_eq_iff (hden : 0 < den) : nearest num den = m ↔ Rounds num den m := by
  constructor
  · rintro rfl
    exact rounds_nearest num hden
  · exact (rounds_nearest num hden).unique hden

/-- Equal ratios have the same nearest magnitude. -/
theorem nearest_congr (hden : 0 < den) (hden' : 0 < den') (hratio : num * den' = num' * den) :
    nearest num den = nearest num' den' :=
  (nearest_eq_iff hden).mpr ((rounds_nearest num' hden').congr hden' hden hratio.symm)

/-- A double rounds to itself. -/
theorem nearest_of_grains (hden : 0 < den) (h : num * one = grains m * den) :
    nearest num den = m := by
  have hbelow : grains (m - 1) ≤ grains m := grains_strictMono.monotone (Nat.sub_le m 1)
  have habove := grains_lt_succ m
  have hlow := Nat.mul_le_mul_right den hbelow
  have hhigh := Nat.mul_lt_mul_of_pos_right habove hden
  rw [nearest_eq_iff hden]
  refine ⟨by rw [Nat.add_mul]; omega, by rw [Nat.add_mul]; omega, ?_⟩
  rw [Nat.add_mul, Nat.add_mul]
  rintro (heq | heq)
  · have hsame : grains (m - 1) = grains m := Nat.eq_of_mul_eq_mul_right hden (by omega)
    have hzero : m - 1 = m := grains_strictMono.injective hsame
    omega
  · omega

/-- Rounding keeps the order of ratios. -/
theorem nearest_le_nearest (hden : 0 < den) (hden' : 0 < den') (h : num * den' ≤ num' * den) :
    nearest num den ≤ nearest num' den' := by
  by_contra hlt
  have hlt := Nat.lt_of_not_le hlt
  have hlow := (rounds_nearest num hden).low
  have hhigh := (rounds_nearest num' hden').high
  have hleft : grains (nearest num' den') ≤ grains (nearest num den - 1) :=
    grains_strictMono.monotone (by omega)
  have hright : grains (nearest num' den' + 1) ≤ grains (nearest num den) :=
    grains_strictMono.monotone hlt
  have hmiddle := Nat.mul_le_mul_right (den' * den) (Nat.add_le_add hleft hright)
  -- Both ratios would be the middle between the two doubles.
  have hpos : 0 < 2 * one := Nat.mul_pos Nat.two_pos one_pos
  have hback : num' * den ≤ num * den' := by
    apply Nat.le_of_mul_le_mul_left _ hpos
    calc 2 * one * (num' * den) = 2 * (num' * one) * den := by ring
      _ ≤ (grains (nearest num' den') + grains (nearest num' den' + 1)) * den' * den :=
        Nat.mul_le_mul_right den hhigh
      _ = (grains (nearest num' den') + grains (nearest num' den' + 1)) * (den' * den) := by ring
      _ ≤ (grains (nearest num den - 1) + grains (nearest num den)) * (den' * den) := hmiddle
      _ = (grains (nearest num den - 1) + grains (nearest num den)) * den * den' := by ring
      _ ≤ 2 * (num * one) * den' := Nat.mul_le_mul_right den' hlow
      _ = 2 * one * (num * den') := by ring
  exact absurd (nearest_congr hden hden' (Nat.le_antisymm h hback)) (Nat.ne_of_gt hlt)

end Rounds

end RequestHedging.Binary64
