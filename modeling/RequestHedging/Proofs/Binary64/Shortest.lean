import RequestHedging.Binary64.Shortest
import RequestHedging.Proofs.Binary64.Nearest

/-!
# Shortest decimals read back

What the search for a shortest decimal accepts is what rounds to the magnitude (`readsAs_iff`), so
the decimal found rounds to it (`fits_shortest`).  The search does not go down to the grid on which
every magnitude lies: on a grid whose steps are shorter than half a grain the point below any
magnitude is near enough to it (`readsAs_below`).  So the decimal does not have very many digits.
-/

namespace RequestHedging.Binary64.Decimal

variable {tie : Tie} {magnitude place : Nat}

def num (d : Decimal) : Nat := d.digits * Nat.pow 10 (d.place - 1074)

def den (d : Decimal) : Nat := Nat.pow 10 (1074 - d.place)

theorem den_pos (d : Decimal) : 0 < d.den := Nat.pow_pos (by decide)

/-- A decimal reads as a magnitude if it rounds to it. -/
theorem readsAs_iff (d : Decimal) (magnitude : Nat) :
    d.readsAs magnitude = true ↔ Rounds d.num d.den magnitude := by
  have htwice : d.twiceGrains = 2 * (d.num * one) := rfl
  unfold readsAs
  rw [htwice]
  dsimp only
  split
  · rename_i heven
    rw [Bool.and_eq_true, decide_eq_true_iff, decide_eq_true_iff]
    exact ⟨fun h => ⟨h.1, h.2, fun _ => heven⟩, fun h => ⟨h.low, h.high⟩⟩
  · rename_i hodd
    rw [Bool.and_eq_true, decide_eq_true_iff, decide_eq_true_iff]
    constructor
    · rintro ⟨hlow, hhigh⟩
      refine ⟨Nat.le_of_lt hlow, Nat.le_of_lt hhigh, ?_⟩
      rintro (heq | heq)
      · exact absurd heq (Nat.ne_of_gt hlow)
      · exact absurd heq (Nat.ne_of_lt hhigh)
    · intro h
      exact ⟨Nat.lt_of_le_of_ne h.low fun heq => hodd (h.tie (.inl heq.symm)),
        Nat.lt_of_le_of_ne h.high fun heq => hodd (h.tie (.inr heq))⟩

/-- What is found on a grid is one of the two points beside the magnitude, and rounds to it. -/
theorem eq_of_onGrid {d : Decimal} (h : onGrid tie magnitude place = some d) :
    (d = below magnitude place ∨ d = (below magnitude place).succ) ∧
      d.readsAs magnitude = true := by
  unfold onGrid at h
  dsimp only at h
  split at h
  · rename_i hbelow hsucc
    obtain rfl := Option.some.inj h
    unfold nearer
    dsimp only
    split
    · exact ⟨.inl rfl, hbelow⟩
    · split
      · exact ⟨.inr rfl, hsucc⟩
      · cases tie with
        | up => exact ⟨.inr rfl, hsucc⟩
        | even =>
          dsimp only
          split
          · exact ⟨.inl rfl, hbelow⟩
          · exact ⟨.inr rfl, hsucc⟩
  · rename_i hbelow _
    obtain rfl := Option.some.inj h
    exact ⟨.inl rfl, hbelow⟩
  · rename_i _ hsucc
    obtain rfl := Option.some.inj h
    exact ⟨.inr rfl, hsucc⟩
  · cases h

/-- If the point below a magnitude reads as it, there is a hit on the grid. -/
theorem exists_onGrid_of_readsAs (h : (below magnitude place).readsAs magnitude = true) :
    ∃ d, onGrid tie magnitude place = some d := by
  unfold onGrid
  dsimp only
  rw [h]
  cases (below magnitude place).succ.readsAs magnitude with
  | true => exact ⟨_, rfl⟩
  | false => exact ⟨_, rfl⟩

/-- The last place at which the search can arrive: its steps are shorter than half a grain. -/
def finest : Nat := 750

/-- At the last places, a step of the grid is no longer than half a grain. -/
theorem two_mul_one_le (h : place ≤ finest) : 2 * one ≤ Nat.pow 10 (1074 - place) := by
  have hfinest : 2 * one ≤ Nat.pow 10 (1074 - finest) := by
    unfold one finest
    decide +kernel
  have hle : 1074 - finest ≤ 1074 - place := Nat.sub_le_sub_left h 1074
  generalize 1074 - finest = parts at hfinest hle
  exact hfinest.trans (Nat.pow_le_pow_right (by decide) hle)

/-- Near enough to a magnitude is what is less than half a grain below. -/
theorem rounds_of_lt {num den : Nat} (hpos : 0 < magnitude)
    (hle : num * one ≤ grains magnitude * den)
    (hlt : 2 * (grains magnitude * den) < 2 * (num * one) + den) : Rounds num den magnitude := by
  have hden : 0 < den := by
    apply Nat.pos_of_ne_zero
    rintro rfl
    simp only [Nat.mul_zero] at hlt
    omega
  have hbelow : grains (magnitude - 1) + 1 ≤ grains magnitude := grains_strictMono (by omega)
  have hlow := Nat.mul_le_mul_right den hbelow
  have hhigh := Nat.mul_lt_mul_of_pos_right (grains_lt_succ magnitude) hden
  rw [Nat.add_mul, Nat.one_mul] at hlow
  constructor <;> simp only [Nat.add_mul] <;> omega

theorem readsAs_below (hpos : 0 < magnitude) (hplace : place ≤ finest) :
    (below magnitude place).readsAs magnitude = true := by
  rw [readsAs_iff]
  have hcoarse : place - 1074 = 0 := Nat.sub_eq_zero_of_le (hplace.trans (by decide))
  have hden : (below magnitude place).den = Nat.pow 10 (1074 - place) := rfl
  have hnum : (below magnitude place).num =
      grains magnitude * Nat.pow 10 (1074 - place) / one := by
    have hunit : Nat.pow 10 (place - 1074) = 1 := by rw [hcoarse]
    show grains magnitude * Nat.pow 10 (1074 - place) / (Nat.pow 10 (place - 1074) * one) *
      Nat.pow 10 (place - 1074) = _
    rw [hunit, Nat.one_mul, Nat.mul_one]
  have hfine := two_mul_one_le hplace
  rw [hnum, hden]
  generalize Nat.pow 10 (1074 - place) = parts at hfine ⊢
  have hsplit := Nat.div_add_mod' (grains magnitude * parts) one
  have hmod := Nat.mod_lt (grains magnitude * parts) one_pos
  exact rounds_of_lt hpos (by omega) (by omega)

/-! ## The search -/

/-- The search ends on a grid that is not finer than need be, at one of the two points beside the
magnitude, and that point rounds to it. -/
structure Hit (magnitude most : Nat) (d : Decimal) : Prop where
  finest_le : finest ≤ d.place
  place_le : d.place ≤ most
  beside : d = below magnitude d.place ∨ d = (below magnitude d.place).succ
  readsAs : d.readsAs magnitude = true

theorem place_of_onGrid {d : Decimal} (h : onGrid tie magnitude place = some d) :
    d.place = place := by
  rcases (eq_of_onGrid h).1 with rfl | rfl <;> rfl

theorem hit_of_onGrid {d : Decimal} (h : onGrid tie magnitude place = some d)
    (hplace : finest ≤ place) : Hit magnitude place d := by
  obtain ⟨hbeside, hreads⟩ := eq_of_onGrid h
  have heq := place_of_onGrid h
  rw [← heq] at hplace hbeside
  exact ⟨hplace, heq.le, hbeside, hreads⟩

theorem hit_search (hpos : 0 < magnitude) (tie : Tie) (n : Nat) :
    Hit magnitude (finest + n) (search tie magnitude (finest + n)) := by
  induction n with
  | zero =>
    obtain ⟨d, hd⟩ : ∃ d, onGrid tie magnitude finest = some d :=
      exists_onGrid_of_readsAs (readsAs_below hpos (Nat.le_refl finest))
    have hsearch : search tie magnitude finest = d := by
      show (onGrid tie magnitude finest).getD _ = d
      rw [hd]
      rfl
    rw [Nat.add_zero, hsearch]
    exact hit_of_onGrid hd (Nat.le_refl finest)
  | succ n ih =>
    show Hit magnitude (finest + n + 1) ((onGrid tie magnitude (finest + n + 1)).getD
      (search tie magnitude (finest + n)))
    cases hgrid : onGrid tie magnitude (finest + n + 1) with
    | some d => exact hit_of_onGrid hgrid (by omega)
    | none => exact ⟨ih.finest_le, ih.place_le.trans (Nat.le_succ _), ih.beside, ih.readsAs⟩

section Hit

variable {most : Nat} {d : Decimal}

theorem Hit.rounds (h : Hit magnitude most d) : Rounds d.num d.den magnitude :=
  (readsAs_iff d magnitude).mp h.readsAs

/-- Zero does not round to anything but zero. -/
theorem Hit.digits_pos (h : Hit magnitude most d) (hpos : 0 < magnitude) : 0 < d.digits := by
  by_contra hzero
  have hlow := h.rounds.low
  have hnum : d.num = 0 := by
    rw [num, Nat.eq_zero_of_not_pos hzero, Nat.zero_mul]
  have hgrains : 0 < grains magnitude := grains_zero ▸ grains_strictMono hpos
  have hmul : 0 < (grains (magnitude - 1) + grains magnitude) * d.den :=
    Nat.mul_pos (by omega) d.den_pos
  rw [hnum, Nat.zero_mul, Nat.mul_zero] at hlow
  omega

/-- The point has no more digits in front of its decimal point than the number itself, or one
more. -/
theorem Hit.digits_le (h : Hit magnitude most d) {n : Nat}
    (hn : grains magnitude < 10 ^ n * one) (hplace : d.place ≤ n + 1074) :
    d.digits ≤ 10 ^ (n + 1074 - d.place) := by
  have hbelow : (below magnitude d.place).digits < 10 ^ (n + 1074 - d.place) := by
    show grains magnitude * Nat.pow 10 (1074 - d.place) / (Nat.pow 10 (d.place - 1074) * one) < _
    apply Nat.div_lt_of_lt_mul
    have hparts : 0 < 10 ^ (1074 - d.place) := Nat.pow_pos (by decide)
    have hplaces : n + (1074 - d.place) = d.place - 1074 + (n + 1074 - d.place) := by omega
    generalize one = unit at hn ⊢
    calc grains magnitude * 10 ^ (1074 - d.place)
        < 10 ^ n * unit * 10 ^ (1074 - d.place) := Nat.mul_lt_mul_of_pos_right hn hparts
      _ = 10 ^ (n + (1074 - d.place)) * unit := by ring
      _ = 10 ^ (d.place - 1074 + (n + 1074 - d.place)) * unit := by rw [hplaces]
      _ = 10 ^ (d.place - 1074) * unit * 10 ^ (n + 1074 - d.place) := by ring
  rcases h.beside with heq | heq
  · exact (congrArg digits heq).le.trans hbelow.le
  · exact (congrArg digits heq).le.trans hbelow

end Hit

/-! ## The shortest decimal -/

/-- The most digits of a finite magnitude in front of its decimal point. -/
def mostWhole : Nat := 309

/-- The exponents are kept out of sight here, so that nothing tries to compute the numbers. -/
theorem exists_most :
    ∃ n, n = mostWhole ∧ ∀ magnitude < infiniteBits, grains magnitude < 10 ^ n * one := by
  obtain ⟨n, hn⟩ : ∃ n, n = mostWhole := ⟨_, rfl⟩
  obtain ⟨top, htop⟩ : ∃ top, top = 2046 := ⟨_, rfl⟩
  have hsplit : infiniteBits = top * octave + octave := by
    rw [htop]
    decide
  have hmost : octave * Nat.pow 2 top ≤ Nat.pow 10 n * one := by
    rw [hn, htop]
    unfold octave one mostWhole
    decide +kernel
  have htwice : octave ≤ 2 * octave := Nat.le_mul_of_pos_left octave Nat.two_pos
  have hlast : grains infiniteBits = octave * Nat.pow 2 top := by
    rw [hsplit]
    exact grains_scaled htwice (.inl (Nat.le_refl octave))
  exact ⟨n, hn, fun m h => Nat.lt_of_lt_of_le (grains_strictMono h) (hlast.le.trans hmost)⟩

/-- A finite magnitude has no more digits in front of its point than there is room for. -/
theorem length_whole_le (h : magnitude < infiniteBits) :
    (Nat.toDigits 10 (grains magnitude / one)).length ≤ mostWhole := by
  obtain ⟨n, hn, hmost⟩ := exists_most
  have hpos : 0 < n := hn ▸ Nat.succ_pos _
  rw [← hn, Nat.length_toDigits_le_iff (by decide) hpos]
  exact (Nat.div_lt_iff_lt_mul one_pos).mpr (hmost magnitude h)

/-- A decimal that rounds to a magnitude, of which all places fit what is read. -/
structure Fits (magnitude : Nat) (d : Decimal) : Prop where
  rounds : Rounds d.num d.den magnitude
  digits_pos : 0 < d.digits
  finest_le : finest ≤ d.place
  length_le : (Nat.toDigits 10 d.digits).length + d.place ≤ mostWhole + 1075

/-- The shortest decimal rounds to the magnitude it is found for. -/
theorem fits_shortest (hpos : 0 < magnitude) (hfinite : magnitude < infiniteBits) (tie : Tie) :
    Fits magnitude (shortest tie magnitude) := by
  have hwhole := length_whole_le hfinite
  have hgrains : grains magnitude / one < 10 ^ (Nat.toDigits 10 (grains magnitude / one)).length :=
    (Nat.length_toDigits_le_iff (by decide) Nat.length_toDigits_pos).mp (Nat.le_refl _)
  unfold shortest
  generalize (Nat.toDigits 10 (grains magnitude / one)).length = n at hwhole hgrains ⊢
  have hstart : n + 1074 = finest + (n + 324) := by
    unfold finest
    omega
  rw [hstart]
  have hhit := hit_search hpos tie (n + 324)
  generalize search tie magnitude (finest + (n + 324)) = d at hhit ⊢
  have hplace : d.place ≤ n + 1074 := hhit.place_le.trans hstart.ge
  have hmost : grains magnitude < 10 ^ n * one := (Nat.div_lt_iff_lt_mul one_pos).mp hgrains
  have hdigits := hhit.digits_le hmost hplace
  have hlength : (Nat.toDigits 10 d.digits).length ≤ n + 1074 - d.place + 1 := by
    rw [Nat.length_toDigits_le_iff (by decide) (Nat.succ_pos _)]
    exact Nat.lt_of_le_of_lt hdigits (Nat.pow_lt_pow_succ (by decide))
  exact ⟨hhit.rounds, hhit.digits_pos hpos, hhit.finest_le, by omega⟩

end RequestHedging.Binary64.Decimal
