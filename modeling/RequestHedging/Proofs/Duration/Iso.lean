import RequestHedging.Duration.Written
import RequestHedging.Proofs.Text.Numeral

/-!
# ISO 8601 durations read back

Units that are written are read as they are, and those that are left out count nothing
(`Sums.unit`); seconds are written with all their nanoseconds (`sums_seconds`).  So what is written
of a duration is read as that duration, as long as its seconds are not too many to be read at all
(`read_write`).
-/

namespace RequestHedging.Duration.Iso

open Text

variable {n rank : Nat} {rest : List Char}

/-! ## Numbers -/

/-- The numbers that are short enough to be read. -/
def countLimit : Nat := 10 ^ mostDigits

/-- A number that is short enough reads as itself. -/
theorem readCount_numeral (hn : n < countLimit) (hrest : Undigit rest) :
    readCount (numeral n ++ rest) = some (n, rest) := by
  have hlength : ¬ mostDigits < (numeral n).length :=
    Nat.not_lt_of_le ((length_numeral_le_iff (by decide)).mpr hn)
  have hsome : (numeral n).isEmpty = false := List.isEmpty_eq_false_iff.mpr (numeral_ne_nil n)
  unfold readCount
  rw [spanDigits_append (fun _ => isDigit_of_mem_numeral) hrest]
  dsimp only
  rw [hsome, Bool.false_or, if_neg (by simpa using hlength), numeralValue_numeral]

/-- No point or comma, no fraction. -/
theorem readFraction_none {c : Char} (hpoint : c ≠ '.') (hcomma : c ≠ ',') (rest : List Char) :
    readFraction (c :: rest) = some (none, c :: rest) :=
  if_neg (not_or.mpr ⟨hpoint, hcomma⟩)

theorem readFraction_fractionDigits (hpos : 0 < n) (hn : n < 10 ^ 9) (hrest : Undigit rest) :
    readFraction ('.' :: (fractionDigits 9 n ++ rest)) = some (some n, rest) := by
  obtain ⟨hlength, hvalue⟩ := fractionValue_fractionDigits (by decide) hn
  have hsome : (fractionDigits 9 n).isEmpty = false :=
    List.isEmpty_eq_false_iff.mpr (fractionDigits_ne_nil (by decide) hpos hn)
  unfold readFraction
  dsimp only
  rw [if_pos (.inl rfl), spanDigits_append (fun _ => isDigit_of_mem_fractionDigits) hrest]
  dsimp only
  rw [hsome, Bool.false_or, if_neg (by simpa using hlength), hvalue]

/-! ## Units -/

/-- A text of units of lower ranks adds up to so many nanoseconds. -/
def Sums (rank : Nat) (text : List Char) (n : Nat) : Prop :=
  ∃ parts nanos, readUnits rank text = some parts ∧
    parts.mapM (Part.nanos mostSeconds) = some nanos ∧ nanos.foldr (· + ·) 0 = n

theorem sums_nil (rank : Nat) : Sums rank [] 0 := by
  refine ⟨[], [], ?_, rfl, rfl⟩
  rw [readUnits]
  rfl

/-- A letter of a unit is no part of a number. -/
theorem letter_of_unitOf? {letter : Char} {unit : TimeUnit} (h : unitOf? letter = some unit) :
    letter.isDigit = false ∧ letter ≠ '.' ∧ letter ≠ ',' := by
  unfold unitOf? at h
  split at h
  · rename_i hletter
    rcases hletter with rfl | rfl <;> decide
  · split at h
    · rename_i hletter
      rcases hletter with rfl | rfl <;> decide
    · split at h
      · rename_i hletter
        rcases hletter with rfl | rfl <;> decide
      · cases h

theorem readUnits_unit {letter : Char} {unit : TimeUnit} (hunit : unitOf? letter = some unit)
    (hrank : unit.rank < rank) (hn : n < countLimit) (rest : List Char) :
    readUnits rank (numeral n ++ letter :: rest) =
      (readUnits unit.rank rest).map (⟨unit, n, none⟩ :: ·) := by
  obtain ⟨hdigit, hpoint, hcomma⟩ := letter_of_unitOf? hunit
  have hrest : Undigit (letter :: rest) := by
    rintro c ⟨⟩
    exact hdigit
  have hsome : (numeral n ++ letter :: rest).isEmpty = false := by
    rw [List.isEmpty_eq_false_iff]
    exact List.append_ne_nil_of_right_ne_nil _ (List.cons_ne_nil _ _)
  rw [readUnits, hsome, if_neg Bool.false_ne_true, readCount_numeral hn hrest]
  dsimp only
  rw [readFraction_none hpoint hcomma]
  dsimp only
  rw [hunit]
  dsimp only
  rw [dif_pos hrank]

theorem eq_zero_of_writeUnit {count : Nat} {letter : Char} (h : writeUnit count letter = []) :
    count = 0 := by
  unfold writeUnit at h
  split at h
  · assumption
  · exact absurd h (List.append_ne_nil_of_right_ne_nil _ (List.cons_ne_nil _ _))

/-- A unit counts what it is written for, also if it is left out. -/
theorem Sums.unit {letter : Char} {unit : TimeUnit} {count : Nat}
    (h : ∀ rank, unit.rank ≤ rank → Sums rank rest n) (hunit : unitOf? letter = some unit)
    (hcount : count ≤ mostSeconds) (hrank : unit.rank < rank) :
    Sums rank (writeUnit count letter ++ rest) (count * unit.nanos + n) := by
  unfold writeUnit
  split
  · rename_i hzero
    rw [hzero, Nat.zero_mul, Nat.zero_add]
    exact h rank hrank.le
  · obtain ⟨parts, nanos, hread, hnanos, hsum⟩ := h unit.rank (Nat.le_refl _)
    have hlimit : count < countLimit := Nat.lt_of_le_of_lt hcount (by decide)
    have hpart : Part.nanos mostSeconds ⟨unit, count, none⟩ = some (count * unit.nanos) :=
      if_neg (Nat.not_lt_of_le hcount)
    refine ⟨⟨unit, count, none⟩ :: parts, count * unit.nanos :: nanos, ?_, ?_, ?_⟩
    · rw [List.append_assoc, List.singleton_append, readUnits_unit hunit hrank hlimit, hread]
      rfl
    · rw [List.mapM_cons, hpart, hnanos]
      rfl
    · rw [List.foldr_cons, hsum]

/-- Seconds with their billionths count all their nanoseconds. -/
theorem nanos_seconds (hn : n / 1000000000 ≤ mostSeconds) :
    Part.nanos mostSeconds ⟨.second, n / 1000000000,
      if n % 1000000000 = 0 then none else some (n % 1000000000)⟩ = some n := by
  have hsplit := Nat.div_add_mod' n 1000000000
  unfold Part.nanos
  rw [if_neg (Nat.not_lt_of_le hn)]
  split
  · rename_i hnone
    split at hnone
    · rename_i hzero
      rw [hzero, Nat.add_zero] at hsplit
      exact congrArg some hsplit
    · cases hnone
  · rename_i b hsome
    split at hsome
    · cases hsome
    · obtain rfl := Option.some.inj hsome
      have hwhole : n / 1000000000 * 1000000000 +
          1000000000 * (n % 1000000000) / 1000000000 = n := by
        rw [Nat.mul_div_cancel_left _ (by decide)]
        exact hsplit
      exact congrArg some hwhole

theorem readUnits_seconds (hn : n / 1000000000 ≤ mostSeconds)
    (hrank : TimeUnit.second.rank < rank) :
    readUnits rank (decimal 9 n ++ ['S']) = some [⟨.second, n / 1000000000,
      if n % 1000000000 = 0 then none else some (n % 1000000000)⟩] := by
  have hlimit : n / 1000000000 < countLimit := Nat.lt_of_le_of_lt hn (by decide)
  have hdecimal : decimal 9 n = numeral (n / 1000000000) ++
      if n % 1000000000 = 0 then [] else '.' :: fractionDigits 9 (n % 1000000000) := rfl
  rw [hdecimal, List.append_assoc]
  split
  · have hnil : readUnits TimeUnit.second.rank [] = some [] := by
      rw [readUnits]
      rfl
    rw [List.nil_append, readUnits_unit rfl hrank hlimit, hnil]
    rfl
  · rename_i hsome
    have hpos : 0 < n % 1000000000 := Nat.pos_of_ne_zero hsome
    have hmod : n % 1000000000 < 10 ^ 9 := Nat.mod_lt _ (by decide)
    have hletter : Undigit ['S'] := by
      rintro c ⟨⟩
      rfl
    have hpoint : Undigit ('.' :: (fractionDigits 9 (n % 1000000000) ++ ['S'])) := by
      rintro c ⟨⟩
      rfl
    have hne : (numeral (n / 1000000000) ++
        '.' :: (fractionDigits 9 (n % 1000000000) ++ ['S'])).isEmpty = false := by
      rw [List.isEmpty_eq_false_iff]
      exact List.append_ne_nil_of_right_ne_nil _ (List.cons_ne_nil _ _)
    have hunit : unitOf? 'S' = some .second := rfl
    rw [List.cons_append, readUnits, hne, if_neg Bool.false_ne_true,
      readCount_numeral hlimit hpoint]
    dsimp only
    rw [readFraction_fractionDigits hpos hmod hletter]
    dsimp only
    rw [hunit]
    dsimp only
    rw [dif_pos hrank]
    rfl

theorem sums_seconds (hn : n / 1000000000 ≤ mostSeconds) (hrank : TimeUnit.second.rank < rank) :
    Sums rank (decimal 9 n ++ ['S']) n := by
  refine ⟨_, [n], readUnits_seconds hn hrank, ?_, Nat.add_zero n⟩
  rw [List.mapM_cons, nanos_seconds hn]
  rfl

/-! ## Durations -/

/-- What is written adds up to the duration, and is not nothing. -/
theorem exists_sums_write (d : Duration) (hmost : d.nanos / 1000000000 ≤ mostSeconds) :
    ∃ units, write d = 'P' :: 'T' :: units ∧ units ≠ [] ∧
      Sums TimeUnit.aboveAll units d.nanos := by
  unfold write
  dsimp only
  generalize d.nanos = n at hmost ⊢
  have hhours : n / 1000000000 / 3600 ≤ mostSeconds := (Nat.div_le_self _ _).trans hmost
  have hminutes : n / 1000000000 / 60 % 60 ≤ mostSeconds :=
    (Nat.mod_le _ _).trans ((Nat.div_le_self _ _).trans hmost)
  have hseconds : n % 60000000000 / 1000000000 ≤ mostSeconds :=
    (Nat.div_le_div_right (Nat.mod_le _ _)).trans hmost
  have htotal : n / 1000000000 / 3600 * TimeUnit.hour.nanos +
      (n / 1000000000 / 60 % 60 * TimeUnit.minute.nanos + n % 60000000000) = n := by
    simp only [TimeUnit.nanos]
    omega
  have hlast : ∀ rank, TimeUnit.minute.rank ≤ rank →
      Sums rank (if n % 60000000000 = 0 ∧ 0 < n then []
        else decimal 9 (n % 60000000000) ++ ['S']) (n % 60000000000) := by
    intro rank hrank
    split
    · rename_i hnone
      rw [hnone.1]
      exact sums_nil rank
    · exact sums_seconds hseconds hrank
  have hletter : unitOf? 'M' = some .minute := rfl
  have hletter' : unitOf? 'H' = some .hour := rfl
  have hmiddle : ∀ rank, TimeUnit.hour.rank ≤ rank → Sums rank (writeUnit _ 'M' ++ _) _ :=
    fun rank hrank => Sums.unit hlast hletter hminutes hrank
  have hall : Sums TimeUnit.aboveAll (writeUnit _ 'H' ++ _) _ :=
    Sums.unit hmiddle hletter' hhours (by decide)
  rw [htotal, ← List.append_assoc] at hall
  refine ⟨_, rfl, ?_, hall⟩
  intro hnil
  obtain ⟨hunits, hlast⟩ := List.append_eq_nil_iff.mp hnil
  obtain ⟨hhour, hminute⟩ := List.append_eq_nil_iff.mp hunits
  split at hlast
  · -- no whole minute and no seconds, but not nothing either
    rename_i hnone
    have hzero := eq_zero_of_writeUnit hhour
    have hzero' := eq_zero_of_writeUnit hminute
    omega
  · exact List.append_ne_nil_of_right_ne_nil _ (List.cons_ne_nil _ _) hlast

/-! ## Characters -/

/-- A character of a written duration: a digit, or one of those around them. -/
def IsMark (c : Char) : Prop := c.isDigit = true ∨ c ∈ ['P', 'T', 'H', 'M', 'S', '.']

theorem isMark_writeUnit {count : Nat} {letter c : Char} (hletter : IsMark letter)
    (h : c ∈ writeUnit count letter) : IsMark c := by
  unfold writeUnit at h
  split at h
  · cases h
  · rcases List.mem_append.mp h with h | h
    · exact .inl (isDigit_of_mem_numeral h)
    · exact List.mem_singleton.mp h ▸ hletter

theorem isMark_decimal {c : Char} (h : c ∈ decimal 9 n) : IsMark c := by
  rcases List.mem_append.mp h with h | h
  · exact .inl (isDigit_of_mem_numeral h)
  · split at h
    · cases h
    · rcases List.mem_cons.mp h with rfl | h
      · exact .inr (by decide)
      · exact .inl (isDigit_of_mem_fractionDigits h)

theorem isMark_write {d : Duration} {c : Char} (h : c ∈ write d) : IsMark c := by
  rcases List.mem_cons.mp h with rfl | h
  · exact .inr (by decide)
  · rcases List.mem_cons.mp h with rfl | h
    · exact .inr (by decide)
    · rcases List.mem_append.mp h with h | h
      · rcases List.mem_append.mp h with h | h
        · exact isMark_writeUnit (.inr (by decide)) h
        · exact isMark_writeUnit (.inr (by decide)) h
      · split at h
        · cases h
        · rcases List.mem_append.mp h with h | h
          · exact isMark_decimal h
          · obtain rfl := List.mem_singleton.mp h
            exact .inr (by decide)

end RequestHedging.Duration.Iso

namespace RequestHedging.Duration

/-- A duration that can be written is read as it was. -/
theorem read_write {d : Duration} (hmost : d.nanos / 1000000000 ≤ mostSeconds) :
    read (Iso.write d) = .ok d := by
  obtain ⟨units, hwrite, hsome, parts, nanos, hread, hnanos, hsum⟩ := Iso.exists_sums_write d hmost
  have hlimit : d.nanos ≤ mostSeconds * 1000000000 + 999999999 := by omega
  have htotal : total false parts = some (d.nanos : Int) := by
    simp only [total, Bool.false_eq_true, if_false, hnanos, hsum, Option.bind_eq_bind,
      Option.bind_some, if_pos hlimit]
  have hiso : Iso.read ('P' :: 'T' :: units) = some (d.nanos : Int) := by
    simp [Iso.read, readSign, hsome, hread, htotal]
  have hsigned : readSigned ('P' :: 'T' :: units) = some (d.nanos : Int) := by
    simp [readSigned, readSign, hiso]
  rw [hwrite, read, hsigned]
  dsimp only
  rw [if_neg (by omega), Int.toNat_natCast, ofNanos_nanos]

end RequestHedging.Duration
