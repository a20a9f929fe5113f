import RequestHedging.Latency.Estimator
import RequestHedging.Proofs.Word

/-!
# The arithmetic of rotation

A rotation subtracts, divides and adds words, and it walks round the ring by position.  As the next
rotation is never due at zero and a step is never empty, the words have room for all of it:
`rotate?_bare` says so of a rotation in which every such operation may fail.

The next rotation is due at the end of a step (`OnGrid`), and a rotation moves it to the end of the
step that the reading is in.  At the greatest word time stands still: the reading gets no larger,
and the next rotation is due there.
-/

namespace RequestHedging.Latency

/-! ## Steps -/

def Options.stepNanos (o : Options) : Nat :=
  min (max 1 (o.window.nanos / o.rotations.toNat)) Word.greatest

theorem Options.toNat_wordNanos_step (o : Options) : o.step.wordNanos.toNat = o.stepNanos := by
  rw [Duration.wordNanos, Word.toNat_clamp, step, Duration.nanos_max, stepNanos, Nat.max_comm]
  rfl

theorem Options.stepNanos_pos (o : Options) : 0 < o.stepNanos := by
  exact Nat.le_min.mpr ⟨Nat.le_max_left _ _, by decide⟩

namespace Estimator

variable {e : Estimator} {k : Nat} {now : Instant}

theorem toNat_stepWord (e : Estimator) : e.stepWord.toNat = e.options.stepNanos := by
  have hstep := e.options.toNat_wordNanos_step
  unfold stepWord
  split
  · rename_i hzero
    rw [hzero] at hstep
    exact absurd hstep (Nat.ne_of_lt e.options.stepNanos_pos)
  · exact hstep

/-! ## One rotation -/

theorem options_turns (e : Estimator) (n : Nat) : (e.turns n).options = e.options := by
  induction n generalizing e with
  | zero => rfl
  | succ n ih => exact ih e.turn

theorem created_turns (e : Estimator) (n : Nat) : (e.turns n).created = e.created := by
  induction n generalizing e with
  | zero => rfl
  | succ n ih => exact ih e.turn

theorem nextRotation_turns (e : Estimator) (n : Nat) :
    (e.turns n).nextRotation = e.nextRotation := by
  induction n generalizing e with
  | zero => rfl
  | succ n ih => exact ih e.turn

/-- Before the next rotation nothing turns. -/
theorem rotate_of_lt (h : e.reading now < e.nextRotation) : e.rotate now = e :=
  if_pos h

/-- From then on, the turns due are caught up on, as far as there are places to empty. -/
theorem rotate_of_le (h : e.nextRotation ≤ e.reading now) :
    e.rotate now =
      { e.turns (min (e.due (e.reading now)).toNat e.options.rotations.toNat) with
        nextRotation :=
          Word.add e.nextRotation (Word.mul (e.due (e.reading now)) e.stepWord) } :=
  if_neg (UInt64.not_lt.mpr h)

theorem options_rotate (e : Estimator) (now : Instant) : (e.rotate now).options = e.options := by
  rcases UInt64.lt_or_le (e.reading now) e.nextRotation with h | h
  · rw [rotate_of_lt h]
  · rw [rotate_of_le h]
    exact options_turns e _

theorem created_rotate (e : Estimator) (now : Instant) : (e.rotate now).created = e.created := by
  rcases UInt64.lt_or_le (e.reading now) e.nextRotation with h | h
  · rw [rotate_of_lt h]
  · rw [rotate_of_le h]
    exact created_turns e _

/-- Readings saturate. -/
theorem toNat_reading_eq_min (e : Estimator) (now : Instant) :
    (e.reading now).toNat = min (now - e.created) Word.greatest := by
  have hlong : Word.greatest ≤ Duration.longestNanos := by decide
  rw [reading, Duration.wordNanos, Word.toNat_clamp, elapsed, Duration.nanos_ofNanos,
    Nat.min_assoc, Nat.min_eq_right hlong]

/-- The age is read exactly while it fits a word. -/
theorem toNat_reading (h : now - e.created < Word.greatest) :
    (e.reading now).toNat = now - e.created := by
  rw [toNat_reading_eq_min, Nat.min_eq_left (Nat.le_of_lt h)]

/-- After that it is read as the greatest word. -/
theorem toNat_reading_of_late (h : Word.greatest ≤ now - e.created) :
    (e.reading now).toNat = Word.greatest := by
  rw [toNat_reading_eq_min, Nat.min_eq_right h]

/-- A turn is due for the time that the rotation was due at, and for every step since. -/
theorem toNat_due {reading : UInt64} (hpos : 0 < e.nextRotation.toNat)
    (hle : e.nextRotation ≤ reading) :
    (e.due reading).toNat =
      (reading.toNat - e.nextRotation.toNat) / e.options.stepNanos + 1 := by
  have hword : (reading.toNat - e.nextRotation.toNat) / e.options.stepNanos + 1 < 2 ^ 64 := by
    have hdiv := Nat.div_le_self (reading.toNat - e.nextRotation.toNat) e.options.stepNanos
    have hreading := reading.toNat_lt
    have hle' := UInt64.le_iff_toNat_le.mp hle
    omega
  rw [due, UInt64.toNat_add, UInt64.toNat_div, UInt64.toNat_sub_of_le _ _ hle, toNat_stepWord]
  exact Nat.mod_eq_of_lt hword

theorem min_add_min (a b c : Nat) : min (a + min b c) c = min (a + b) c := by
  omega

/-- When the next rotation is due after one that was. -/
theorem toNat_nextRotation_of_le (hpos : 0 < e.nextRotation.toNat)
    (hle : e.nextRotation ≤ e.reading now) :
    (e.rotate now).nextRotation.toNat = min (e.nextRotation.toNat +
      (((e.reading now).toNat - e.nextRotation.toNat) / e.options.stepNanos + 1) *
        e.options.stepNanos) Word.greatest := by
  rw [rotate_of_le hle, Word.toNat_add, Word.toNat_mul, min_add_min, toNat_due hpos hle,
    toNat_stepWord]

/-! ## The grid of steps -/

/-- The next rotation is due at the end of step `k`. -/
def OnGrid (e : Estimator) (k : Nat) : Prop :=
  e.nextRotation.toNat = min ((k + 1) * e.options.stepNanos) Word.greatest

theorem onGrid_new (options : Options) (now : Instant) : (new options now).OnGrid 0 := by
  have hle : options.stepNanos ≤ Word.greatest := Nat.min_le_right _ _
  rw [OnGrid, Nat.zero_add, Nat.one_mul]
  exact options.toNat_wordNanos_step.trans (Nat.min_eq_left hle).symm

section OnGrid

variable (h : e.OnGrid k)

include h

theorem OnGrid.pos : 0 < e.nextRotation.toNat := by
  rw [h]
  exact Nat.lt_min.mpr ⟨Nat.mul_pos (Nat.succ_pos k) e.options.stepNanos_pos, by decide⟩

/-- Before the next rotation no step has passed. -/
theorem OnGrid.step_eq (hlt : e.reading now < e.nextRotation)
    (hk : k ≤ (e.reading now).toNat / e.options.stepNanos) :
    (e.reading now).toNat / e.options.stepNanos = k := by
  have hlt' := UInt64.lt_iff_toNat_lt.mp hlt
  rw [h] at hlt'
  have hstep : (e.reading now).toNat / e.options.stepNanos < k + 1 :=
    (Nat.div_lt_iff_lt_mul e.options.stepNanos_pos).mpr
      (Nat.lt_of_lt_of_le hlt' (Nat.min_le_left _ _))
  exact Nat.le_antisymm (Nat.le_of_lt_succ hstep) hk

/-- As many turns are due as steps have passed. -/
theorem OnGrid.toNat_due (hle : e.nextRotation ≤ e.reading now)
    (hfits : (k + 1) * e.options.stepNanos ≤ Word.greatest) :
    (e.due (e.reading now)).toNat = (e.reading now).toNat / e.options.stepNanos - k := by
  have hnext : e.nextRotation.toNat = (k + 1) * e.options.stepNanos :=
    Eq.trans h (Nat.min_eq_left hfits)
  have hle' := UInt64.le_iff_toNat_le.mp hle
  rw [hnext] at hle'
  have hsteps : k + 1 ≤ (e.reading now).toNat / e.options.stepNanos :=
    (Nat.le_div_iff_mul_le e.options.stepNanos_pos).mpr hle'
  rw [Estimator.toNat_due h.pos hle, hnext, Nat.mul_comm, Nat.sub_mul_div]
  omega

/-- A rotation moves the next one to the end of the step that the reading is in. -/
theorem OnGrid.rotate (hk : k ≤ (e.reading now).toNat / e.options.stepNanos) :
    (e.rotate now).OnGrid ((e.reading now).toNat / e.options.stepNanos) := by
  rcases UInt64.lt_or_le (e.reading now) e.nextRotation with hlt | hle
  · rw [rotate_of_lt hlt, h.step_eq hlt hk]
    exact h
  · have hnext := toNat_nextRotation_of_le h.pos hle
    have hle' := UInt64.le_iff_toNat_le.mp hle
    have hword := Word.toNat_le_greatest (e.reading now)
    rw [OnGrid, hnext, options_rotate]
    rcases Nat.le_total ((k + 1) * e.options.stepNanos) Word.greatest with hfits | hfull
    · rw [← Estimator.toNat_due h.pos hle, h.toNat_due hle hfits, h, Nat.min_eq_left hfits,
        ← Nat.add_mul, Nat.add_right_comm, Nat.add_sub_cancel' hk]
    · -- The grid goes on beyond the greatest word, and so does the end of the step.
      have hlast : e.nextRotation.toNat = Word.greatest := Eq.trans h (Nat.min_eq_right hfull)
      have hreading : (e.reading now).toNat = Word.greatest := Nat.le_antisymm hword (hlast ▸ hle')
      have hend : Word.greatest < (Word.greatest / e.options.stepNanos + 1) * e.options.stepNanos :=
        Nat.lt_mul_of_div_lt (Nat.lt_succ_self _) e.options.stepNanos_pos
      rw [hlast, hreading, Nat.min_eq_right (Nat.le_add_right _ _),
        Nat.min_eq_right (Nat.le_of_lt hend)]

/-- The next rotation is due at a multiple of the step, unless that is too large for a word. -/
theorem OnGrid.eq_greatest_or :
    e.nextRotation.toNat = Word.greatest ∨
      ∃ n, 0 < n ∧ e.nextRotation.toNat = n * e.options.stepNanos := by
  rcases Nat.le_total ((k + 1) * e.options.stepNanos) Word.greatest with hfits | hfull
  · exact .inr ⟨k + 1, Nat.succ_pos k, Eq.trans h (Nat.min_eq_left hfits)⟩
  · exact .inl (Eq.trans h (Nat.min_eq_right hfull))

end OnGrid

/-- The end of the step that a number is in lies ahead of it, by a step at most. -/
theorem OnGrid.ahead {n : Nat} (h : e.OnGrid (n / e.options.stepNanos)) (hn : n < Word.greatest) :
    n < e.nextRotation.toNat ∧ e.nextRotation.toNat - n ≤ e.options.stepNanos := by
  have hend : n < (n / e.options.stepNanos + 1) * e.options.stepNanos :=
    Nat.lt_mul_of_div_lt (Nat.lt_succ_self _) e.options.stepNanos_pos
  have hbegin := Nat.div_mul_le_self n e.options.stepNanos
  rw [Nat.add_mul, Nat.one_mul] at hend
  rw [h, Nat.add_mul, Nat.one_mul]
  omega

/-! ## Rotation that may fail -/

end Estimator

/-- What a rotation changes, as bare data: nothing in it says that there is a histogram at the
position. -/
structure Bare where
  ring : List Histogram
  oldest : Nat
  nextRotation : UInt64

namespace Bare

/-- Turns the ring so many times, unless the position leaves it. -/
def turns? (b : Bare) : Nat → Option Bare
  | 0 => some b
  | n + 1 =>
    if b.oldest < b.ring.length then
      turns? { b with
        ring := b.ring.set b.oldest .empty
        oldest := (b.oldest + 1) % b.ring.length } n
    else none

/-- Catches up on the turns due at a reading, unless an operation on the way fails. -/
def rotate? (b : Bare) (step reading : UInt64) : Option Bare :=
  if reading < b.nextRotation then some b
  else do
    let due ← Word.add? (← Word.div? (← Word.sub? reading b.nextRotation) step) 1
    let turned ← b.turns? (min due.toNat b.ring.length)
    return { turned with nextRotation := Word.add b.nextRotation (Word.mul due step) }

end Bare

namespace Estimator

variable {e : Estimator} {now : Instant}

def bare (e : Estimator) : Bare := ⟨e.ring.toList, e.oldest, e.nextRotation⟩

theorem length_ring_bare (e : Estimator) : e.bare.ring.length = e.options.rotations.toNat :=
  Vector.length_toList

/-- The position lies within the ring. -/
theorem oldest_lt_length (e : Estimator) : e.bare.oldest < e.bare.ring.length := by
  rw [length_ring_bare]
  exact e.oldest.isLt

/-- No turn leaves the ring. -/
theorem turns?_bare (e : Estimator) (n : Nat) : e.bare.turns? n = some (e.turns n).bare := by
  induction n generalizing e with
  | zero => rfl
  | succ n ih =>
    have hturn : ({ e.bare with
        ring := e.bare.ring.set e.bare.oldest .empty
        oldest := (e.bare.oldest + 1) % e.bare.ring.length } : Bare) = e.turn.bare := by
      rw [length_ring_bare]
      simp only [bare, turn, Vector.toList_set]
    rw [Bare.turns?, if_pos e.oldest_lt_length, hturn]
    exact ih e.turn

/-- A rotation turns the ring by one round at most. -/
theorem turns?_rotate (e : Estimator) (now : Instant) :
    ∃ n ≤ e.options.rotations.toNat, e.bare.turns? n =
      some { (e.rotate now).bare with nextRotation := e.nextRotation } := by
  rcases UInt64.lt_or_le (e.reading now) e.nextRotation with hlt | hle
  · rw [rotate_of_lt hlt]
    exact ⟨0, Nat.zero_le _, rfl⟩
  · refine ⟨_, Nat.min_le_right (e.due (e.reading now)).toNat _, ?_⟩
    rw [turns?_bare, rotate_of_le hle]
    exact congrArg (fun next => some (Bare.mk _ _ next)) (nextRotation_turns e _)

/-- None of the operations of a rotation fails. -/
theorem rotate?_bare (hpos : 0 < e.nextRotation.toNat) (now : Instant) :
    e.bare.rotate? e.stepWord (e.reading now) = some (e.rotate now).bare := by
  rcases UInt64.lt_or_le (e.reading now) e.nextRotation with hlt | hle
  · rw [rotate_of_lt hlt]
    exact if_pos hlt
  · have hstep : e.stepWord ≠ 0 := by
      intro hzero
      have hword := toNat_stepWord e
      rw [hzero] at hword
      exact absurd hword (Nat.ne_of_lt e.options.stepNanos_pos)
    have hle' := UInt64.le_iff_toNat_le.mp hle
    have hroom : ((e.reading now - e.nextRotation) / e.stepWord).toNat + (1 : UInt64).toNat ≤
        Word.greatest := by
      have hdiv := Nat.div_le_self ((e.reading now).toNat - e.nextRotation.toNat)
        e.options.stepNanos
      have hword := Word.toNat_le_greatest (e.reading now)
      rw [UInt64.toNat_div, UInt64.toNat_sub_of_le _ _ hle, toNat_stepWord]
      show _ + 1 ≤ _
      omega
    have hsub : Word.sub? (e.reading now) e.bare.nextRotation =
        some (e.reading now - e.nextRotation) := if_pos hle
    have hdiv : Word.div? (e.reading now - e.nextRotation) e.stepWord =
        some ((e.reading now - e.nextRotation) / e.stepWord) := if_neg hstep
    have hadd : Word.add? ((e.reading now - e.nextRotation) / e.stepWord) 1 =
        some (e.due (e.reading now)) := if_pos hroom
    have hdue : ¬ e.reading now < e.bare.nextRotation := UInt64.not_lt.mpr hle
    rw [Bare.rotate?, if_neg hdue, hsub, rotate_of_le hle]
    simp only [Option.bind_eq_bind, Option.bind_some, hdiv, hadd, length_ring_bare, turns?_bare]
    rfl

end Estimator

end RequestHedging.Latency
