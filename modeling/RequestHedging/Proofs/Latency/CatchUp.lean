import Mathlib.Data.List.DropRight
import Mathlib.Data.List.Induction
import RequestHedging.Proofs.Latency.Rereading

/-!
# The last catch-up of an estimator

A use leaves an estimator as it is, or it catches up on the steps passed and may write a sample then
(`Since.step_cases`).  So when the next rotation is due depends only on the reading at which the
estimator caught up last (`onGrid_run`).

With that, the arithmetic of a rotation is safe, whatever was done before and whatever the clock
reads (`safe_run`).
-/

namespace RequestHedging.Latency

/-! ## Uses that catch up -/

namespace Use

def catchesUp : Use → Bool
  | count | percentile _ | record _ .success => true
  | _ => false

/-- The nanoseconds that pass up to the last use that catches up. -/
def lastCatchUp (uses : List Use) : Nat := span (uses.rdropWhile fun use => !use.catchesUp)

theorem lastCatchUp_concat_of_catchesUp {use : Use} (h : use.catchesUp = true) (uses : List Use) :
    lastCatchUp (uses ++ [use]) = span (uses ++ [use]) := by
  rw [lastCatchUp, List.rdropWhile_concat_neg _ _ _ (by simp [h])]

theorem lastCatchUp_concat {use : Use} (h : use.catchesUp = false) (uses : List Use) :
    lastCatchUp (uses ++ [use]) = lastCatchUp uses := by
  rw [lastCatchUp, List.rdropWhile_concat_pos _ _ _ (by simp [h]), lastCatchUp]

/-- The last catch-up is not in the future. -/
theorem lastCatchUp_le_span (uses : List Use) : lastCatchUp uses ≤ span uses := by
  obtain ⟨rest, hrest⟩ := List.rdropWhile_prefix (fun use => !use.catchesUp) uses
  calc lastCatchUp uses
      ≤ lastCatchUp uses + span rest := Nat.le_add_right _ _
    _ = span uses := by rw [lastCatchUp, ← span_append, hrest]

end Use

namespace Usage

section Since

variable {o : Options} {created : Instant} {age : Nat} {u : Usage}

/-- What a use can do to an estimator, and what it records. -/
theorem Since.step_cases (h : Since o created age u) (use : Use) :
    (use.catchesUp = false ∧ (u.step use).estimator = u.estimator ∧ recorded o age [use] = 0) ∨
      use.catchesUp = true ∧ Use.span [use] = 0 ∧
        ((u.step use).estimator = u.estimator.rotate u.now ∧ recorded o age [use] = 0 ∨
          ∃ micros, (u.step use).estimator = (u.estimator.rotate u.now).write micros ∧
            recorded o age [use] = {⟨age, micros⟩}) := by
  cases use with
  | advance d => exact .inl ⟨rfl, rfl, rfl⟩
  | record latency outcome =>
    cases outcome with
    | success =>
      refine .inr ⟨rfl, rfl, .inr ⟨o.micros latency, ?_, rfl⟩⟩
      rw [h.step_record]
    | failure => exact .inl ⟨rfl, rfl, rfl⟩
  | count => exact .inr ⟨rfl, rfl, .inl ⟨rfl, rfl⟩⟩
  | percentile p => exact .inr ⟨rfl, rfl, .inl ⟨rfl, rfl⟩⟩

/-- The age of an estimator is read as a saturating word. -/
theorem Since.toNat_reading (h : Since o created age u) :
    (u.estimator.reading u.now).toNat = min age Word.greatest := by
  rw [Estimator.toNat_reading_eq_min, h.now_eq, h.created_eq, Nat.add_sub_cancel_left]

/-- To catch up is to move to the step that the reading is in. -/
theorem Since.onGrid_rotate (h : Since o created age u) {last : Nat} (hlast : last ≤ age)
    (hgrid : u.estimator.OnGrid (min last Word.greatest / o.stepNanos)) :
    (u.estimator.rotate u.now).OnGrid (min age Word.greatest / o.stepNanos) := by
  have hpassed : min last Word.greatest / o.stepNanos ≤ min age Word.greatest / o.stepNanos :=
    Nat.div_le_div_right (by omega)
  have hoptions := h.options_eq
  rw [← h.toNat_reading, ← hoptions] at hpassed ⊢
  rw [← hoptions] at hgrid
  exact hgrid.rotate hpassed

end Since

/-! ## The next rotation -/

section Run

variable (o : Options) (created : Instant) (uses : List Use)

theorem run_concat (use : Use) : run o created (uses ++ [use]) = (run o created uses).step use :=
  run_append o created uses [use]

/-- The next rotation is due at the end of the step of the last catch-up. -/
theorem onGrid_run : (run o created uses).estimator.OnGrid
    (min (Use.lastCatchUp uses) Word.greatest / o.stepNanos) := by
  induction uses using List.reverseRecOn with
  | nil =>
    have hzero : min (Use.lastCatchUp []) Word.greatest / o.stepNanos = 0 := Nat.zero_div _
    rw [hzero]
    exact Estimator.onGrid_new o created
  | append_singleton uses use ih =>
    have hsince := since_run o created uses
    have hcaught := hsince.onGrid_rotate (Use.lastCatchUp_le_span uses) ih
    rw [run_concat]
    rcases hsince.step_cases use with ⟨hidle, hstays, -⟩ | ⟨hcatches, hspan, hstep⟩
    · rw [hstays, Use.lastCatchUp_concat hidle]
      exact ih
    · rw [Use.lastCatchUp_concat_of_catchesUp hcatches, Use.span_append, hspan, Nat.add_zero]
      rcases hstep with ⟨hread, -⟩ | ⟨micros, hwrite, -⟩
      · rw [hread]
        exact hcaught
      · rw [hwrite]
        exact hcaught

end Run

/-! ## Safe rotations -/

/-- What a rotation comes to at an age of an estimator that caught up at an age before. -/
structure Safe (o : Options) (last age : Nat) (u : Usage) : Prop where
  /-- Readings saturate. -/
  reading : (u.estimator.reading u.now).toNat = min age Word.greatest
  step : u.estimator.stepWord.toNat = o.stepNanos
  step_pos : 0 < o.stepNanos
  /-- No difference is negative, no divisor is zero, no sum is too large for a word and no position
  is outside the ring. -/
  checked : u.estimator.bare.rotate? u.estimator.stepWord (u.estimator.reading u.now) =
    some (u.estimator.rotate u.now).bare
  /-- The turns due are as many as in numbers of any size. -/
  due : u.estimator.nextRotation.toNat ≤ age →
    (u.estimator.due (u.estimator.reading u.now)).toNat =
      (min age Word.greatest - u.estimator.nextRotation.toNat) / o.stepNanos + 1
  /-- No more places are emptied than the ring has. -/
  turned : ∃ n ≤ o.rotations.toNat, u.estimator.bare.turns? n =
    some { (u.estimator.rotate u.now).bare with nextRotation := u.estimator.nextRotation }
  inside : u.estimator.bare.oldest < u.estimator.bare.ring.length
  next : u.estimator.nextRotation.toNat =
    min ((min last Word.greatest / o.stepNanos + 1) * o.stepNanos) Word.greatest
  grid : u.estimator.nextRotation.toNat = Word.greatest ∨
    ∃ n, 0 < n ∧ u.estimator.nextRotation.toNat = n * o.stepNanos
  /-- A rotation leaves the next one ahead, by a step at most. -/
  ahead : age < Word.greatest →
    age < (u.estimator.rotate u.now).nextRotation.toNat ∧
      (u.estimator.rotate u.now).nextRotation.toNat - age ≤ o.stepNanos

/-- A rotation is safe at every age. -/
theorem Since.safe {o : Options} {created : Instant} {last age : Nat} {u : Usage}
    (h : Since o created age u) (hlast : last ≤ age)
    (hgrid : u.estimator.OnGrid (min last Word.greatest / o.stepNanos)) : Safe o last age u := by
  have hcaught := h.onGrid_rotate hlast hgrid
  obtain rfl := h.options_eq
  refine ⟨h.toNat_reading, u.estimator.toNat_stepWord, Options.stepNanos_pos _,
    Estimator.rotate?_bare h.next_pos _, ?_, Estimator.turns?_rotate _ _,
    u.estimator.oldest_lt_length, hgrid, hgrid.eq_greatest_or, ?_⟩
  · intro hdue
    have hreading : u.estimator.nextRotation ≤ u.estimator.reading u.now := by
      rw [UInt64.le_iff_toNat_le, h.toNat_reading]
      exact Nat.le_min.mpr ⟨hdue, Word.toNat_le_greatest _⟩
    rw [Estimator.toNat_due h.next_pos hreading, h.toNat_reading]
  · intro hage
    rw [Nat.min_eq_left (Nat.le_of_lt hage)] at hcaught
    rw [← Estimator.options_rotate u.estimator u.now] at hcaught ⊢
    exact hcaught.ahead hage

/-- Whatever is done with an estimator, and however late it is, its rotations are safe. -/
theorem safe_run (o : Options) (created : Instant) (uses : List Use) :
    Safe o (Use.lastCatchUp uses) (Use.span uses) (run o created uses) :=
  (since_run o created uses).safe (Use.lastCatchUp_le_span uses) (onGrid_run o created uses)

end Usage

end RequestHedging.Latency
