import RequestHedging.Proofs.Latency.Bucket
import RequestHedging.Proofs.Latency.CatchUp

/-!
# The layers of the ring

Each place of the ring holds the samples of the steps since it was last emptied, so the places hold
less and less from the oldest on: the ring is in layers (`layered_run`).  Which samples a place
holds is known from the step of the last catch-up and from where the place is, and from nothing
else.

A catch-up keeps the layers.  It leaves each place with what was held as many places further on as
there were steps to catch up on, and with nothing if that is beyond the ring.
-/

namespace RequestHedging.Latency

/-! ## Layers of samples -/

/-- The samples recorded less than all steps of the window before a step. -/
def Options.held (o : Options) (k : Nat) (samples : Multiset Sample) : Multiset Sample :=
  samples.filter fun s => k < s.age / o.stepNanos + o.rotations.toNat

/-- The values recent in the log are those of the samples held. -/
theorem recent_log_eq_held (o : Options) (k : Nat) (samples : Multiset Sample) :
    recent o.rotations.toNat k (o.log samples) = (o.held k samples).map Sample.micros := by
  rw [recent, Options.log, Multiset.filter_map, Multiset.map_map]
  rfl

/-- As steps pass, samples are only lost. -/
theorem Options.held_anti {o : Options} {k k' : Nat} (h : k ≤ k') (samples : Multiset Sample) :
    o.held k' samples ≤ o.held k samples :=
  Multiset.monotone_filter_right samples fun _ hlt => Nat.lt_of_le_of_lt h hlt

/-- More samples are more in each bucket. -/
theorem Histogram.expand_le {samples samples' : Multiset Nat} (h : samples' ≤ samples) :
    (expand (ofMultiset samples').cells : Multiset Nat) ≤ expand (ofMultiset samples).cells := by
  rw [coe_expand_ofMultiset, coe_expand_ofMultiset]
  exact Multiset.map_le_map h

/-! ## Layers of the ring -/

namespace Estimator

section Covers

variable {e : Estimator} {k : Nat} {log : Multiset (Nat × Nat)}

/-- After a catch-up each place holds what was held as many places further on. -/
theorem Covers.place_rotate (h : e.Covers k log) {now : Instant}
    (hnow : now - e.created < Word.greatest) {n : Nat}
    (hn : (now - e.created) / e.options.stepNanos = k + n) {j : Nat}
    (hj : j < e.options.rotations.toNat) : (e.rotate now).place j = e.kept (n + j) := by
  have hrotate := h.rotate hnow (hn ▸ Nat.le_add_right k n)
  have hplace := hrotate.holds j ((options_rotate e now).symm ▸ hj)
  rw [hplace, options_rotate, hn, Nat.add_assoc, ← h.holds.kept_eq h.past]

end Covers

end Estimator

namespace Usage

/-- An estimator that caught up at an age covers all samples recorded. -/
theorem covers_run (o : Options) (created : Instant) {uses : List Use}
    (hspan : Use.span uses < Word.greatest) :
    (run o created uses).estimator.Covers (Use.lastCatchUp uses / o.stepNanos)
      (o.log (recorded o 0 uses)) := by
  induction uses using List.reverseRecOn with
  | nil =>
    have hzero : Use.lastCatchUp [] / o.stepNanos = 0 := Nat.zero_div _
    rw [hzero]
    exact Estimator.covers_new o created
  | append_singleton uses use ih =>
    rw [Use.span_append] at hspan
    have hbefore : Use.span uses < Word.greatest := by omega
    have hcaught := (keeps_run o created hbefore).rotate hbefore
    rw [run_concat, recorded_append, Nat.zero_add]
    rcases (since_run o created uses).step_cases use with
      ⟨hidle, hstays, hnone⟩ | ⟨hcatches, hnow, hstep⟩
    · rw [hstays, Use.lastCatchUp_concat hidle, hnone, Multiset.add_zero]
      exact ih hbefore
    · rw [Use.lastCatchUp_concat_of_catchesUp hcatches, Use.span_append, hnow, Nat.add_zero]
      rcases hstep with ⟨hread, hnone⟩ | ⟨micros, hwrite, hone⟩
      · rw [hread, hnone, Multiset.add_zero]
        exact hcaught
      · have hlog : o.log (recorded o 0 uses + {⟨Use.span uses, micros⟩}) =
            (Use.span uses / o.stepNanos, micros) ::ₘ o.log (recorded o 0 uses) := by
          rw [Multiset.add_comm, Multiset.singleton_add, Options.log, Multiset.map_cons]
          rfl
        rw [hwrite, hone, hlog]
        exact hcaught.write micros

/-- What the places of the ring hold of samples at the step of the last catch-up. -/
structure Layered (o : Options) (age step : Nat) (samples : Multiset Sample) (u : Usage) :
    Prop where
  options_eq : u.estimator.options = o
  oldest_lt : u.estimator.oldest < o.rotations.toNat
  /-- A place holds exactly the samples of the steps since it was emptied. -/
  place_eq : ∀ j < o.rotations.toNat,
    u.estimator.place j = .ofMultiset ((o.held (step + j) samples).map Sample.micros)
  /-- A newer place holds no more of any sample. -/
  held_le : ∀ i j, i ≤ j → o.held (step + j) samples ≤ o.held (step + i) samples
  place_le : ∀ i j, i ≤ j → j < o.rotations.toNat →
    (Histogram.expand (u.estimator.place j).cells : Multiset Nat) ≤
      Histogram.expand (u.estimator.place i).cells
  /-- A catch-up on `n` steps moves each place by `n`, and empties the places it moves around. -/
  caughtUp : ∀ (d : Duration) (n : Nat), age + d.nanos < Word.greatest →
    (age + d.nanos) / o.stepNanos = step + n → ∀ j < o.rotations.toNat,
      (u.estimator.rotate (u.now + d.nanos)).place j =
          (if n + j < o.rotations.toNat then u.estimator.place (n + j) else .empty) ∧
        (u.estimator.rotate (u.now + d.nanos)).place j =
          .ofMultiset ((o.held (step + n + j) samples).map Sample.micros)

/-- What the ring covers lies in layers. -/
theorem Since.layered {o : Options} {created : Instant} {age step : Nat} {samples : Multiset Sample}
    {u : Usage} (h : Since o created age u) (hcovers : u.estimator.Covers step (o.log samples)) :
    Layered o age step samples u := by
  obtain rfl := h.options_eq
  have hplace : ∀ j < u.estimator.options.rotations.toNat, u.estimator.place j =
      .ofMultiset ((u.estimator.options.held (step + j) samples).map Sample.micros) := by
    intro j hj
    rw [hcovers.holds j hj, recent_log_eq_held]
  have hheld : ∀ i j, i ≤ j → u.estimator.options.held (step + j) samples ≤
      u.estimator.options.held (step + i) samples :=
    fun i j hij => Options.held_anti (Nat.add_le_add_left hij step) samples
  refine ⟨rfl, u.estimator.oldest.isLt, hplace, hheld, ?_, ?_⟩
  · intro i j hij hj
    rw [hplace i (Nat.lt_of_le_of_lt hij hj), hplace j hj]
    exact Histogram.expand_le (Multiset.map_le_map (hheld i j hij))
  · intro d n hlt hn j hj
    have hage : u.now + d.nanos - u.estimator.created = age + d.nanos := by
      rw [h.now_eq, h.created_eq, Nat.add_assoc, Nat.add_sub_cancel_left]
    rw [← hage] at hlt hn
    refine ⟨hcovers.place_rotate hlt hn hj, ?_⟩
    have hrotate := hcovers.rotate hlt (hn ▸ Nat.le_add_right step n)
    rw [hn] at hrotate
    have hoptions := u.estimator.options_rotate (u.now + d.nanos)
    rw [hrotate.holds j (hoptions ▸ hj), hoptions, recent_log_eq_held]

/-- However an estimator is used, its ring is in layers, while its age fits a word. -/
theorem layered_run (o : Options) (created : Instant) {uses : List Use}
    (hspan : Use.span uses < Word.greatest) :
    Layered o (Use.span uses) (Use.lastCatchUp uses / o.stepNanos) (recorded o 0 uses)
      (run o created uses) :=
  (since_run o created uses).layered (covers_run o created hspan)

/-- A sample in each of two steps leaves two layers, one of them in two places. -/
theorem layered_run_expiring :
    Use.span expiring < Word.greatest ∧
      Layered .standard (Use.span expiring) 1 (recorded .standard 0 expiring)
        (run .standard 0 expiring) ∧
      (List.range 3).map (fun j => ((run .standard 0 expiring).estimator.place j).size) =
        [2, 2, 1] := by
  have hspan : Use.span expiring < Word.greatest := by decide
  have hstep : Use.lastCatchUp expiring / Options.standard.stepNanos = 1 := by decide +kernel
  have hlayered := layered_run .standard 0 hspan
  rw [hstep] at hlayered
  exact ⟨hspan, hlayered, by decide +kernel⟩

end Usage

end RequestHedging.Latency
