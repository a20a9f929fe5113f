import Mathlib.Data.Multiset.Filter
import Mathlib.Data.Multiset.Fold
import RequestHedging.Proofs.Latency.Rotation

/-!
# The ring of an estimator

A histogram depends only on which samples were recorded, not on their order, so it is the
histogram of a multiset.  `Covers` says which multiset each place of the ring holds: the
samples of the steps since it was last emptied, counted from the oldest place on.
Turning the ring moves on by one step, and catching up moves on by as many as have passed
(`Covers.rotate`), also when these are more than the ring has places.
-/

namespace RequestHedging.Latency

/-! ## Histograms of multisets -/

namespace Histogram

theorem bump_of_lt {low : Nat} {c : Cell} (h : low < c.low) (cs : List Cell) :
    bump low (c :: cs) = ⟨low, 1⟩ :: c :: cs :=
  if_pos h

theorem bump_self (c : Cell) (cs : List Cell) :
    bump c.low (c :: cs) = ⟨c.low, c.count + 1⟩ :: cs :=
  (if_neg (Nat.lt_irrefl _)).trans (if_pos rfl)

theorem bump_of_gt {low : Nat} {c : Cell} (h : c.low < low) (cs : List Cell) :
    bump low (c :: cs) = c :: bump low cs :=
  (if_neg (Nat.not_lt_of_lt h)).trans (if_neg (Nat.ne_of_gt h))

theorem bump_bump_of_lt {low low' : Nat} (h : low < low') (cells : List Cell) :
    bump low (bump low' cells) = bump low' (bump low cells) := by
  induction cells with
  | nil => rw [bump, bump, bump_of_lt h, bump_of_gt (c := ⟨low, 1⟩) h, bump]
  | cons c cs ih =>
    rcases Nat.lt_trichotomy low c.low with hlow | rfl | hlow
    · rw [bump_of_lt hlow, bump_of_gt (c := ⟨low, 1⟩) h]
      rcases Nat.lt_trichotomy low' c.low with hlow' | rfl | hlow'
      · rw [bump_of_lt hlow', bump_of_lt h]
      · rw [bump_self, bump_of_lt (c := ⟨c.low, c.count + 1⟩) hlow]
      · rw [bump_of_gt hlow', bump_of_lt hlow]
    · rw [bump_of_gt h, bump_self, bump_self, bump_of_gt (c := ⟨c.low, c.count + 1⟩) h]
    · rw [bump_of_gt (Nat.lt_trans hlow h), bump_of_gt hlow, bump_of_gt hlow,
        bump_of_gt (Nat.lt_trans hlow h), ih]

/-- It does not matter in which order two samples come. -/
theorem bump_comm (low low' : Nat) (cells : List Cell) :
    bump low (bump low' cells) = bump low' (bump low cells) := by
  rcases Nat.lt_trichotomy low low' with h | rfl | h
  · exact bump_bump_of_lt h cells
  · rfl
  · exact (bump_bump_of_lt h cells).symm

theorem record_comm (h : Histogram) (a b : Nat) : (h.record a).record b = (h.record b).record a :=
  congrArg Histogram.mk (bump_comm _ _ _)

instance : LeftCommutative fun (value : Nat) (h : Histogram) => h.record value :=
  ⟨fun a b h => record_comm h b a⟩

def ofMultiset (samples : Multiset Nat) : Histogram :=
  samples.foldr (fun value h => h.record value) empty

@[simp] theorem ofMultiset_zero : ofMultiset 0 = empty := rfl

@[simp] theorem ofMultiset_cons (value : Nat) (samples : Multiset Nat) :
    ofMultiset (value ::ₘ samples) = (ofMultiset samples).record value :=
  Multiset.foldr_cons _ _ _ _

@[simp] theorem size_ofMultiset (samples : Multiset Nat) :
    (ofMultiset samples).size = samples.card := by
  induction samples using Multiset.induction_on with
  | empty => rfl
  | cons value samples ih => rw [ofMultiset_cons, size_record, ih, Multiset.card_cons]

end Histogram

/-! ## Recent samples -/

/-- The samples of a log that are less than `n` steps old at step `k`; a log has the step and the
value of each sample. -/
def recent (n k : Nat) (log : Multiset (Nat × Nat)) : Multiset Nat :=
  (log.filter fun s => k < s.1 + n).map Prod.snd

theorem recent_eq_zero {n k : Nat} {log : Multiset (Nat × Nat)} (h : ∀ s ∈ log, s.1 + n ≤ k) :
    recent n k log = 0 := by
  rw [recent, Multiset.filter_eq_nil.mpr fun s hs => Nat.not_lt_of_le (h s hs), Multiset.map_zero]

theorem recent_cons {n k : Nat} {s : Nat × Nat} (h : k < s.1 + n) (log : Multiset (Nat × Nat)) :
    recent n k (s ::ₘ log) = s.2 ::ₘ recent n k log := by
  have hfilter := Multiset.filter_cons_of_pos (p := fun s : Nat × Nat => k < s.1 + n) log h
  rw [recent, hfilter, Multiset.map_cons]
  rfl

namespace Estimator

/-! ## The places of a ring -/

/-- The position of place `j` of the ring, counted from the oldest. -/
def position (e : Estimator) (j : Nat) : Fin e.options.rotations.toNat :=
  ⟨(e.oldest + j) % e.options.rotations.toNat, Nat.mod_lt _ e.options.rotations_pos⟩

def place (e : Estimator) (j : Nat) : Histogram := e.ring[e.position j]

theorem readable_eq_place (e : Estimator) : e.readable = e.place 0 := by
  have hzero : e.position 0 = e.oldest := Fin.ext (Nat.mod_eq_of_lt e.oldest.isLt)
  exact congrArg (fun i : Fin _ => e.ring[i]) hzero.symm

theorem place_new (options : Options) (now : Instant) (j : Nat) :
    (new options now).place j = .empty :=
  Vector.getElem_replicate _

theorem place_write (e : Estimator) (micros j : Nat) :
    (e.write micros).place j = (e.place j).record micros :=
  Vector.getElem_map _ _

/-- A place behind the oldest is the oldest only after a whole round. -/
theorem oldest_eq_iff {n oldest j : Nat} (ho : oldest < n) (hj : j < n) :
    oldest = (oldest + (j + 1)) % n ↔ j + 1 = n := by
  constructor
  · intro h
    by_contra hne
    rcases Nat.lt_or_ge (oldest + (j + 1)) n with hlt | hge
    · rw [Nat.mod_eq_of_lt hlt] at h
      omega
    · rw [Nat.mod_eq_sub_mod hge, Nat.mod_eq_of_lt (by omega)] at h
      omega
  · rintro rfl
    rw [Nat.add_mod_right, Nat.mod_eq_of_lt ho]

/-- Turning empties the oldest place, and each other place is one older. -/
theorem place_turn (e : Estimator) {j : Nat} (hj : j < e.options.rotations.toNat) :
    e.turn.place j = if j + 1 = e.options.rotations.toNat then .empty else e.place (j + 1) := by
  have hposition : e.turn.position j = e.position (j + 1) := by
    refine Fin.ext ?_
    simp only [position, turn, Nat.mod_add_mod, Nat.add_assoc, Nat.add_comm 1 j]
  have hplace : e.turn.place j = (e.ring.set e.oldest .empty)[e.position (j + 1)] :=
    congrArg (fun i : Fin _ => (e.ring.set e.oldest .empty)[i]) hposition
  rw [hplace]
  refine (Vector.getElem_set _ _).trans ?_
  have hoccupied := oldest_eq_iff e.oldest.isLt hj
  split
  · rename_i h
    rw [if_pos (hoccupied.mp h)]
  · rename_i h
    rw [if_neg fun hlast => h (hoccupied.mpr hlast)]
    rfl

/-! ## Turning -/

def kept (e : Estimator) (n : Nat) : Histogram :=
  if n < e.options.rotations.toNat then e.place n else .empty

/-- Once the ring has turned as often as it has places, nothing is kept. -/
theorem kept_of_le {e : Estimator} {n : Nat} (h : e.options.rotations.toNat ≤ n) :
    e.kept n = .empty :=
  if_neg (Nat.not_lt.mpr h)

/-- Turns move what is kept to older places. -/
theorem place_turns (e : Estimator) {j : Nat} (hj : j < e.options.rotations.toNat) (n : Nat) :
    (e.turns n).place j = e.kept (n + j) := by
  induction n generalizing e with
  | zero =>
    rw [kept, Nat.zero_add, if_pos hj]
    rfl
  | succ n ih =>
    have hrest : (e.turns (n + 1)).place j = e.turn.kept (n + j) := ih e.turn hj
    have hoptions : e.turn.options = e.options := rfl
    rw [hrest, kept, kept, hoptions]
    split
    · rename_i hlt
      rw [place_turn e hlt]
      split
      · rw [if_neg (by omega)]
      · rw [if_pos (by omega), Nat.add_right_comm]
    · rw [if_neg (by omega)]

/-! ## What the places hold -/

/-- Each place of the ring holds the samples of a log since it was last emptied, if the steps up
to `k` were caught up on. -/
def Holds (e : Estimator) (k : Nat) (log : Multiset (Nat × Nat)) : Prop :=
  ∀ j < e.options.rotations.toNat,
    e.place j = .ofMultiset (recent e.options.rotations.toNat (k + j) log)

section Holds

variable {e : Estimator} {k : Nat} {log : Multiset (Nat × Nat)}

theorem holds_new (options : Options) (now : Instant) : (new options now).Holds 0 0 :=
  fun j _ => place_new options now j

/-- After more turns than there are places nothing is read, and nothing is recent enough. -/
theorem Holds.kept_eq (h : e.Holds k log) (hpast : ∀ s ∈ log, s.1 ≤ k) (n : Nat) :
    e.kept n = .ofMultiset (recent e.options.rotations.toNat (k + n) log) := by
  rcases Nat.lt_or_ge n e.options.rotations.toNat with hlt | hround
  · rw [kept, if_pos hlt]
    exact h n hlt
  · have hnone : recent e.options.rotations.toNat (k + n) log = 0 :=
      recent_eq_zero fun s hs => Nat.add_le_add (hpast s hs) hround
    rw [kept_of_le hround, hnone, Histogram.ofMultiset_zero]

/-- Catching up on any number of steps.  More turns than a whole round would empty no more. -/
theorem Holds.catchUp (h : e.Holds k log) (hpast : ∀ s ∈ log, s.1 ≤ k) (n : Nat) :
    (e.turns (min n e.options.rotations.toNat)).Holds (k + n) log := by
  intro j hj
  rw [options_turns] at hj ⊢
  rw [place_turns e hj, Nat.add_assoc, ← h.kept_eq hpast]
  rcases Nat.le_total n e.options.rotations.toNat with hn | hn
  · rw [Nat.min_eq_left hn]
  · rw [Nat.min_eq_right hn, kept_of_le (Nat.le_add_right _ _),
      kept_of_le (Nat.le_trans hn (Nat.le_add_right _ _))]

/-- A sample of the current step is held by every place. -/
theorem Holds.write (h : e.Holds k log) (micros : Nat) :
    (e.write micros).Holds k ((k, micros) ::ₘ log) := by
  intro j hj
  have hj' : j < e.options.rotations.toNat := hj
  rw [place_write, h j hj]
  have hrecent := recent_cons (s := (k, micros)) (Nat.add_lt_add_left hj' k) log
  exact ((congrArg Histogram.ofMultiset hrecent).trans (Histogram.ofMultiset_cons _ _)).symm

end Holds

/-! ## Catching up -/

/-- The steps up to `k` were caught up on, and the next rotation is due at the end of step `k`. -/
structure Covers (e : Estimator) (k : Nat) (log : Multiset (Nat × Nat)) : Prop where
  next : e.nextRotation.toNat = min ((k + 1) * e.options.stepNanos) Word.greatest
  past : ∀ s ∈ log, s.1 ≤ k
  holds : e.Holds k log

section Covers

variable {e : Estimator} {k : Nat} {log : Multiset (Nat × Nat)}

theorem covers_new (options : Options) (now : Instant) : (new options now).Covers 0 0 where
  next := onGrid_new options now
  past := fun _ hs => absurd hs (Multiset.notMem_zero _)
  holds := holds_new options now

/-- Looking at the window catches up on the steps passed. -/
theorem Covers.rotate (h : e.Covers k log) {now : Instant} (hnow : now - e.created < Word.greatest)
    (hle : k ≤ (now - e.created) / e.options.stepNanos) :
    (e.rotate now).Covers ((now - e.created) / e.options.stepNanos) log := by
  have hgrid : e.OnGrid k := h.next
  have hreading : (e.reading now).toNat < Word.greatest := by rwa [toNat_reading hnow]
  rw [← toNat_reading hnow] at hle ⊢
  refine ⟨hgrid.rotate hle, fun s hs => Nat.le_trans (h.past s hs) hle, ?_⟩
  rcases UInt64.lt_or_le (e.reading now) e.nextRotation with hlt | hdue
  · rw [rotate_of_lt hlt, hgrid.step_eq hlt hle]
    exact h.holds
  · have hnext := UInt64.le_iff_toNat_le.mp hdue
    rw [hgrid] at hnext
    have hfits : (k + 1) * e.options.stepNanos ≤ Word.greatest := by omega
    have hcaught := h.holds.catchUp h.past (e.due (e.reading now)).toNat
    have hsteps := Nat.add_sub_cancel' hle
    rw [← hgrid.toNat_due hdue hfits] at hsteps
    rw [hsteps] at hcaught
    rw [rotate_of_le hdue]
    exact hcaught

/-- A sample of the current step is one more that is covered. -/
theorem Covers.write (h : e.Covers k log) (micros : Nat) :
    (e.write micros).Covers k ((k, micros) ::ₘ log) := by
  refine ⟨h.next, fun s hs => ?_, h.holds.write micros⟩
  rcases Multiset.mem_cons.mp hs with rfl | hs
  · exact Nat.le_refl _
  · exact h.past s hs

end Covers

end Estimator

end RequestHedging.Latency
