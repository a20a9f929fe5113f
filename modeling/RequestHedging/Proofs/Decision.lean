import RequestHedging.Decision
import RequestHedging.Proofs.Duration.Words

/-!
# The hedges of a decision

A race asks its decision for the next hedge again and again, each time after the hedge that was
named last.  `upcoming` is all that it is told.  From the start, that is each hedge of the budget
once, in order, and then none, up to the greatest budget there is; each is due as many delays after
the start as its index says (`enumerates_upcoming`).
-/

namespace RequestHedging.Decision

/-- The hedges after hedge `last`, with the times from the start at which they are due: the next
one, and those after that. -/
def upcoming (d : Decision) (last : UInt32) : List (UInt32 × Duration) :=
  match _hnext : d.next last with
  | none => []
  | some (index, due) => (index, due) :: d.upcoming index
termination_by d.maxHedges.toNat - last.toNat
decreasing_by
  obtain ⟨hindex, hwithin⟩ := next_eq_some _hnext
  omega

section Upcoming

variable {d : Decision} {last index : UInt32} {due : Duration}

theorem upcoming_of_none (h : d.next last = none) : d.upcoming last = [] := by
  rw [upcoming]
  split
  · rfl
  · rename_i hnext
    cases h.symm.trans hnext

theorem upcoming_of_some (h : d.next last = some (index, due)) :
    d.upcoming last = (index, due) :: d.upcoming index := by
  rw [upcoming]
  split
  · rename_i hnext
    cases h.symm.trans hnext
  · rename_i hnext
    cases h.symm.trans hnext
    rfl

/-- All hedges of the budget after the last one are named, in order. -/
theorem indices_upcoming (d : Decision) (last : UInt32) :
    (d.upcoming last).map (fun h => h.1.toNat) =
      List.range' (last.toNat + 1) (d.maxHedges.toNat - last.toNat) := by
  induction last using upcoming.induct d with
  | case1 last hnone =>
    have hmost := next_eq_none_iff.mp hnone
    rw [upcoming_of_none hnone, Nat.sub_eq_zero_of_le hmost]
    rfl
  | case2 last index due hnext ih =>
    obtain ⟨hindex, hwithin⟩ := next_eq_some hnext
    have hleft : d.maxHedges.toNat - last.toNat = d.maxHedges.toNat - index.toNat + 1 := by
      omega
    rw [upcoming_of_some hnext, List.map_cons, ih, hleft, List.range'_succ, ← hindex]

/-- The times are those of the schedule. -/
theorem nanos_of_mem_upcoming {h : UInt32 × Duration} (hmem : h ∈ d.upcoming last) :
    h.2.nanos = d.dueNanos h.1.toNat := by
  induction last using upcoming.induct d with
  | case1 last hnone =>
    rw [upcoming_of_none hnone] at hmem
    cases hmem
  | case2 last index due hnext ih =>
    rw [upcoming_of_some hnext] at hmem
    rcases List.mem_cons.mp hmem with rfl | hmem
    · exact nanos_of_next hnext
    · exact ih hmem

/-- Each hedge is enumerated once, and after those of smaller indices. -/
theorem pairwise_upcoming (d : Decision) (last : UInt32) :
    (d.upcoming last).Pairwise fun a b => a.1.toNat < b.1.toNat := by
  rw [← List.pairwise_map (f := fun h : UInt32 × Duration => h.1.toNat), indices_upcoming]
  exact List.pairwise_lt_range'

end Upcoming

/-! ## The times -/

section Times

variable {d : Decision} {delay : Duration}

/-- Before the longest duration, the hedges of a delay that takes time are due one after the
other. -/
theorem dueNanos_lt (h : d.delay = some delay) (hpos : 0 < delay.nanos) {i j : Nat} (hij : i < j)
    (hlong : d.dueNanos i < Duration.longestNanos) : d.dueNanos i < d.dueNanos j := by
  have hlater : i * delay.nanos < j * delay.nanos := Nat.mul_lt_mul_of_pos_right hij hpos
  rw [dueNanos_eq h] at hlong ⊢
  rw [dueNanos_eq h]
  omega

/-- How hedges are spaced that are so far apart. -/
structure Spaced (delay : Duration) (hedges : List (UInt32 × Duration)) : Prop where
  /-- Each is due as many delays after the start as its index says, to the nanosecond, or at the
  longest duration. -/
  due : ∀ h ∈ hedges, h.2.nanos = min (h.1.toNat * delay.nanos) Duration.longestNanos
  /-- That is what the delay gives when it is multiplied in words. -/
  words : ∀ h ∈ hedges,
    h.2 = (delay.words.times? h.1).elim Duration.longest Duration.Words.duration
  /-- None is due before an earlier one. -/
  ordered : hedges.Pairwise fun a b => a.2 ≤ b.2
  /-- None is due together with an earlier one, unless that is due at the longest duration. -/
  apart : 0 < delay.nanos →
    hedges.Pairwise fun a b => a.2 < Duration.longest → a.2 < b.2
  /-- Without time between them, all are due at once. -/
  together : delay = Duration.zero → ∀ h ∈ hedges, h.2 = Duration.zero

/-- Hedge `i` is enumerated with the time of `i` delays. -/
theorem nanos_eq_of_mem_upcoming (h : d.delay = some delay) {last : UInt32}
    {a : UInt32 × Duration} (ha : a ∈ d.upcoming last) :
    a.2.nanos = min (a.1.toNat * delay.nanos) Duration.longestNanos := by
  rw [nanos_of_mem_upcoming ha, dueNanos_eq h]

theorem spaced_upcoming (h : d.delay = some delay) (last : UInt32) :
    Spaced delay (d.upcoming last) where
  due a ha := nanos_eq_of_mem_upcoming h ha
  words a ha := by
    apply Duration.ext
    rw [Duration.elim_times?_words, nanos_eq_of_mem_upcoming h ha, Duration.times,
      Duration.nanos_ofNanos, Nat.mul_comm]
  ordered := by
    refine (pairwise_upcoming d last).imp_of_mem fun {a b} ha hb hlt => ?_
    show a.2.nanos ≤ b.2.nanos
    rw [nanos_of_mem_upcoming ha, nanos_of_mem_upcoming hb]
    exact d.dueNanos_mono (Nat.le_of_lt hlt)
  apart hpos := by
    refine (pairwise_upcoming d last).imp_of_mem fun {a b} ha hb hlt hlong => ?_
    replace hlong : a.2.nanos < Duration.longestNanos := hlong
    show a.2.nanos < b.2.nanos
    rw [nanos_of_mem_upcoming ha] at hlong ⊢
    rw [nanos_of_mem_upcoming hb]
    exact dueNanos_lt h hpos hlt hlong
  together hzero a ha := by
    apply Duration.ext
    rw [nanos_eq_of_mem_upcoming h ha, hzero]
    exact Nat.min_eq_left (Nat.zero_le _)

/-- The times are those of the numbers. -/
theorem Spaced.map_nanos {hedges : List (UInt32 × Duration)} (h : Spaced delay hedges) :
    hedges.map (fun a => a.2.nanos) =
      (hedges.map fun a => a.1.toNat).map fun i =>
        min (i * delay.nanos) Duration.longestNanos := by
  rw [List.map_map]
  exact List.map_congr_left h.due

end Times

/-! ## The budget -/

/-- How hedges, with the times at which they are due, go through the budget of a decision. -/
structure Enumerates (d : Decision) (hedges : List (UInt32 × Duration)) : Prop where
  /-- They are numbered from one up to the budget, in order, and the numbers do not wrap round. -/
  indices : hedges.map (fun h => h.1.toNat) = List.range' 1 d.maxHedges.toNat
  /-- There is no next one just from the end of the budget on. -/
  ended : ∀ last, d.next last = none ↔ d.maxHedges ≤ last
  /-- Without a delay there are none, whatever was asked for. -/
  off : d.delay = none → hedges = []
  /-- With a delay, there are as many as were asked for, and they are spaced by it. -/
  spaced : ∀ delay, d.delay = some delay →
    hedges.length = d.budget.toNat ∧ Spaced delay hedges

/-- There are as many hedges as may be issued. -/
theorem length_upcoming (d : Decision) : (d.upcoming 0).length = d.maxHedges.toNat := by
  have hlength := congrArg List.length (d.indices_upcoming 0)
  rw [List.length_map, List.length_range'] at hlength
  exact hlength

/-- From the start on, the next hedges go through the budget, whatever the decision. -/
theorem enumerates_upcoming (d : Decision) : d.Enumerates (d.upcoming 0) where
  indices := d.indices_upcoming 0
  ended last := next_eq_none_iff.trans UInt32.le_iff_toNat_le.symm
  off hoff := by
    have hlength := d.length_upcoming
    rw [maxHedges_of_none hoff] at hlength
    exact List.eq_nil_of_length_eq_zero hlength
  spaced delay hdelay := by
    have hlength := d.length_upcoming
    rw [maxHedges_of_some hdelay] at hlength
    exact ⟨hlength, spaced_upcoming hdelay 0⟩

/-- A delay that goes into the longest duration twice, but not three times. -/
def aeon : Duration := ⟨7000000000000000000000000000, by decide⟩

/-- A third hedge that would be due after the longest duration is due then. -/
theorem enumerates_upcoming_aeon :
    (⟨3, some aeon⟩ : Decision).Enumerates (upcoming ⟨3, some aeon⟩ 0) ∧
      (upcoming ⟨3, some aeon⟩ 0).map (fun h => h.2.nanos) =
        [7000000000000000000000000000, 14000000000000000000000000000, Duration.longestNanos] := by
  have hall := enumerates_upcoming ⟨3, some aeon⟩
  refine ⟨hall, ?_⟩
  rw [(hall.spaced aeon rfl).2.map_nanos, hall.indices]
  decide

/-- The greatest number of a hedge is reached, and nothing comes after it. -/
example :
    (⟨4294967295, some .zero⟩ : Decision).next 4294967294 = some (4294967295, .zero) ∧
      (⟨4294967295, some .zero⟩ : Decision).next 4294967295 = none := by
  decide

end RequestHedging.Decision
