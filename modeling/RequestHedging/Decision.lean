import RequestHedging.Duration
import RequestHedging.Duration.Scaled
import RequestHedging.Text.Described

/-!
# Decisions and their schedule

A decision says how many hedges a request may get and how far apart.  Hedge `i` is
due `i` delays after the start, counted from the start and not from the hedge before.
Without a delay there are no hedges, whatever the count says.
-/

namespace RequestHedging

structure Decision where
  /-- The number of hedges asked for; it counts only if there is a delay. -/
  budget : UInt32
  /-- The time between attempts; none if hedging is off. -/
  delay : Option Duration
deriving DecidableEq

namespace Decision

def disabled : Decision := ⟨0, none⟩

/-- Hedging is on, but this request gets no hedge. -/
def noHedges : Decision := ⟨0, some Duration.zero⟩

/-- The decision of those who decide nothing: one hedge after two seconds. -/
def standard : Decision := ⟨1, some (Duration.ofSeconds 2)⟩

def maxHedges (d : Decision) : UInt32 := if d.delay.isSome then d.budget else 0

def isHedging (d : Decision) : Bool := 0 < d.maxHedges

/-- The time from the start at which attempt `index` is due, if it is within the budget. -/
def offset (d : Decision) (index : UInt32) : Option Duration :=
  if d.maxHedges < index then none else d.delay.map (·.times index.toNat)

/-- The hedge after hedge `last`, with the time from the start at which it is due.  There is
none after the greatest index. -/
def next (d : Decision) (last : UInt32) : Option (UInt32 × Duration) :=
  if last.toNat + 1 < UInt32.size then
    (d.offset (last + 1)).map fun due => (last + 1, due)
  else none

/-- The nanoseconds from the start after which hedge `i` is due, whatever the budget. -/
def dueNanos (d : Decision) (i : Nat) : Nat :=
  min (i * (d.delay.getD Duration.zero).nanos) Duration.longestNanos

def describe (d : Decision) : String :=
  Text.described "HedgeDecision"
    [("max_hedges", String.ofList (Text.numeral d.budget.toNat)),
     ("delay", Text.describedOption (d.delay.map Duration.scaled))] .all

/-- Without a delay no hedge may be issued. -/
theorem maxHedges_of_none {d : Decision} (h : d.delay = none) : d.maxHedges = 0 := by
  rw [maxHedges, h]
  rfl

/-- With a delay the whole budget may be issued. -/
theorem maxHedges_of_some {d : Decision} {delay : Duration} (h : d.delay = some delay) :
    d.maxHedges = d.budget := by
  rw [maxHedges, h]
  rfl

/-- Hedge `i` is due after `i` delays, but no later than the longest duration. -/
theorem dueNanos_eq {d : Decision} {delay : Duration} (h : d.delay = some delay) (i : Nat) :
    d.dueNanos i = min (i * delay.nanos) Duration.longestNanos := by
  rw [dueNanos, h, Option.getD_some]

/-- Later hedges are not due earlier. -/
theorem dueNanos_mono (d : Decision) {i j : Nat} (h : i ≤ j) : d.dueNanos i ≤ d.dueNanos j := by
  have := Nat.mul_le_mul_right (d.delay.getD Duration.zero).nanos h
  simp only [dueNanos]
  omega

/-- Below the greatest index, the next one does not wrap. -/
theorem toNat_succ {last : UInt32} (h : last.toNat + 1 < UInt32.size) :
    (last + 1).toNat = last.toNat + 1 := by
  rw [UInt32.toNat_add]
  simp only [UInt32.size] at h
  exact Nat.mod_eq_of_lt h

/-- A scheduled hedge follows the last one directly and is within the budget. -/
theorem next_eq_some {d : Decision} {last index : UInt32} {due : Duration}
    (h : d.next last = some (index, due)) :
    index.toNat = last.toNat + 1 ∧ index.toNat ≤ d.maxHedges.toNat := by
  unfold next at h
  split at h
  · rename_i hl
    obtain ⟨due', hd, he⟩ := Option.map_eq_some_iff.1 h
    obtain ⟨rfl, rfl⟩ := Prod.mk.inj he
    refine ⟨toNat_succ hl, ?_⟩
    unfold offset at hd
    split at hd
    · cases hd
    · rename_i hm
      exact UInt32.le_iff_toNat_le.1 (UInt32.not_lt.1 hm)
  · cases h

/-- The time of a scheduled hedge. -/
theorem nanos_of_next {d : Decision} {last index : UInt32} {due : Duration}
    (h : d.next last = some (index, due)) : due.nanos = d.dueNanos index.toNat := by
  unfold next at h
  split at h
  · obtain ⟨due', hd, he⟩ := Option.map_eq_some_iff.1 h
    obtain ⟨rfl, rfl⟩ := Prod.mk.inj he
    unfold offset at hd
    split at hd
    · cases hd
    · obtain ⟨delay, hdelay, rfl⟩ := Option.map_eq_some_iff.1 hd
      rw [dueNanos_eq hdelay, Duration.times, Duration.nanos_ofNanos, Nat.mul_comm]
  · cases h

/-- Nothing is scheduled after the last hedge of the budget, and only after that. -/
theorem next_eq_none_iff {d : Decision} {last : UInt32} :
    d.next last = none ↔ d.maxHedges.toNat ≤ last.toNat := by
  constructor
  · intro h
    unfold next at h
    split at h
    · rename_i hl
      rw [Option.map_eq_none_iff] at h
      unfold offset at h
      split at h
      · rename_i hm
        have := UInt32.lt_iff_toNat_lt.1 hm
        rw [toNat_succ hl] at this
        omega
      · have hdelay := Option.map_eq_none_iff.1 h
        rw [maxHedges_of_none hdelay]
        exact Nat.zero_le _
    · have := d.maxHedges.toNat_lt
      simp only [UInt32.size] at *
      omega
  · intro h
    cases hn : d.next last with
    | none => rfl
    | some s =>
      have := next_eq_some hn
      omega

end Decision

end RequestHedging
