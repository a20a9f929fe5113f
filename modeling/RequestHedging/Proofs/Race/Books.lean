import Mathlib.Data.List.Chain
import Mathlib.Data.List.Nodup
import RequestHedging.Proofs.Race.Waiting

/-!
# The books of a race

What the events of a race add up to, beside the race itself.  The hedges asked for are
those up to the last one that was due; the attempts issued are those reported and those
in flight; what completes is reported at once.  `Books` holds of every race at every
turn, even of one that breaks down.

While it goes on, a race has only lost, and keeps the output of its primary attempt once
that is back (`Losing`).  `run` and `poll` keep all of this (`stands_poll`), and so a
race that ends was won by the attempt that completed last, or is spent.
-/

namespace RequestHedging

variable {In Out : Type}

def Decision.attempt (d : Decision) (i : Nat) : Attempt :=
  Attempt.planned (UInt32.ofNat i) d.maxHedges

/-- What the callbacks make of the output of an attempt. -/
def Callbacks.verdict (cb : Callbacks In Out) (a : Attempt) (output : Out) :
    Except Crash Outcome :=
  (cb.recovery output a).map (·.outcome cb.handleUnavailable)

namespace Race

/-! ## Views of events -/

namespace Event

@[simp] def attempt : Event In Out → Attempt
  | copied a _ | announced a _ | issued a | classified a _ _ | won a _ | exhausted a _ => a
  | called call => call.attempt
  | reported p => p.attempt

/-- The attempt whose input was asked for. -/
@[simp] def asked? : Event In Out → Option Attempt
  | copied a _ => some a
  | _ => none

@[simp] def issued? : Event In Out → Option Attempt
  | issued a => some a
  | _ => none

@[simp] def called? : Event In Out → Option Attempt
  | called call => some call.attempt
  | _ => none

@[simp] def call? : Event In Out → Option (Call In)
  | called call => some call
  | _ => none

@[simp] def consumed? : Event In Out → Option (Attempt × Out)
  | classified a output _ => some (a, output)
  | _ => none

@[simp] def reported? : Event In Out → Option (Report In Out)
  | reported p => some p
  | _ => none

/-- What may follow an event at once: after a completion its report, and a report nowhere
else. -/
def Precedes : Event In Out → Event In Out → Prop
  | classified a output _, reported p => p.attempt = a ∧ p.output = output
  | classified .., _ => False
  | _, reported _ => False
  | _, _ => True

def isClassified : Event In Out → Bool
  | classified .. => true
  | _ => false

theorem precedes_of_not {e e' : Event In Out} (h : e.isClassified = false)
    (h' : e'.reported? = none) : e.Precedes e' := by
  cases e <;> cases e' <;> simp_all [Precedes, isClassified]

end Event

/-- Calls change no view but that of calls. -/
theorem filterMap_append_calls {β : Type} {f : Event In Out → Option β}
    (hf : ∀ call, f (.called call) = none) (tr : List (Event In Out)) (made : List (Call In)) :
    (tr ++ made.map Event.called).filterMap f = tr.filterMap f := by
  simp [List.filterMap_append, hf]

theorem called_calls (made : List (Call In)) :
    (made.map Event.called : List (Event In Out)).filterMap Event.called? =
      made.map Call.attempt := by
  induction made with
  | nil => rfl
  | cons call made ih => simp [ih]

theorem map_attempt_calls (tr : List (Event In Out)) :
    (tr.filterMap Event.call?).map Call.attempt = tr.filterMap Event.called? := by
  rw [List.map_filterMap]
  congr 1
  funext e
  cases e <;> rfl

/-! ## The invariants -/

def Progress.race : Progress In Out → Race In Out
  | .pending r | .finished _ r | .crashed _ r => r

/-- The books of a race: its events `tr` beside its state.  The attempts `hand` were taken
from the flights and are not reported yet. -/
structure Books (cb : Callbacks In Out) (hand : List Attempt) (tr : List (Event In Out))
    (r : Race In Out) : Prop where
  asked : tr.filterMap Event.asked? = (List.range (r.lastHedge.toNat + 1)).map r.decision.attempt
  within : r.lastHedge.toNat ≤ r.decision.maxHedges.toNat
  sent : (tr.filterMap Event.issued?).Sublist (tr.filterMap Event.asked?)
  primary : r.decision.attempt 0 ∈ tr.filterMap Event.issued?
  count : r.issued = .ofNat (tr.filterMap Event.issued?).length
  conserved : (tr.filterMap Event.issued?).Perm
    ((tr.filterMap Event.reported?).map Report.attempt ++ (hand ++ r.flights.attempts))
  called : (tr.filterMap Event.issued?).Perm (tr.filterMap Event.called? ++ r.flights.uncalled)
  about : ∀ e ∈ tr, e.attempt ∈ tr.filterMap Event.asked?
  judged : ∀ p ∈ tr.filterMap Event.reported?, cb.verdict p.attempt p.output = .ok p.outcome
  chained : tr.IsChain Event.Precedes

/-- Every completion was reported. -/
structure Clean (tr : List (Event In Out)) : Prop where
  reported : tr.filterMap Event.consumed? =
    (tr.filterMap Event.reported?).map fun p => (p.attempt, p.output)
  closed : ∀ e ∈ tr.getLast?, e.isClassified = false

/-- Every attempt whose input was asked for was issued, unless its input was refused. -/
def Answered (cb : Callbacks In Out) (tr : List (Event In Out)) : Prop :=
  ∀ a request, .copied a request ∈ tr →
    a ∈ tr.filterMap Event.issued? ∨ ∃ left, cb.copy request a = .ok (left, none)

/-- Every attempt reported so far failed, and the output of the primary attempt is kept once
that was reported. -/
structure Losing (tr : List (Event In Out)) (r : Race In Out) : Prop where
  failed : ∀ p ∈ tr.filterMap Event.reported?, p.outcome = .failure
  kept : ∀ output, r.primaryOutput = some output →
    ∃ p ∈ tr.filterMap Event.reported?, p.attempt.isPrimary = true ∧ p.output = output
  stored : ∀ p ∈ tr.filterMap Event.reported?, p.attempt.isPrimary = true →
    r.primaryOutput.isSome = true

/-- A race of a decision, started at a time, whose last hedge was due by now. -/
structure Timed (d : Decision) (start now : Instant) (r : Race In Out) : Prop where
  decision : r.decision = d
  started : r.started = start
  due : start + d.dueNanos r.lastHedge.toNat ≤ now

structure Running (cb : Callbacks In Out) (d : Decision) (start now : Instant)
    (tr : List (Event In Out)) (r : Race In Out) : Prop where
  books : Books cb [] tr r
  clean : Clean tr
  answered : Answered cb tr
  losing : Losing tr r
  timed : Timed d start now r

/-- The attempt that completed last succeeded, and no one before it. -/
def WonBy (tr : List (Event In Out)) (output : Out) : Prop :=
  ∃ failed p, tr.filterMap Event.reported? = failed ++ [p] ∧
    (∀ q ∈ failed, q.outcome = .failure) ∧ p.outcome = .success ∧ p.output = output

/-- Every hedge was due and every attempt failed; the output is that of the primary attempt. -/
structure Spent (tr : List (Event In Out)) (r : Race In Out) (output : Out) : Prop where
  all_due : r.lastHedge.toNat = r.decision.maxHedges.toNat
  none_left : r.flights.attempts = []
  failed : ∀ p ∈ tr.filterMap Event.reported?, p.outcome = .failure
  primary : ∃ p ∈ tr.filterMap Event.reported?, p.attempt.isPrimary = true ∧ p.output = output

/-- What holds of a race that stands still, by where it stands. -/
def Stands (cb : Callbacks In Out) (d : Decision) (start now : Instant)
    (tr : List (Event In Out)) : Progress In Out → Prop
  | .pending r => Running cb d start now tr r ∧ r.Resting now
  | .finished output r =>
    Books cb [] tr r ∧ Clean tr ∧ Answered cb tr ∧ Timed d start now r ∧
      (WonBy tr output ∨ Spent tr r output)
  | .crashed fault r =>
    fault ≠ .primaryMissing ∧ Timed d start now r ∧
      (∀ p ∈ tr.filterMap Event.reported?, p.outcome = .failure) ∧ ∃ hand, Books cb hand tr r

/-! ## Events in a row -/

/-- A trace whose completions are reported goes on with anything but a report. -/
theorem isChain_append_of_closed {tr events : List (Event In Out)}
    (h : tr.IsChain Event.Precedes) (hevents : events.IsChain Event.Precedes)
    (hclosed : ∀ e ∈ tr.getLast?, e.isClassified = false)
    (hhead : ∀ e ∈ events.head?, e.reported? = none) :
    (tr ++ events).IsChain Event.Precedes :=
  List.isChain_append.mpr ⟨h, hevents, fun e he e' he' =>
    Event.precedes_of_not (hclosed e he) (hhead e' he')⟩

theorem closed_append {tr events : List (Event In Out)}
    (h : ∀ e ∈ tr.getLast?, e.isClassified = false)
    (hevents : ∀ e ∈ events.getLast?, e.isClassified = false) :
    ∀ e ∈ (tr ++ events).getLast?, e.isClassified = false := by
  intro e he
  rw [List.getLast?_append] at he
  cases hl : events.getLast? with
  | none =>
    rw [hl] at he
    exact h e he
  | some e' =>
    rw [hl] at he
    cases he
    exact hevents _ hl

/-- No event is a completion or a report. -/
def Quiet (events : List (Event In Out)) : Prop :=
  ∀ e ∈ events, e.isClassified = false ∧ e.reported? = none

theorem quiet_calls (made : List (Call In)) :
    Quiet (made.map Event.called : List (Event In Out)) := by
  intro e he
  obtain ⟨call, -, rfl⟩ := List.mem_map.mp he
  exact ⟨rfl, rfl⟩

namespace Quiet

variable {events : List (Event In Out)}

theorem isChain (h : Quiet events) : events.IsChain Event.Precedes := by
  induction events with
  | nil => exact .nil
  | cons e events ih =>
    cases events with
    | nil => exact .singleton e
    | cons e' events =>
      refine .cons_cons ?_ (ih fun x hx => h x (List.mem_cons_of_mem _ hx))
      exact Event.precedes_of_not (h e (by simp)).1 (h e' (by simp)).2

theorem reported (h : Quiet events) (tr : List (Event In Out)) :
    (tr ++ events).filterMap Event.reported? = tr.filterMap Event.reported? := by
  rw [List.filterMap_append, List.filterMap_eq_nil_iff.mpr fun e he => (h e he).2,
    List.append_nil]

theorem consumed (h : Quiet events) (tr : List (Event In Out)) :
    (tr ++ events).filterMap Event.consumed? = tr.filterMap Event.consumed? := by
  have hnone : ∀ e ∈ events, e.consumed? = none := by
    intro e he
    have := (h e he).1
    cases e <;> simp_all [Event.isClassified]
  rw [List.filterMap_append, List.filterMap_eq_nil_iff.mpr hnone, List.append_nil]

theorem chained (h : Quiet events) {tr : List (Event In Out)} (htr : tr.IsChain Event.Precedes)
    (hclosed : ∀ e ∈ tr.getLast?, e.isClassified = false) :
    (tr ++ events).IsChain Event.Precedes :=
  isChain_append_of_closed htr h.isChain hclosed fun e he => (h e (List.mem_of_mem_head? he)).2

end Quiet

theorem Clean.quiet {tr events : List (Event In Out)} (h : Clean tr) (hq : Quiet events) :
    Clean (tr ++ events) := by
  refine ⟨?_, closed_append h.closed fun e he => (hq e (List.mem_of_mem_getLast? he)).1⟩
  rw [hq.consumed, hq.reported]
  exact h.reported

/-- Every new input asked for has to be answered. -/
theorem Answered.append {cb : Callbacks In Out} {tr events : List (Event In Out)}
    (h : Answered cb tr)
    (hevents : ∀ a request, .copied a request ∈ events →
      a ∈ events.filterMap Event.issued? ∨ ∃ left, cb.copy request a = .ok (left, none)) :
    Answered cb (tr ++ events) := by
  intro a request ha
  rw [List.filterMap_append, List.mem_append]
  rcases List.mem_append.mp ha with ha | ha
  · exact (h a request ha).imp_left .inl
  · exact (hevents a request ha).imp_left .inr

theorem Losing.quiet {tr events : List (Event In Out)} {r r' : Race In Out} (h : Losing tr r)
    (hq : Quiet events) (hr : r'.primaryOutput = r.primaryOutput) :
    Losing (tr ++ events) r' := by
  refine ⟨?_, ?_, ?_⟩
  · rw [hq.reported]
    exact h.failed
  · rw [hq.reported, hr]
    exact h.kept
  · rw [hq.reported, hr]
    exact h.stored

/-! ## Polling the flights -/

section Books

variable {cb : Callbacks In Out} {hand : List Attempt} {tr : List (Event In Out)} {r : Race In Out}

/-- What was issued was asked for. -/
theorem Books.issued_mem_asked (h : Books cb hand tr r) {a : Attempt}
    (ha : a ∈ tr.filterMap Event.issued?) : a ∈ tr.filterMap Event.asked? :=
  h.sent.subset ha

theorem Books.hand_mem_asked (h : Books cb hand tr r) {a : Attempt} (ha : a ∈ hand) :
    a ∈ tr.filterMap Event.asked? :=
  h.issued_mem_asked (h.conserved.symm.subset (by simp [ha]))

/-- What was reported was asked for. -/
theorem Books.reported_mem_asked (h : Books cb hand tr r) {p : Report In Out}
    (hp : p ∈ tr.filterMap Event.reported?) : p.attempt ∈ tr.filterMap Event.asked? :=
  h.issued_mem_asked
    (h.conserved.symm.subset (List.mem_append_left _ (List.mem_map_of_mem hp)))

theorem Books.uncalled_mem_asked (h : Books cb hand tr r) {a : Attempt}
    (ha : a ∈ r.flights.uncalled) : a ∈ tr.filterMap Event.asked? :=
  h.issued_mem_asked (h.called.symm.subset (by simp [ha]))

/-- The indices of the attempts asked for count up from nothing. -/
theorem Books.indices_asked (h : Books cb hand tr r) :
    (tr.filterMap Event.asked?).map (fun a => a.index.toNat) =
      List.range (r.lastHedge.toNat + 1) := by
  rw [h.asked, List.map_map]
  refine (List.map_congr_left fun i hi => ?_).trans (List.map_id _)
  have hlt : i < UInt32.size :=
    Nat.lt_of_lt_of_le (List.mem_range.mp hi) r.lastHedge.toNat_lt
  exact UInt32.toNat_ofNat_of_lt' hlt

/-- As many attempts may be issued as there are words, so the count may wrap round to none. -/
theorem Books.length_issued_le (h : Books cb hand tr r) :
    (tr.filterMap Event.issued?).length ≤ UInt32.size := by
  have hsent := h.sent.length_le
  rw [h.asked, List.length_map, List.length_range] at hsent
  exact Nat.le_trans hsent r.lastHedge.toNat_lt

theorem Books.length_issued_pos (h : Books cb hand tr r) :
    0 < (tr.filterMap Event.issued?).length :=
  List.length_pos_of_mem h.primary

/-- The counter is the number of attempts issued, as far as a word of 32 bits holds it. -/
theorem Books.toNat_issued (h : Books cb hand tr r) :
    r.issued.toNat = (tr.filterMap Event.issued?).length % UInt32.size := by
  rw [h.count]
  rfl

/-- The count tells how many attempts were issued all the same, since it is never of none. -/
theorem Books.length_issued_eq {hand' : List Attempt} {tr' : List (Event In Out)}
    {r' : Race In Out} (h : Books cb hand tr r) (h' : Books cb hand' tr' r')
    (hsame : r'.issued = r.issued) :
    (tr'.filterMap Event.issued?).length = (tr.filterMap Event.issued?).length := by
  have hcount := h.toNat_issued
  have hcount' := h'.toNat_issued
  have hle := h.length_issued_le
  have hle' := h'.length_issued_le
  have hpos := h.length_issued_pos
  have hpos' := h'.length_issued_pos
  rw [hsame] at hcount'
  simp only [UInt32.size] at *
  omega

/-- No attempt is issued twice. -/
theorem Books.nodup_issued (h : Books cb hand tr r) :
    ((tr.filterMap Event.issued?).map fun a => a.index.toNat).Nodup := by
  refine List.Nodup.sublist (h.sent.map _) ?_
  rw [h.indices_asked]
  exact List.nodup_range

/-- No attempt is reported twice. -/
theorem Books.nodup_reported (h : Books cb hand tr r) :
    ((tr.filterMap Event.reported?).map fun p => p.attempt.index.toNat).Nodup := by
  have hissued := (h.conserved.map fun a => a.index.toNat).nodup_iff.mp h.nodup_issued
  rw [List.map_append, List.map_map] at hissued
  exact (List.nodup_append.mp hissued).1

/-- Polling the flights takes the attempt that lands into the hand. -/
theorem Books.polled (h : Books cb [] tr r) (hclean : Clean tr) (m : Moment) :
    ∃ hand, Took (r.flights.poll cb.serve m).landed hand ∧
      Books cb hand (tr ++ (r.flights.poll cb.serve m).made.map Event.called)
        { r with flights := (r.flights.poll cb.serve m).flights } := by
  obtain ⟨hand, htook, hperm⟩ := r.flights.exists_taken_poll cb.serve m
  have hcalls := r.flights.uncalled_poll cb.serve m
  refine ⟨hand, htook, ?_⟩
  generalize r.flights.poll cb.serve m = polled at hperm hcalls
  have hasked := filterMap_append_calls (f := Event.asked?) (fun _ => rfl) tr polled.made
  have hissued := filterMap_append_calls (f := Event.issued?) (fun _ => rfl) tr polled.made
  have hreported := (quiet_calls polled.made).reported tr
  refine ⟨hasked ▸ h.asked, h.within, ?_, hissued ▸ h.primary, hissued ▸ h.count, ?_, ?_, ?_,
    hreported ▸ h.judged, ?_⟩
  · rw [hasked, hissued]
    exact h.sent
  · rw [hissued, hreported]
    exact h.conserved.trans (hperm.append_left _)
  · rw [hissued, List.filterMap_append, called_calls, List.append_assoc]
    exact h.called.trans (hcalls.append_left _)
  · rw [hasked]
    intro e he
    rcases List.mem_append.mp he with he | he
    · exact h.about e he
    · obtain ⟨call, hcall, rfl⟩ := List.mem_map.mp he
      refine h.uncalled_mem_asked (hcalls.symm.subset (List.mem_append_left _ ?_))
      exact List.mem_map_of_mem hcall
  · exact (quiet_calls _).chained h.chained hclean.closed

end Books

end Race

end RequestHedging
