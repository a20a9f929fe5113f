import RequestHedging.Proofs.Race.Turns

/-!
# Announcing, issuing and calling

A hedge whose input is granted is announced, issued and called, in this order and before
anything is done about the next one.  So the attempts issued are the primary attempt and the
hedges announced, and the inner service is called for them in the same order (`Unison`).  Only
within a poll may the last of them be issued and not called yet: it alone stands in the queue
then (`Flights.Lined`), and the next turn calls it.

A race ends by itself with one event, which says how many attempts were issued
(`Concludes`).
-/

namespace RequestHedging.Race

variable {In Out : Type}

/-! ## Views -/

namespace Event

@[simp] def announced? : Event In Out → Option Attempt
  | announced a _ => some a
  | _ => none

/-- The attempt whose input was asked for and granted. -/
def granted? (cb : Callbacks In Out) : Event In Out → Option Attempt
  | copied a request =>
    match cb.copy request a with
    | .ok (_, some _) => some a
    | _ => none
  | _ => none

@[simp] def closing? : Event In Out → Option (Attempt × UInt32 × Outcome)
  | won a count => some (a, count, .success)
  | exhausted a count => some (a, count, .failure)
  | _ => none

def isVerdict : Event In Out → Bool
  | classified .. | reported _ | won .. | exhausted .. => true
  | _ => false

def HeraldedBy (before : List (Event In Out)) : Event In Out → Prop
  | issued a => a.isHedge = true → a ∈ before.filterMap announced?
  | called call => call.attempt ∈ before.filterMap issued?
  | _ => True

theorem HeraldedBy.append {before : List (Event In Out)} {e : Event In Out}
    (h : e.HeraldedBy before) (later : List (Event In Out)) : e.HeraldedBy (before ++ later) := by
  cases e with
  | issued a =>
    intro ha
    rw [List.filterMap_append]
    exact List.mem_append_left _ (h ha)
  | called call =>
    rw [HeraldedBy, List.filterMap_append]
    exact List.mem_append_left _ h
  | _ => trivial

end Event

/-- Hedges are announced before they are issued, and attempts are issued before they are
called. -/
def Heralded (tr : List (Event In Out)) : Prop :=
  ∀ before event after, tr = before ++ event :: after → event.HeraldedBy before

theorem Heralded.append {tr events : List (Event In Out)} (h : Heralded tr)
    (hevents : ∀ e ∈ events, e.HeraldedBy tr) : Heralded (tr ++ events) := by
  intro before event after heq
  -- The event is an old one, or a new one with some of the new ones before it.
  rcases List.append_eq_append_iff.mp heq.symm with ⟨rest, htr, hrest⟩ | ⟨rest, hbefore, hrest⟩
  · cases rest with
    | nil =>
      rw [htr, List.append_nil] at hevents
      exact hevents event (by rw [← List.nil_append events, ← hrest]; exact List.mem_cons_self)
    | cons e rest =>
      obtain ⟨rfl, -⟩ := List.cons.inj hrest
      exact h before event rest htr
  · rw [hbefore]
    exact (hevents event (by rw [hrest]; simp)).append rest

/-! ## Flights in line -/

namespace Flights

/-- Nothing in flight is left to call, or one attempt that stands alone in the queue. -/
def Lined (f : Flights In Out) : Prop :=
  f.uncalled = [] ∨ ∃ a now copy, f.ready = [⟨a, now, .fresh copy⟩] ∧ f.uncalled = [a]

/-- In an empty queue, the attempt issued stands alone. -/
theorem lined_issue {f : Flights In Out} (hready : f.ready = []) (huncalled : f.uncalled = [])
    (a : Attempt) (now : Instant) (copy : In) :
    (f.issue a now copy).Lined ∧ (f.issue a now copy).uncalled = [a] := by
  have hissued : (f.issue a now copy).uncalled = [a] := by
    have hperm := f.uncalled_issue a now copy
    rw [huncalled, List.nil_append] at hperm
    exact List.perm_singleton.mp hperm
  exact ⟨.inr ⟨a, now, copy, by rw [issue, hready, List.nil_append], hissued⟩, hissued⟩

theorem wake_start (a : Attempt) (now : Instant) (copy : In) (m : Moment) :
    (none.issue a now copy : Flights In Out).wake m = none.issue a now copy := by
  simp [wake, issue, none]

theorem uncalled_wake_eq_nil {f : Flights In Out} (h : f.uncalled = []) (m : Moment) :
    (f.wake m).uncalled = [] := by
  have hperm := f.uncalled_wake m
  rw [h] at hperm
  exact hperm.eq_nil

/-- Polling flights in line calls all that is left to call. -/
theorem Lined.poll {f : Flights In Out} (h : f.Lined) (serve : In → Nat → Execution Out)
    (m : Moment) : (f.poll serve m).made.map Call.attempt = f.uncalled ∧
      (f.poll serve m).flights.uncalled = [] := by
  have hperm := f.uncalled_poll serve m
  rcases h with hnone | ⟨a, now, copy, hready, hone⟩
  · rw [hnone] at hperm ⊢
    exact List.append_eq_nil_iff.mp hperm.symm.eq_nil
  · obtain ⟨ready, waiting, calls⟩ := f
    obtain rfl : ready = [⟨a, now, .fresh copy⟩] := hready
    obtain ⟨made, hmade⟩ : ∃ made,
        (Flights.poll ⟨[⟨a, now, .fresh copy⟩], waiting, calls⟩ serve m).made =
          ⟨a, calls, copy⟩ :: made := by
      simp only [Flights.poll, pollQueue]
      split <;> exact ⟨_, rfl⟩
    rw [hone, hmade, List.map_cons, List.cons_append] at hperm
    obtain ⟨hmap, huncalled⟩ :=
      List.append_eq_nil_iff.mp ((List.perm_cons a).mp hperm).symm.eq_nil
    rw [hone, hmade, List.map_cons, hmap]
    exact ⟨rfl, huncalled⟩

end Flights

/-! ## The invariant -/

/-- The attempts issued are the primary attempt and the hedges announced, which are those whose
input was granted, and they are called in this order; the last of them may be left to call. -/
structure Unison (cb : Callbacks In Out) (d : Decision) (tr : List (Event In Out))
    (uncalled : List Attempt) : Prop where
  granted : tr.filterMap (Event.granted? cb) = tr.filterMap Event.issued?
  issued : tr.filterMap Event.issued? = d.attempt 0 :: tr.filterMap Event.announced?
  hedges : ∀ a ∈ tr.filterMap Event.announced?, a.isHedge = true
  called : tr.filterMap Event.issued? = tr.filterMap Event.called? ++ uncalled
  heralded : Heralded tr

section Unison

variable {cb : Callbacks In Out} {d : Decision} {tr events : List (Event In Out)}
  {uncalled : List Attempt}

/-- Events that none of the views show change nothing. -/
theorem Unison.append (h : Unison cb d tr uncalled)
    (hgranted : events.filterMap (Event.granted? cb) = [])
    (hissued : events.filterMap Event.issued? = [])
    (hannounced : events.filterMap Event.announced? = [])
    (hcalled : events.filterMap Event.called? = []) : Unison cb d (tr ++ events) uncalled := by
  constructor
  · rw [List.filterMap_append, List.filterMap_append, hgranted, hissued, h.granted]
  · rw [List.filterMap_append, List.filterMap_append, hissued, hannounced, List.append_nil,
      List.append_nil]
    exact h.issued
  · rw [List.filterMap_append, hannounced, List.append_nil]
    exact h.hedges
  · rw [List.filterMap_append, List.filterMap_append, hissued, hcalled, List.append_nil,
      List.append_nil]
    exact h.called
  · refine h.heralded.append fun e he => ?_
    cases e with
    | issued a =>
      have hmem : a ∈ events.filterMap Event.issued? := List.mem_filterMap.mpr ⟨_, he, rfl⟩
      rw [hissued] at hmem
      cases hmem
    | called call =>
      have hmem : call.attempt ∈ events.filterMap Event.called? :=
        List.mem_filterMap.mpr ⟨_, he, rfl⟩
      rw [hcalled] at hmem
      cases hmem
    | _ => trivial

/-- What came of attempts is none of the business of this invariant. -/
theorem Unison.verdicts (h : Unison cb d tr uncalled) (hevents : ∀ e ∈ events, e.isVerdict = true) :
    Unison cb d (tr ++ events) uncalled := by
  have hnone : ∀ f : Event In Out → Option Attempt, (∀ e, e.isVerdict = true → f e = none) →
      events.filterMap f = [] :=
    fun f hf => List.filterMap_eq_nil_iff.mpr fun e he => hf e (hevents e he)
  refine h.append (hnone _ ?_) (hnone _ ?_) (hnone _ ?_) (hnone _ ?_) <;>
    · intro e he
      cases e <;> first | rfl | cases he

/-- What is left to call is called. -/
theorem Unison.calls (h : Unison cb d tr uncalled) {made : List (Call In)}
    (hmade : made.map Call.attempt = uncalled) :
    Unison cb d (tr ++ made.map Event.called) [] := by
  constructor
  · rw [filterMap_append_calls (fun _ => rfl), filterMap_append_calls (fun _ => rfl)]
    exact h.granted
  · rw [filterMap_append_calls (fun _ => rfl), filterMap_append_calls (fun _ => rfl)]
    exact h.issued
  · rw [filterMap_append_calls (fun _ => rfl)]
    exact h.hedges
  · rw [filterMap_append_calls (fun _ => rfl), List.filterMap_append, called_calls, hmade,
      List.append_nil]
    exact h.called
  · refine h.heralded.append fun e he => ?_
    obtain ⟨call, hcall, rfl⟩ := List.mem_map.mp he
    show call.attempt ∈ tr.filterMap Event.issued?
    rw [h.called, ← hmade]
    exact List.mem_append_right _ (List.mem_map_of_mem hcall)

/-- A hedge whose input is granted is announced and issued. -/
theorem Unison.hedge (h : Unison cb d tr []) {a : Attempt} (ha : a.isHedge = true)
    {request left input : In} (hcopy : cb.copy request a = .ok (left, some input))
    (delay : Duration) :
    Unison cb d (tr ++ [.copied a request, .announced a delay, .issued a]) [a] := by
  have hgranted : Event.granted? cb (.copied a request) = some a := by
    simp only [Event.granted?, hcopy]
  constructor
  · rw [List.filterMap_append, List.filterMap_append, h.granted, List.filterMap_cons_some hgranted]
    rfl
  · rw [List.filterMap_append, List.filterMap_append, h.issued]
    rfl
  · rw [List.filterMap_append]
    exact List.forall_mem_append.mpr ⟨h.hedges, List.forall_mem_singleton.mpr ha⟩
  · rw [List.filterMap_append, List.filterMap_append, h.called, List.append_nil,
      List.append_assoc]
    rfl
  · have htrace : tr ++ [.copied a request, .announced a delay, .issued a] =
        tr ++ [.copied a request, .announced a delay] ++ [Event.issued a] := by simp
    rw [htrace]
    refine (h.heralded.append (by simp [Event.HeraldedBy])).append ?_
    simp [Event.HeraldedBy]

end Unison

/-- What holds between the turns of a race that goes on. -/
structure Paired (cb : Callbacks In Out) (d : Decision) (tr : List (Event In Out))
    (r : Race In Out) : Prop where
  unison : Unison cb d tr r.flights.uncalled
  lined : r.flights.Lined
  unclosed : tr.filterMap Event.closing? = []

/-- How a race that stands still has ended by itself, if it has. -/
def Concludes (d : Decision) (tr : List (Event In Out)) : Progress In Out → Prop
  | .pending r => tr.filterMap Event.closing? = [] ∧ r.flights.uncalled = []
  | .crashed _ _ => tr.filterMap Event.closing? = []
  | .finished _ r =>
    (∃ p, (tr.filterMap Event.reported?).getLast? = some p ∧ p.outcome = .success ∧
      tr.filterMap Event.closing? = [(p.attempt, r.issued, .success)]) ∨
    (∀ p ∈ tr.filterMap Event.reported?, p.outcome = .failure) ∧
      tr.filterMap Event.closing? = [(d.attempt 0, r.issued, .failure)]

def Accords (cb : Callbacks In Out) (d : Decision) (tr : List (Event In Out)) :
    Turn In Out → Prop
  | .again r => Paired cb d tr r
  | .settled p => Unison cb d tr [] ∧ Concludes d tr p

section Turns

variable {cb : Callbacks In Out} {d : Decision} {start : Instant} {m : Moment}
  {tr : List (Event In Out)} {r : Race In Out}

/-- The race goes on being open while nothing closes it. -/
theorem unclosed_append {events : List (Event In Out)}
    (hunclosed : tr.filterMap Event.closing? = []) (h : events.filterMap Event.closing? = []) :
    (tr ++ events).filterMap Event.closing? = [] := by
  rw [List.filterMap_append, hunclosed, h, List.nil_append]

theorem accords_complete (now : Instant) (c : Completed Out) (h : Unison cb d tr [])
    (huncalled : r.flights.uncalled = []) (hunclosed : tr.filterMap Event.closing? = []) :
    Accords cb d (tr ++ (r.complete cb now c).1) (r.complete cb now c).2 := by
  unfold complete
  split
  · exact ⟨h.verdicts (by simp [Event.isVerdict]), unclosed_append hunclosed (by simp)⟩
  · rename_i recovery hrecovery
    dsimp only
    split
    · rename_i hsuccess
      let p : Report In Out :=
        ⟨r.request, c.output, recovery.outcome cb.handleUnavailable, c.elapsed, c.attempt⟩
      refine ⟨h.verdicts (by simp [Event.isVerdict]), .inl ⟨p, ?_, hsuccess, ?_⟩⟩
      · rw [List.filterMap_append]
        exact List.getLast?_concat
      · rw [List.filterMap_append, hunclosed]
        rfl
    · refine ⟨?_, .inl huncalled, unclosed_append hunclosed (by simp)⟩
      rw [show (r.flights.uncalled : List Attempt) = [] from huncalled]
      exact h.verdicts (by simp [Event.isVerdict])

theorem accords_hedge (now : Instant) {index : UInt32} (hindex : 0 < index)
    (honHedge : ∀ a delay crash, cb.onHedge a delay ≠ .error crash) (h : Unison cb d tr [])
    (hready : r.flights.ready = []) (huncalled : r.flights.uncalled = [])
    (hunclosed : tr.filterMap Event.closing? = []) :
    Accords cb d (tr ++ (r.hedge cb now index).1) (r.hedge cb now index).2 := by
  unfold hedge
  dsimp only
  split
  · rename_i crash hcopy
    refine ⟨h.append ?_ rfl rfl rfl, unclosed_append hunclosed (by simp)⟩
    simp [Event.granted?, hcopy]
  · rename_i left hcopy
    refine ⟨?_, .inl huncalled, unclosed_append hunclosed (by simp)⟩
    rw [show (r.flights.uncalled : List Attempt) = [] from huncalled]
    refine h.append ?_ rfl rfl rfl
    simp [Event.granted?, hcopy]
  · rename_i left input hcopy
    split
    · rename_i crash hcrash
      exact absurd hcrash (honHedge _ _ _)
    · obtain ⟨hlined, hissued⟩ := Flights.lined_issue hready huncalled
        (Attempt.planned index r.decision.maxHedges) now input
      refine ⟨?_, hlined, unclosed_append hunclosed (by simp)⟩
      rw [hissued]
      exact h.hedge (decide_eq_true hindex) hcopy _

/-- If all attempts failed, that is how the race ends. -/
theorem accords_exhaust {now : Instant} (hrunning : Running cb d start now tr r)
    (hempty : r.flights.isEmpty = true) (h : Unison cb d tr [])
    (hunclosed : tr.filterMap Event.closing? = []) :
    Accords cb d (tr ++ r.exhaust.1) r.exhaust.2 := by
  obtain ⟨output, houtput⟩ := exists_primaryOutput hrunning hempty
  rw [exhaust, houtput]
  refine ⟨h.verdicts (by simp [Event.isVerdict]), .inr ⟨?_, ?_⟩⟩
  · rw [filterMap_snoc_none _ rfl]
    exact hrunning.losing.failed
  · rw [List.filterMap_append, hunclosed, hrunning.timed.decision]
    rfl

theorem accords_goOn (hrunning : Running cb d start m.now tr r)
    (honHedge : ∀ a delay crash, cb.onHedge a delay ≠ .error crash) (h : Unison cb d tr [])
    (hready : r.flights.ready = []) (huncalled : r.flights.uncalled = [])
    (hunclosed : tr.filterMap Event.closing? = []) :
    Accords cb d (tr ++ (r.goOn cb m).1) (r.goOn cb m).2 := by
  have hsuspend : ∀ p, Accords cb d (tr ++ (r.suspend p).1) (r.suspend p).2 := by
    intro p
    rw [suspend, List.append_nil]
    exact ⟨h, hunclosed, huncalled⟩
  unfold goOn
  split
  · split
    · rename_i hempty
      exact accords_exhaust hrunning hempty h hunclosed
    · exact hsuspend _
  · rename_i index due hnext
    have hindex : 0 < index := by
      have := (Decision.next_eq_some hnext).1
      exact UInt32.lt_iff_toNat_lt.mpr (this ▸ Nat.succ_pos _)
    split
    · exact accords_hedge m.now hindex honHedge h hready huncalled hunclosed
    · split
      · exact hsuspend _
      · exact hsuspend _

/-- What a turn of a race that goes on leads to. -/
theorem accords_stride (hrunning : Running cb d start m.now tr r)
    (honHedge : ∀ a delay crash, cb.onHedge a delay ≠ .error crash) (h : Paired cb d tr r) :
    Accords cb d (tr ++ (r.stride cb m).1) (r.stride cb m).2 := by
  obtain ⟨hmade, huncalled⟩ := h.lined.poll cb.serve m
  have hcalled := h.unison.calls hmade
  have hunclosed : (tr ++ (r.flights.poll cb.serve m).made.map Event.called).filterMap
      Event.closing? = [] := by
    rw [filterMap_append_calls (fun _ => rfl)]
    exact h.unclosed
  unfold stride await
  dsimp only
  rw [← List.append_assoc]
  split
  · rw [List.append_nil]
    exact ⟨hcalled, hunclosed⟩
  · exact accords_complete m.now _ hcalled huncalled hunclosed
  · rename_i hlanded
    exact accords_goOn (hrunning.polled hlanded) honHedge hcalled
      (Flights.ready_pollQueue hlanded) huncalled hunclosed

end Turns

/-- What a poll of a race leads to. -/
theorem concludes_poll {cb : Callbacks In Out} {d : Decision} {start : Instant} {m : Moment}
    {tr : List (Event In Out)} {r : Race In Out}
    (honHedge : ∀ a delay crash, cb.onHedge a delay ≠ .error crash) (hr : r.Poised m.now)
    (hrunning : Running cb d start m.now tr r)
    (h : Paired cb d tr { r with flights := r.flights.wake m }) :
    Unison cb d (tr ++ (r.poll cb m).1) [] ∧
      Concludes d (tr ++ (r.poll cb m).1) (r.poll cb m).2 := by
  refine poll_induct (P := fun tr r => Running cb d start m.now tr r ∧ Paired cb d tr r)
    (Q := fun tr p => Unison cb d tr [] ∧ Concludes d tr p) (fun h => h.1.started_le)
    (fun h hs => ?_) (fun h hs => ?_) hr ⟨hrunning.wake m, h⟩
  · have hleads := leads_stride h.1
    have haccords := accords_stride h.1 honHedge h.2
    rw [hs] at hleads haccords
    exact ⟨hleads, haccords⟩
  · have haccords := accords_stride h.1 honHedge h.2
    rwa [hs] at haccords

/-- Between polls nothing is left to call. -/
theorem Unison.paired {cb : Callbacks In Out} {d : Decision} {tr : List (Event In Out)}
    {r : Race In Out} (h : Unison cb d tr []) (hconcludes : Concludes d tr (.pending r))
    (m : Moment) : Paired cb d tr { r with flights := r.flights.wake m } := by
  have hwoken : (r.flights.wake m).uncalled = [] :=
    Flights.uncalled_wake_eq_nil hconcludes.2 m
  refine ⟨?_, .inl hwoken, hconcludes.1⟩
  rw [show ({ r with flights := r.flights.wake m } : Race In Out).flights.uncalled = [] from hwoken]
  exact h

/-- At its start a race has its primary attempt to call. -/
theorem paired_start {cb : Callbacks In Out} {d : Decision} {request left input : In}
    (hcopy : cb.copy request (d.attempt 0) = .ok (left, some input)) {now : Instant} (m : Moment)
    {r : Race In Out} {copy : In}
    (hflights : r.flights = Flights.none.issue (d.attempt 0) now copy) :
    Paired cb d [.copied (d.attempt 0) request, .issued (d.attempt 0)]
      { r with flights := r.flights.wake m } := by
  have hgranted : Event.granted? cb (.copied (d.attempt 0) request) = some (d.attempt 0) := by
    simp only [Event.granted?, hcopy]
  obtain ⟨hlined, hissued⟩ := Flights.lined_issue (f := Flights.none) rfl rfl
    (d.attempt 0) now copy
  rw [hflights, Flights.wake_start]
  refine ⟨⟨?_, rfl, by simp, ?_, ?_⟩, hlined, rfl⟩
  · rw [List.filterMap_cons_some hgranted]
    rfl
  · show _ = _ ++ (Flights.none.issue (d.attempt 0) now copy : Flights In Out).uncalled
    rw [hissued]
    rfl
  · have hnil : Heralded ([] : List (Event In Out)) := by
      intro before event after heq
      simp at heq
    have hprimary : (d.attempt 0).isHedge = false := rfl
    refine hnil.append ?_
    simp [Event.HeraldedBy, hprimary]

end RequestHedging.Race
