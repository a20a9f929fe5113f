import RequestHedging.Proofs.Race.Stragglers
import RequestHedging.Proofs.Race.Timing

/-!
# How long attempts took

The time of an attempt is measured from when it was issued until the poll that consumes it.  An
attempt is called in the poll that issues it, and only flights that have begun outlast a poll, so
this is the time its execution had (`Measured`).

`Timing` knows that flights have begun.  Here those that can go on have also ended by now
(`Airborne`), so that no report comes before the end of what it measures.  `prompt_poll` is what a
poll of a race keeps of this, and `Stragglers.prompt_poll` what a poll of stragglers keeps.
-/

namespace RequestHedging

variable {In Out : Type}

namespace Race

/-- An attempt runs since a time; by now its execution has ended, if it waits for time alone. -/
structure Ended (cb : Callbacks In Out) (tl : Timeline In Out) (now : Instant) (a : Attempt)
    (begun : Instant) (e : Execution Out) : Prop where
  runs : Runs cb tl a begun e
  since : begun ≤ now
  finished : ∀ finish, e.endsAt? begun = some finish → finish ≤ now

/-- A report gives the result of an execution that has ended, and the time since that was begun. -/
def Measured (cb : Callbacks In Out) (tl : Timeline In Out) (now : Instant)
    (p : Report In Out) : Prop :=
  ∃ begun e, Ended cb tl now p.attempt begun e ∧ e.result = .ok p.output ∧
    p.elapsed = elapsed begun now

/-- What landed is the result of an execution that has ended, with the time since that was
begun. -/
def Lands (cb : Callbacks In Out) (tl : Timeline In Out) (now : Instant)
    (landed : Except Crash (Completed Out)) : Prop :=
  ∃ a begun e, Ended cb tl now a begun e ∧
    landed = e.result.map fun output => ⟨a, output, elapsed begun now⟩

/-- A flight has begun, and its execution has ended by now. -/
def Ripe (cb : Callbacks In Out) (tl : Timeline In Out) (now : Instant)
    (flight : Flight In Out) : Prop :=
  ∃ e, (∃ call, flight.stage = .begun call e.result) ∧
    Ended cb tl now flight.attempt flight.issuedAt e

/-- All flights have begun, and those that can go on have ended by now. -/
structure Airborne (cb : Callbacks In Out) (tl : Timeline In Out) (now : Instant)
    (f : Flights In Out) : Prop where
  ready : ∀ flight ∈ f.ready, Ripe cb tl now flight
  waiting : ∀ w ∈ f.waiting, Waits cb tl w

section Growth

variable {cb : Callbacks In Out} {tl : Timeline In Out} {now : Instant} {a : Attempt}
  {begun : Instant} {e : Execution Out} {f : Flights In Out}

theorem Ended.append (h : Ended cb tl now a begun e) (later : Timeline In Out) :
    Ended cb (tl ++ later) now a begun e :=
  { h with runs := h.runs.append later }

theorem Measured.append {p : Report In Out} (h : Measured cb tl now p) (later : Timeline In Out) :
    Measured cb (tl ++ later) now p := by
  obtain ⟨begun, e, hended, hrest⟩ := h
  exact ⟨begun, e, hended.append later, hrest⟩

theorem Airborne.append (h : Airborne cb tl now f) (later : Timeline In Out) :
    Airborne cb (tl ++ later) now f := by
  constructor
  · intro flight hflight
    obtain ⟨e, hstage, hended⟩ := h.ready flight hflight
    exact ⟨e, hstage, hended.append later⟩
  · exact fun w hw => (h.waiting w hw).append later

/-- What has ended stays so. -/
theorem Airborne.later (h : Airborne cb tl now f) {later : Instant} (hle : now ≤ later) :
    Airborne cb tl later f := by
  refine ⟨fun flight hflight => ?_, h.waiting⟩
  obtain ⟨e, hstage, hended⟩ := h.ready flight hflight
  exact ⟨e, hstage, hended.runs, Nat.le_trans hended.since hle,
    fun finish hfinish => Nat.le_trans (hended.finished finish hfinish) hle⟩

theorem Airborne.tracked (h : Airborne cb tl now f) : Tracked cb tl f := by
  refine ⟨fun flight hflight => ?_, h.waiting⟩
  obtain ⟨e, hstage, hended⟩ := h.ready flight hflight
  exact ⟨e, hstage, hended.runs⟩

end Growth

/-! ## Polling the flights -/

section Flights

variable {cb : Callbacks In Out} {m : Moment} {tl : Timeline In Out} {f : Flights In Out}

/-- Flights that are woken have ended. -/
theorem Airborne.wake (h : Airborne cb tl m.now f) (hpast : ∀ x ∈ tl, x.1 ≤ m.now) :
    Airborne cb tl m.now (f.wake m) := by
  constructor
  · intro flight hflight
    rcases List.mem_append.mp hflight with hready | hrung
    · exact h.ready flight hready
    · obtain ⟨w, hw, rfl⟩ := List.mem_map.mp hrung
      obtain ⟨hmem, hrang⟩ := List.mem_filter.mp ((List.mergeSort_perm _ _).mem_iff.mp hw)
      obtain ⟨e, ⟨hstage, hruns⟩, halarm⟩ := h.waiting w hmem
      refine ⟨e, hstage, hruns, hpast _ hruns.1, fun finish hfinish => ?_⟩
      rw [halarm finish hfinish] at hrang
      exact of_decide_eq_true hrang
  · exact fun w hw => h.waiting w (List.mem_filter.mp hw).1

/-- The first flight in the queue lands; none is called. -/
theorem Airborne.poll (h : Airborne cb tl m.now f) :
    (f.poll cb.serve m).made = [] ∧ Airborne cb tl m.now (f.poll cb.serve m).flights ∧
      ∀ landed, (f.poll cb.serve m).landed = some landed → Lands cb tl m.now landed := by
  obtain ⟨hmade, hleft, hlands⟩ := Flights.poll_begun cb.serve m h.ready
  rw [hleft]
  refine ⟨hmade, ⟨fun flight hflight => ?_, h.waiting⟩, fun landed hlanded => ?_⟩
  · exact h.ready flight (List.mem_of_mem_tail hflight)
  · obtain ⟨flight, e, hended, rfl⟩ := hlands landed hlanded
    exact ⟨_, _, e, hended, rfl⟩

/-- An attempt that completed was measured. -/
theorem Lands.of_ok {now : Instant} {c : Completed Out} (h : Lands cb tl now (.ok c)) :
    ∃ begun e, Ended cb tl now c.attempt begun e ∧ e.result = .ok c.output ∧
      c.elapsed = elapsed begun now := by
  obtain ⟨a, begun, e, hended, hresult⟩ := h
  cases he : e.result with
  | error crash =>
    rw [he] at hresult
    cases hresult
  | ok output =>
    rw [he] at hresult
    cases hresult
    exact ⟨begun, e, hended, he, rfl⟩

/-- A call that does not wait has ended. -/
theorem endsAt?_le_of_alarm? {call : Nat} {e : Execution Out} (h : e.wait.alarm? m call = none)
    {finish : Instant} (hfinish : e.endsAt? m.now = some finish) : finish ≤ m.now := by
  unfold Execution.endsAt? at hfinish
  split at hfinish
  · rename_i d hwait
    rw [hwait, Wait.alarm?] at h
    split at h
    · rename_i hzero
      cases hfinish
      have hnone : d.nanos = 0 := by simpa [Duration.isZero] using hzero
      exact Nat.le_of_eq (by rw [hnone, Nat.add_zero])
    · cases h
  · cases hfinish

/-- An attempt that was just put in flight is called; after that all flights have begun. -/
theorem Launched.airborne_poll (h : Launched cb m.now tl f) :
    Airborne cb (tl ++ stamp m.now ((f.poll cb.serve m).made.map Event.called)) m.now
        (f.poll cb.serve m).flights ∧
      ∀ landed, (f.poll cb.serve m).landed = some landed →
        Lands cb (tl ++ stamp m.now ((f.poll cb.serve m).made.map Event.called)) m.now landed := by
  obtain ⟨hready, hwaiting, hlands⟩ := h.leaves
  refine ⟨⟨fun flight hflight => ?_, hwaiting⟩, fun landed hlanded => ?_⟩
  · rw [hready] at hflight
    cases hflight
  · obtain ⟨a, e, call, hruns, halarm, rfl⟩ := hlands landed hlanded
    exact ⟨a, m.now, e, ⟨hruns, Nat.le_refl _, fun _ => endsAt?_le_of_alarm? halarm⟩, rfl⟩

end Flights

/-! ## What a poll shows -/

/-- What a poll shows beside an event: what it issues it asked for, and it has called it unless
that is still to come; what it reports it consumed, and measured. -/
def Backed (cb : Callbacks In Out) (before : Timeline In Out) (now : Instant)
    (toCall : List Attempt) (tr : List (Event In Out)) : Event In Out → Prop
  | .issued a => (∃ request, .copied a request ∈ tr) ∧
      (a ∈ toCall ∨ ∃ call, .called call ∈ tr ∧ call.attempt = a)
  | .reported p => .classified p.attempt p.output now ∈ tr ∧
      Measured cb (before ++ stamp now tr) now p
  | _ => True

/-- What a poll shows, after what was seen before it; some attempts are still to be called. -/
def Prompt (cb : Callbacks In Out) (before : Timeline In Out) (now : Instant)
    (toCall : List Attempt) (tr : List (Event In Out)) : Prop :=
  ∀ event ∈ tr, Backed cb before now toCall tr event

section Prompt

variable {cb : Callbacks In Out} {before : Timeline In Out} {now : Instant}
  {toCall : List Attempt} {tr later : List (Event In Out)} {event : Event In Out}

theorem prompt_nil : Prompt cb before now toCall [] := List.forall_mem_nil _

theorem Backed.append (h : Backed cb before now toCall tr event) (later : List (Event In Out)) :
    Backed cb before now toCall (tr ++ later) event := by
  cases event with
  | issued a =>
    obtain ⟨⟨request, hrequest⟩, hcall⟩ := h
    refine ⟨⟨request, List.mem_append_left _ hrequest⟩, hcall.imp_right ?_⟩
    rintro ⟨call, hcall, hattempt⟩
    exact ⟨call, List.mem_append_left _ hcall, hattempt⟩
  | reported p =>
    refine ⟨List.mem_append_left _ h.1, ?_⟩
    rw [stamp_append, ← List.append_assoc]
    exact h.2.append _
  | _ => trivial

/-- Only what is issued or reported needs something beside it. -/
theorem backed_of_quiet (hissued : event.issued? = none) (hreported : event.reported? = none) :
    Backed cb before now toCall tr event := by
  cases event with
  | issued a => cases hissued
  | reported p => cases hreported
  | _ => trivial

/-- A poll goes on. -/
theorem Prompt.append (h : Prompt cb before now toCall tr)
    (hlater : ∀ event ∈ later, Backed cb before now toCall (tr ++ later) event) :
    Prompt cb before now toCall (tr ++ later) :=
  List.forall_mem_append.mpr ⟨fun event he => (h event he).append later, hlater⟩

theorem Prompt.quiet (h : Prompt cb before now toCall tr)
    (hlater : ∀ event ∈ later, event.issued? = none ∧ event.reported? = none) :
    Prompt cb before now toCall (tr ++ later) :=
  h.append fun event he => backed_of_quiet (hlater event he).1 (hlater event he).2

/-- An attempt that was asked for is issued, and is to be called. -/
theorem Prompt.issue (h : Prompt cb before now [] tr) {a : Attempt} {request : In}
    (hasked : .copied a request ∈ tr) : Prompt cb before now [a] (tr ++ [.issued a]) := by
  have h' : Prompt cb before now [a] tr := by
    intro event he
    have hbacked := h event he
    cases event with
    | issued a' => exact ⟨hbacked.1, hbacked.2.imp_left fun hmem => absurd hmem List.not_mem_nil⟩
    | _ => exact hbacked
  refine h'.append (List.forall_mem_singleton.mpr ⟨⟨request, ?_⟩, .inl ?_⟩)
  · exact List.mem_append_left _ hasked
  · exact List.mem_singleton_self _

/-- What was to be called is called. -/
theorem Prompt.call (h : Prompt cb before now toCall tr) {made : List (Call In)}
    (hmade : ∀ a ∈ toCall, a ∈ made.map Call.attempt) :
    Prompt cb before now [] (tr ++ made.map Event.called) := by
  have h' : Prompt cb before now toCall (tr ++ made.map Event.called) := h.quiet (by simp)
  intro event he
  have hbacked := h' event he
  cases event with
  | issued a =>
    refine ⟨hbacked.1, .inr (hbacked.2.elim (fun hto => ?_) id)⟩
    obtain ⟨call, hcall, hattempt⟩ := List.mem_map.mp (hmade a hto)
    exact ⟨call, List.mem_append_right _ (List.mem_map_of_mem hcall), hattempt⟩
  | _ => exact hbacked

/-- A completion is classified, and reported as it was measured. -/
theorem Prompt.report (h : Prompt cb before now toCall tr) {p : Report In Out}
    (hp : Measured cb (before ++ stamp now tr) now p) :
    Prompt cb before now toCall
      (tr ++ [.classified p.attempt p.output now, .reported p]) := by
  have hgrown := hp.append (stamp now [.classified p.attempt p.output now, .reported p])
  rw [List.append_assoc, ← stamp_append] at hgrown
  refine h.append (List.forall_mem_cons.mpr ⟨trivial, List.forall_mem_singleton.mpr ⟨?_, hgrown⟩⟩)
  exact List.mem_append_right _ List.mem_cons_self

end Prompt

/-! ## What a timeline shows -/

/-- All that was issued was asked for and called at the same time, and all that was reported was
consumed then, and measured. -/
structure Kept (cb : Callbacks In Out) (tl : Timeline In Out) : Prop where
  issued : ∀ t a, (t, .issued a) ∈ tl → (∃ request, (t, .copied a request) ∈ tl) ∧
    ∃ call, (t, .called call) ∈ tl ∧ call.attempt = a
  reported : ∀ t p, (t, .reported p) ∈ tl →
    (t, .classified p.attempt p.output t) ∈ tl ∧ Measured cb tl t p

section Kept

variable {cb : Callbacks In Out} {tl : Timeline In Out} {now : Instant}

theorem mem_stamp {t : Instant} {event : Event In Out} {events : List (Event In Out)} :
    (t, event) ∈ stamp now events ↔ t = now ∧ event ∈ events := by
  constructor
  · intro h
    obtain ⟨event', hmem, heq⟩ := List.mem_map.mp h
    obtain ⟨rfl, rfl⟩ := Prod.mk.inj heq
    exact ⟨rfl, hmem⟩
  · rintro ⟨rfl, hmem⟩
    exact List.mem_map_of_mem hmem

/-- A poll adds to a timeline what happens last. -/
theorem le_of_mem_append_stamp {events : List (Event In Out)} (hpast : ∀ x ∈ tl, x.1 ≤ now) :
    ∀ x ∈ tl ++ stamp now events, x.1 ≤ now :=
  List.forall_mem_append.mpr ⟨hpast, fun _ hx => Nat.le_of_eq (mem_stamp.mp hx).1⟩

theorem kept_nil : Kept cb [] :=
  ⟨fun _ _ h => absurd h List.not_mem_nil, fun _ _ h => absurd h List.not_mem_nil⟩

/-- A poll keeps what was kept before. -/
theorem Kept.append (h : Kept cb tl) {events : List (Event In Out)}
    (hprompt : Prompt cb tl now [] events) : Kept cb (tl ++ stamp now events) := by
  have hnow : ∀ {event}, event ∈ events → (now, event) ∈ tl ++ stamp now events := fun hmem =>
    List.mem_append_right _ (mem_stamp.mpr ⟨rfl, hmem⟩)
  constructor
  · intro t a ha
    rcases List.mem_append.mp ha with ha | ha
    · obtain ⟨⟨request, hrequest⟩, call, hcall, hattempt⟩ := h.issued t a ha
      exact ⟨⟨request, List.mem_append_left _ hrequest⟩, call, List.mem_append_left _ hcall,
        hattempt⟩
    · obtain ⟨rfl, hmem⟩ := mem_stamp.mp ha
      obtain ⟨⟨request, hrequest⟩, hcalled⟩ := hprompt _ hmem
      obtain ⟨call, hcall, hattempt⟩ := hcalled.resolve_left List.not_mem_nil
      exact ⟨⟨request, hnow hrequest⟩, call, hnow hcall, hattempt⟩
  · intro t p hp
    rcases List.mem_append.mp hp with hp | hp
    · obtain ⟨hclassified, hmeasured⟩ := h.reported t p hp
      exact ⟨List.mem_append_left _ hclassified, hmeasured.append _⟩
    · obtain ⟨rfl, hmem⟩ := mem_stamp.mp hp
      obtain ⟨hclassified, hmeasured⟩ := hprompt _ hmem
      exact ⟨hnow hclassified, hmeasured⟩

/-- What is shown once, was shown at one time. -/
theorem eq_of_nodup_view {β : Type} {view : Event In Out → Option β}
    (h : ((tl.map Prod.snd).filterMap view).Nodup) {x y : Instant × Event In Out} (hx : x ∈ tl)
    (hy : y ∈ tl) {b : β} (hxb : view x.2 = some b) (hyb : view y.2 = some b) : x = y := by
  have hpaired : (tl.filterMap fun x => (view x.2).map (Prod.mk x)).map Prod.snd =
      (tl.map Prod.snd).filterMap view := by
    rw [List.map_filterMap, List.filterMap_map]
    congr 1
    funext x
    cases hview : view x.2 <;> simp [hview]
  have hinj := List.inj_on_of_nodup_map (hpaired ▸ h)
  have hx' : (x, b) ∈ tl.filterMap fun x => (view x.2).map (Prod.mk x) :=
    List.mem_filterMap.mpr ⟨x, hx, by rw [hxb]; rfl⟩
  have hy' : (y, b) ∈ tl.filterMap fun x => (view x.2).map (Prod.mk x) :=
    List.mem_filterMap.mpr ⟨y, hy, by rw [hyb]; rfl⟩
  exact (Prod.mk.inj (hinj hx' hy' rfl)).1

theorem elapsed_add (begun : Instant) (d : Duration) : elapsed begun (begun + d.nanos) = d := by
  rw [elapsed, Nat.add_sub_cancel_left, Duration.ofNanos_nanos]

/-- An attempt that waits for a time is not reported before that, and if it is reported then, it
took that time. -/
theorem Measured.exact {p : Report In Out} (h : Measured cb tl now p) {hand : List Attempt}
    {r : Race In Out} (hbooks : Books cb hand (tl.map Prod.snd) r) {begun : Instant}
    {e : Execution Out} (hruns : Runs cb tl p.attempt begun e) {d : Duration}
    (hwait : e.wait = .lasting d) :
    begun + d.nanos ≤ now ∧ (now = begun + d.nanos → p.elapsed = d) := by
  obtain ⟨begun', e', hended, -, helapsed⟩ := h
  obtain ⟨rfl, rfl⟩ := hbooks.runs_unique hruns hended.runs
  refine ⟨hended.finished _ (by rw [Execution.endsAt?, hwait]), ?_⟩
  rintro rfl
  rw [helapsed, elapsed_add]

end Kept

/-! ## The turns of a race -/

structure Metering (cb : Callbacks In Out) (m : Moment) (before : Timeline In Out)
    (tr : List (Event In Out)) (f : Flights In Out) : Prop where
  begun : Airborne cb (before ++ stamp m.now tr) m.now f ∨
    Launched cb m.now (before ++ stamp m.now tr) f
  prompt : Prompt cb before m.now f.uncalled tr

/-- What a poll shows, and what it leaves in flight unless the race crashed. -/
def Metered (cb : Callbacks In Out) (m : Moment) (before : Timeline In Out)
    (tr : List (Event In Out)) (p : Progress In Out) : Prop :=
  Prompt cb before m.now [] tr ∧ match p with
    | .pending r | .finished _ r => Airborne cb (before ++ stamp m.now tr) m.now r.flights
    | .crashed .. => True

def Meters (cb : Callbacks In Out) (m : Moment) (before : Timeline In Out)
    (tr : List (Event In Out)) : Turn In Out → Prop
  | .again r => Metering cb m before tr r.flights
  | .settled p => Metered cb m before tr p

section Turns

variable {cb : Callbacks In Out} {m : Moment} {before : Timeline In Out}
  {tr : List (Event In Out)} {r : Race In Out}

/-- The timeline of a poll that goes on. -/
theorem Airborne.extend {f : Flights In Out}
    (h : Airborne cb (before ++ stamp m.now tr) m.now f) (later : List (Event In Out)) :
    Airborne cb (before ++ stamp m.now (tr ++ later)) m.now f := by
  rw [stamp_append, ← List.append_assoc]
  exact h.append _

/-- A poll whose flights have begun has nothing left to call. -/
theorem Airborne.metering {f : Flights In Out}
    (h : Airborne cb (before ++ stamp m.now tr) m.now f) (hprompt : Prompt cb before m.now [] tr) :
    Metering cb m before tr f :=
  ⟨.inl h, h.tracked.uncalled.symm ▸ hprompt⟩

/-- A completion is reported with the time its attempt took. -/
theorem meters_complete {c : Completed Out} {begun : Instant} {e : Execution Out}
    (hprompt : Prompt cb before m.now [] tr)
    (hflights : Airborne cb (before ++ stamp m.now tr) m.now r.flights)
    (hended : Ended cb (before ++ stamp m.now tr) m.now c.attempt begun e)
    (hresult : e.result = .ok c.output) (helapsed : c.elapsed = elapsed begun m.now) :
    Meters cb m before (tr ++ (r.complete cb m.now c).1) (r.complete cb m.now c).2 := by
  unfold complete
  split
  · exact ⟨hprompt.quiet (by simp), trivial⟩
  · rename_i recovery hrecovery
    let p : Report In Out :=
      ⟨r.request, c.output, recovery.outcome cb.handleUnavailable, c.elapsed, c.attempt⟩
    have hreport : Prompt cb before m.now []
        (tr ++ [.classified p.attempt p.output m.now, .reported p]) :=
      hprompt.report ⟨begun, e, hended, hresult, helapsed⟩
    dsimp only
    split
    · have htrace : tr ++ [Event.classified p.attempt p.output m.now, .reported p,
          .won p.attempt r.issued] =
            tr ++ [.classified p.attempt p.output m.now, .reported p] ++
              [.won p.attempt r.issued] := by simp
      refine ⟨?_, hflights.extend _⟩
      rw [htrace]
      exact hreport.quiet (by simp)
    · exact (hflights.extend _).metering hreport

/-- A hedge that is issued is the one attempt to be called. -/
theorem meters_hedge {index : UInt32} (hprompt : Prompt cb before m.now [] tr)
    (hflights : Airborne cb (before ++ stamp m.now tr) m.now r.flights)
    (hready : r.flights.ready = []) :
    Meters cb m before (tr ++ (r.hedge cb m.now index).1) (r.hedge cb m.now index).2 := by
  let a := Attempt.planned index r.decision.maxHedges
  unfold hedge
  dsimp only
  split
  · exact ⟨hprompt.quiet (by simp), trivial⟩
  · exact (hflights.extend _).metering (hprompt.quiet (by simp))
  · rename_i left copy hcopy
    let delay := r.decision.delay.getD Duration.zero
    split
    · exact ⟨hprompt.quiet (by simp), trivial⟩
    · have htrace : tr ++ [Event.copied a r.request, .announced a delay, .issued a] =
          tr ++ [.copied a r.request, .announced a delay] ++ [.issued a] := by simp
      have hasked : Prompt cb before m.now []
          (tr ++ [.copied a r.request, .announced a delay]) := hprompt.quiet (by simp)
      have huncalled : (r.flights.issue a m.now copy).uncalled = [a] := by
        have hperm := r.flights.uncalled_issue a m.now copy
        rw [hflights.tracked.uncalled] at hperm
        exact List.perm_singleton.mp hperm
      refine ⟨.inr ⟨⟨a, copy, ?_, ?_⟩, (hflights.extend _).waiting⟩, ?_⟩
      · show r.flights.ready ++ [_] = [_]
        rw [hready]
        rfl
      · exact List.mem_append_right _ (by simp [stamp, a])
      · show Prompt cb before m.now (r.flights.issue a m.now copy).uncalled
          (tr ++ [.copied a r.request, .announced a delay, .issued a])
        rw [huncalled, htrace]
        have hmem : Event.copied a r.request ∈ tr ++ [.copied a r.request, .announced a delay] :=
          List.mem_append_right _ List.mem_cons_self
        exact hasked.issue hmem

/-- A race goes on by its schedule when nothing is in the queue. -/
theorem meters_goOn (hprompt : Prompt cb before m.now [] tr)
    (hflights : Airborne cb (before ++ stamp m.now tr) m.now r.flights)
    (hready : r.flights.ready = []) :
    Meters cb m before (tr ++ (r.goOn cb m).1) (r.goOn cb m).2 := by
  have hsuspend : ∀ p, Meters cb m before (tr ++ (r.suspend p).1) (r.suspend p).2 := fun p =>
    ⟨hprompt.quiet (by simp [suspend]), hflights.extend _⟩
  unfold goOn
  split
  · split
    · rw [exhaust]
      cases r.primaryOutput with
      | none => exact ⟨hprompt.quiet (by simp), trivial⟩
      | some output => exact ⟨hprompt.quiet (by simp), hflights.extend _⟩
    · exact hsuspend _
  · split
    · exact meters_hedge hprompt hflights hready
    · split
      · exact hsuspend _
      · exact hsuspend _

/-- What was issued is called when the flights are polled. -/
theorem Metering.poll {f : Flights In Out} (h : Metering cb m before tr f) :
    Prompt cb before m.now [] (tr ++ (f.poll cb.serve m).made.map Event.called) ∧
      Airborne cb (before ++ stamp m.now (tr ++ (f.poll cb.serve m).made.map Event.called)) m.now
        (f.poll cb.serve m).flights ∧
      ∀ landed, (f.poll cb.serve m).landed = some landed →
        Lands cb (before ++ stamp m.now (tr ++ (f.poll cb.serve m).made.map Event.called)) m.now
          landed := by
  have hpolled : Airborne cb
        (before ++ stamp m.now (tr ++ (f.poll cb.serve m).made.map Event.called)) m.now
        (f.poll cb.serve m).flights ∧
      ∀ landed, (f.poll cb.serve m).landed = some landed →
        Lands cb (before ++ stamp m.now (tr ++ (f.poll cb.serve m).made.map Event.called)) m.now
          landed := by
    rw [stamp_append, ← List.append_assoc]
    rcases h.begun with hflights | hflights
    · obtain ⟨hmade, hleft, hlands⟩ := hflights.poll
      rw [hmade]
      show Airborne cb (before ++ stamp m.now tr ++ []) m.now _ ∧ ∀ landed, _ →
        Lands cb (before ++ stamp m.now tr ++ []) m.now landed
      rw [List.append_nil]
      exact ⟨hleft, hlands⟩
    · exact hflights.airborne_poll
  refine ⟨h.prompt.call fun a ha => ?_, hpolled⟩
  have hperm := f.uncalled_poll cb.serve m
  rw [hpolled.1.tracked.uncalled, List.append_nil] at hperm
  exact hperm.subset ha

/-- What a turn of a race in a poll leads to. -/
theorem meters_stride (h : Metering cb m before tr r.flights) :
    Meters cb m before (tr ++ (r.stride cb m).1) (r.stride cb m).2 := by
  obtain ⟨hprompt, hflights, hlands⟩ := h.poll
  unfold stride await
  dsimp only
  rw [← List.append_assoc]
  split
  · exact ⟨hprompt.quiet (by simp), trivial⟩
  · rename_i c hlanded
    obtain ⟨begun, e, hended, hresult, helapsed⟩ := (hlands _ hlanded).of_ok
    exact meters_complete hprompt hflights hended hresult helapsed
  · rename_i hlanded
    exact meters_goOn hprompt hflights (Flights.ready_pollQueue hlanded)

/-- What a poll of a race shows, and what it leaves. -/
theorem metered_poll {d : Decision} {start : Instant} {all : List (Event In Out)}
    (hr : r.Poised m.now) (hrunning : Running cb d start m.now all r)
    (h : Metering cb m before tr (r.flights.wake m)) :
    Metered cb m before (tr ++ (r.poll cb m).1) (r.poll cb m).2 := by
  refine poll_induct
    (P := fun tr r => (∃ all, Running cb d start m.now all r) ∧ Metering cb m before tr r.flights)
    (Q := Metered cb m before) (fun h => ?_) ?_ ?_ hr ⟨⟨all, hrunning.wake m⟩, h⟩
  · obtain ⟨⟨all, hrunning⟩, -⟩ := h
    exact hrunning.started_le
  · rintro tr r events r' ⟨⟨all, hrunning⟩, hmetering⟩ hs
    have hleads := leads_stride hrunning
    have hmeters := meters_stride hmetering
    rw [hs] at hleads hmeters
    exact ⟨⟨_, hleads⟩, hmeters⟩
  · rintro tr r events p ⟨-, hmetering⟩ hs
    have hmeters := meters_stride hmetering
    rw [hs] at hmeters
    exact hmeters

end Turns

end Race

/-! ## Stragglers -/

namespace Stragglers

open Race

variable {cb : Callbacks In Out} {m : Moment} {before : Timeline In Out}
  {tr events : List (Event In Out)} {s : Stragglers In Out}

/-- A straggler is reported with the time its attempt took. -/
theorem prompt_complete {c : Completed Out} {begun : Instant} {e : Execution Out}
    (hprompt : Prompt cb before m.now [] tr)
    (hended : Ended cb (before ++ stamp m.now tr) m.now c.attempt begun e)
    (hresult : e.result = .ok c.output) (helapsed : c.elapsed = elapsed begun m.now) :
    Prompt cb before m.now [] (tr ++ (s.complete cb m.now c).1) := by
  unfold complete
  split
  · exact hprompt.quiet (by simp)
  · rename_i recovery hrecovery
    let p : Report In Out :=
      ⟨s.request, c.output, recovery.outcome cb.handleUnavailable, c.elapsed, c.attempt⟩
    exact hprompt.report (p := p) ⟨begun, e, hended, hresult, helapsed⟩

/-- What the completions of stragglers at a moment show, and what they leave in flight. -/
theorem prompt_run (hprompt : Prompt cb before m.now [] tr)
    (hflights : Airborne cb (before ++ stamp m.now tr) m.now s.flights) :
    Prompt cb before m.now [] (tr ++ (s.run cb m).1) ∧
      ∀ left, (s.run cb m).2 = .pending left →
        Airborne cb (before ++ stamp m.now (tr ++ (s.run cb m).1)) m.now left.flights := by
  induction s using run.induct cb m generalizing tr with
  | case1 s made flights hp =>
    obtain ⟨hmade, hleft, -⟩ := hflights.poll
    rw [run, hp]
    rw [hp] at hmade hleft
    obtain rfl : made = [] := hmade
    refine ⟨hprompt.quiet (by simp), fun left hpending => ?_⟩
    dsimp only at hpending
    split at hpending
    · cases hpending
    · cases hpending
      exact hleft.extend _
  | case2 s made flights crash hp =>
    rw [run, hp]
    exact ⟨hprompt.quiet (by simp), fun left hpending => by cases hpending⟩
  | case3 s made flights c hp events crash hc =>
    obtain ⟨hmade, -, hlands⟩ := hflights.poll
    rw [run, hp]
    rw [hp] at hmade hlands
    obtain rfl : made = [] := hmade
    obtain ⟨begun, e, hended, hresult, helapsed⟩ := (hlands _ rfl).of_ok
    have hcomplete := prompt_complete (s := s) hprompt hended hresult helapsed
    dsimp only
    rw [hc] at hcomplete ⊢
    exact ⟨hcomplete, fun left hpending => by cases hpending⟩
  | case4 s made flights c hp events hc ih =>
    obtain ⟨hmade, hleft, hlands⟩ := hflights.poll
    rw [run, hp]
    rw [hp] at hmade hleft hlands
    obtain rfl : made = [] := hmade
    obtain ⟨begun, e, hended, hresult, helapsed⟩ := (hlands _ rfl).of_ok
    have hcomplete := prompt_complete (s := s) hprompt hended hresult helapsed
    dsimp only
    rw [hc] at hcomplete ⊢
    have hrest := ih hcomplete (hleft.extend _)
    simpa only [List.map_nil, List.nil_append, List.append_assoc] using hrest

/-- What a poll of stragglers shows, and what it leaves in flight. -/
theorem prompt_poll (hflights : Airborne cb before m.now s.flights)
    (hpast : ∀ x ∈ before, x.1 ≤ m.now) :
    Prompt cb before m.now [] (s.poll cb m).1 ∧
      ∀ left, (s.poll cb m).2 = .pending left →
        Airborne cb (before ++ stamp m.now (s.poll cb m).1) m.now left.flights := by
  have hwoken : Airborne cb (before ++ stamp m.now []) m.now (s.flights.wake m) := by
    rw [show stamp m.now [] = ([] : Timeline In Out) from rfl, List.append_nil]
    exact hflights.wake hpast
  have hnothing : Prompt cb before m.now [] [] := prompt_nil
  exact prompt_run (s := { s with flights := s.flights.wake m }) hnothing hwoken

end Stragglers

end RequestHedging
