import RequestHedging.Proofs.Race.Books

/-!
# The books at every turn

One lemma for each thing that a turn may do to the books, then one for each part of a
turn, and from these `leads_stride` for a turn and `stands_poll` for a poll.
-/

namespace RequestHedging.Race

variable {In Out : Type}

/-! ## Entries in the books -/

/-- An event that only says what follows from others. -/
def Event.isNote : Event In Out → Bool
  | announced .. | won .. | exhausted .. => true
  | _ => false

theorem filterMap_snoc_none {β : Type} {f : Event In Out → Option β} (tr : List (Event In Out))
    {e : Event In Out} (h : f e = none) : (tr ++ [e]).filterMap f = tr.filterMap f := by
  simp [h]

theorem filterMap_snoc_some {β : Type} {f : Event In Out → Option β} (tr : List (Event In Out))
    {e : Event In Out} {b : β} (h : f e = some b) :
    (tr ++ [e]).filterMap f = tr.filterMap f ++ [b] := by
  simp [h]

section Books

variable {cb : Callbacks In Out} {hand : List Attempt} {tr : List (Event In Out)}
  {r r' : Race In Out}

theorem Books.note (h : Books cb hand tr r) (hclean : Clean tr) {e : Event In Out}
    (he : e.isNote = true) (habout : e.attempt ∈ tr.filterMap Event.asked?) :
    Books cb hand (tr ++ [e]) r := by
  have hq : Quiet [e] := by
    intro e' he'
    obtain rfl := List.mem_singleton.mp he'
    cases e' <;> simp_all [Event.isNote, Event.isClassified]
  have hasked : (tr ++ [e]).filterMap Event.asked? = tr.filterMap Event.asked? :=
    filterMap_snoc_none _ (by cases e <;> simp_all [Event.isNote])
  have hissued : (tr ++ [e]).filterMap Event.issued? = tr.filterMap Event.issued? :=
    filterMap_snoc_none _ (by cases e <;> simp_all [Event.isNote])
  have hcalled : (tr ++ [e]).filterMap Event.called? = tr.filterMap Event.called? :=
    filterMap_snoc_none _ (by cases e <;> simp_all [Event.isNote])
  have hreported := hq.reported tr
  refine ⟨hasked ▸ h.asked, h.within, ?_, hissued ▸ h.primary, hissued ▸ h.count, ?_, ?_, ?_,
    hreported ▸ h.judged, hq.chained h.chained hclean.closed⟩
  · rw [hasked, hissued]
    exact h.sent
  · rw [hissued, hreported]
    exact h.conserved
  · rw [hissued, hcalled]
    exact h.called
  · rw [hasked]
    exact List.forall_mem_append.mpr ⟨h.about, List.forall_mem_singleton.mpr habout⟩

/-- The input of the next hedge is asked for. -/
theorem Books.ask (h : Books cb hand tr r) (hclean : Clean tr) {index : UInt32} {request : In}
    (hlast : index.toNat = r.lastHedge.toNat + 1) (hmax : index.toNat ≤ r.decision.maxHedges.toNat)
    (hdecision : r'.decision = r.decision) (hindex : r'.lastHedge = index)
    (hcount : r'.issued = r.issued) (hflights : r'.flights = r.flights) :
    Books cb hand (tr ++ [.copied (.planned index r.decision.maxHedges) request]) r' := by
  have ha : Attempt.planned index r.decision.maxHedges =
      r.decision.attempt (r.lastHedge.toNat + 1) := by
    rw [Decision.attempt, ← hlast, UInt32.ofNat_toNat]
  have hq : Quiet [(.copied (.planned index r.decision.maxHedges) request : Event In Out)] := by
    simp [Quiet, Event.isClassified]
  have hasked := filterMap_snoc_some (f := Event.asked?) tr
    (e := .copied (.planned index r.decision.maxHedges) request) rfl
  have hissued := filterMap_snoc_none (f := Event.issued?) tr
    (e := .copied (.planned index r.decision.maxHedges) request) rfl
  have hcalled := filterMap_snoc_none (f := Event.called?) tr
    (e := .copied (.planned index r.decision.maxHedges) request) rfl
  refine ⟨?_, ?_, ?_, ?_, ?_, ?_, ?_, ?_, ?_, hq.chained h.chained hclean.closed⟩
  · rw [hasked, h.asked, hindex, hlast, hdecision, List.range_succ (n := r.lastHedge.toNat + 1),
      List.map_append, ha]
    rfl
  · rw [hindex, hdecision]
    exact hmax
  · rw [hasked, hissued]
    exact h.sent.trans (List.sublist_append_left _ _)
  · rw [hissued, hdecision]
    exact h.primary
  · rw [hissued, hcount]
    exact h.count
  · rw [hissued, hq.reported, hflights]
    exact h.conserved
  · rw [hissued, hcalled, hflights]
    exact h.called
  · rw [hasked]
    refine List.forall_mem_append.mpr ⟨?_, List.forall_mem_singleton.mpr ?_⟩
    · intro e he
      exact List.mem_append_left _ (h.about e he)
    · exact List.mem_append_right _ (List.mem_singleton_self _)
  · rw [hq.reported]
    exact h.judged

/-- An attempt is put in flight. -/
theorem Books.issue (h : Books cb hand tr r) (hclean : Clean tr) {a : Attempt} {now : Instant}
    {input : In} (hsent : (tr.filterMap Event.issued? ++ [a]).Sublist (tr.filterMap Event.asked?))
    (hdecision : r'.decision = r.decision) (hindex : r'.lastHedge = r.lastHedge)
    (hcount : r'.issued = r.issued + 1) (hflights : r'.flights = r.flights.issue a now input) :
    Books cb hand (tr ++ [.issued a]) r' := by
  have hq : Quiet [(.issued a : Event In Out)] := by simp [Quiet, Event.isClassified]
  have hasked := filterMap_snoc_none (f := Event.asked?) tr (e := .issued a) rfl
  have hissued := filterMap_snoc_some (f := Event.issued?) tr (e := .issued a) rfl
  have hcalled := filterMap_snoc_none (f := Event.called?) tr (e := .issued a) rfl
  refine ⟨?_, ?_, ?_, ?_, ?_, ?_, ?_, ?_, ?_, hq.chained h.chained hclean.closed⟩
  · rw [hasked, hindex, hdecision]
    exact h.asked
  · rw [hindex, hdecision]
    exact h.within
  · rw [hasked, hissued]
    exact hsent
  · rw [hissued, hdecision]
    exact List.mem_append_left _ h.primary
  · rw [hissued, hcount, h.count, List.length_append, List.length_singleton, UInt32.ofNat_add]
    rfl
  · rw [hissued, hq.reported, hflights]
    refine (h.conserved.append_right [a]).trans ?_
    rw [List.append_assoc, List.append_assoc]
    exact ((r.flights.attempts_issue a now input).symm.append_left _).append_left _
  · rw [hissued, hcalled, hflights]
    refine (h.called.append_right [a]).trans ?_
    rw [List.append_assoc]
    exact (r.flights.uncalled_issue a now input).symm.append_left _
  · have ha : a ∈ tr.filterMap Event.asked? :=
      hsent.subset (List.mem_append_right _ (List.mem_singleton_self _))
    rw [hasked]
    exact List.forall_mem_append.mpr ⟨h.about, List.forall_mem_singleton.mpr ha⟩
  · rw [hq.reported]
    exact h.judged

/-- A completion is classified; the attempt stays in the hand until it is reported. -/
theorem Books.classify (h : Books cb hand tr r) (hclean : Clean tr) {a : Attempt} (ha : a ∈ hand)
    (output : Out) (now : Instant) : Books cb hand (tr ++ [.classified a output now]) r := by
  have hasked := filterMap_snoc_none (f := Event.asked?) tr
    (e := .classified a output now) rfl
  have hissued := filterMap_snoc_none (f := Event.issued?) tr
    (e := .classified a output now) rfl
  have hcalled := filterMap_snoc_none (f := Event.called?) tr
    (e := .classified a output now) rfl
  have hreported := filterMap_snoc_none (f := Event.reported?) tr
    (e := .classified a output now) rfl
  refine ⟨hasked ▸ h.asked, h.within, ?_, hissued ▸ h.primary, hissued ▸ h.count, ?_, ?_, ?_,
    hreported ▸ h.judged, ?_⟩
  · rw [hasked, hissued]
    exact h.sent
  · rw [hissued, hreported]
    exact h.conserved
  · rw [hissued, hcalled]
    exact h.called
  · rw [hasked]
    exact List.forall_mem_append.mpr
      ⟨h.about, List.forall_mem_singleton.mpr (h.hand_mem_asked ha)⟩
  · refine isChain_append_of_closed h.chained (.singleton _) hclean.closed ?_
    simp

/-- The completion just classified is reported. -/
theorem Books.report {p : Report In Out} {now : Instant}
    (h : Books cb [p.attempt] (tr ++ [.classified p.attempt p.output now]) r)
    (hverdict : cb.verdict p.attempt p.output = .ok p.outcome) :
    Books cb [] (tr ++ [.classified p.attempt p.output now] ++ [.reported p]) r := by
  generalize htr : tr ++ [.classified p.attempt p.output now] = tr' at h
  have hasked := filterMap_snoc_none (f := Event.asked?) tr' (e := .reported p) rfl
  have hissued := filterMap_snoc_none (f := Event.issued?) tr' (e := .reported p) rfl
  have hcalled := filterMap_snoc_none (f := Event.called?) tr' (e := .reported p) rfl
  have hreported := filterMap_snoc_some (f := Event.reported?) tr' (e := .reported p) rfl
  refine ⟨hasked ▸ h.asked, h.within, ?_, hissued ▸ h.primary, hissued ▸ h.count, ?_, ?_, ?_,
    ?_, ?_⟩
  · rw [hasked, hissued]
    exact h.sent
  · rw [hissued, hreported]
    simpa using h.conserved
  · rw [hissued, hcalled]
    exact h.called
  · have hp := h.hand_mem_asked (List.mem_singleton_self _)
    rw [hasked]
    exact List.forall_mem_append.mpr ⟨h.about, List.forall_mem_singleton.mpr hp⟩
  · rw [hreported]
    exact List.forall_mem_append.mpr ⟨h.judged, List.forall_mem_singleton.mpr hverdict⟩
  · refine List.isChain_append.mpr ⟨h.chained, .singleton _, ?_⟩
    intro e he e' he'
    rw [← htr, List.getLast?_concat] at he
    cases he
    cases he'
    exact ⟨rfl, rfl⟩

theorem reported_report (tr : List (Event In Out)) (p : Report In Out) (now : Instant) :
    (tr ++ [Event.classified p.attempt p.output now] ++ [Event.reported p]).filterMap
      Event.reported? = tr.filterMap Event.reported? ++ [p] := by
  rw [filterMap_snoc_some _ (b := p) rfl, filterMap_snoc_none _ rfl]

theorem Clean.report (h : Clean tr) (p : Report In Out) (now : Instant) :
    Clean (tr ++ [.classified p.attempt p.output now] ++ [.reported p]) := by
  constructor
  · rw [reported_report, filterMap_snoc_none _ rfl,
      filterMap_snoc_some _ (b := (p.attempt, p.output)) rfl, h.reported, List.map_append]
    rfl
  · intro e he
    rw [List.getLast?_concat] at he
    cases he
    rfl

/-- An attempt failed; the output of the primary attempt is kept. -/
theorem Losing.report (h : Losing tr r) {p : Report In Out} {now : Instant}
    (hp : p.outcome = .failure)
    (hkept : r'.primaryOutput = if p.attempt.isPrimary then some p.output else r.primaryOutput) :
    Losing (tr ++ [.classified p.attempt p.output now] ++ [.reported p]) r' := by
  refine ⟨?_, ?_, ?_⟩
  · rw [reported_report]
    exact List.forall_mem_append.mpr ⟨h.failed, List.forall_mem_singleton.mpr hp⟩
  · intro output ho
    rw [reported_report]
    rw [hkept] at ho
    split at ho
    · rename_i hprimary
      exact ⟨p, by simp, hprimary, Option.some.inj ho⟩
    · obtain ⟨q, hq, hqp⟩ := h.kept output ho
      exact ⟨q, List.mem_append_left _ hq, hqp⟩
  · intro q hq hprimary
    rw [reported_report] at hq
    rw [hkept]
    split
    · rfl
    · rename_i hnot
      rcases List.mem_append.mp hq with hq | hq
      · exact h.stored q hq hprimary
      · rw [List.mem_singleton.mp hq] at hprimary
        exact absurd hprimary hnot

end Books

/-! ## The parts of a turn -/

def Leads (cb : Callbacks In Out) (d : Decision) (start now : Instant)
    (tr : List (Event In Out)) : Turn In Out → Prop
  | .again r => Running cb d start now tr r
  | .settled p => Stands cb d start now tr p

/-- A panicking callback is not a missing output. -/
theorem Fault.callback_ne_primaryMissing (crash : Crash) : callback crash ≠ .primaryMissing := by
  simp

section Turns

variable {cb : Callbacks In Out} {d : Decision} {start : Instant} {m : Moment}
  {tr : List (Event In Out)} {r : Race In Out}

/-- A completed attempt is classified and reported; it wins or the race goes on. -/
theorem leads_complete {now : Instant} {c : Completed Out} (h : Books cb [c.attempt] tr r)
    (hclean : Clean tr) (hanswered : Answered cb tr) (hlosing : Losing tr r)
    (htimed : Timed d start now r) :
    Leads cb d start now (tr ++ (r.complete cb now c).1) (r.complete cb now c).2 := by
  have hclassified := h.classify hclean (List.mem_singleton_self _) c.output now
  unfold complete
  split
  · refine ⟨Fault.callback_ne_primaryMissing _, htimed, ?_, _, hclassified⟩
    rw [filterMap_snoc_none _ rfl]
    exact hlosing.failed
  · rename_i recovery hrecovery
    dsimp only
    let p : Report In Out :=
      ⟨r.request, c.output, recovery.outcome cb.handleUnavailable, c.elapsed, c.attempt⟩
    let told := tr ++ [Event.classified p.attempt p.output now] ++ [Event.reported p]
    have hverdict : cb.verdict p.attempt p.output = .ok p.outcome := by
      rw [Callbacks.verdict, hrecovery]
      rfl
    have hbooks : Books cb [] told r := Books.report (p := p) hclassified hverdict
    have htold : Clean told := hclean.report p now
    have htolda : Answered cb told := (hanswered.append (by simp)).append (by simp)
    split
    · rename_i hsuccess
      have hmem : p.attempt ∈ told.filterMap Event.asked? :=
        hbooks.about (.reported p) (List.mem_append_right _ (List.mem_singleton_self _))
      have htrace : tr ++ [Event.classified p.attempt p.output now, .reported p,
          .won p.attempt r.issued] = told ++ [.won p.attempt r.issued] := by simp [told]
      have hq : Quiet [(.won p.attempt r.issued : Event In Out)] := by
        simp [Quiet, Event.isClassified]
      show Leads cb d start now (tr ++ [Event.classified p.attempt p.output now, .reported p,
        .won p.attempt r.issued]) (.settled (.finished p.output r))
      rw [htrace]
      refine ⟨hbooks.note htold rfl hmem, htold.quiet hq, htolda.append (by simp), htimed, .inl ?_⟩
      refine ⟨tr.filterMap Event.reported?, p, ?_, hlosing.failed, hsuccess, rfl⟩
      rw [hq.reported]
      exact reported_report tr p now
    · rename_i hfailure
      have htrace : tr ++ [Event.classified p.attempt p.output now, .reported p] = told := by
        simp [told]
      show Leads cb d start now (tr ++ [Event.classified p.attempt p.output now, .reported p]) _
      rw [htrace]
      exact ⟨{ hbooks with }, htold, htolda, hlosing.report hfailure rfl, { htimed with }⟩

/-- A hedge that is issued when it is due keeps the race on time. -/
theorem Timed.hedge {now : Instant} {index : UInt32} {due : Duration} (h : Timed d start now r)
    (hnext : r.decision.next r.lastHedge = some (index, due))
    (hdue : r.started + due.nanos ≤ now) {r' : Race In Out} (hdecision : r'.decision = r.decision)
    (hstarted : r'.started = r.started) (hindex : r'.lastHedge = index) :
    Timed d start now r' := by
  refine ⟨hdecision.trans h.decision, hstarted.trans h.started, ?_⟩
  rw [hindex, ← h.decision, ← h.started, ← Decision.nanos_of_next hnext]
  exact hdue

/-- A hedge that is due is asked for, announced and issued, as far as the callbacks let it. -/
theorem leads_hedge {now : Instant} {index : UInt32} {due : Duration}
    (h : Running cb d start now tr r)
    (hnext : r.decision.next r.lastHedge = some (index, due))
    (hdue : r.started + due.nanos ≤ now) :
    Leads cb d start now (tr ++ (r.hedge cb now index).1) (r.hedge cb now index).2 := by
  obtain ⟨hlast, hmax⟩ := Decision.next_eq_some hnext
  let a := Attempt.planned index r.decision.maxHedges
  let asked := tr ++ [Event.copied a r.request]
  have hbooks : ∀ r' : Race In Out, r'.decision = r.decision → r'.lastHedge = index →
      r'.issued = r.issued → r'.flights = r.flights → Books cb [] asked r' :=
    fun r' => h.books.ask h.clean hlast hmax
  have hq : Quiet [(.copied a r.request : Event In Out)] := by simp [Quiet, Event.isClassified]
  have hclean : Clean asked := h.clean.quiet hq
  unfold hedge
  dsimp only
  split
  · refine ⟨Fault.callback_ne_primaryMissing _, h.timed.hedge hnext hdue rfl rfl rfl, ?_, _,
      hbooks _ rfl rfl rfl rfl⟩
    rw [filterMap_snoc_none _ rfl]
    exact h.losing.failed
  · rename_i left hcopy
    refine ⟨hbooks _ rfl rfl rfl rfl, hclean, h.answered.append ?_, h.losing.quiet hq rfl,
      h.timed.hedge hnext hdue rfl rfl rfl⟩
    intro a' request ha'
    cases List.mem_singleton.mp ha'
    exact .inr ⟨left, hcopy⟩
  · rename_i left copy hcopy
    let delay := r.decision.delay.getD Duration.zero
    have hmem : a ∈ asked.filterMap Event.asked? := by simp [asked]
    have hnoted : ∀ r' : Race In Out, r'.decision = r.decision → r'.lastHedge = index →
        r'.issued = r.issued → r'.flights = r.flights →
          Books cb [] (asked ++ [.announced a delay]) r' :=
      fun r' h₁ h₂ h₃ h₄ => (hbooks r' h₁ h₂ h₃ h₄).note hclean rfl hmem
    have hqn : Quiet [(.announced a delay : Event In Out)] := by
      simp [Quiet, Event.isClassified]
    have hcleann : Clean (asked ++ [.announced a delay]) := hclean.quiet hqn
    split
    · have htrace : tr ++ [Event.copied a r.request, .announced a delay] =
          asked ++ [.announced a delay] := by simp [asked]
      show Leads cb d start now (tr ++ [Event.copied a r.request, .announced a delay]) _
      rw [htrace]
      refine ⟨Fault.callback_ne_primaryMissing _, h.timed.hedge hnext hdue rfl rfl rfl, ?_, _,
        hnoted _ rfl rfl rfl rfl⟩
      rw [hqn.reported, hq.reported]
      exact h.losing.failed
    · have htrace : tr ++ [Event.copied a r.request, .announced a delay, .issued a] =
          asked ++ [.announced a delay] ++ [.issued a] := by simp [asked]
      have hsent : ((asked ++ [Event.announced a delay]).filterMap Event.issued? ++ [a]).Sublist
          ((asked ++ [Event.announced a delay]).filterMap Event.asked?) := by
        rw [filterMap_snoc_none _ rfl, filterMap_snoc_none _ rfl, filterMap_snoc_none _ rfl,
          filterMap_snoc_some _ (b := a) rfl]
        exact h.books.sent.append_right _
      have hqi : Quiet [(.issued a : Event In Out)] := by simp [Quiet, Event.isClassified]
      show Leads cb d start now
        (tr ++ [Event.copied a r.request, .announced a delay, .issued a]) _
      let r' : Race In Out := { r with request := left, lastHedge := index, pause := none }
      have hbooks' := hnoted r' rfl rfl rfl rfl
      have hanswered :
          Answered cb (tr ++ [Event.copied a r.request, .announced a delay, .issued a]) :=
        h.answered.append (by simp)
      rw [htrace] at hanswered ⊢
      exact ⟨hbooks'.issue hcleann hsent rfl rfl rfl rfl,
        hcleann.quiet hqi, hanswered, ((h.losing.quiet hq rfl).quiet hqn rfl).quiet hqi rfl,
        h.timed.hedge hnext hdue rfl rfl rfl⟩

/-- A race in which nothing is in flight and no hedge is left has the output of its primary
attempt. -/
theorem exists_primaryOutput {now : Instant} (h : Running cb d start now tr r)
    (hempty : r.flights.isEmpty = true) : ∃ output, r.primaryOutput = some output := by
  have hnone := (Flights.isEmpty_iff_attempts _).1 hempty
  have hperm := h.books.conserved
  rw [hnone, List.append_nil, List.append_nil] at hperm
  obtain ⟨p, hp, hattempt⟩ := List.mem_map.mp (hperm.subset h.books.primary)
  refine Option.isSome_iff_exists.mp (h.losing.stored p hp ?_)
  rw [hattempt]
  rfl

/-- If all attempts failed, the output of the primary attempt ends the race. -/
theorem leads_exhaust {now : Instant} (h : Running cb d start now tr r)
    (hnext : r.decision.next r.lastHedge = none) (hempty : r.flights.isEmpty = true) :
    Leads cb d start now (tr ++ r.exhaust.1) r.exhaust.2 := by
  obtain ⟨output, houtput⟩ := exists_primaryOutput h hempty
  let primary := Attempt.planned 0 r.decision.maxHedges
  have hmem : primary ∈ tr.filterMap Event.asked? := h.books.issued_mem_asked h.books.primary
  have hq : Quiet [(.exhausted primary r.issued : Event In Out)] := by
    simp [Quiet, Event.isClassified]
  have hlast := Nat.le_antisymm h.books.within (Decision.next_eq_none_iff.1 hnext)
  have hnone := (Flights.isEmpty_iff_attempts _).1 hempty
  rw [exhaust, houtput]
  refine ⟨h.books.note h.clean rfl hmem, h.clean.quiet hq, h.answered.append (by simp), h.timed,
    .inr ⟨hlast, hnone, ?_, ?_⟩⟩
  · rw [hq.reported]
    exact h.losing.failed
  · rw [hq.reported]
    exact h.losing.kept output houtput

/-- A race goes on by its schedule. -/
theorem leads_goOn (h : Running cb d start m.now tr r) :
    Leads cb d start m.now (tr ++ (r.goOn cb m).1) (r.goOn cb m).2 := by
  by_cases hpending : ∃ r', (r.goOn cb m).2 = .settled (.pending r')
  · obtain ⟨r', hr'⟩ := hpending
    obtain ⟨hevents, ⟨p, rfl⟩, hresting⟩ := exists_pause_of_goOn (Prod.ext rfl hr')
    have heq : r.goOn cb m = ([], .settled (.pending { r with pause := some p })) :=
      Prod.ext hevents hr'
    rw [heq, List.append_nil]
    exact ⟨⟨{ h.books with }, h.clean, h.answered, { h.losing with }, { h.timed with }⟩, hresting⟩
  · unfold goOn at hpending ⊢
    split
    · rename_i hnext
      split
      · rename_i hempty
        exact leads_exhaust h hnext hempty
      · rename_i hempty
        rw [hnext, if_neg hempty] at hpending
        exact absurd ⟨_, rfl⟩ hpending
    · rename_i index due hnext
      split
      · rename_i hdue
        exact leads_hedge h hnext hdue
      · rename_i hdue
        simp only [hnext, if_neg hdue] at hpending
        refine absurd ?_ hpending
        split <;> exact ⟨_, rfl⟩

/-- A race goes on after its flights were polled and nothing landed. -/
theorem Running.polled (h : Running cb d start m.now tr r)
    (hlanded : (r.flights.poll cb.serve m).landed = none) :
    Running cb d start m.now (tr ++ (r.flights.poll cb.serve m).made.map Event.called)
      { r with flights := (r.flights.poll cb.serve m).flights } := by
  obtain ⟨hand, htook, hbooks⟩ := h.books.polled h.clean m
  rw [hlanded] at htook
  obtain rfl : hand = [] := htook
  have hq : Quiet ((r.flights.poll cb.serve m).made.map Event.called : List (Event In Out)) :=
    quiet_calls _
  exact ⟨hbooks, h.clean.quiet hq, h.answered.append (by simp), h.losing.quiet hq rfl,
    { h.timed with }⟩

/-- What a turn of a race that goes on leads to. -/
theorem leads_stride (h : Running cb d start m.now tr r) :
    Leads cb d start m.now (tr ++ (r.stride cb m).1) (r.stride cb m).2 := by
  obtain ⟨hand, htook, hbooks⟩ := h.books.polled h.clean m
  let calls : List (Event In Out) := (r.flights.poll cb.serve m).made.map Event.called
  have hq : Quiet calls := quiet_calls _
  let r' : Race In Out := { r with flights := (r.flights.poll cb.serve m).flights }
  have hlosing : Losing (tr ++ calls) r' := h.losing.quiet hq rfl
  have htimed : Timed d start m.now r' := { h.timed with }
  unfold stride await
  dsimp only
  rw [← List.append_assoc]
  split
  · rename_i crash hlanded
    rw [List.append_nil]
    exact ⟨Fault.callback_ne_primaryMissing _, htimed, hlosing.failed, hand, hbooks⟩
  · rename_i c hlanded
    rw [hlanded] at htook
    obtain rfl : hand = [c.attempt] := htook
    have hanswered : Answered cb (tr ++ calls) := h.answered.append (by simp [calls])
    exact leads_complete hbooks (h.clean.quiet hq) hanswered hlosing htimed
  · rename_i hlanded
    exact leads_goOn (h.polled hlanded)

end Turns

/-! ## A poll -/

theorem Running.started_le {cb : Callbacks In Out} {d : Decision} {start now : Instant}
    {tr : List (Event In Out)} {r : Race In Out} (h : Running cb d start now tr r) :
    r.started ≤ now := by
  rw [h.timed.started]
  exact Nat.le_trans (Nat.le_add_right _ _) h.timed.due

theorem Running.wake {cb : Callbacks In Out} {d : Decision} {start now : Instant}
    {tr : List (Event In Out)} {r : Race In Out} (h : Running cb d start now tr r) (m : Moment) :
    Running cb d start now tr { r with flights := r.flights.wake m } := by
  refine ⟨{ h.books with conserved := ?_, called := ?_ }, h.clean, h.answered, { h.losing with },
    { h.timed with }⟩
  · exact h.books.conserved.trans (((r.flights.attempts_wake m).symm.append_left _).append_left _)
  · exact h.books.called.trans ((r.flights.uncalled_wake m).symm.append_left _)

/-- What a poll of a race leads to. -/
theorem stands_poll {cb : Callbacks In Out} {d : Decision} {start : Instant} {m : Moment}
    {tr : List (Event In Out)} {r : Race In Out} (hr : r.Poised m.now)
    (h : Running cb d start m.now tr r) :
    Stands cb d start m.now (tr ++ (r.poll cb m).1) (r.poll cb m).2 := by
  refine poll_induct (P := Running cb d start m.now) (Q := Stands cb d start m.now)
    Running.started_le (fun h hs => ?_) (fun h hs => ?_) hr (h.wake m)
  · have := leads_stride h
    rwa [hs] at this
  · have := leads_stride h
    rwa [hs] at this

/-! ## The start -/

/-- A race whose primary attempt is refused gives the request back. -/
theorem start_of_refused {cb : Callbacks In Out} {d : Decision} {request left : In}
    (h : cb.copy request (d.attempt 0) = .ok (left, none)) (now : Instant) :
    start cb now d request = ([.copied (d.attempt 0) request], .refused left) := by
  have h' : cb.copy request (.planned 0 d.maxHedges) = .ok (left, none) := h
  simp only [start, h']
  rfl

/-- A race whose primary input cannot be made does not start. -/
theorem start_of_crash {cb : Callbacks In Out} {d : Decision} {request : In} {crash : Crash}
    (h : cb.copy request (d.attempt 0) = .error crash) (now : Instant) :
    start cb now d request = ([.copied (d.attempt 0) request], .crashed crash) := by
  have h' : cb.copy request (.planned 0 d.maxHedges) = .error crash := h
  simp only [start, h']
  rfl

/-- A race whose primary attempt is not refused starts with that in flight. -/
theorem exists_running_start {cb : Callbacks In Out} {d : Decision} {request left input : In}
    (h : cb.copy request (d.attempt 0) = .ok (left, some input)) (now : Instant) :
    ∃ r, start cb now d request =
        ([.copied (d.attempt 0) request, .issued (d.attempt 0)], .racing r) ∧
      Running cb d now now [.copied (d.attempt 0) request, .issued (d.attempt 0)] r ∧
      r.Poised now ∧ r.flights = Flights.none.issue (d.attempt 0) now input := by
  let tr : List (Event In Out) := [.copied (d.attempt 0) request, .issued (d.attempt 0)]
  let r : Race In Out :=
    { request := left, decision := d, started := now, lastHedge := 0, issued := 1,
      primaryOutput := none, flights := Flights.none.issue (d.attempt 0) now input, pause := none }
  have hstart : start cb now d request = (tr, .racing r) := by
    have h' : cb.copy request (.planned 0 d.maxHedges) = .ok (left, some input) := h
    simp only [start, h']
    rfl
  have hbooks : Books cb [] tr r := by
    refine ⟨rfl, Nat.zero_le _, .refl _, List.mem_singleton_self _, rfl, ?_, ?_, ?_, ?_, ?_⟩
    · exact (Flights.none.attempts_issue (d.attempt 0) now input).symm
    · exact (Flights.none.uncalled_issue (d.attempt 0) now input).symm
    · simp [tr]
    · simp [tr]
    · simp [tr, Event.Precedes]
  have hclean : Clean tr := ⟨rfl, by simp [tr, Event.isClassified]⟩
  have hanswered : Answered cb tr := by
    intro a request' ha
    have ha' : a = d.attempt 0 := by simp_all [tr]
    exact .inl (ha' ▸ List.mem_singleton_self _)
  have hlosing : Losing tr r := ⟨by simp [tr], by simp [r], by simp [tr]⟩
  have htimed : Timed d now now r := ⟨rfl, rfl, by simp [r, Decision.dueNanos]⟩
  exact ⟨r, hstart, ⟨hbooks, hclean, hanswered, hlosing, htimed⟩, ⟨Nat.le_refl _, by simp [r]⟩,
    rfl⟩

end RequestHedging.Race
