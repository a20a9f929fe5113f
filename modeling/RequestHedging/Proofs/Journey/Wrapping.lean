import Mathlib.Data.List.Perm.Subperm
import RequestHedging.Proofs.Journey.Channels
import RequestHedging.Proofs.Race.Rounds

/-!
# Where the count wraps round

The greatest budget has as many hedges as the word that counts the attempts can tell, and the
primary attempt comes on top of them.  So a race that issues them all counts none, and says so at
its end (`not_told_of_wrapped`).

There is such a race: if no time passes between hedges, and every attempt is granted and fails at
once, a race is over in its first poll, after all its hedges (`issued_enter`).
-/

namespace RequestHedging

open Race Trace

variable {In Out : Type}

/-- Every input is granted, every call is over at once, and every output is a failure. -/
structure Callbacks.Failing (cb : Callbacks In Out) : Prop where
  granted : ∀ request a, ∃ left input, cb.copy request a = .ok (left, some input)
  onHedge : ∀ a delay, cb.onHedge a delay = .ok ()
  brief : ∀ input call, ∃ output, cb.serve input call = ⟨.lasting .zero, .ok output⟩
  verdict : ∀ a output, cb.verdict a output = .ok .failure

/-- With no time between them, all hedges are due at once. -/
theorem Decision.dueNanos_of_zero {d : Decision} (h : d.delay = some .zero) (i : Nat) :
    d.dueNanos i = 0 := by
  rw [dueNanos_eq h]
  exact Nat.min_eq_left (Nat.zero_le _)

namespace Callbacks.Failing

variable {cb : Callbacks In Out}

/-- Callbacks that fail every attempt do not crash. -/
theorem total (h : cb.Failing) : cb.Total where
  copy := by
    intro request a
    obtain ⟨left, input, hcopy⟩ := h.granted request a
    exact ⟨_, hcopy⟩
  recovery := by
    intro output a
    have hverdict := h.verdict a output
    rw [Callbacks.verdict] at hverdict
    cases hrecovery : cb.recovery output a with
    | ok recovery => exact ⟨recovery, rfl⟩
    | error crash =>
      rw [hrecovery] at hverdict
      cases hverdict
  onHedge := h.onHedge
  serve := by
    intro input call
    obtain ⟨output, hserve⟩ := h.brief input call
    exact ⟨output, by rw [hserve]⟩

/-- What was issued by now has finished by now. -/
theorem not_unfinished (h : cb.Failing) {tl : Timeline In Out} {t : Instant} {a : Attempt}
    (hpast : ∀ e ∈ tl, e.1 ≤ t) : ¬ Unfinished cb tl t a := by
  rintro ⟨-, begun, e, ⟨hissued, call, -, -, hserve⟩, hends⟩
  obtain ⟨output, hbrief⟩ := h.brief call.copy call.number
  obtain rfl : e = ⟨.lasting .zero, .ok output⟩ := hserve.symm.trans hbrief
  exact Nat.not_lt_of_le (hpast _ hissued) (hends begun rfl)

end Callbacks.Failing

namespace Journey

section Enter

variable {svc : Service In Out} {now : Instant} {es : Estimators} {request : In} {d : Decision}
  {ls : List (Listener In Out)}

/-- If every attempt fails at once and all hedges are due at once, the first poll leaves nothing to
wait for. -/
theorem not_held_enter (h : svc.Races now es request d ls) (hfailing : svc.callbacks.Failing)
    (hdelay : d.delay = some .zero) (opened : List Nat) (session : Session In Out) :
    (enter svc now opened es request).stage ≠ .held session := by
  intro hsession
  have hcourse := course_enter h opened
  obtain ⟨p, hstands, -⟩ := hcourse.stands
  have hseen : now ≤ (enter svc now opened es request).seen :=
    Nat.le_trans (Nat.le_add_right _ _) hstands.timed.due
  rcases busy_of_held hcourse (vigil_enter h opened) hsession with
    ⟨a, -, hunfinished⟩ | ⟨i, -, -, -, hlate⟩
  · refine hfailing.not_unfinished (fun e he => ?_) hunfinished
    obtain ⟨⟨t, entry⟩, hentry, hsome⟩ := List.mem_filterMap.mp he
    obtain ⟨event, -, rfl⟩ := Option.map_eq_some_iff.mp hsome
    have htime := time_of_mem_trace_step svc (fresh now opened request) (.poll es) _ hentry
    obtain rfl : t = now := (htime.resolve_left List.not_mem_nil).2
    exact hseen
  · rw [Decision.dueNanos_of_zero hdelay] at hlate
    exact Nat.not_lt_of_le hseen hlate

theorem run_poll (svc : Service In Out) (now : Instant) (opened : List Nat) (request : In)
    (es : Estimators) :
    (fresh now opened request).run svc [.poll es] = enter svc now opened es request :=
  rfl

/-- A request without a deadline is never given up. -/
theorem not_gaveUp_enter (hdeadline : svc.deadline = none) (henabled : svc.enabled request = true)
    (now : Instant) (opened : List Nat) (es : Estimators) :
    ¬ (enter svc now opened es request).GaveUp := by
  have hsame : svc.unbounded = svc := by
    rw [Service.unbounded, ← hdeadline]
  have hkept := ((counting_fresh henabled now opened).poll es).kept
  rw [hsame] at hkept
  rintro ⟨e, he, hgaveUp⟩
  exact Bool.false_ne_true ((hkept e he).symm.trans hgaveUp)

/-- Such a race is over in its first poll, since all attempts failed, and it issued every hedge. -/
theorem issued_enter (h : svc.Races now es request d ls) (hfailing : svc.callbacks.Failing)
    (hdelay : d.delay = some .zero) (hdeadline : svc.deadline = none) (opened : List Nat) :
    Ends svc.callbacks (enter svc now opened es request) (d.attempt 0) .failure ∧
      ((enter svc now opened es request).events.filterMap Event.issued?).length =
        d.maxHedges.toNat + 1 := by
  have hcourse := course_enter h opened
  have hvigil := vigil_enter h opened
  have hkept := not_gaveUp_enter hdeadline h.enabled now opened es
  have hended : (enter svc now opened es request).endings ≠ [] :=
    (held_or_ended_step svc (j := fresh now opened request) (.inl ⟨_, rfl⟩)
      (by simp : Act.poll es ≠ .drop)).resolve_left fun ⟨session, hsession⟩ =>
        not_held_enter h hfailing hdelay opened session hsession
  generalize enter svc now opened es request = j at *
  obtain ⟨output, hreturned⟩ : ∃ output, j.endings = [.returned output] := by
    obtain ⟨p, hstands, hphase⟩ := hcourse.stands
    cases hphase with
    | held r stage quiet ended => exact absurd ended hended
    | dropped r stage quiet ended => exact absurd ended hended
    | bounded r output stage quiet ended deadline gaveUp => exact absurd gaveUp hkept
    | broken fault r stage quiet ended =>
      cases fault with
      | primaryMissing => exact absurd rfl hstands.1
      | callback crash => exact absurd hfailing.total (hvigil.crashed crash (by simp [ended]))
    | _ => exact ⟨_, ‹j.endings = _›⟩
  obtain ⟨r, hbooks, hclean, hanswered, htimed, hend⟩ :=
    hcourse.stands_of_returned hreturned hkept
  have hspent : Spent j.events r output := by
    refine hend.resolve_left ?_
    rintro ⟨failed, p, hreported, -, hsuccess, -⟩
    have hjudged := hbooks.judged p (by rw [hreported]; simp)
    rw [hfailing.verdict, hsuccess] at hjudged
    cases hjudged
  obtain rfl := htimed.decision
  refine ⟨(ends_iff_of_spent hreturned hkept hbooks hclean hspent _ _).mpr ⟨rfl, rfl⟩, ?_⟩
  -- None of the inputs asked for was refused.
  have hsubset : j.events.filterMap Event.asked? ⊆ j.events.filterMap Event.issued? := by
    intro a ha
    obtain ⟨event, hevent, hsome⟩ := List.mem_filterMap.mp ha
    cases event with
    | copied b request' =>
      cases hsome
      refine (hanswered a request' hevent).resolve_right ?_
      rintro ⟨left, hrefused⟩
      obtain ⟨left', input, hgranted⟩ := hfailing.granted request' a
      cases hrefused.symm.trans hgranted
    | _ => cases hsome
  have hnodup : (j.events.filterMap Event.asked?).Nodup := by
    refine List.Nodup.of_map (fun a => a.index.toNat) ?_
    rw [hbooks.indices_asked]
    exact List.nodup_range
  have hlength := Nat.le_antisymm hbooks.sent.length_le (hnodup.subperm hsubset).length_le
  rw [hlength, hbooks.asked, List.length_map, List.length_range, hspent.all_due]

/-- If there are as many hedges as the greatest word, the count of the attempts is none at the end
of such a race. -/
theorem wrapped_enter (h : svc.Races now es request d ls) (hlogs : svc.telemetry.logs = true)
    (hmetrics : svc.telemetry.metrics = true) (hfailing : svc.callbacks.Failing)
    (hdelay : d.delay = some .zero) (hdeadline : svc.deadline = none)
    (hmax : d.maxHedges.toNat + 1 = UInt32.size) (opened : List Nat) :
    Ends svc.callbacks (enter svc now opened es request) (d.attempt 0) .failure ∧
      ((enter svc now opened es request).observed.filterMap Entry.announced?).length =
        d.maxHedges.toNat ∧
      (enter svc now opened es request).observed.filterMap Entry.exhaustionMeasured? = [0] ∧
      (enter svc now opened es request).observed.filterMap Entry.endLogged? =
        [(d.attempt 0, 0, .failure)] := by
  have honHedge : ∀ a delay crash, svc.callbacks.onHedge a delay ≠ .error crash := by
    intro a delay crash hcrash
    cases (hfailing.onHedge a delay).symm.trans hcrash
  have hconcert := concert_run honHedge h opened []
  have hchannels := channels_of_races hlogs hmetrics hconcert (course_enter h opened)
    (vigil_enter h opened) (chronicle_run h opened [])
  obtain ⟨hends, hissued⟩ := issued_enter h hfailing hdelay hdeadline opened
  have hannounced := congrArg List.length hconcert.unison.issued
  rw [List.length_cons] at hannounced
  have hcount := Nat.succ.inj (hannounced.symm.trans hissued)
  obtain ⟨told, htold, hwrapped⟩ := hchannels.exhausted _ hends
  obtain ⟨issued, hended, hnone⟩ := hchannels.ended _ _ hends
  rw [hcount, Nat.add_comm, hmax, Nat.mod_self] at hwrapped hnone
  obtain rfl : told = 0 := UInt32.toNat_inj.mp hwrapped
  obtain rfl : issued = 0 := UInt32.toNat_inj.mp hnone
  exact ⟨hends, hchannels.announced ▸ hcount, htold, hended⟩

end Enter

/-! ## The greatest budget -/

/-- As many hedges as there can be, all at once. -/
def boundless : Decision := ⟨4294967295, some .zero⟩

/-- A service that hedges without end, while every attempt fails at once; all records are kept. -/
def tireless : Service Nat Nat :=
  { recorded with
    callbacks := relapsing
    resolver := fun _ => .ok ⟨.fixed boundless, []⟩ }

theorem failing_relapsing : relapsing.Failing where
  granted := fun request _ => ⟨request, request, rfl⟩
  onHedge := fun _ _ => rfl
  brief := fun request _ => ⟨request, rfl⟩
  verdict := fun _ _ => rfl

theorem races_tireless : tireless.Races 0 [] 7 boundless [] :=
  ⟨rfl, rfl, rfl, 7, 7, rfl⟩

/-- After the greatest number of hedges, neither the index of the measurement is that number nor
the number in the log one more. -/
theorem not_told_of_wrapped :
    ¬ ∀ (svc : Service Nat Nat) (request : Nat) (acts : List Act) (a : Attempt),
      svc.telemetry.logs = true → svc.telemetry.metrics = true →
      (∀ a delay crash, svc.callbacks.onHedge a delay ≠ .error crash) →
      Ends svc.callbacks ((fresh 0 [] request).run svc acts) a .failure →
      ∃ told issued : UInt32,
        ((fresh 0 [] request).run svc acts).observed.filterMap Entry.exhaustionMeasured? = [told] ∧
        ((fresh 0 [] request).run svc acts).observed.filterMap Entry.endLogged? =
          [(a, issued, .failure)] ∧
        told.toNat =
          (((fresh 0 [] request).run svc acts).observed.filterMap Entry.announced?).length ∧
        issued.toNat =
          1 + (((fresh 0 [] request).run svc acts).observed.filterMap Entry.announced?).length := by
  intro hclaim
  have honHedge : ∀ a delay crash, tireless.callbacks.onHedge a delay ≠ .error crash := by
    intro a delay crash hcrash
    cases hcrash
  obtain ⟨hends, hannounced, hmeasured, -⟩ :=
    wrapped_enter races_tireless rfl rfl failing_relapsing rfl rfl rfl []
  have hexact := hclaim tireless 7 [.poll []] (boundless.attempt 0) rfl rfl honHedge
  -- The race is too long to be computed, so its run is not opened.
  rw [run_poll] at hexact
  obtain ⟨told, issued, htold, -, hequal, -⟩ := hexact hends
  obtain rfl : told = 0 := List.singleton_inj.mp (htold.symm.trans hmeasured)
  rw [hannounced] at hequal
  exact absurd hequal (by decide)

end Journey

end RequestHedging
