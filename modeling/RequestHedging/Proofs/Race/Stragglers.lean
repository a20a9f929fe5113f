import RequestHedging.Proofs.Race.Turns
import RequestHedging.Race.Stragglers

/-!
# The books after a win

Stragglers keep the books of the race that left them: what they call, classify and report
is entered behind the events of the race.  A poll that leaves stragglers in flight leaves
none that could go on.
-/

namespace RequestHedging.Stragglers

open Race

variable {In Out : Type}

/-- What holds of the stragglers of a race after a poll, by where they stand. -/
def Stands (cb : Callbacks In Out) (m : Moment) (tr : List (Event In Out)) (r : Race In Out) :
    Progress In Out → Prop
  | .pending left =>
    Books cb [] tr { r with flights := left.flights } ∧ Clean tr ∧
      left.flights.isEmpty = false ∧ left.flights.Idle m
  | .done => ∃ f, f.isEmpty = true ∧ Books cb [] tr { r with flights := f } ∧ Clean tr
  | .crashed _ left => ∃ hand, Books cb hand tr { r with flights := left.flights }

section Run

variable {cb : Callbacks In Out} {m : Moment} {tr events : List (Event In Out)} {r : Race In Out}
  {s : Stragglers In Out} {c : Completed Out}

/-- A completed straggler is classified and reported. -/
theorem books_complete (h : Books cb [c.attempt] tr r) (hclean : Clean tr)
    (hc : s.complete cb m.now c = (events, none)) :
    Books cb [] (tr ++ events) r ∧ Clean (tr ++ events) := by
  unfold complete at hc
  dsimp only at hc
  split at hc
  · cases hc
  · rename_i recovery hrecovery
    obtain ⟨rfl, -⟩ := Prod.mk.inj hc
    let p : Report In Out :=
      ⟨s.request, c.output, recovery.outcome cb.handleUnavailable, c.elapsed, c.attempt⟩
    have hverdict : cb.verdict p.attempt p.output = .ok p.outcome := by
      rw [Callbacks.verdict, hrecovery]
      rfl
    have htrace : tr ++ [Event.classified p.attempt p.output m.now, .reported p] =
        tr ++ [Event.classified p.attempt p.output m.now] ++ [Event.reported p] := by simp
    have hclassified := h.classify hclean (List.mem_singleton_self _) c.output m.now
    show Books cb [] (tr ++ [Event.classified p.attempt p.output m.now, .reported p]) r ∧
      Clean (tr ++ [Event.classified p.attempt p.output m.now, .reported p])
    rw [htrace]
    exact ⟨hclassified.report hverdict, hclean.report p m.now⟩

/-- A straggler that cannot be classified stays in the hand. -/
theorem books_complete_crashed {crash : Crash} (h : Books cb [c.attempt] tr r)
    (hclean : Clean tr) (hc : s.complete cb m.now c = (events, some crash)) :
    Books cb [c.attempt] (tr ++ events) r := by
  unfold complete at hc
  dsimp only at hc
  split at hc
  · obtain ⟨rfl, -⟩ := Prod.mk.inj hc
    exact h.classify hclean (List.mem_singleton_self _) c.output m.now
  · cases hc

/-- What the completions of stragglers at a moment lead to. -/
theorem stands_run (h : Books cb [] tr { r with flights := s.flights }) (hclean : Clean tr)
    (hw : ∀ w ∈ s.flights.waiting, w.1.hasRung m = false) :
    Stands cb m (tr ++ (s.run cb m).1) r (s.run cb m).2 := by
  induction s using run.induct cb m generalizing tr with
  | case1 s made flights hp =>
    obtain ⟨hand, htook, hbooks⟩ := h.polled hclean m
    have hidle := Flights.idle_poll hw (congrArg Polled.landed hp)
    rw [run, hp]
    dsimp only at hbooks htook ⊢
    rw [hp] at hbooks htook hidle
    obtain rfl : hand = [] := htook
    have hclean' := hclean.quiet (quiet_calls made)
    split
    · rename_i hempty
      exact ⟨flights, hempty, hbooks, hclean'⟩
    · rename_i hleft
      exact ⟨hbooks, hclean', by simpa using hleft, hidle⟩
  | case2 s made flights crash hp =>
    obtain ⟨hand, -, hbooks⟩ := h.polled hclean m
    rw [run, hp]
    rw [hp] at hbooks
    exact ⟨hand, hbooks⟩
  | case3 s made flights c hp events crash hc =>
    obtain ⟨hand, htook, hbooks⟩ := h.polled hclean m
    rw [run, hp]
    dsimp only at hbooks htook ⊢
    rw [hp] at hbooks htook
    obtain rfl : hand = [c.attempt] := htook
    have hclean' := hclean.quiet (quiet_calls made)
    rw [hc, ← List.append_assoc]
    exact ⟨_, books_complete_crashed hbooks hclean' hc⟩
  | case4 s made flights c hp events hc ih =>
    obtain ⟨hand, htook, hbooks⟩ := h.polled hclean m
    have hrung := Flights.hasRung_pollQueue cb.serve m s.flights.ready _ s.flights.calls hw
    change ∀ w ∈ (s.flights.poll cb.serve m).flights.waiting, _ at hrung
    rw [run, hp]
    dsimp only at hbooks htook ⊢
    rw [hp] at hbooks htook hrung
    obtain rfl : hand = [c.attempt] := htook
    have hclean' := hclean.quiet (quiet_calls made)
    obtain ⟨hbooks', hclean''⟩ := books_complete hbooks hclean' hc
    rw [hc]
    have := ih hbooks' hclean'' hrung
    simpa only [List.append_assoc] using this

/-- What a poll of stragglers leads to. -/
theorem stands_poll (h : Books cb [] tr { r with flights := s.flights }) (hclean : Clean tr) :
    Stands cb m (tr ++ (s.poll cb m).1) r (s.poll cb m).2 := by
  refine stands_run ?_ hclean (s.flights.hasRung_wake m)
  exact { h with
    conserved := h.conserved.trans ((s.flights.attempts_wake m).symm.append_left _ |>.append_left _)
    called := h.called.trans ((s.flights.uncalled_wake m).symm.append_left _) }

end Run

end RequestHedging.Stragglers
