import RequestHedging.Proofs.Trace

/-!
# What is written of an event

What the trace shows of an event depends on the event, on the listeners and on which records
are kept, and on nothing that happened before: what a listener answers to a report has nothing
to do with the estimators it feeds.  So a trace is read off its events one by one
(`ofEvents_eq`), and so is every view of it (`filterMap_written`).
-/

namespace RequestHedging

open Race

variable {In Out : Type}

def Listener.answer : Listener In Out → Report In Out → Except Breakdown Unit
  | .callback _ answer, p => answer p
  | .estimator _, _ => .ok ()

theorem Listener.fst_hear (l : Listener In Out) (now : Instant) (es : Estimators)
    (p : Report In Out) : (l.hear now es p).1 = l.answer p := by
  cases l with
  | callback name answer => rfl
  | estimator name =>
    unfold hear
    dsimp only
    split <;> rfl

namespace Trace

variable {t : Telemetry} {ls : List (Listener In Out)}

/-- A listener at a position hears a report, and leaves a warning if it does not answer. -/
def heard (p : Report In Out) (l : Listener In Out × Nat) : List (Entry In Out) :=
  .heard l.2 l.1.traceName p :: warning p.attempt l.2 (l.1.answer p)

def written (t : Telemetry) (ls : List (Listener In Out)) : Event In Out → List (Entry In Out)
  | .reported p => .race (.reported p) :: ls.zipIdx.flatMap (heard p)
  | .issued a =>
    if a.isHedge then logged t (.hedgeIssued a) ++ measured t (.hedge a) ++ [.race (.issued a)]
    else [.race (.issued a)]
  | .won a issued => .race (.won a issued) :: logged t (.raceEnded a issued .success)
  | .exhausted a issued =>
    .race (.exhausted a issued) :: measured t (.exhausted (hedgesAmong issued)) ++
      logged t (.raceEnded a issued .failure)
  | event => [.race event]

/-- Among the attempts counted there is one that is no hedge, if there are any. -/
theorem toNat_hedgesAmong (issued : UInt32) :
    (hedgesAmong issued).toNat = issued.toNat - 1 :=
  UInt32.toNat_ofNat_of_lt' (Nat.lt_of_le_of_lt (Nat.sub_le _ _) issued.toNat_lt)

/-- What a report leaves does not depend on the estimators. -/
theorem tell_eq (now : Instant) (p : Report In Out) (ls : List (Listener In Out)) (position : Nat)
    (es : Estimators) :
    (tell now p ls position es).1 = (ls.zipIdx position).flatMap (heard p) := by
  induction ls generalizing position es with
  | nil => rfl
  | cons l ls ih =>
    simp only [tell, Listener.fst_hear, ih, List.zipIdx_cons, List.flatMap_cons, heard]

theorem enter_eq (now : Instant) (event : Event In Out) (es : Estimators) :
    (enter t ls now es event).1 = written t ls event := by
  cases event with
  | reported p => simp only [enter, written, tell_eq]
  | issued a =>
    unfold enter written
    dsimp only
    split <;> rfl
  | _ => rfl

/-- Events are written one by one. -/
theorem ofEvents_eq (now : Instant) (events : List (Event In Out)) (es : Estimators) :
    (ofEvents t ls now events es).1 = events.flatMap (written t ls) := by
  induction events generalizing es with
  | nil => rfl
  | cons event events ih => simp only [ofEvents, enter_eq, ih, List.flatMap_cons]

/-! ## Views of what is written -/

section Views

variable {α : Type} {view : Entry In Out → Option α}

/-- A view that shows neither what is heard nor warnings shows nothing of a report but that it was
made. -/
theorem filterMap_flatMap_heard (hheard : ∀ position name p, view (.heard position name p) = none)
    (hlog : ∀ n : Notice, n.isWarning = true → view (.log n) = none) (p : Report In Out)
    (ls : List (Listener In Out × Nat)) : (ls.flatMap (heard p)).filterMap view = [] := by
  apply List.filterMap_eq_nil_iff.mpr
  intro e he
  obtain ⟨l, -, he⟩ := List.mem_flatMap.mp he
  rcases List.mem_cons.mp he with rfl | he
  · exact hheard _ _ _
  · unfold warning at he
    split at he
    · cases he
    · rw [List.mem_singleton.mp he]
      exact hlog _ rfl
    · rw [List.mem_singleton.mp he]
      exact hlog _ rfl

/-- A view of what is written is a view of the events. -/
theorem filterMap_written {f : Event In Out → Option α}
    (h : ∀ event, (written t ls event).filterMap view = (f event).toList)
    (events : List (Event In Out)) :
    (events.flatMap (written t ls)).filterMap view = events.filterMap f := by
  induction events with
  | nil => rfl
  | cons event events ih =>
    rw [List.flatMap_cons, List.filterMap_append, h, ih, List.filterMap_cons]
    cases f event <;> rfl

theorem news_flatMap_written (t : Telemetry) (ls : List (Listener In Out))
    (events : List (Event In Out)) :
    news (events.flatMap (written t ls)) = events.flatMap (told ls) := by
  rw [← ofEvents_eq 0 events [], news_ofEvents]

theorem filterMap_race_flatMap_written (t : Telemetry) (ls : List (Listener In Out))
    (events : List (Event In Out)) :
    (events.flatMap (written t ls)).filterMap Entry.race? = events :=
  filterMap_race_of_news (news_flatMap_written t ls events)

theorem isGaveUp_written {events : List (Event In Out)} {e : Entry In Out}
    (h : e ∈ events.flatMap (written t ls)) : e.isGaveUp = false := by
  rw [← ofEvents_eq 0 events []] at h
  exact isGaveUp_ofEvents h

theorem filterMap_race_written (event : Event In Out) :
    (written t ls event).filterMap Entry.race? = [event] := by
  have h := filterMap_race_flatMap_written t ls [event]
  rwa [List.flatMap_singleton] at h

theorem eq_of_race_mem_written {event event' : Event In Out}
    (h : .race event' ∈ written t ls event) : event' = event := by
  have hmem : event' ∈ (written t ls event).filterMap Entry.race? :=
    List.mem_filterMap.mpr ⟨_, h, rfl⟩
  rw [filterMap_race_written] at hmem
  exact List.mem_singleton.mp hmem

/-- Before an event, all is written that happened before it. -/
theorem exists_split_of_written {events : List (Event In Out)} {before after : List (Entry In Out)}
    {event : Event In Out} (h : events.flatMap (written t ls) = before ++ .race event :: after) :
    ∃ earlier later, events = earlier ++ event :: later ∧
      earlier.flatMap (written t ls) <+: before := by
  induction events generalizing before with
  | nil => simp at h
  | cons first events ih =>
    have hlater : ∀ before', before = written t ls first ++ before' →
        events.flatMap (written t ls) = before' ++ .race event :: after →
        ∃ earlier later, first :: events = earlier ++ event :: later ∧
          earlier.flatMap (written t ls) <+: before := by
      rintro before' rfl hrest
      obtain ⟨earlier, later, rfl, hprefix⟩ := ih hrest
      exact ⟨first :: earlier, later, rfl, (List.prefix_append_right_inj _).mpr hprefix⟩
    rw [List.flatMap_cons] at h
    rcases List.append_eq_append_iff.mp h with ⟨before', hbefore, hrest⟩ | ⟨rest, hfirst, hrest⟩
    · exact hlater before' hbefore hrest
    · cases rest with
      | nil => exact hlater [] (by simpa using hfirst.symm) (by simpa using hrest.symm)
      | cons e rest =>
        obtain ⟨rfl, -⟩ := List.cons.inj hrest
        have hmem : .race event ∈ written t ls first := by
          rw [hfirst]
          exact List.mem_append_right _ List.mem_cons_self
        obtain rfl := eq_of_race_mem_written hmem
        exact ⟨[], events, rfl, List.nil_prefix⟩

end Views

end Trace

end RequestHedging
