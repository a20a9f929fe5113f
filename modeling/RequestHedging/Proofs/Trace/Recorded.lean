import RequestHedging.Proofs.Race.Unison
import RequestHedging.Proofs.Trace.Written

/-!
# What is recorded of a race

Hedges and the ends of races are logged and measured, and nothing else of a race is.  Where all
is recorded, a view of the records is a view of the events (`filterMap_written_records`), and
the records of a hedge are written before the inner service is called with it
(`sublist_written_of_called`).
-/

namespace RequestHedging

open Race Trace

variable {In Out : Type}

namespace Race.Event

def hedge? : Event In Out → Option Attempt
  | issued a => if a.isHedge then some a else none
  | _ => none

def exhausted? : Event In Out → Option UInt32
  | exhausted _ count => some (hedgesAmong count)
  | _ => none

end Race.Event

namespace Entry

def announced? (e : Entry In Out) : Option Attempt := e.race?.bind Event.announced?

def hedgeLogged? : Entry In Out → Option Attempt
  | log (.hedgeIssued a) => some a
  | _ => none

def hedgeMeasured? : Entry In Out → Option Attempt
  | measured (.hedge a) => some a
  | _ => none

def endLogged? : Entry In Out → Option (Attempt × UInt32 × Outcome)
  | log (.raceEnded a issued outcome) => some (a, issued, outcome)
  | _ => none

def exhaustionMeasured? : Entry In Out → Option UInt32
  | measured (.exhausted hedges) => some hedges
  | _ => none

/-- Whether an entry is of the race, or of what is recorded of its course. -/
def isSignal : Entry In Out → Bool
  | race _ | measured _ | log (.hedgeIssued _) | log (.raceEnded ..) => true
  | _ => false

end Entry

section Views

variable {α : Type} {t : Telemetry} {ls : List (Listener In Out)}

theorem isSignal_eq_false_of_isWarning {n : Notice} (h : n.isWarning = true) :
    (Entry.log n : Entry In Out).isSignal = false := by
  cases n <;> first | rfl | cases h

theorem hedgeLogged?_of_not_isSignal (e : Entry In Out) (h : e.isSignal = false) :
    e.hedgeLogged? = none := by
  cases e with
  | log n => cases n <;> first | rfl | cases h
  | _ => rfl

theorem hedgeMeasured?_of_not_isSignal (e : Entry In Out) (h : e.isSignal = false) :
    e.hedgeMeasured? = none := by
  cases e <;> first | rfl | cases h

theorem endLogged?_of_not_isSignal (e : Entry In Out) (h : e.isSignal = false) :
    e.endLogged? = none := by
  cases e with
  | log n => cases n <;> first | rfl | cases h
  | _ => rfl

theorem exhaustionMeasured?_of_not_isSignal (e : Entry In Out) (h : e.isSignal = false) :
    e.exhaustionMeasured? = none := by
  cases e <;> first | rfl | cases h

/-- What is recorded of an event where all is. -/
def records : Event In Out → List (Entry In Out)
  | .issued a => if a.isHedge then [.log (.hedgeIssued a), .measured (.hedge a)] else []
  | .won a count => [.log (.raceEnded a count .success)]
  | .exhausted a count =>
    [.measured (.exhausted (hedgesAmong count)), .log (.raceEnded a count .failure)]
  | _ => []

section Recorded

variable (hlogs : t.logs = true) (hmetrics : t.metrics = true)

include hlogs hmetrics

/-- Beside the event and what is heard of it, its records are all that is written. -/
theorem filterMap_written_records {view : Entry In Out → Option α}
    (hview : ∀ e, e.isSignal = false → view e = none) (hrace : ∀ event, view (.race event) = none)
    (event : Event In Out) :
    (written t ls event).filterMap view = (records event).filterMap view := by
  cases event with
  | reported p =>
    have hheard : (ls.zipIdx.flatMap (heard p)).filterMap view = [] :=
      filterMap_flatMap_heard (fun _ _ _ => hview _ rfl)
        (fun _ hn => hview _ (isSignal_eq_false_of_isWarning hn)) p ls.zipIdx
    rw [written, List.filterMap_cons_none (hrace _), hheard]
    rfl
  | issued a =>
    cases ha : a.isHedge <;>
      simp [written, records, logged, measured, hlogs, hmetrics, ha, hrace, List.filterMap_cons]
  | won a count => simp [written, records, logged, hlogs, hrace, List.filterMap_cons]
  | exhausted a count =>
    simp [written, records, logged, measured, hlogs, hmetrics, hrace, List.filterMap_cons]
  | _ => exact List.filterMap_cons_none (hrace _)

/-- A hedge is logged when it is issued. -/
theorem hedgeLogged?_written (event : Event In Out) :
    (written t ls event).filterMap Entry.hedgeLogged? = event.hedge?.toList := by
  rw [filterMap_written_records hlogs hmetrics hedgeLogged?_of_not_isSignal fun _ => rfl]
  cases event with
  | issued a => cases ha : a.isHedge <;> simp only [records, Event.hedge?, ha] <;> rfl
  | _ => rfl

theorem hedgeMeasured?_written (event : Event In Out) :
    (written t ls event).filterMap Entry.hedgeMeasured? = event.hedge?.toList := by
  rw [filterMap_written_records hlogs hmetrics hedgeMeasured?_of_not_isSignal fun _ => rfl]
  cases event with
  | issued a => cases ha : a.isHedge <;> simp only [records, Event.hedge?, ha] <;> rfl
  | _ => rfl

theorem endLogged?_written (event : Event In Out) :
    (written t ls event).filterMap Entry.endLogged? = event.closing?.toList := by
  rw [filterMap_written_records hlogs hmetrics endLogged?_of_not_isSignal fun _ => rfl]
  cases event with
  | issued a => cases ha : a.isHedge <;> simp only [records, ha] <;> rfl
  | _ => rfl

/-- The number of hedges is measured when all attempts failed. -/
theorem exhaustionMeasured?_written (event : Event In Out) :
    (written t ls event).filterMap Entry.exhaustionMeasured? = event.exhausted?.toList := by
  rw [filterMap_written_records hlogs hmetrics exhaustionMeasured?_of_not_isSignal fun _ => rfl]
  cases event with
  | issued a => cases ha : a.isHedge <;> simp only [records, ha] <;> rfl
  | _ => rfl

end Recorded

end Views

/-! ## Views of events -/

namespace Race

/-- The hedges are the attempts issued other than the primary one. -/
theorem filterMap_hedge (tr : List (Event In Out)) :
    tr.filterMap Event.hedge? = (tr.filterMap Event.issued?).filter Attempt.isHedge := by
  rw [List.filter_filterMap]
  congr 1
  funext e
  cases e with
  | issued a => cases ha : a.isHedge <;> simp [Event.hedge?, ha, Option.filter]
  | _ => rfl

/-- The number of hedges when all attempts failed is in how the race ended. -/
theorem filterMap_exhausted (tr : List (Event In Out)) :
    tr.filterMap Event.exhausted? = (tr.filterMap Event.closing?).filterMap fun e =>
      if e.2.2 = .failure then some (hedgesAmong e.2.1) else none := by
  rw [List.filterMap_filterMap]
  congr 1
  funext e
  cases e <;> rfl

/-- All attempts issued but the primary one are hedges. -/
theorem filter_isHedge_issued {cb : Callbacks In Out} {d : Decision} {tr : List (Event In Out)}
    {uncalled : List Attempt} (h : Unison cb d tr uncalled) :
    (tr.filterMap Event.issued?).filter Attempt.isHedge = tr.filterMap Event.announced? := by
  have hprimary : (d.attempt 0).isHedge = false := rfl
  rw [h.issued, List.filter_cons_of_neg (by simp [hprimary]), List.filter_eq_self]
  exact h.hedges

end Race

/-! ## Before a call -/

section Before

variable {t : Telemetry} {ls : List (Listener In Out)} {cb : Callbacks In Out} {d : Decision}

/-- All that is told of a hedge is written before the inner service is called with it. -/
theorem sublist_written_of_called (hlogs : t.logs = true) (hmetrics : t.metrics = true)
    {events : List (Event In Out)} {uncalled : List Attempt} (h : Unison cb d events uncalled)
    {before after : List (Entry In Out)} {call : Call In}
    (hsplit : events.flatMap (written t ls) = before ++ .race (.called call) :: after)
    (hhedge : call.attempt.isHedge = true) :
    ∃ delay, [.race (.announced call.attempt delay), .log (.hedgeIssued call.attempt),
      .measured (.hedge call.attempt)].Sublist before := by
  obtain ⟨earlier, later, hevents, hprefix⟩ := exists_split_of_written hsplit
  have hissued : call.attempt ∈ earlier.filterMap Event.issued? := h.heralded _ _ _ hevents
  obtain ⟨event, hevent, hsome⟩ := List.mem_filterMap.mp hissued
  obtain rfl : event = .issued call.attempt := by
    cases event <;> first | (cases hsome; rfl) | cases hsome
  obtain ⟨first, second, rfl⟩ := List.append_of_mem hevent
  have hannounced : call.attempt ∈ first.filterMap Event.announced? :=
    h.heralded first (.issued call.attempt) (second ++ .called call :: later)
      (by rw [hevents]; simp) hhedge
  obtain ⟨event, hevent', hsome⟩ := List.mem_filterMap.mp hannounced
  obtain ⟨delay, rfl⟩ : ∃ delay, event = .announced call.attempt delay := by
    cases event <;> first | (cases hsome; exact ⟨_, rfl⟩) | cases hsome
  refine ⟨delay, List.Sublist.trans ?_ hprefix.sublist⟩
  have htold : [(.race (.announced call.attempt delay) : Entry In Out)].Sublist
      (first.flatMap (written t ls)) :=
    List.singleton_sublist.mpr (List.mem_flatMap.mpr ⟨_, hevent', List.mem_singleton_self _⟩)
  have hrecorded : written t ls (.issued call.attempt) =
      [.log (.hedgeIssued call.attempt), .measured (.hedge call.attempt),
        .race (.issued call.attempt)] := by
    simp [written, logged, measured, hlogs, hmetrics, hhedge]
  rw [List.flatMap_append, List.flatMap_cons, hrecorded]
  exact htold.append (by simp)

end Before

end RequestHedging
