import RequestHedging.Proofs.Race.Books
import RequestHedging.Trace

/-!
# What a trace shows of a race

Besides the events of a race, a trace has what its listeners hear, and logs and
measurements.  Without the last two it is the events in order, each report directly
followed by the listeners that hear it, in their order (`news_ofEvents`).
-/

namespace RequestHedging

open Race

variable {In Out : Type}

namespace Entry

@[simp] def race? : Entry In Out → Option (Event In Out)
  | race event => some event
  | _ => none

/-- The report that an entry says was heard, with the position of the listener. -/
@[simp] def heard? : Entry In Out → Option (Nat × Report In Out)
  | heard position _ report => some (position, report)
  | _ => none

/-- Whether an entry is an event of a race or what a listener heard of it. -/
@[simp] def isNews : Entry In Out → Bool
  | race _ | heard .. => true
  | _ => false

@[simp] def isRecord : Entry In Out → Bool
  | log _ | measured _ => true
  | _ => false

@[simp] def isGaveUp : Entry In Out → Bool
  | gaveUp .. => true
  | _ => false

/-- Whether an entry says neither that a request comes in nor that it is given up. -/
@[simp] def isInner : Entry In Out → Bool
  | asked _ | gaveUp .. => false
  | _ => true

@[simp] def request? : Entry In Out → Option In
  | asked request => some request
  | _ => none

theorem request?_of_isInner {e : Entry In Out} (h : e.isInner = true) : e.request? = none := by
  cases e <;> simp_all

@[simp] def isTaskCrashed : Entry In Out → Bool
  | taskCrashed _ => true
  | _ => false

@[simp] def attempt? : Entry In Out → Option Attempt
  | race event => some event.attempt
  | heard _ _ report => some report.attempt
  | _ => none

end Entry

namespace Trace

variable {t : Telemetry} {ls : List (Listener In Out)} {now : Instant}

/-- The events among entries, and what listeners heard. -/
def news (entries : List (Entry In Out)) : List (Entry In Out) := entries.filter Entry.isNews

@[simp] theorem news_append (entries entries' : List (Entry In Out)) :
    news (entries ++ entries') = news entries ++ news entries' :=
  List.filter_append _ _

def hearings (ls : List (Listener In Out)) (p : Report In Out) : List (Entry In Out) :=
  ls.zipIdx.map fun l => .heard l.2 l.1.traceName p

/-- An event, and if it is a report, what listeners hear of it. -/
def told (ls : List (Listener In Out)) : Event In Out → List (Entry In Out)
  | .reported p => .race (.reported p) :: hearings ls p
  | event => [.race event]

/-! ## What follows from events -/

/-- What is left of entries without logs and measurements. -/
def plain (entries : List (Entry In Out)) : List (Entry In Out) :=
  entries.filter fun e => !e.isRecord

@[simp] theorem plain_append (entries entries' : List (Entry In Out)) :
    plain (entries ++ entries') = plain entries ++ plain entries' :=
  List.filter_append _ _

@[simp] theorem plain_race_cons (event : Event In Out) (entries : List (Entry In Out)) :
    plain (.race event :: entries) = .race event :: plain entries :=
  rfl

@[simp] theorem plain_heard_cons (position : Nat) (name : Option String) (p : Report In Out)
    (entries : List (Entry In Out)) :
    plain (.heard position name p :: entries) = .heard position name p :: plain entries :=
  rfl

@[simp] theorem plain_logged (t : Telemetry) (n : Notice) :
    plain (logged t n : List (Entry In Out)) = [] := by
  unfold logged
  split <;> rfl

@[simp] theorem plain_measured (t : Telemetry) (m : Measurement) :
    plain (measured t m : List (Entry In Out)) = [] := by
  unfold measured
  split <;> rfl

@[simp] theorem plain_warning (a : Attempt) (position : Nat) (answer : Except Breakdown Unit) :
    plain (warning a position answer : List (Entry In Out)) = [] := by
  unfold warning
  split <;> rfl

/-- Listeners hear a report in their order. -/
theorem plain_tell (p : Report In Out) (ls : List (Listener In Out)) (position : Nat)
    (es : Estimators) :
    plain (tell now p ls position es).1 =
      (ls.zipIdx position).map fun l => .heard l.2 l.1.traceName p := by
  induction ls generalizing position es with
  | nil => rfl
  | cons l ls ih =>
    simp only [tell, List.cons_append, plain_heard_cons, plain_append, plain_warning,
      List.nil_append, ih, List.zipIdx_cons, List.map_cons]

/-- But for records, an event leaves what is told of it. -/
theorem plain_enter (event : Event In Out) (es : Estimators) :
    plain (enter t ls now es event).1 = told ls event := by
  cases event with
  | reported p => simp only [enter, told, hearings, plain_race_cons, plain_tell]
  | issued a =>
    unfold enter
    dsimp only
    split
    · simp only [plain_append, plain_logged, plain_measured, List.nil_append]
      rfl
    · rfl
  | won a issued =>
    simp only [enter, told, plain_race_cons, plain_logged]
  | exhausted a issued =>
    simp only [enter, told, List.cons_append, plain_race_cons, plain_append, plain_logged,
      plain_measured, List.nil_append]
  | _ => rfl

/-- Apart from logs and measurements, events are followed by nothing but hearings. -/
theorem plain_ofEvents (events : List (Event In Out)) (es : Estimators) :
    plain (ofEvents t ls now events es).1 = events.flatMap (told ls) := by
  induction events generalizing es with
  | nil => rfl
  | cons event events ih =>
    simp only [ofEvents, plain_append, plain_enter, ih, List.flatMap_cons]

/-! ## The news -/

theorem isNews_told {event : Event In Out} {e : Entry In Out} (h : e ∈ told ls event) :
    e.isNews = true := by
  cases event with
  | reported p =>
    rcases List.mem_cons.mp h with rfl | h
    · rfl
    · obtain ⟨l, -, rfl⟩ := List.mem_map.mp h
      rfl
  | _ =>
    obtain rfl := List.mem_singleton.mp h
    rfl

/-- An event leaves only news and records. -/
theorem isNews_or_isRecord {events : List (Event In Out)} {es : Estimators} {e : Entry In Out}
    (h : e ∈ (ofEvents t ls now events es).1) : e.isNews = true ∨ e.isRecord = true := by
  by_cases hr : e.isRecord = true
  · exact .inr hr
  · have hplain : e ∈ plain (ofEvents t ls now events es).1 :=
      List.mem_filter.mpr ⟨h, by simpa using hr⟩
    rw [plain_ofEvents] at hplain
    obtain ⟨event, -, he⟩ := List.mem_flatMap.mp hplain
    exact .inl (isNews_told he)

theorem isInner_ofEvents {events : List (Event In Out)} {es : Estimators} {e : Entry In Out}
    (h : e ∈ (ofEvents t ls now events es).1) : e.isInner = true := by
  have := isNews_or_isRecord h
  cases e <;> simp_all

/-- No event gives a request up. -/
theorem isGaveUp_ofEvents {events : List (Event In Out)} {es : Estimators} {e : Entry In Out}
    (h : e ∈ (ofEvents t ls now events es).1) : e.isGaveUp = false := by
  have := isNews_or_isRecord h
  cases e <;> simp_all

theorem news_plain (entries : List (Entry In Out)) : news (plain entries) = news entries := by
  rw [news, news, plain, List.filter_filter]
  congr 1
  funext e
  cases e <;> rfl

/-- The news of a race is its events, each with what listeners hear of it. -/
theorem news_ofEvents (events : List (Event In Out)) (es : Estimators) :
    news (ofEvents t ls now events es).1 = events.flatMap (told ls) := by
  rw [← news_plain, plain_ofEvents, news, List.filter_eq_self]
  intro e he
  obtain ⟨event, -, he⟩ := List.mem_flatMap.mp he
  exact isNews_told he

/-! ## Views of the news -/

/-- A view that shows only news shows as much of the news alone. -/
theorem filterMap_news {α : Type} {view : Entry In Out → Option α}
    (hview : ∀ e, e.isNews = false → view e = none) (entries : List (Entry In Out)) :
    (news entries).filterMap view = entries.filterMap view := by
  rw [news, List.filterMap_filter]
  congr 1
  funext e
  cases hnews : e.isNews with
  | true => rfl
  | false => exact (hview e hnews).symm

theorem filterMap_race_news (entries : List (Entry In Out)) :
    (news entries).filterMap Entry.race? = entries.filterMap Entry.race? := by
  apply filterMap_news
  rintro (_ | _) <;> simp

theorem filterMap_heard_news (entries : List (Entry In Out)) :
    (news entries).filterMap Entry.heard? = entries.filterMap Entry.heard? := by
  apply filterMap_news
  rintro (_ | _) <;> simp

theorem filterMap_race_told (ls : List (Listener In Out)) (event : Event In Out) :
    (told ls event).filterMap Entry.race? = [event] := by
  cases event with
  | reported p => simp [told, hearings, List.filterMap_map, Function.comp_def]
  | _ => rfl

/-- The events can be read off what is told of them. -/
theorem filterMap_race_flatMap (events : List (Event In Out)) :
    (events.flatMap (told ls)).filterMap Entry.race? = events := by
  induction events with
  | nil => rfl
  | cons event events ih =>
    rw [List.flatMap_cons, List.filterMap_append, filterMap_race_told, ih, List.singleton_append]

/-- The events are all in the news. -/
theorem filterMap_race_of_news {entries : List (Entry In Out)} {events : List (Event In Out)}
    (h : news entries = events.flatMap (told ls)) : entries.filterMap Entry.race? = events := by
  rw [← filterMap_race_news, h, filterMap_race_flatMap]

theorem filterMap_heard_hearings (ls : List (Listener In Out)) (p : Report In Out) :
    (hearings ls p).filterMap Entry.heard? =
      (List.range ls.length).map fun position => (position, p) := by
  have hzip : ls.zipIdx.map Prod.snd = List.range ls.length := by
    rw [List.zipIdx_map_snd, List.range_eq_range']
  rw [← hzip, List.map_map, hearings, List.filterMap_map]
  exact congrFun List.filterMap_eq_map' _

/-- Every listener hears every report. -/
theorem filterMap_heard_flatMap (events : List (Event In Out)) :
    (events.flatMap (told ls)).filterMap Entry.heard? =
      (events.filterMap Event.reported?).flatMap fun p =>
        (List.range ls.length).map fun position => (position, p) := by
  induction events with
  | nil => rfl
  | cons event events ih =>
    rw [List.flatMap_cons, List.filterMap_append, ih]
    cases event with
    | reported p =>
      have hreported : (Event.reported p :: events).filterMap Event.reported? =
          p :: events.filterMap Event.reported? := rfl
      rw [hreported, List.flatMap_cons, ← filterMap_heard_hearings]
      rfl
    | _ => rfl

def stamped (now : Instant) (entries : List (Entry In Out)) : List (Instant × Entry In Out) :=
  entries.map fun e => (now, e)

theorem stamped_append (now : Instant) (entries entries' : List (Entry In Out)) :
    stamped now (entries ++ entries') = stamped now entries ++ stamped now entries' :=
  List.map_append

end Trace

end RequestHedging
