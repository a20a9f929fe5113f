import RequestHedging.Proofs.Trace.Written

/-!
# What listeners answer

A listener that fails or crashes complains right behind what it heard, and nowhere else.
`muted` is what was observed without these complaints, and `voiced` puts them back.  Listeners
that differ only in what they answer leave the same trace, but for their complaints (`Echoes`),
and the same estimators (`estimators_ofEvents`).
-/

namespace RequestHedging

open Race

variable {In Out : Type}

/-- Listeners that differ in what they answer, if at all. -/
inductive Listener.Alike : Listener In Out → Listener In Out → Prop where
  | callback (name : String) (answer answer' : Report In Out → Except Breakdown Unit) :
    Alike (.callback name answer) (.callback name answer')
  | estimator (name : String) : Alike (.estimator name) (.estimator name)

def Entry.complaint? : Entry In Out → Option (Attempt × Nat)
  | .log (.listenerFailed a position _) | .log (.listenerCrashed a position) => some (a, position)
  | _ => none

def Entry.isComplaint (e : Entry In Out) : Bool := e.complaint?.isSome

/-- A complaint is a warning that names the attempt and the position of the listener. -/
theorem Entry.warns_of_complaint {e : Entry In Out} {a : Attempt} {position : Nat}
    (h : e.complaint? = some (a, position)) :
    ∃ n : Notice, e = .log n ∧ n.level = .warn ∧
      (Telemetry.attemptKey, .number a.index.toNat) ∈ n.details ∧
      ("listener.position", .number position) ∈ n.details := by
  unfold complaint? at h
  split at h
  · cases h
    exact ⟨_, rfl, rfl, .head _, .tail _ (.head _)⟩
  · cases h
    exact ⟨_, rfl, rfl, .head _, .tail _ (.head _)⟩
  · cases h

def Entry.isOfListeners : Entry In Out → Bool
  | .heard .. => true
  | e => e.isComplaint

namespace Trace

/-- What was observed, without the complaints of listeners. -/
def muted (tr : List (Instant × Entry In Out)) : List (Instant × Entry In Out) :=
  tr.filter fun e => !e.2.isComplaint

/-- What was observed, and if it is that a listener heard a report, the complaint of that
listener about it. -/
def voiced (ls : List (Listener In Out)) : Instant × Entry In Out → List (Instant × Entry In Out)
  | (t, .heard position name p) =>
    (t, .heard position name p) ::
      (ls[position]?.elim [] fun l => stamped t (warning p.attempt position (l.answer p)))
  | e => [e]

/-- What a listener heard and did not answer, by the attempt and the position of the listener. -/
def unanswered? (ls : List (Listener In Out)) : Entry In Out → Option (Attempt × Nat)
  | .heard position _ p =>
    ls[position]?.bind fun l => match l.answer p with
      | .ok () => none
      | .error _ => some (p.attempt, position)
  | _ => none

/-- Two traces that are the same but for the complaints of listeners. -/
structure Echoes (ls ls' : List (Listener In Out)) (tr tr' : List (Instant × Entry In Out)) :
    Prop where
  same : muted tr = muted tr'
  voiced : (muted tr).flatMap (voiced ls) = tr
  voiced' : (muted tr').flatMap (Trace.voiced ls') = tr'

section Echoes

variable {ls ls' : List (Listener In Out)} {tr tr' later later' : List (Instant × Entry In Out)}

theorem muted_append (tr later : List (Instant × Entry In Out)) :
    muted (tr ++ later) = muted tr ++ muted later :=
  List.filter_append tr later

theorem Echoes.append (h : Echoes ls ls' tr tr') (hlater : Echoes ls ls' later later') :
    Echoes ls ls' (tr ++ later) (tr' ++ later') := by
  refine ⟨?_, ?_, ?_⟩
  · rw [muted_append, muted_append, h.same, hlater.same]
  · rw [muted_append, List.flatMap_append, h.voiced, hlater.voiced]
  · rw [muted_append, List.flatMap_append, h.voiced', hlater.voiced']

/-- Nothing that has to do with listeners is no matter of what they answer. -/
theorem echoes_of_others (now : Instant) {entries : List (Entry In Out)}
    (h : ∀ e ∈ entries, e.isOfListeners = false) :
    Echoes ls ls' (stamped now entries) (stamped now entries) := by
  have hmuted : muted (stamped now entries) = stamped now entries := by
    refine List.filter_eq_self.mpr fun x hx => ?_
    obtain ⟨e, he, rfl⟩ := List.mem_map.mp hx
    have := h e he
    cases e <;> simp_all [Entry.isOfListeners, Entry.isComplaint, Entry.complaint?]
  have hvoiced : ∀ ls : List (Listener In Out),
      (stamped now entries).flatMap (voiced ls) = stamped now entries := by
    intro ls
    rw [stamped, List.flatMap_map, ← List.flatMap_pure_eq_map]
    refine List.flatMap_congr fun e he => ?_
    have := h e he
    cases e <;> first | rfl | cases this
  refine ⟨rfl, ?_, ?_⟩
  · rw [hmuted, hvoiced]
  · rw [hmuted, hvoiced]

/-- What a listener hears is left without its complaint. -/
theorem muted_heard (now : Instant) (p : Report In Out) (l : Listener In Out × Nat) :
    muted (stamped now (heard p l)) = [(now, .heard l.2 l.1.traceName p)] := by
  unfold heard warning
  split <;> rfl

/-- Without complaints, a report is heard by all listeners, in their order. -/
theorem muted_flatMap_heard (now : Instant) (p : Report In Out)
    (ls : List (Listener In Out × Nat)) :
    muted (stamped now (ls.flatMap (heard p))) =
      ls.map fun l => (now, .heard l.2 l.1.traceName p) := by
  induction ls with
  | nil => rfl
  | cons l ls ih =>
    rw [List.flatMap_cons, stamped_append, muted_append, muted_heard, ih, List.map_cons,
      List.singleton_append]

theorem voiced_heard (now : Instant) (p : Report In Out) {l : Listener In Out × Nat}
    (h : l ∈ ls.zipIdx) :
    voiced ls (now, .heard l.2 l.1.traceName p) = stamped now (heard p l) := by
  have hl : ls[l.2]? = some l.1 := List.mem_zipIdx_iff_getElem?.mp h
  simp only [voiced, hl, Option.elim_some]
  rfl

/-- The complaints about a report can be told from who heard it. -/
theorem flatMap_voiced_heard (now : Instant) (p : Report In Out) (ls : List (Listener In Out)) :
    (muted (stamped now (ls.zipIdx.flatMap (heard p)))).flatMap (voiced ls) =
      stamped now (ls.zipIdx.flatMap (heard p)) := by
  rw [muted_flatMap_heard, List.flatMap_map, stamped, List.map_flatMap]
  exact List.flatMap_congr fun l hl => voiced_heard now p hl

/-- Listeners that differ in their answers hear the same. -/
theorem map_heard_of_alike (h : List.Forall₂ Listener.Alike ls ls') (now : Instant)
    (p : Report In Out) (k : Nat) :
    (ls.zipIdx k).map (fun l => (now, (.heard l.2 l.1.traceName p : Entry In Out))) =
      (ls'.zipIdx k).map fun l => (now, .heard l.2 l.1.traceName p) := by
  induction h generalizing k with
  | nil => rfl
  | cons hl _ ih =>
    rw [List.zipIdx_cons, List.zipIdx_cons, List.map_cons, List.map_cons, ih]
    cases hl <;> rfl

/-- What is written of an event is the same but for complaints. -/
theorem echoes_written (h : List.Forall₂ Listener.Alike ls ls') (t : Telemetry) (now : Instant)
    (event : Event In Out) :
    Echoes ls ls' (stamped now (written t ls event)) (stamped now (written t ls' event)) := by
  have hothers : ∀ entries : List (Entry In Out), (∀ e ∈ entries, e.isOfListeners = false) →
      Echoes ls ls' (stamped now entries) (stamped now entries) := fun _ => echoes_of_others now
  have hlogged : ∀ n : Notice, n.isWarning = false →
      ∀ e ∈ (logged t n : List (Entry In Out)), e.isOfListeners = false := by
    intro n hn e he
    unfold logged at he
    split at he
    · rw [List.mem_singleton.mp he]
      cases n <;> first | rfl | cases hn
    · cases he
  have hmeasured : ∀ m : Measurement,
      ∀ e ∈ (measured t m : List (Entry In Out)), e.isOfListeners = false := by
    intro m e he
    unfold measured at he
    split at he
    · rw [List.mem_singleton.mp he]
      rfl
    · cases he
  cases event with
  | reported p =>
    refine (hothers [.race (.reported p)] (List.forall_mem_singleton.mpr rfl)).append
      ⟨?_, flatMap_voiced_heard now p ls, flatMap_voiced_heard now p ls'⟩
    show muted (stamped now (ls.zipIdx.flatMap (heard p))) =
      muted (stamped now (ls'.zipIdx.flatMap (heard p)))
    rw [muted_flatMap_heard, muted_flatMap_heard]
    exact map_heard_of_alike h now p 0
  | issued a =>
    refine hothers (if a.isHedge then _ else _) ?_
    split
    · exact List.forall_mem_append.mpr ⟨List.forall_mem_append.mpr ⟨hlogged _ rfl, hmeasured _⟩,
        List.forall_mem_singleton.mpr rfl⟩
    · exact List.forall_mem_singleton.mpr rfl
  | won a count => exact hothers (_ :: _) (List.forall_mem_cons.mpr ⟨rfl, hlogged _ rfl⟩)
  | exhausted a count =>
    exact hothers (_ :: _ ++ _) (List.forall_mem_append.mpr
      ⟨List.forall_mem_cons.mpr ⟨rfl, hmeasured _⟩, hlogged _ rfl⟩)
  | _ => exact hothers [_] (List.forall_mem_singleton.mpr rfl)

/-- What is written of events is the same but for complaints. -/
theorem echoes_flatMap_written (h : List.Forall₂ Listener.Alike ls ls') (t : Telemetry)
    (now : Instant) (events : List (Event In Out)) :
    Echoes ls ls' (stamped now (events.flatMap (written t ls)))
      (stamped now (events.flatMap (written t ls'))) := by
  induction events with
  | nil => exact ⟨rfl, rfl, rfl⟩
  | cons event events ih =>
    rw [List.flatMap_cons, List.flatMap_cons, stamped_append, stamped_append]
    exact (echoes_written h t now event).append ih

/-- A view that shows no complaint does not need them. -/
theorem filterMap_muted {α : Type} {view : Instant × Entry In Out → Option α}
    (hview : ∀ e, e.2.isComplaint = true → view e = none) (tr : List (Instant × Entry In Out)) :
    (muted tr).filterMap view = tr.filterMap view := by
  rw [muted, List.filterMap_filter]
  congr 1
  funext e
  cases he : e.2.isComplaint with
  | true => simp [hview e he]
  | false => simp

/-- There is one complaint for each report that a listener heard and did not answer. -/
theorem complaints_of_voiced (h : (muted tr).flatMap (voiced ls) = tr) :
    tr.filterMap (fun e => e.2.complaint?.map fun c => (e.1, c)) =
      tr.filterMap fun e => (unanswered? ls e.2).map fun c => (e.1, c) := by
  have hunanswered : ∀ e : Instant × Entry In Out, e.2.isComplaint = true →
      ((unanswered? ls e.2).map fun c => (e.1, c)) = none := by
    rintro ⟨t, e⟩ he
    cases e <;> first | rfl | cases he
  -- Only what was heard is voiced, by the complaint of the listener at that position.
  have hvoiced : ∀ e ∈ muted tr,
      (voiced ls e).filterMap (fun e => e.2.complaint?.map fun c => (e.1, c)) =
        ((unanswered? ls e.2).map fun c => (e.1, c)).toList := by
    rintro ⟨t, e⟩ he
    have hquiet : e.isComplaint = false := by simpa using (List.mem_filter.mp he).2
    cases e with
    | heard position name p =>
      simp only [voiced, unanswered?]
      cases ls[position]? with
      | none => rfl
      | some l =>
        simp only [Option.elim_some, Option.bind_some]
        cases l.answer p with
        | ok answer => rfl
        | error breakdown => cases breakdown <;> rfl
    | log n => cases n <;> first | rfl | cases hquiet
    | _ => rfl
  calc
    tr.filterMap (fun e => e.2.complaint?.map fun c => (e.1, c))
    _ = (muted tr).flatMap fun e =>
        (voiced ls e).filterMap fun e => e.2.complaint?.map fun c => (e.1, c) := by
      rw [← List.filterMap_flatMap, h]
    _ = (muted tr).flatMap fun e => ((unanswered? ls e.2).map fun c => (e.1, c)).toList :=
      List.flatMap_congr hvoiced
    _ = (muted tr).filterMap fun e => (unanswered? ls e.2).map fun c => (e.1, c) :=
      (List.filterMap_eq_flatMap_toList _ _).symm
    _ = tr.filterMap fun e => (unanswered? ls e.2).map fun c => (e.1, c) :=
      filterMap_muted hunanswered tr

end Echoes

/-! ## Estimators -/

section Estimators

variable {ls ls' : List (Listener In Out)}

/-- Estimators learn the same from listeners that are alike. -/
theorem estimators_tell (h : List.Forall₂ Listener.Alike ls ls') (now : Instant)
    (p : Report In Out) (position : Nat) (es : Estimators) :
    (tell now p ls position es).2 = (tell now p ls' position es).2 := by
  induction h generalizing position es with
  | nil => rfl
  | cons hl _ ih =>
    simp only [tell]
    cases hl with
    | callback name answer answer' => exact ih _ _
    | estimator name => exact ih _ _

/-- What is learned does not depend on what listeners answer. -/
theorem estimators_ofEvents (h : List.Forall₂ Listener.Alike ls ls') (t : Telemetry)
    (now : Instant) (events : List (Event In Out)) (es : Estimators) :
    (ofEvents t ls now events es).2 = (ofEvents t ls' now events es).2 := by
  have henter : ∀ event es, (enter t ls now es event).2 = (enter t ls' now es event).2 := by
    intro event es
    cases event with
    | reported p => exact estimators_tell h now p 0 es
    | issued a =>
      unfold enter
      dsimp only
    | _ => rfl
  induction events generalizing es with
  | nil => rfl
  | cons event events ih => simp only [ofEvents, henter, ih]

end Estimators

end Trace

end RequestHedging
