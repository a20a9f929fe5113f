import Mathlib.Data.List.Basic
import Mathlib.Data.List.Induction
import RequestHedging.Service

/-!
# Settings in any order

Settings are made one after another, and each changes the layer that the ones before left.  What
comes of them all is said at once by `Layer.settled`: of each kind of setting the last one counts,
and of listeners all, in the order in which they were added.  So it does not matter how settings of
different kinds are mixed, nor how often one is made again, and policies and listeners do not matter
at all beside a resolver (`Layer.orderFree`).
-/

namespace RequestHedging

variable {In Out : Type}

namespace Setting

inductive Kind
  | copy | recovery | policy | listener | resolver | onHedge | handleUnavailable | spawner
  | deadline | enabled
deriving DecidableEq

abbrev Kind.Value (In Out : Type) : Kind → Type
  | copy => In → Attempt → Except Crash (In × Option In)
  | recovery => Out → Attempt → Except Crash Recovery
  | policy => Policy In
  | listener => Listener In Out
  | resolver => In → Except Crash (Resolution In Out)
  | onHedge => Attempt → Duration → Except Crash Unit
  | handleUnavailable => Bool
  | spawner => Spawner
  | deadline => Deadline Out
  | enabled => In → Bool

def kind : Setting In Out → Kind
  | copy _ => .copy
  | recovery _ => .recovery
  | policy _ => .policy
  | listener _ => .listener
  | resolver _ => .resolver
  | onHedge _ => .onHedge
  | handleUnavailable _ => .handleUnavailable
  | spawner _ => .spawner
  | deadline _ => .deadline
  | enabled _ => .enabled

def as? : (k : Kind) → Setting In Out → Option (k.Value In Out)
  | .copy, copy f => some f
  | .recovery, recovery f => some f
  | .policy, policy p => some p
  | .listener, listener l => some l
  | .resolver, resolver f => some f
  | .onHedge, onHedge f => some f
  | .handleUnavailable, handleUnavailable b => some b
  | .spawner, spawner s => some s
  | .deadline, deadline d => some d
  | .enabled, enabled f => some f
  | _, _ => none

theorem isSome_as?_iff (k : Kind) (s : Setting In Out) : (s.as? k).isSome = true ↔ s.kind = k := by
  cases s <;> cases k <;> simp [as?, kind]

theorem as?_eq_none {k : Kind} {s : Setting In Out} (h : s.kind ≠ k) : s.as? k = none := by
  rwa [← Option.not_isSome_iff_eq_none, isSome_as?_iff]

def all (k : Kind) (settings : List (Setting In Out)) : List (k.Value In Out) :=
  settings.filterMap (as? k)

def latest (k : Kind) (settings : List (Setting In Out)) : Option (k.Value In Out) :=
  (all k settings).getLast?

variable {k : Kind} {settings : List (Setting In Out)}

@[simp] theorem all_concat (k : Kind) (settings : List (Setting In Out)) (s : Setting In Out) :
    all k (settings ++ [s]) = all k settings ++ (s.as? k).toList := by
  rw [all, List.filterMap_append]
  cases h : s.as? k <;> simp [all, h]

/-- A later setting replaces an earlier one of its kind. -/
@[simp] theorem latest_concat (k : Kind) (settings : List (Setting In Out)) (s : Setting In Out) :
    latest k (settings ++ [s]) = (s.as? k).or (latest k settings) := by
  rw [latest, all_concat]
  cases h : s.as? k <;> simp [latest]

theorem mem_all_iff {value : k.Value In Out} :
    value ∈ all k settings ↔ ∃ s ∈ settings, s.as? k = some value :=
  List.mem_filterMap

/-- There is a last setting of a kind if there is one at all. -/
theorem isSome_latest_iff : (latest k settings).isSome = true ↔ ∃ s ∈ settings, s.kind = k := by
  rw [latest, List.getLast?_isSome]
  constructor
  · intro h
    obtain ⟨value, hvalue⟩ := List.exists_mem_of_ne_nil _ h
    obtain ⟨s, hs, hsome⟩ := mem_all_iff.mp hvalue
    exact ⟨s, hs, (isSome_as?_iff k s).mp (hsome ▸ rfl)⟩
  · rintro ⟨s, hs, hkind⟩
    obtain ⟨value, hsome⟩ := Option.isSome_iff_exists.mp ((isSome_as?_iff k s).mpr hkind)
    exact List.ne_nil_of_mem (mem_all_iff.mpr ⟨s, hs, hsome⟩)

/-- Settings that are left out are not missed by other kinds. -/
theorem all_filter {p : Setting In Out → Bool} (h : ∀ s, s.kind = k → p s = true)
    (settings : List (Setting In Out)) : all k (settings.filter p) = all k settings := by
  rw [all, List.filterMap_filter]
  refine List.filterMap_congr fun s _ => ?_
  by_cases hkind : s.kind = k
  · rw [if_pos (h s hkind)]
  · rw [as?_eq_none hkind, ite_self]

/-- Of two settings of different kinds, at most one is of a given kind. -/
theorem all_swap {s s' : Setting In Out} (before after : List (Setting In Out))
    (h : s.kind ≠ s'.kind) :
    all k (before ++ s' :: s :: after) = all k (before ++ s :: s' :: after) := by
  have hone : s.as? k = none ∨ s'.as? k = none := by
    by_cases hs : s.kind = k
    · exact .inr (as?_eq_none fun hs' => h (hs.trans hs'.symm))
    · exact .inl (as?_eq_none hs)
  simp only [all, List.filterMap_append, List.filterMap_cons]
  rcases hone with hs | hs
  · simp only [hs]
  · simp only [hs]

end Setting

namespace Layer

open Setting

/-- The layer that settings come to: the last one of each kind counts, and all listeners. -/
def settled (t : Telemetry) (settings : List (Setting In Out)) : Layer In Out where
  resolution :=
    { policy := (latest .policy settings).getD (.fixed .standard)
      listeners := all .listener settings }
  resolver := latest .resolver settings
  copy := latest .copy settings
  recovery := latest .recovery settings
  onHedge := latest .onHedge settings
  handleUnavailable := (latest .handleUnavailable settings).getD false
  spawner := latest .spawner settings
  deadline := latest .deadline settings
  enabled := (latest .enabled settings).getD fun _ => true
  telemetry := t

/-- One more setting changes the layer as it should. -/
theorem set_settled (t : Telemetry) (settings : List (Setting In Out)) (s : Setting In Out) :
    (settled t settings).set s = settled t (settings ++ [s]) := by
  cases s <;> simp [set, settled, as?, Resolution.addListener]

/-- Making settings comes to the last one of each kind. -/
theorem setAll_new (t : Telemetry) (settings : List (Setting In Out)) :
    (new t).setAll settings = settled t settings := by
  induction settings using List.reverseRecOn with
  | nil => rfl
  | append_singleton settings s ih =>
    have hlast : (new t).setAll (settings ++ [s]) = ((new t).setAll settings).set s :=
      List.foldl_concat _ _ _ _
    rw [hlast, ih, set_settled]

/-- Of listeners all count, in order, and of other settings the last. -/
theorem settled_congr (t : Telemetry) {settings settings' : List (Setting In Out)}
    (hlisteners : all .listener settings' = all .listener settings)
    (hlatest : ∀ k ≠ .listener, latest k settings' = latest k settings) :
    settled t settings' = settled t settings := by
  simp only [settled, hlisteners, hlatest, ne_eq, reduceCtorEq, not_false_eq_true]

/-- Beside a resolver, the policy and the listeners of a layer are not used. -/
theorem wrap?_of_resolver {l : Layer In Out} (h : l.resolver.isSome = true)
    (resolution : Resolution In Out) (serve : In → Nat → Race.Execution Out) :
    { l with resolution := resolution }.wrap? serve = l.wrap? serve := by
  obtain ⟨resolver, hresolver⟩ := Option.isSome_iff_exists.mp h
  simp only [wrap?, hresolver, Option.getD_some]

/-- What a service uses that was set up by settings and wraps an inner service. -/
structure Uses (t : Telemetry) (serve : In → Nat → Race.Execution Out)
    (settings : List (Setting In Out)) (svc : Service In Out) : Prop where
  copy : latest .copy settings = some svc.callbacks.copy
  recovery : latest .recovery settings = some svc.callbacks.recovery
  handleUnavailable :
    svc.callbacks.handleUnavailable = (latest .handleUnavailable settings).getD false
  onHedge : svc.callbacks.onHedge = (latest .onHedge settings).getD fun _ _ => .ok ()
  serve : svc.callbacks.serve = serve
  deadline : svc.deadline = latest .deadline settings
  spawner : svc.spawner = latest .spawner settings
  enabled : svc.enabled = (latest .enabled settings).getD fun _ => true
  telemetry : svc.telemetry = t
  /-- The last resolver governs every request, or else the last policy and all listeners do. -/
  governs : ∀ request, svc.resolver request =
    match latest .resolver settings with
    | some resolver => resolver request
    | none => .ok ⟨(latest .policy settings).getD (.fixed .standard), all .listener settings⟩

/-- The order of settings of different kinds does not matter. -/
structure OrderFree (t : Telemetry) (serve : In → Nat → Race.Execution Out)
    (settings : List (Setting In Out)) : Prop where
  ready : (((new t).setAll settings).wrap? serve).isSome = true ↔
    (∃ s ∈ settings, s.kind = .copy) ∧ ∃ s ∈ settings, s.kind = .recovery
  uses : ∀ svc, ((new t).setAll settings).wrap? serve = some svc → Uses t serve settings svc
  /-- Beside a resolver, policies and listeners might as well be left out. -/
  overruled : (∃ s ∈ settings, s.kind = .resolver) →
    ((new t).setAll (settings.filter fun s => s.kind ≠ .policy ∧ s.kind ≠ .listener)).wrap? serve =
      ((new t).setAll settings).wrap? serve
  /-- Only the order within each kind is left, and only of listeners does it matter for more than
  the last. -/
  mixed : ∀ settings', all .listener settings' = all .listener settings →
    (∀ k ≠ .listener, latest k settings' = latest k settings) →
    ((new t).setAll settings').wrap? serve = ((new t).setAll settings).wrap? serve
  swapped : ∀ before s s' after, settings = before ++ s :: s' :: after → s.kind ≠ s'.kind →
    ((new t).setAll (before ++ s' :: s :: after)).wrap? serve =
      ((new t).setAll settings).wrap? serve

section OrderFree

variable (t : Telemetry) (serve : In → Nat → Race.Execution Out) (settings : List (Setting In Out))

/-- A layer is ready once it can copy inputs and classify outputs. -/
theorem isSome_wrap?_iff (l : Layer In Out) :
    (l.wrap? serve).isSome = true ↔ l.copy.isSome = true ∧ l.recovery.isSome = true := by
  unfold wrap?
  cases l.copy <;> cases l.recovery <;> simp

/-- A service uses what its settings say. -/
theorem uses_settled {svc : Service In Out} (h : (settled t settings).wrap? serve = some svc) :
    Uses t serve settings svc := by
  unfold wrap? at h
  split at h
  · rename_i copy recovery hcopy hrecovery
    cases h
    refine ⟨hcopy, hrecovery, rfl, rfl, rfl, rfl, rfl, rfl, rfl, fun request => ?_⟩
    show (latest .resolver settings).getD _ request = _
    cases latest .resolver settings <;> rfl
  · cases h

/-- A resolver overrules policies and listeners. -/
theorem overruled_settled (h : (latest .resolver settings).isSome = true) :
    (settled t (settings.filter fun s => s.kind ≠ .policy ∧ s.kind ≠ .listener)).wrap? serve =
      (settled t settings).wrap? serve := by
  have hlatest : ∀ k, k ≠ .policy → k ≠ .listener →
      latest k (settings.filter fun s => s.kind ≠ .policy ∧ s.kind ≠ .listener) =
        latest k settings := by
    intro k hpolicy hlistener
    rw [latest, latest, all_filter]
    rintro s rfl
    exact decide_eq_true ⟨hpolicy, hlistener⟩
  have hsettled :
      settled t (settings.filter fun s => s.kind ≠ .policy ∧ s.kind ≠ .listener) =
        { settled t settings with resolution := Layer.resolution (settled t
            (settings.filter fun s => s.kind ≠ .policy ∧ s.kind ≠ .listener)) } := by
    simp only [settled, hlatest, ne_eq, reduceCtorEq, not_false_eq_true]
  rw [hsettled]
  exact wrap?_of_resolver h _ serve

/-- However settings are mixed, the layer they come to is the same. -/
theorem orderFree_setAll : OrderFree t serve settings := by
  refine ⟨?_, ?_, ?_, ?_, ?_⟩
  · rw [isSome_wrap?_iff, setAll_new, ← isSome_latest_iff, ← isSome_latest_iff]
    rfl
  · intro svc h
    rw [setAll_new] at h
    exact uses_settled t serve settings h
  · intro h
    rw [setAll_new, setAll_new]
    exact overruled_settled t serve settings (isSome_latest_iff.mpr h)
  · intro settings' hlisteners hlatest
    rw [setAll_new, setAll_new, settled_congr t hlisteners hlatest]
  · rintro before s s' after rfl hkind
    have hall := fun k => all_swap (k := k) before after hkind
    rw [setAll_new, setAll_new,
      settled_congr t (hall _) fun k _ => congrArg List.getLast? (hall k)]

end OrderFree

/-- Neither policies nor listeners are lost to those set later. -/
example (t : Telemetry) (l l' : Listener In Out) (p p' : Policy In) :
    ((new t).setAll [.listener l, .policy p, .listener l', .policy p']).resolution =
      ⟨p', [l, l']⟩ :=
  rfl

end Layer

end RequestHedging
