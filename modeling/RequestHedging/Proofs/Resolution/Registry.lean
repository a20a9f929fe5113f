import Mathlib.Data.List.Induction
import RequestHedging.Resolution.Registry

/-!
# What a registry resolves to

A registry answers through a table that it makes when it is asked and drops when it is changed.
Its answers can be read off the calls made to it, without any table: `governs` looks for the last
policy, the last route of a key, and all global listeners.  `resolve_run` says that these are the
answers, and what they do not depend on.

That a table there is is always that of the routes as they are is part of what every call keeps
(`Follows.step`).
-/

namespace RequestHedging

variable {Key In Out : Type}

def Route.built (policy : Option (Policy In)) (listeners : List (Listener In Out)) :
    Route In Out :=
  listeners.foldl Route.addListener (policy.elim .inheriting .ofPolicy)

/-- Listeners of a route stand in the order in which they were added. -/
theorem Route.built_eq (policy : Option (Policy In)) (listeners : List (Listener In Out)) :
    Route.built policy listeners = ⟨policy, listeners⟩ := by
  have hadd : ∀ (route : Route In Out) (ls : List (Listener In Out)),
      ls.foldl Route.addListener route = ⟨route.policy, route.listeners ++ ls⟩ := by
    intro route ls
    induction ls generalizing route with
    | nil => rw [List.foldl_nil, List.append_nil]
    | cons l ls ih =>
      rw [List.foldl_cons, ih, addListener, List.append_assoc]
      rfl
  rw [built, hadd]
  cases policy <;> rfl

namespace RouteRegistry

inductive Use (Key In Out : Type) where
  | globalPolicy (policy : Policy In)
  | globalListener (listener : Listener In Out)
  | route (key : Key) (policy : Option (Policy In)) (listeners : List (Listener In Out))
  | resolve (request : In)

namespace Use

def changes : Use Key In Out → Bool
  | resolve _ => false
  | _ => true

def policy? : Use Key In Out → Option (Policy In)
  | globalPolicy policy => some policy
  | _ => none

def listener? : Use Key In Out → Option (Listener In Out)
  | globalListener listener => some listener
  | _ => none

def route? [DecidableEq Key] (key : Key) : Use Key In Out → Option (Route In Out)
  | route k policy listeners => if k = key then some ⟨policy, listeners⟩ else none
  | _ => none

end Use

section Run

variable [DecidableEq Key]

def step (r : RouteRegistry Key In Out) : Use Key In Out → RouteRegistry Key In Out
  | .globalPolicy policy => r.setGlobalPolicy policy
  | .globalListener listener => r.addGlobalListener listener
  | .route key policy listeners => r.setRoute key (.built policy listeners)
  | .resolve request => (r.resolve request).2

def run (key : In → Except Crash (Option Key)) (uses : List (Use Key In Out)) :
    RouteRegistry Key In Out :=
  uses.foldl step (new key)

def answer (r : RouteRegistry Key In Out) (request : In) : Except Crash (Resolution In Out) :=
  (r.resolve request).1

end Run

/-! ## Answers read off the calls -/

def last? {α : Type} (view : Use Key In Out → Option α) (uses : List (Use Key In Out)) :
    Option α :=
  (uses.filterMap view).getLast?

/-- The global listeners, in the order in which they were added. -/
def everywhere (uses : List (Use Key In Out)) : List (Listener In Out) :=
  uses.filterMap Use.listener?

def governs [DecidableEq Key] (uses : List (Use Key In Out)) (key : Option Key) :
    Resolution In Out :=
  let route := key.bind fun k => last? (Use.route? k) uses
  { policy := (route.bind Route.policy).getD ((last? Use.policy? uses).getD .disabled)
    listeners := everywhere uses ++ route.elim [] Route.listeners }

/-- The last policy and the last route of each key are the same, and so are the global
listeners. -/
structure Settled [DecidableEq Key] (uses uses' : List (Use Key In Out)) : Prop where
  policy : last? Use.policy? uses = last? Use.policy? uses'
  listeners : everywhere uses = everywhere uses'
  routes : ∀ k, last? (Use.route? k) uses = last? (Use.route? k) uses'

section Last

variable {α : Type} {view : Use Key In Out → Option α} {uses uses' : List (Use Key In Out)}

theorem last?_append (view : Use Key In Out → Option α) (uses uses' : List (Use Key In Out)) :
    last? view (uses ++ uses') = (last? view uses').or (last? view uses) := by
  rw [last?, List.filterMap_append, List.getLast?_append]
  rfl

theorem last?_append_of_some {a : α} (h : last? view uses' = some a) :
    last? view (uses ++ uses') = some a := by
  rw [last?_append, h]
  rfl

/-- The last thing shown is that of the last use, if it shows one. -/
theorem last?_snoc (view : Use Key In Out → Option α) (uses : List (Use Key In Out))
    (use : Use Key In Out) : last? view (uses ++ [use]) = (view use).or (last? view uses) := by
  have hone : last? view [use] = view use := by
    rw [last?, List.filterMap_cons]
    cases view use <;> rfl
  rw [last?_append, hone]

theorem everywhere_append (uses uses' : List (Use Key In Out)) :
    everywhere (uses ++ uses') = everywhere uses ++ everywhere uses' :=
  List.filterMap_append

/-- Being asked is no change. -/
theorem filterMap_filter_changes (hview : ∀ request, view (.resolve request) = none)
    (uses : List (Use Key In Out)) :
    (uses.filter Use.changes).filterMap view = uses.filterMap view := by
  induction uses with
  | nil => rfl
  | cons use uses ih =>
    cases use with
    | resolve request => exact ih.trans (List.filterMap_cons_none (hview request)).symm
    | _ => exact (List.filterMap_cons.trans (by rw [ih])).trans List.filterMap_cons.symm

/-- What shows nothing can be left out. -/
theorem filterMap_middle_none {use : Use Key In Out} (h : view use = none)
    (before after : List (Use Key In Out)) :
    (before ++ use :: after).filterMap view = (before ++ after).filterMap view := by
  rw [List.filterMap_append, List.filterMap_cons_none h, List.filterMap_append]

end Last

section Settled

variable [DecidableEq Key] {uses uses' : List (Use Key In Out)}

/-- What governs requests depends on the last settings alone. -/
theorem Settled.governs_eq (h : Settled uses uses') : governs uses = governs uses' := by
  funext key
  simp only [governs, h.policy, h.listeners, h.routes]

/-- Questions leave the settings as they are. -/
theorem settled_filter_changes (uses : List (Use Key In Out)) :
    Settled uses (uses.filter Use.changes) where
  policy := congrArg List.getLast? (filterMap_filter_changes (fun _ => rfl) uses).symm
  listeners := (filterMap_filter_changes (fun _ => rfl) uses).symm
  routes := fun _ => congrArg List.getLast? (filterMap_filter_changes (fun _ => rfl) uses).symm

/-- Of two routes registered under a key only the later one counts. -/
theorem settled_replaced (before middle after : List (Use Key In Out)) (k : Key)
    (policy policy' : Option (Policy In)) (ls ls' : List (Listener In Out)) :
    Settled (before ++ .route k policy ls :: (middle ++ .route k policy' ls' :: after))
      (before ++ (middle ++ .route k policy' ls' :: after)) where
  policy := congrArg List.getLast? (filterMap_middle_none rfl _ _)
  listeners := filterMap_middle_none rfl _ _
  routes := by
    intro k'
    by_cases hk : k = k'
    · subst hk
      obtain ⟨route, hroute⟩ : ∃ route,
          last? (Use.route? k) (middle ++ .route k policy' ls' :: after) = some route := by
        rw [List.append_cons, last?_append, last?_snoc, Use.route?, if_pos rfl]
        cases last? (Use.route? k) after with
        | none => exact ⟨_, rfl⟩
        | some route => exact ⟨route, rfl⟩
      rw [List.append_cons, last?_append_of_some hroute, last?_append_of_some hroute]
    · exact congrArg List.getLast? (filterMap_middle_none (if_neg hk) _ _)

end Settled

/-! ## Values under keys -/

section Values

variable [DecidableEq Key] {α β : Type} {key k : Key}

theorem valueAt?_cons (key k : Key) (v : α) (pairs : List (Key × α)) :
    valueAt? key ((k, v) :: pairs) = if k = key then some v else valueAt? key pairs := by
  by_cases h : k = key
  · simp [valueAt?, h]
  · simp [valueAt?, h]

/-- Under the key is the value put there, and under other keys what was there. -/
theorem valueAt?_assign (key k : Key) (value : α) (pairs : List (Key × α)) :
    valueAt? k (assign key value pairs) = if key = k then some value else valueAt? k pairs := by
  induction pairs with
  | nil => rw [assign, valueAt?_cons]
  | cons p pairs ih =>
    obtain ⟨k', v⟩ := p
    by_cases hk' : k' = key
    · subst hk'
      rw [assign, if_pos rfl, valueAt?_cons, valueAt?_cons]
      split <;> rfl
    · rw [assign, if_neg hk', valueAt?_cons, ih, valueAt?_cons]
      by_cases hk : k' = k
      · rw [if_pos hk, if_pos hk, if_neg fun h => hk' (hk.trans h.symm)]
      · rw [if_neg hk, if_neg hk]

theorem valueAt?_map (f : α → β) (key : Key) (pairs : List (Key × α)) :
    valueAt? key (pairs.map fun p => (p.1, f p.2)) = (valueAt? key pairs).map f := by
  induction pairs with
  | nil => rfl
  | cons p pairs ih =>
    rw [List.map_cons, valueAt?_cons, ih, valueAt?_cons]
    split <;> rfl

end Values

/-! ## What every call keeps -/

section Follows

variable [DecidableEq Key] {key : In → Except Crash (Option Key)} {uses : List (Use Key In Out)}
  {r : RouteRegistry Key In Out}

/-- The table, if there is one, is that of the routes as they are. -/
def UpToDate (r : RouteRegistry Key In Out) : Prop :=
  ∀ table, r.table = some table → table = r.makeTable

/-- Through a table that is up to date a registry finds what it looks up directly. -/
theorem UpToDate.answer_eq (h : r.UpToDate) (request : In) :
    r.answer request = (r.key request).map r.lookup := by
  have htable : r.table.getD r.makeTable = r.makeTable := by
    cases htable : r.table with
    | none => rfl
    | some table => exact h table htable
  have hfound : ∀ found : Option Key,
      ((found.bind fun k => valueAt? k r.makeTable.routes).getD r.makeTable.fallback) =
        r.lookup found := by
    intro found
    cases found with
    | none => rfl
    | some k =>
      have hroutes : valueAt? k r.makeTable.routes =
          (valueAt? k r.routes).map fun route => r.governing (some route) :=
        valueAt?_map (fun route => r.governing (some route)) k r.routes
      simp only [Option.bind_some, lookup]
      rw [hroutes]
      cases valueAt? k r.routes <;> rfl
  rw [answer, resolve]
  dsimp only
  rw [htable, funext hfound]

structure Follows (key : In → Except Crash (Option Key)) (uses : List (Use Key In Out))
    (r : RouteRegistry Key In Out) : Prop where
  key_eq : r.key = key
  policy : r.globalPolicy = last? Use.policy? uses
  listeners : r.globalListeners = everywhere uses
  routes : ∀ k, valueAt? k r.routes = last? (Use.route? k) uses
  upToDate : r.UpToDate

theorem follows_new (key : In → Except Crash (Option Key)) :
    Follows key [] (new key : RouteRegistry Key In Out) where
  key_eq := rfl
  policy := rfl
  listeners := rfl
  routes := fun _ => rfl
  upToDate := by rintro table ⟨⟩

/-- Each use keeps this: changes drop the table, and asking makes one that is up to date. -/
theorem Follows.step (h : Follows key uses r) (use : Use Key In Out) :
    Follows key (uses ++ [use]) (r.step use) := by
  obtain ⟨hkey, hpolicy, hlisteners, hroutes, htable⟩ := h
  refine ⟨?_, ?_, ?_, ?_, ?_⟩
  · cases use <;> exact hkey
  · rw [last?_snoc]
    cases use with
    | globalPolicy policy => rfl
    | _ => exact hpolicy
  · rw [everywhere_append]
    cases use with
    | globalListener listener => exact congrArg (· ++ [listener]) hlisteners
    | _ => exact hlisteners.trans (List.append_nil _).symm
  · intro k
    rw [last?_snoc]
    cases use with
    | route k' policy ls =>
      rw [RouteRegistry.step, setRoute, valueAt?_assign, Route.built_eq, hroutes, Use.route?]
      split <;> rfl
    | _ => exact hroutes k
  · cases use with
    | resolve request =>
      intro table hmade
      obtain rfl : r.table.getD r.makeTable = table := Option.some.inj hmade
      cases hold : r.table with
      | none => rfl
      | some table => exact htable table hold
    | _ => rintro table ⟨⟩

/-- A registry is as the uses left it, whatever they are. -/
theorem follows_run (key : In → Except Crash (Option Key)) (uses : List (Use Key In Out)) :
    Follows key uses (run key uses) := by
  induction uses using List.reverseRecOn with
  | nil => exact follows_new key
  | append_singleton uses use ih =>
    rw [run, List.foldl_append]
    exact ih.step use

/-- What is looked up directly can be read off the uses. -/
theorem Follows.lookup_eq (h : Follows key uses r) : r.lookup = governs uses := by
  funext found
  have hroute : (found.bind fun k => valueAt? k r.routes) =
      found.bind fun k => last? (Use.route? k) uses :=
    congrArg found.bind (funext h.routes)
  rw [lookup, governs, hroute]
  cases found.bind fun k => last? (Use.route? k) uses with
  | none => simp [governing, h.policy, h.listeners]
  | some route => simp [governing, h.policy, h.listeners]

/-- A registry answers what governs the key of the request. -/
theorem answer_run (key : In → Except Crash (Option Key)) (uses : List (Use Key In Out))
    (request : In) : (run key uses).answer request = (key request).map (governs uses) := by
  have h := follows_run key uses
  rw [h.upToDate.answer_eq, h.lookup_eq, h.key_eq]

end Follows

/-! ## Answers -/

/-- What a registry answers after uses, and what its answers do not depend on. -/
structure Resolves [DecidableEq Key] (key : In → Except Crash (Option Key))
    (uses : List (Use Key In Out)) : Prop where
  answer : ∀ request, (run key uses).answer request = (key request).map (governs uses)
  /-- It makes no difference when the registry was asked before. -/
  asked : ∀ request, (run key uses).answer request =
    (run key (uses.filter Use.changes)).answer request
  /-- A route that was replaced leaves no trace. -/
  replaced : ∀ (before middle after : List (Use Key In Out)) (k : Key)
    (policy policy' : Option (Policy In)) (ls ls' : List (Listener In Out)),
    uses = before ++ .route k policy ls :: (middle ++ .route k policy' ls' :: after) →
    ∀ request, (run key uses).answer request =
      (run key (before ++ (middle ++ .route k policy' ls' :: after))).answer request
  /-- Only the last policy, the last route of each key and the global listeners matter. -/
  settled : ∀ uses' : List (Use Key In Out), Settled uses uses' →
    ∀ request, (run key uses).answer request = (run key uses').answer request

/-- The answers of a registry are those of its settings, and its table is not seen in them. -/
theorem resolve_run [DecidableEq Key] (key : In → Except Crash (Option Key))
    (uses : List (Use Key In Out)) : Resolves key uses := by
  have hsettled : ∀ uses' : List (Use Key In Out), Settled uses uses' →
      ∀ request, (run key uses).answer request = (run key uses').answer request := by
    intro uses' h request
    rw [answer_run, answer_run, h.governs_eq]
  refine ⟨answer_run key uses, hsettled _ (settled_filter_changes uses), ?_, hsettled⟩
  rintro before middle after k policy policy' ls ls' rfl
  exact hsettled _ (settled_replaced before middle after k policy policy' ls ls')

end RouteRegistry

end RequestHedging
