import RequestHedging.Resolution

/-!
# Route registries

A registry resolves requests by a key taken from them.  A request on a registered
route gets the policy of the route, or the global one if the route has none; other
requests get the global policy, and without one they are not hedged.  Listeners add
up: the global ones first, then those of the route.

The first request makes a table of the resolutions of all routes, and every later
change drops it.  `resolve` goes through the table; `lookup` says directly what it
finds there.
-/

namespace RequestHedging

structure Route (In Out : Type) where
  policy : Option (Policy In)
  listeners : List (Listener In Out)

namespace Route

variable {In Out : Type}

def ofPolicy (p : Policy In) : Route In Out := ⟨some p, []⟩

def inheriting : Route In Out := ⟨none, []⟩

def addListener (r : Route In Out) (l : Listener In Out) : Route In Out :=
  { r with listeners := r.listeners ++ [l] }

def describe (r : Route In Out) : String :=
  Text.described "Route"
    [("has_policy", Text.describedBool r.policy.isSome),
     ("listeners", String.ofList (Text.numeral r.listeners.length))] .all

end Route

/-- The resolutions of all routes, and that of all other requests. -/
structure RouteTable (Key In Out : Type) where
  fallback : Resolution In Out
  routes : List (Key × Resolution In Out)

structure RouteRegistry (Key In Out : Type) where
  /-- The key of the route of a request, if it is on one; taking it may crash. -/
  key : In → Except Crash (Option Key)
  globalPolicy : Option (Policy In)
  globalListeners : List (Listener In Out)
  routes : List (Key × Route In Out)
  table : Option (RouteTable Key In Out)

namespace RouteRegistry

variable {Key In Out : Type}

def new (key : In → Except Crash (Option Key)) : RouteRegistry Key In Out :=
  ⟨key, none, [], [], none⟩

/-- Sets the policy of requests whose route has none. -/
def setGlobalPolicy (r : RouteRegistry Key In Out) (p : Policy In) : RouteRegistry Key In Out :=
  { r with globalPolicy := some p, table := none }

/-- Adds a listener told about every request, before those of its route. -/
def addGlobalListener (r : RouteRegistry Key In Out) (l : Listener In Out) :
    RouteRegistry Key In Out :=
  { r with globalListeners := r.globalListeners ++ [l], table := none }

variable [DecidableEq Key]

/-- Puts a value under a key, in the place of the value it had. -/
def assign {α : Type} (key : Key) (value : α) : List (Key × α) → List (Key × α)
  | [] => [(key, value)]
  | (k, v) :: rest => if k = key then (k, value) :: rest else (k, v) :: assign key value rest

def valueAt? {α : Type} (key : Key) (pairs : List (Key × α)) : Option α :=
  (pairs.find? fun p => p.1 = key).map Prod.snd

/-- Registers a route under a key, in place of the one registered there before. -/
def setRoute (r : RouteRegistry Key In Out) (key : Key) (route : Route In Out) :
    RouteRegistry Key In Out :=
  { r with routes := assign key route r.routes, table := none }

/-- What governs requests on a route with these settings of its own. -/
def governing (r : RouteRegistry Key In Out) (route : Option (Route In Out)) :
    Resolution In Out :=
  let fallback := r.globalPolicy.getD .disabled
  match route with
  | none => ⟨fallback, r.globalListeners⟩
  | some own => ⟨own.policy.getD fallback, r.globalListeners ++ own.listeners⟩

/-- What governs requests with a key, without the table. -/
def lookup (r : RouteRegistry Key In Out) (key : Option Key) : Resolution In Out :=
  r.governing (key.bind fun k => valueAt? k r.routes)

def makeTable (r : RouteRegistry Key In Out) : RouteTable Key In Out where
  fallback := r.governing none
  routes := r.routes.map fun (k, route) => (k, r.governing (some route))

def prepared (r : RouteRegistry Key In Out) : RouteRegistry Key In Out :=
  { r with table := some (r.table.getD r.makeTable) }

/-- What governs a request, by the table, and the registry with the table made. -/
def resolve (r : RouteRegistry Key In Out) (input : In) :
    Except Crash (Resolution In Out) × RouteRegistry Key In Out :=
  let table := r.table.getD r.makeTable
  ((r.key input).map fun key => (key.bind fun k => valueAt? k table.routes).getD table.fallback,
    r.prepared)

def describe (r : RouteRegistry Key In Out) (showKey : Key → String) : String :=
  Text.described "RouteRegistry"
    [("has_global_policy", Text.describedBool r.globalPolicy.isSome),
     ("global_listeners", String.ofList (Text.numeral r.globalListeners.length)),
     ("routes", "[" ++ ", ".intercalate (r.routes.map fun p => showKey p.1) ++ "]")] .chosen

end RouteRegistry

end RequestHedging
