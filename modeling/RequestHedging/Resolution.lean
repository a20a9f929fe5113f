import RequestHedging.Listener

/-!
# Resolutions

The policy and the listeners that govern one request.
-/

namespace RequestHedging

/-- A policy and the listeners told about the attempts it schedules, in order. -/
structure Resolution (In Out : Type) where
  policy : Policy In
  listeners : List (Listener In Out)

namespace Resolution

variable {In Out : Type}

def ofPolicy (p : Policy In) : Resolution In Out := ⟨p, []⟩

def disabled : Resolution In Out := ofPolicy .disabled

def addListener (r : Resolution In Out) (l : Listener In Out) : Resolution In Out :=
  { r with listeners := r.listeners ++ [l] }

def describe (r : Resolution In Out) : String :=
  Text.described "Resolution"
    [("listeners", String.ofList (Text.numeral r.listeners.length))] .chosen

end Resolution

end RequestHedging
