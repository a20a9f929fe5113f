/-!
# Failures

Policies, listeners and configurations fail with a cause or without one.  A failure
is shown by its cause, and by its own name if it has none.
-/

namespace RequestHedging

/-- Why something failed: in words, or because of another error, known by its text. -/
inductive Cause
  | words (text : String)
  | error (text : String)
deriving DecidableEq

def Cause.text : Cause → String
  | .words t => t
  | .error t => t

def Cause.source : Cause → Option String
  | .words _ => none
  | .error t => some t

inductive Party
  | policy
  | listener
  | config
deriving DecidableEq

def Party.failureName : Party → String
  | .policy => "PolicyError"
  | .listener => "ListenerError"
  | .config => "ConfigError"

/-- A failure of a policy, a listener or a configuration. -/
structure Failure where
  party : Party
  cause : Option Cause
deriving DecidableEq

namespace Failure

def because (party : Party) (text : String) : Failure := ⟨party, some (.words text)⟩

def unexplained (party : Party) : Failure := ⟨party, none⟩

def message (f : Failure) : String := (f.cause.map Cause.text).getD f.party.failureName

def source (f : Failure) : Option String := f.cause.bind Cause.source

end Failure

/-- A callback broke down instead of answering, with this message. -/
structure Crash where
  message : String
deriving DecidableEq, Inhabited

end RequestHedging
