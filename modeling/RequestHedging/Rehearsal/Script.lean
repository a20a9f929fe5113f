import RequestHedging.Service

/-!
# Scripts

In a rehearsal a hedged service runs on a clock moved by hand, around an inner service
that follows a script.  Each request brings its own part of the script: a plan for
every call made for it.  Here are those requests and outputs, and the callbacks,
policies and listeners that play along; each of them can be told to fail.
-/

namespace RequestHedging.Rehearsal

/-- How one call of the inner service goes. -/
structure Plan where
  /-- The kind of the output. -/
  kind : String
  /-- The body of the output; by default it names the request and the call. -/
  body : Option String
  wait : Race.Wait
  /-- Whether the inner service breaks down instead of answering. -/
  crashes : Bool

structure Request where
  id : Nat
  route : Option String
  tag : String
  plans : List Plan
  /-- The index of the attempt that this is the input of, once it was made for one. -/
  attempt : UInt32
  /-- How often the request was changed by making inputs from it. -/
  revision : Nat

structure Response where
  kind : String
  body : String

/-! ## The inner service -/

/-- The plan for a call: the last plan is also that for all later calls. -/
def Request.plan (r : Request) (call : Nat) : Plan :=
  (r.plans[call]?.or r.plans.getLast?).getD ⟨"never", none, .lasting .zero, false⟩

/-- What a call gives if its plan does not say it. -/
def Request.standardBody (r : Request) (call : Nat) : String :=
  r.tag ++ "#" ++ String.ofList (Text.numeral call)

def serve (r : Request) (call : Nat) : Race.Execution Response :=
  let plan := r.plan call
  { wait := plan.wait
    result :=
      if plan.crashes then .error ⟨"inner service bug"⟩
      else .ok ⟨plan.kind, plan.body.getD (r.standardBody call)⟩ }

/-! ## Inputs and classifications -/

structure CopyRule where
  /-- The attempts for which no input is made. -/
  refuses : List UInt32
  /-- The attempts for which making the input crashes. -/
  crashes : List UInt32
  /-- Whether making an input changes the request. -/
  bumps : Bool

def CopyRule.apply (c : CopyRule) (r : Request) (a : Attempt) :
    Except Crash (Request × Option Request) :=
  if a.index ∈ c.crashes then .error ⟨"clone bug"⟩
  else
    let r := if c.bumps then { r with revision := r.revision + 1 } else r
    .ok (r, if a.index ∈ c.refuses then none else some { r with attempt := a.index })

def plainCopy (r : Request) (_ : Attempt) : Except Crash (Request × Option Request) :=
  .ok (r, some r)

def recoveryOf (kind : String) : Recovery :=
  if kind = "retry" ∨ kind = "retry_after" then .retry
  else if kind = "unavailable" then .unavailable
  else if kind = "unknown" then .unknown
  else .never

def plainRecovery (output : Response) (_ : Attempt) : Except Crash Recovery :=
  .ok (recoveryOf output.kind)

def crashedRecovery : Except Crash Recovery := .error ⟨"recovery bug"⟩

/-- Classifies the outputs of some attempts by verdicts and all others by their kind. -/
def recoveryBy (verdicts : List (UInt32 × Except Crash Recovery)) (output : Response)
    (a : Attempt) : Except Crash Recovery :=
  match verdicts.find? fun v => v.1 = a.index with
  | some v => v.2
  | none => plainRecovery output a

def onHedge (crashes : Bool) (_ : Attempt) (_ : Duration) : Except Crash Unit :=
  if crashes then .error ⟨"on_hedge bug"⟩ else .ok ()

def givenUp (issued : UInt32) : Response :=
  ⟨"deadline", "gave up after " ++ String.ofList (Text.numeral issued)⟩

def startsWith (start text : String) : Bool := start.toList.isPrefixOf text.toList

/-! ## Policies and listeners -/

def failingPolicy (message : Option String) : Policy Request :=
  .rule none fun _ => .error (.failed ⟨.policy, message.map Cause.words⟩)

def crashingPolicy : Policy Request :=
  .rule none fun _ => .error (.crashed ⟨"policy bug"⟩)

/-- A policy that decides by the tag of the request and fails for tags without a case. -/
def tagPolicy (cases : List (String × Decision)) : Policy Request :=
  .rule (some "by tag") fun r =>
    match cases.find? fun c => c.1 = r.tag with
    | some c => .ok c.2
    | none => .error (.failed (.because .policy ("no case for " ++ r.tag)))

def listening (name : String) : Listener Request Response := .callback name fun _ => .ok ()

def failingListener (name : String) (message : Option String) : Listener Request Response :=
  .callback name fun _ => .error (.failed ⟨.listener, message.map Cause.words⟩)

def crashingListener (name : String) : Listener Request Response :=
  .callback name fun _ => .error (.crashed ⟨"listener bug"⟩)

end RequestHedging.Rehearsal
