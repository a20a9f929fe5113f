import RequestHedging.Binary64.Text
import RequestHedging.Config
import RequestHedging.Duration.Written
import RequestHedging.Json.Token

/-!
# Written configurations

A configuration is written as a JSON object with all fields in their order.  Read are
objects with any of the fields in any order, each once, and arrays with the values of
the first fields; fields that are not there have their standard values.  Reading goes
from front to back and stops at the first fault.
-/

namespace RequestHedging.Config

open Json (Token Scalar)

inductive ReadFault
  | malformed
  | negativeDuration
deriving DecidableEq

def ReadFault.message : ReadFault → Option String
  | malformed => none
  | negativeDuration => some "duration must not be negative"

inductive Field
  | enabled
  | percentile
  | maxHedges
  | minSamples
  | window
  | rotations
  | maxLatency
deriving DecidableEq

namespace Field

def all : List Field :=
  [enabled, percentile, maxHedges, minSamples, window, rotations, maxLatency]

def key : Field → String
  | enabled => "enabled"
  | percentile => "percentile"
  | maxHedges => "max_hedges"
  | minSamples => "min_samples"
  | window => "window"
  | rotations => "rotations"
  | maxLatency => "max_latency"

def ofKey? (key : List Char) : Option Field := all.find? fun f => f.key.toList = key

end Field

/-! ## Reading -/

def readBool : Scalar → Except ReadFault Bool
  | .bool b => .ok b
  | _ => .error .malformed

def readDouble : Scalar → Except ReadFault Binary64
  | .number n =>
    match n.double? with
    | some x => .ok x
    | none => .error .malformed
  | _ => .error .malformed

def readNatural (limit : Nat) : Scalar → Except ReadFault Nat
  | .number n =>
    match n.natural? with
    | some m => if m < limit then .ok m else .error .malformed
    | none => .error .malformed
  | _ => .error .malformed

def readDuration : Scalar → Except ReadFault Duration
  | .text s =>
    match Duration.read s with
    | .ok d => .ok d
    | .error .malformed => .error .malformed
    | .error .negative => .error .negativeDuration
  | _ => .error .malformed

def set (c : Config) (value : Scalar) : Field → Except ReadFault Config
  | .enabled => (readBool value).map fun b => { c with enabled := b }
  | .percentile => (readDouble value).map fun x => { c with percentile := x }
  | .maxHedges => (readNatural UInt32.size value).map fun n => { c with maxHedges := .ofNat n }
  | .minSamples => (readNatural UInt64.size value).map fun n => { c with minSamples := .ofNat n }
  | .window => (readDuration value).map fun d => { c with window := d }
  | .rotations => (readNatural UInt32.size value).map fun n => { c with rotations := .ofNat n }
  | .maxLatency => (readDuration value).map fun d => { c with maxLatency := d }

/-- Reads the members of an object to its end, after those of the fields seen. -/
def readMembers (seen : List Field) (c : Config) : List Token → Except ReadFault Config
  | .scalar (.text key) :: .colon :: .scalar value :: rest =>
    match Field.ofKey? key with
    | none => .error .malformed
    | some f =>
      if f ∈ seen then .error .malformed
      else
        match c.set value f with
        | .error fault => .error fault
        | .ok c =>
          match rest with
          | [.closeBrace] => .ok c
          | .comma :: rest => readMembers (f :: seen) c rest
          | _ => .error .malformed
  | _ => .error .malformed

/-- Reads the elements of an array to its end, as the values of the given fields. -/
def readElements (c : Config) : List Field → List Token → Except ReadFault Config
  | f :: fields, .scalar value :: rest =>
    match c.set value f with
    | .error fault => .error fault
    | .ok c =>
      match rest with
      | [.closeBracket] => .ok c
      | .comma :: rest => readElements c fields rest
      | _ => .error .malformed
  | _, _ => .error .malformed

def ofTokens : List Token → Except ReadFault Config
  | [.openBrace, .closeBrace] => .ok standard
  | [.openBracket, .closeBracket] => .ok standard
  | .openBrace :: members => readMembers [] standard members
  | .openBracket :: elements => readElements standard Field.all elements
  | _ => .error .malformed

def read (text : List Char) : Except ReadFault Config := ofTokens (Json.tokens text)

/-! ## Writing -/

def quotedPlainly (text : List Char) : List Char := '"' :: text ++ ['"']

/-- The value of a field.  Infinite percentiles and those that are no numbers are `null`. -/
def writeValue (c : Config) : Field → Option (List Char)
  | .enabled => some (Text.describedBool c.enabled).toList
  | .percentile =>
    some (if c.percentile.isFinite then (c.percentile.text .config).toList else "null".toList)
  | .maxHedges => some (Text.numeral c.maxHedges.toNat)
  | .minSamples => some (Text.numeral c.minSamples.toNat)
  | .window => (Duration.Iso.write? c.window).map quotedPlainly
  | .rotations => some (Text.numeral c.rotations.toNat)
  | .maxLatency => (Duration.Iso.write? c.maxLatency).map quotedPlainly

def writeMember (c : Config) (f : Field) : Option (List Char) :=
  (c.writeValue f).map fun value => quotedPlainly f.key.toList ++ ':' :: value

/-- A configuration as a JSON object, if its durations can be written. -/
def write? (c : Config) : Option (List Char) :=
  (Field.all.mapM c.writeMember).map fun members =>
    '\x7b' :: [','].intercalate members ++ ['\x7d']

/-- Whether a text reads as a configuration that agrees with this one. -/
def isReadFrom (c : Config) (text : List Char) : Bool :=
  match read text with
  | .ok d => d.agrees c
  | .error _ => false

end RequestHedging.Config
