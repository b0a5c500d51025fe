import ResponseCache.Config.Basic
import ResponseCache.Json.Reader

/-!
# Configuration as JSON

A configuration is written as an object with one member for each choice, in whole seconds where it
is a length of time. It is read from such an object, in which members may be missing and members of
other names are skipped, or from an array of the values in the same order, which may end early. What
is missing is as in the default.
-/

namespace ResponseCache.Config

/-- The choices of a configuration. -/
inductive Field where
  | shared | lookupPolicy | entryTtl | heuristicFraction | heuristicCap
deriving DecidableEq, Repr

namespace Field

def all : List Field :=
  [shared, lookupPolicy, entryTtl, heuristicFraction, heuristicCap]

def name : Field → String
  | shared => "shared"
  | lookupPolicy => "cache_use"
  | entryTtl => "entry_ttl"
  | heuristicFraction => "heuristic_fraction"
  | heuristicCap => "heuristic_cap"

def ofName? (name : String) : Option Field :=
  all.find? fun f => f.name = name

end Field

/-- A float in JSON, which has neither infinities nor a value that is no number. -/
def floatJson (x : Float) : String :=
  if x.isNaN || x.isInf then "null" else Decimal.jsonStyle.render x

def fieldJson (c : Config) : Field → String
  | .shared => Text.inspectBool c.shared
  | .lookupPolicy => "\"" ++ c.lookupPolicy.name ++ "\""
  | .entryTtl => toString c.entryTtl.seconds.toNat
  | .heuristicFraction => floatJson c.heuristicFraction
  | .heuristicCap => toString c.heuristicCap.seconds.toNat

def toJson (c : Config) : String :=
  "\x7b" ++ Text.joinWith "," (Field.all.map fun f => "\"" ++ f.name ++ "\":" ++ c.fieldJson f)
    ++ "\x7d"

/-- A length of time in whole seconds. -/
def readSeconds? : Json → Option Duration
  | .number n => n.toUInt64?.map Duration.ofSeconds
  | _ => none

/-- A policy by its name, which may also be the name of an object's only member, null. -/
def readPolicy? : Json → Option LookupPolicy
  | .string (some name) => LookupPolicy.ofName? (String.ofList name)
  | .object [(some name, .null)] => LookupPolicy.ofName? (String.ofList name)
  | _ => none

/-- The configuration with one choice read from JSON. -/
def set? (c : Config) : Field → Json → Option Config
  | .shared, .bool b => some { c with shared := b }
  | .shared, _ => none
  | .lookupPolicy, v => (readPolicy? v).map fun p => { c with lookupPolicy := p }
  | .entryTtl, v => (readSeconds? v).map fun d => { c with entryTtl := d }
  | .heuristicFraction, .number n => n.toFloat?.map fun x => { c with heuristicFraction := x }
  | .heuristicFraction, _ => none
  | .heuristicCap, v => (readSeconds? v).map fun d => { c with heuristicCap := d }

/-- The configuration with the members of an object read into it; `seen` are the choices read
before, none of which may come again. -/
def readMembers? (c : Config) (seen : List Field) :
    List (Option (List Char) × Json) → Option Config
  | [] => some c
  | (none, _) :: _ => none
  | (some name, v) :: rest =>
    match Field.ofName? (String.ofList name) with
    | none => readMembers? c seen rest
    | some f => if f ∈ seen then none else do readMembers? (← c.set? f v) (f :: seen) rest

/-- The configuration with the values of an array read into it, one for each choice in order. -/
def readItems? (c : Config) : List Field → List Json → Option Config
  | _, [] => some c
  | [], _ :: _ => none
  | f :: fs, v :: vs => do readItems? (← c.set? f v) fs vs

/-- The configuration that a JSON value describes. -/
def ofJson? : Json → Option Config
  | .object members => readMembers? sharedCache [] members
  | .array items => readItems? sharedCache Field.all items
  | _ => none

/-- The configuration that a JSON text describes. -/
def read? (s : String) : Option Config := do
  ofJson? (← Json.ofString? s)

end ResponseCache.Config
