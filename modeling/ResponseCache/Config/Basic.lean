import ResponseCache.Directive.Basic
import ResponseCache.Time.Duration

/-!
# Configuration

The choices that change what a cache does: whether it serves several principals, when a request's
own `Cache-Control` keeps it from the cache, how long entries live in the storage, and how a
response without explicit lifetime gets one.
-/

namespace ResponseCache

/-- When a request's own `Cache-Control` keeps it from being answered from the cache. -/
inductive LookupPolicy where
  /-- Either of `no-cache` and `no-store` does. -/
  | skipIfEither
  /-- Only `no-cache` and `no-store` together do. -/
  | skipIfBoth
deriving DecidableEq, Repr

namespace LookupPolicy

def name : LookupPolicy → String
  | skipIfEither => "skip_if_either"
  | skipIfBoth => "skip_if_both"

def ofName? (name : String) : Option LookupPolicy :=
  if name = "skip_if_either" then some skipIfEither
  else if name = "skip_if_both" then some skipIfBoth
  else none

def inspect : LookupPolicy → String
  | skipIfEither => "SkipIfEither"
  | skipIfBoth => "SkipIfBoth"

/-- Whether a request with this `Cache-Control` text may be answered from the cache. -/
def allowsLookup (policy : LookupPolicy) (cacheControl : List Char) : Bool :=
  let noCache := Directive.isNamedIn "no-cache" cacheControl
  let noStore := Directive.isNamedIn "no-store" cacheControl
  match policy with
  | skipIfEither => !(noCache || noStore)
  | skipIfBoth => !(noCache && noStore)

end LookupPolicy

/-- The configuration of a cache. -/
structure Config where
  /-- Whether the cache serves several principals: it then follows `s-maxage` and keeps no `private`
  response. -/
  shared : Bool
  lookupPolicy : LookupPolicy
  /-- How long the storage keeps an entry; zero means without limit. -/
  entryTtl : Duration
  /-- The part of the time since the last modification that counts as lifetime where none is given.
  -/
  heuristicFraction : Float
  /-- The longest lifetime that is estimated so. -/
  heuristicCap : Duration

namespace Config

/-- The seconds of a day. -/
def day : Duration := Duration.ofSeconds 86400

/-- A shared cache, which is the default. -/
def sharedCache : Config := ⟨true, .skipIfEither, .zero, 0.1, day⟩

def privateCache : Config := { sharedCache with shared := false }

/-- A shared cache that keeps every entry for a day at most and estimates no lifetimes. -/
def strict : Config := { sharedCache with entryTtl := day, heuristicFraction := 0 }

/-- The configuration itself, if its fraction is one. -/
def check (c : Config) : Except ConfigFault Unit :=
  if 0 ≤ c.heuristicFraction ∧ c.heuristicFraction ≤ 1 then .ok ()
  else .error (.badFraction c.heuristicFraction)

def inspect (c : Config) : String :=
  Text.inspectRecord "CacheConfig" [
    ("shared", Text.inspectBool c.shared),
    ("cache_use", c.lookupPolicy.inspect),
    ("entry_ttl", c.entryTtl.inspect),
    ("heuristic_fraction", Decimal.inspectStyle.render c.heuristicFraction),
    ("heuristic_cap", c.heuristicCap.inspect)]

end Config

end ResponseCache
