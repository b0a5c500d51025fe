import ResponseCache.Directive.Basic

/-!
# Directives of a request
-/

namespace ResponseCache

/-- How stale a response a request takes. -/
inductive MaxStale where
  | any
  | upTo (seconds : Nat)
deriving DecidableEq

/-- The directives of a request by meaning. -/
structure RequestDirectives where
  noCache : Bool := false
  noStore : Bool := false
  maxAge : Option Nat := none
  minFresh : Option Nat := none
  maxStale : Option MaxStale := none
  noTransform : Bool := false
  onlyIfCached : Bool := false
  extensions : List Directive := []
deriving DecidableEq

namespace RequestDirectives

/-- One directive more. Of several of one name the first counts, but all must be well formed. -/
def add (ds : RequestDirectives) (d : Directive) : Except HeaderFault RequestDirectives :=
  match d.name with
  | "no-cache" => .ok { ds with noCache := true }
  | "no-store" => .ok { ds with noStore := true }
  | "no-transform" => .ok { ds with noTransform := true }
  | "only-if-cached" => .ok { ds with onlyIfCached := true }
  | "max-age" => d.seconds.map fun n => { ds with maxAge := ds.maxAge <|> some n }
  | "min-fresh" => d.seconds.map fun n => { ds with minFresh := ds.minFresh <|> some n }
  | "max-stale" =>
    if d.value.isNone then .ok { ds with maxStale := ds.maxStale <|> some .any }
    else d.seconds.map fun n => { ds with maxStale := ds.maxStale <|> some (.upTo n) }
  | _ => .ok { ds with extensions := ds.extensions ++ [d] }

def ofDirectives (list : List Directive) : Except HeaderFault RequestDirectives :=
  list.foldlM add {}

/-- The meaning of a request's `Cache-Control` text. -/
def ofText (s : List Char) : Except HeaderFault RequestDirectives :=
  ofDirectives (Directive.ofText s)

end RequestDirectives

end ResponseCache
