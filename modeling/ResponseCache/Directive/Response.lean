import ResponseCache.Directive.Basic

/-!
# Directives of a response
-/

namespace ResponseCache

/-- The directives of a response by meaning. `private` and `no-cache` may list header names, to
which alone they apply then; without a list they apply to the whole response. -/
structure ResponseDirectives where
  isPublic : Bool := false
  privateFields : Option (List String) := none
  noCacheFields : Option (List String) := none
  noStore : Bool := false
  mustRevalidate : Bool := false
  proxyRevalidate : Bool := false
  maxAge : Option Nat := none
  sharedMaxAge : Option Nat := none
  noTransform : Bool := false
  immutable : Bool := false
  staleWhileRevalidate : Option Nat := none
  staleIfError : Option Nat := none
  extensions : List Directive := []
deriving DecidableEq

namespace ResponseDirectives

/-- One directive more. Of several numbers of one name the first counts, but all must be well
formed; of several lists of header names the last counts. -/
def add (ds : ResponseDirectives) (d : Directive) : Except HeaderFault ResponseDirectives :=
  match d.name with
  | "public" => .ok { ds with isPublic := true }
  | "private" => .ok { ds with privateFields := some d.fieldNames }
  | "no-cache" => .ok { ds with noCacheFields := some d.fieldNames }
  | "no-store" => .ok { ds with noStore := true }
  | "must-revalidate" => .ok { ds with mustRevalidate := true }
  | "proxy-revalidate" => .ok { ds with proxyRevalidate := true }
  | "no-transform" => .ok { ds with noTransform := true }
  | "immutable" => .ok { ds with immutable := true }
  | "max-age" => d.seconds.map fun n => { ds with maxAge := ds.maxAge <|> some n }
  | "s-maxage" => d.seconds.map fun n => { ds with sharedMaxAge := ds.sharedMaxAge <|> some n }
  | "stale-while-revalidate" =>
    d.seconds.map fun n => { ds with staleWhileRevalidate := ds.staleWhileRevalidate <|> some n }
  | "stale-if-error" =>
    d.seconds.map fun n => { ds with staleIfError := ds.staleIfError <|> some n }
  | _ => .ok { ds with extensions := ds.extensions ++ [d] }

def ofDirectives (list : List Directive) : Except HeaderFault ResponseDirectives :=
  list.foldlM add {}

/-- The meaning of a response's `Cache-Control` text. -/
def ofText (s : List Char) : Except HeaderFault ResponseDirectives :=
  ofDirectives (Directive.ofText s)

/-- Whether `private` is among the directives, with or without a list. -/
def isPrivate (ds : ResponseDirectives) : Bool :=
  ds.privateFields.isSome

/-- Whether `no-cache` is among the directives, with or without a list. -/
def noCache (ds : ResponseDirectives) : Bool :=
  ds.noCacheFields.isSome

/-- Whether `no-cache` applies to the whole response. -/
def noCacheUnqualified (ds : ResponseDirectives) : Bool :=
  ds.noCacheFields == some []

end ResponseDirectives

end ResponseCache
