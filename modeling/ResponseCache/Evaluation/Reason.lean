import ResponseCache.Config.Basic
import ResponseCache.Evaluation.Exchange

/-!
# Reasons not to keep a response
-/

namespace ResponseCache

/-- Why a response may not be kept. -/
inductive Reason where
  | requestNoStore
  | responseNoStore
  /-- The response is for one principal and the cache serves several. -/
  | responsePrivate
  /-- The response must be validated with the origin before each use. -/
  | responseNoCache
  | statusNotCacheable (status : Status)
  | methodNotCacheable (method : Method)
  /-- The answer to a `POST` says nothing of its lifetime. -/
  | postWithoutFreshness
deriving DecidableEq

namespace Reason

def message : Reason → String
  | requestNoStore => "request Cache-Control has no-store"
  | responseNoStore => "response Cache-Control has no-store"
  | responsePrivate => "response Cache-Control has private and the cache is shared"
  | responseNoCache => "response Cache-Control has no-cache and revalidation is unsupported"
  | statusNotCacheable status => "status " ++ status.display ++ " is not cacheable"
  | methodNotCacheable method => "method " ++ method.name ++ " is not cacheable"
  | postWithoutFreshness => "POST response carries no explicit freshness"

def inspect : Reason → String
  | requestNoStore => "RequestNoStore"
  | responseNoStore => "ResponseNoStore"
  | responsePrivate => "ResponsePrivate"
  | responseNoCache => "ResponseNoCache"
  | statusNotCacheable status => Text.inspectTuple "StatusNotCacheable" [status.codeText]
  | methodNotCacheable method => Text.inspectTuple "MethodNotCacheable" [method.name]
  | postWithoutFreshness => "PostWithoutFreshness"

end Reason

namespace Assessment

/-- Whether the response states its lifetime to a cache of this configuration. -/
def hasExplicitFreshness (a : Assessment) (c : Config) : Bool :=
  a.response.maxAge.isSome || (c.shared && a.response.sharedMaxAge.isSome) || a.expires.isSome

/-- The reason that lies in the method. -/
def methodReasons (a : Assessment) (c : Config) : List Reason :=
  if a.method ∈ Method.uncacheable then [.methodNotCacheable a.method]
  else if a.method = .post ∧ !a.hasExplicitFreshness c then [.postWithoutFreshness]
  else []

/-- The reasons not to keep the response, in a fixed order; none if it may be kept. -/
def reasons (a : Assessment) (c : Config) : List Reason :=
  a.methodReasons c
    ++ (if a.request.noStore then [.requestNoStore] else [])
    ++ (if a.response.isPrivate && c.shared then [.responsePrivate] else [])
    ++ (if a.response.noStore then [.responseNoStore] else [])
    ++ (if a.response.noCacheUnqualified then [.responseNoCache] else [])
    ++ (if !a.status.isCacheable then [.statusNotCacheable a.status] else [])

end Assessment

end ResponseCache
