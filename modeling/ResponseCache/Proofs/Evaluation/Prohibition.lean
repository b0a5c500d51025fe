import ResponseCache.Proofs.Cache.Answer
import ResponseCache.Proofs.Directive.Lines

/-!
# What a response forbids

With three directives a response forbids that it is kept: `no-store`, `private` if the cache is
shared, and `no-cache` if it lists no field names. All `Cache-Control` lines of a response are one
list of directives (`directives_of_cacheControl`), which each line more makes longer. So `no-store`
and `private` hold wherever they stand. Of several `no-cache` the last one counts
(`noCacheFields_ofText`), and if it lists field names, an earlier one that forbids to keep the
response at all does so no longer: this is when lines together allow what one of them forbids
(`prohibition_kept_iff`).
-/

namespace ResponseCache

namespace ResponseDirectives

/-- Of several `no-cache` the last one counts. -/
theorem noCacheFields_ofText {s : List Char} {ds : ResponseDirectives} (h : ofText s = .ok ds) :
    ds.noCacheFields = Directive.lastFields? "no-cache" (Directive.ofText s) := by
  obtain ⟨-, rfl⟩ := ofDirectives_eq_ok_iff.1 h
  exact Option.or_none

end ResponseDirectives

/-! ## Lines -/

namespace HeaderValue

/-- The value is visible ASCII and all its quotes are closed. -/
def Closed (v : HeaderValue) : Prop :=
  v.visible?.map Directive.Quoting.outside.after = some .outside

instance (v : HeaderValue) : Decidable v.Closed :=
  inferInstanceAs (Decidable (_ = _))

/-- The directives of a line. -/
def directives (v : HeaderValue) : List Directive :=
  Directive.ofText (v.visible?.getD [])

end HeaderValue

/-- The directives of the `Cache-Control` lines, one line after the other. -/
def Headers.directives (h : Headers) : List Directive :=
  (h.values .cacheControl).flatMap HeaderValue.directives

namespace Exchange

theorem visible_eq_ok_iff {label : String} {v : HeaderValue} {line : List Char} :
    visible label v = .ok line ↔ v.visible? = some line := by
  unfold visible
  split <;> simp_all

theorem directives_of_lines {label : String} {values : List HeaderValue}
    {lines : List (List Char)} (hlines : values.mapM (visible label) = .ok lines)
    (hclosed : ∀ v ∈ values, v.Closed) :
    (∀ line ∈ lines, Directive.Quoting.outside.after line = .outside)
      ∧ lines.flatMap Directive.ofText = values.flatMap HeaderValue.directives := by
  induction values generalizing lines with
  | nil =>
    rw [List.mapM_nil, pure_eq_ok_iff] at hlines
    rw [← hlines]
    exact ⟨List.forall_mem_nil _, rfl⟩
  | cons v values ih =>
    rw [List.mapM_cons, bind_eq_ok_iff] at hlines
    obtain ⟨line, hline, hrest⟩ := hlines
    obtain ⟨more, hmore, hpure⟩ := bind_eq_ok_iff.1 hrest
    obtain rfl : line :: more = lines := pure_eq_ok_iff.1 hpure
    obtain ⟨hafter, hdirectives⟩ := ih hmore fun u hu => hclosed u (List.mem_cons_of_mem _ hu)
    have hvisible := visible_eq_ok_iff.1 hline
    have hv : v.Closed := hclosed v List.mem_cons_self
    rw [HeaderValue.Closed, hvisible, Option.map_some, Option.some.injEq] at hv
    refine ⟨List.forall_mem_cons.2 ⟨hv, hafter⟩, ?_⟩
    rw [List.flatMap_cons, List.flatMap_cons, hdirectives, HeaderValue.directives, hvisible]
    rfl

/-- The directives that are judged are those of the lines. -/
theorem directives_of_cacheControl {h : Headers} {text : List Char}
    (htext : cacheControl h = .ok text) (hclosed : ∀ v ∈ h.values .cacheControl, v.Closed) :
    Directive.ofText text = h.directives := by
  obtain ⟨lines, hlines, hjoin⟩ := bind_eq_ok_iff.1 htext
  obtain ⟨hafter, hdirectives⟩ := directives_of_lines hlines hclosed
  rw [← pure_eq_ok_iff.1 hjoin, Directive.ofText_joinLines hafter, hdirectives]
  rfl

end Exchange

/-! ## Reasons -/

namespace Reason

/-- The reasons that lie in directives of the response. -/
def prohibitions : List Reason := [.responseNoStore, .responsePrivate, .responseNoCache]

/-- The directives forbid a cache of this configuration to keep their response, for this reason. -/
def IsGivenBy (reason : Reason) (c : Config) (list : List Directive) : Prop :=
  match reason with
  | .responseNoStore => ∃ d ∈ list, d.name = "no-store"
  | .responsePrivate => (∃ d ∈ list, d.name = "private") ∧ c.shared = true
  | .responseNoCache => Directive.lastFields? "no-cache" list = some []
  | _ => False

/-- The directives do not take this reason back: if it is a `no-cache`, the last one of them lists
no header names. -/
def Stands (reason : Reason) (list : List Directive) : Prop :=
  reason = .responseNoCache → Directive.lastFields? "no-cache" list = some []

variable {reason : Reason} {c : Config} {line list : List Directive}

/-- What some directives forbid more of them forbid too, unless it is taken back. -/
theorem IsGivenBy.iff_of_subset (h : reason.IsGivenBy c line) (hsub : line ⊆ list) :
    reason.IsGivenBy c list ↔ reason.Stands list := by
  cases reason with
  | responseNoStore =>
    obtain ⟨d, hd, hname⟩ := h
    exact iff_of_true ⟨d, hsub hd, hname⟩ fun e => nomatch e
  | responsePrivate =>
    obtain ⟨⟨d, hd, hname⟩, hshared⟩ := h
    exact iff_of_true ⟨⟨d, hsub hd, hname⟩, hshared⟩ fun e => nomatch e
  | responseNoCache => exact ⟨fun hlast _ => hlast, fun hlast => hlast rfl⟩
  | _ => exact h.elim

end Reason

namespace Exchange

open Assessment

variable {c : Config} {x : Exchange} {w : Reading} {reason : Reason} {now receivedAt : Instant}

theorem not_mem_methodReasons (a : Assessment) (hkind : reason ∈ Reason.prohibitions) :
    reason ∉ a.methodReasons c := by
  unfold methodReasons
  split
  · intro hmem
    rw [List.mem_singleton.1 hmem] at hkind
    simp [Reason.prohibitions] at hkind
  · split
    · intro hmem
      rw [List.mem_singleton.1 hmem] at hkind
      simp [Reason.prohibitions] at hkind
    · exact List.not_mem_nil

/-- The directives of the response give those reasons that lie in them. -/
theorem mem_reasons_iff (h : x.Reads w) (hkind : reason ∈ Reason.prohibitions) (c : Config)
    (now receivedAt : Instant) :
    reason ∈ (w.assessment x now receivedAt).reasons c ↔
      reason.IsGivenBy c (Directive.ofText w.told) := by
  have hmethod : reason ∉ (w.assessment x now receivedAt).methodReasons c :=
    not_mem_methodReasons _ hkind
  have hresponse : (w.assessment x now receivedAt).response = w.response := rfl
  have hstore : w.response.noStore = true ↔
      Reason.IsGivenBy .responseNoStore c (Directive.ofText w.told) := by
    rw [ResponseDirectives.noStore_ofText h.response]
    exact Directive.isNamed_iff
  have hprivate : w.response.isPrivate = true ∧ c.shared = true ↔
      Reason.IsGivenBy .responsePrivate c (Directive.ofText w.told) := by
    rw [ResponseDirectives.isPrivate_ofText h.response]
    exact and_congr_left fun _ => Directive.isNamed_iff
  have hnoCache : w.response.noCacheUnqualified = true ↔
      Reason.IsGivenBy .responseNoCache c (Directive.ofText w.told) := by
    rw [ResponseDirectives.noCacheUnqualified, beq_iff_eq,
      ResponseDirectives.noCacheFields_ofText h.response]
    rfl
  simp only [reasons, List.mem_append, List.mem_ite_nil_right, List.mem_singleton, hmethod,
    hresponse, false_or, Bool.and_eq_true]
  simp only [Reason.prohibitions, List.mem_cons, List.not_mem_nil, or_false] at hkind
  rcases hkind with rfl | rfl | rfl
  · simpa using hstore
  · simpa using hprivate
  · simpa using hnoCache

theorem not_admissible_of_isGivenBy (hkind : reason ∈ Reason.prohibitions)
    (hgiven : reason.IsGivenBy c (Directive.ofText w.told)) : ¬ x.Admissible c w := by
  intro h
  have hnil := (reasons_eq_nil_iff h.toReads c .epoch .epoch).2 h
  have hmem := (mem_reasons_iff h.toReads hkind c .epoch .epoch).2 hgiven
  rw [hnil] at hmem
  cases hmem

/-- What one line of a response forbids all its lines together forbid too, whatever the others say
and in whatever order they stand, unless they are malformed; and a response with these headers is
then neither written nor served to any request. There is one exception: a `no-cache` without field
names no longer counts if the last `no-cache` of all lines has some.

Here `v` is a line of the response of `x`, and `h` are headers with this line alone. -/
theorem prohibition_kept_iff {h : Headers} {v : HeaderValue} {one : Verdict}
    (hclosed : ∀ u ∈ x.responseHeaders.values .cacheControl, u.Closed)
    (hline : v ∈ x.responseHeaders.values .cacheControl) (halone : h.values .cacheControl = [v])
    (hone : { x with responseHeaders := h }.judge now receivedAt c = .ok one)
    (hreason : reason ∈ one.reasons) (hkind : reason ∈ Reason.prohibitions) :
    (∀ now receivedAt all, x.judge now receivedAt c = .ok all →
        (reason ∈ all.reasons ↔ reason.Stands x.responseHeaders.directives))
      ∧ (reason.Stands x.responseHeaders.directives →
        ∀ (r : Request) (p : Response), p.headers = x.responseHeaders →
          ∀ origin now entry tag q e, Cache.weigh c r origin now p ≠ .write entry e
            ∧ (entry.response r.method = .ok p →
              Cache.consider c r origin now entry ≠ .serve tag q e)) := by
  obtain ⟨w, hw, rfl⟩ := judge_eq_ok_iff.1 hone
  have hgiven : reason.IsGivenBy c v.directives := by
    have hdirectives : Directive.ofText w.told = h.directives := by
      refine directives_of_cacheControl hw.told fun u hu => ?_
      rw [halone, List.mem_singleton] at hu
      exact hu ▸ hclosed v hline
    rw [Headers.directives, halone, List.flatMap_singleton] at hdirectives
    exact hdirectives ▸ (mem_reasons_iff hw hkind c now receivedAt).1 hreason
  have hsub : v.directives ⊆ x.responseHeaders.directives :=
    fun d hd => List.mem_flatMap.2 ⟨v, hline, hd⟩
  have hiff := hgiven.iff_of_subset hsub
  have hall : ∀ (y : Exchange) w, y.responseHeaders = x.responseHeaders → y.Reads w →
      Directive.ofText w.told = x.responseHeaders.directives := by
    intro y w hy hw
    exact directives_of_cacheControl (hy ▸ hw.told) hclosed
  constructor
  · intro now receivedAt all hjudge
    obtain ⟨w, hw, rfl⟩ := judge_eq_ok_iff.1 hjudge
    have hmem := mem_reasons_iff hw hkind c now receivedAt
    rw [hall x w rfl hw] at hmem
    exact hmem.trans hiff
  · intro hstands r p hp origin now entry tag q e
    have hnot : ∀ w, ¬ (r.exchange p).Admissible c w := fun w hadm =>
      not_admissible_of_isGivenBy hkind (hall _ w hp hadm.toReads ▸ hiff.2 hstands) hadm
    constructor
    · intro hwrite
      obtain ⟨w, hadm, -⟩ := Cache.weigh_eq_write_iff.1 hwrite
      exact hnot w hadm
    · intro hdecodes hserve
      obtain ⟨-, p', w, hserved, -⟩ := Cache.consider_eq_serve_iff.1 hserve
      obtain rfl : p' = p := Except.ok.inj (hserved.decodes.symm.trans hdecodes)
      exact hnot w hserved.admissible

end Exchange

namespace Sample

/-- The headers with further `Cache-Control` lines, as far as there is room for them. -/
def withLines (h : Headers) (lines : List HeaderValue) : Headers :=
  lines.foldl (fun h v => (h.append? .cacheControl v).getD h) h

theorem legal_noCache : (Bytes.ofText "no-cache").all isValueByte = true := by decide

def noCache : HeaderValue := ⟨Bytes.ofText "no-cache", legal_noCache⟩

def noCacheCookies : HeaderValue := ⟨Bytes.ofText "no-cache=\"set-cookie\"", by decide⟩

/-- Headers with the line `no-cache` alone. -/
def alone : Headers := withLines .empty [noCache]

/-- The sample response with further `Cache-Control` lines. -/
def guarded (lines : List HeaderValue) : Response :=
  { response with headers := withLines response.headers lines }

def cookiesFirst : Exchange := request.exchange (guarded [noCacheCookies, noCache])

def cookiesLast : Exchange := request.exchange (guarded [noCache, noCacheCookies])

end Sample

namespace Exchange

open Sample

/-- A `no-cache` without field names counts on the last line. -/
theorem prohibition_kept_cookiesFirst :
    ∃ one all, { cookiesFirst with responseHeaders := alone }.judge .epoch .epoch .sharedCache
        = .ok one
      ∧ Reason.responseNoCache ∈ one.reasons
      ∧ cookiesFirst.judge .epoch .epoch .sharedCache = .ok all
      ∧ Reason.responseNoCache ∈ all.reasons
      ∧ ∀ entry e, Cache.weigh .sharedCache request Store.defaultOrigin .epoch
        (guarded [noCacheCookies, noCache]) ≠ .write entry e := by
  have hreasons : ({ cookiesFirst with responseHeaders := alone }.judge .epoch .epoch
      .sharedCache).toOption.map Verdict.reasons = some [.responseNoCache] := by decide +kernel
  have hsome : (cookiesFirst.judge .epoch .epoch .sharedCache).toOption.isSome = true := by
    decide +kernel
  obtain ⟨one, hone, hreasons⟩ := Option.map_eq_some_iff.1 hreasons
  obtain ⟨all, hall⟩ := Option.isSome_iff_exists.1 hsome
  have hclosed : ∀ u ∈ cookiesFirst.responseHeaders.values .cacheControl, u.Closed := by
    decide +kernel
  have hline : noCache ∈ cookiesFirst.responseHeaders.values .cacheControl := by decide +kernel
  have halone : alone.values .cacheControl = [noCache] := by decide +kernel
  have hreason : Reason.responseNoCache ∈ one.reasons := by simp [hreasons]
  have hstands : Reason.responseNoCache.Stands cookiesFirst.responseHeaders.directives :=
    fun _ => by decide +kernel
  obtain ⟨hkept, hnot⟩ := prohibition_kept_iff hclosed hline halone (eq_ok_of_toOption hone)
    hreason (by decide)
  refine ⟨one, all, eq_ok_of_toOption hone, hreason, eq_ok_of_toOption hall,
    (hkept _ _ all (eq_ok_of_toOption hall)).2 hstands, fun entry e => ?_⟩
  exact (hnot hstands request _ rfl _ .epoch entry "" response e).1

/-- The line `no-cache` forbids by itself to keep the response, but with a line after it that lists
a field name there is no reason against it. -/
theorem prohibition_lifted_cookiesLast :
    noCache ∈ cookiesLast.responseHeaders.values .cacheControl
      ∧ (∀ u ∈ cookiesLast.responseHeaders.values .cacheControl, u.Closed)
      ∧ alone.values .cacheControl = [noCache]
      ∧ ({ cookiesLast with responseHeaders := alone }.judge .epoch .epoch
        .sharedCache).toOption.map Verdict.reasons = some [.responseNoCache]
      ∧ (cookiesLast.judge .epoch .epoch .sharedCache).toOption.map Verdict.reasons = some [] := by
  decide +kernel

end Exchange

end ResponseCache
