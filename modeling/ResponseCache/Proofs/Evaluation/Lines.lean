import ResponseCache.Proofs.Evaluation.Prohibition
import ResponseCache.Proofs.Message.Headers

/-!
# The lines of a header are one list

Of the `Cache-Control` lines of a header only the list of their directives counts. Either all lines
are visible ASCII, and then they are read as one text, or none of them is read
(`cacheControl_eq`). If each line closes its quotes, the directives of that text are those of the
first line, then those of the second one, and so on (`exists_cacheControl`). The rules for keeping a
response look at nothing but these directives, so it does not matter which line a directive stands
on (`assess_congr`). A single line with another octet makes the whole exchange malformed
(`exists_fault`): its response is neither written nor served.
-/

namespace ResponseCache

namespace HeaderValue

/-- All octets of the value are visible ASCII, blanks or tabs. -/
def IsVisible (v : HeaderValue) : Prop :=
  ∀ b ∈ v.bytes, b = 9 ∨ 0x20 ≤ b ∧ b ≤ 0x7e

instance (v : HeaderValue) : Decidable v.IsVisible :=
  inferInstanceAs (Decidable (∀ b ∈ v.bytes, _))

variable {v : HeaderValue}

theorem all_isVisible_iff : v.bytes.all Bytes.isVisible = true ↔ v.IsVisible := by
  simp only [IsVisible, List.all_eq_true, Bytes.isVisible, Bool.or_eq_true, Bool.and_eq_true,
    beq_iff_eq, decide_eq_true_eq]

/-- The text of a value, which is empty for a value that is not visible. -/
def text (v : HeaderValue) : List Char :=
  v.visible?.getD []

theorem visible?_eq (v : HeaderValue) :
    v.visible? = if v.IsVisible then some v.text else none := by
  have hvisible : v.visible? = if v.IsVisible then some (v.bytes.map fun b => Char.ofNat b.toNat)
      else none := by
    simp only [visible?, Bytes.visible?, all_isVisible_iff]
  rw [text, hvisible]
  split <;> rfl

theorem Closed.isVisible (h : v.Closed) : v.IsVisible := by
  by_contra hnot
  rw [Closed, visible?_eq, if_neg hnot] at h
  cases h

end HeaderValue

/-- All `Cache-Control` lines are visible ASCII. -/
def Headers.IsVisible (h : Headers) : Prop :=
  ∀ v ∈ h.values .cacheControl, v.IsVisible

instance (h : Headers) : Decidable h.IsVisible :=
  inferInstanceAs (Decidable (∀ v ∈ h.values .cacheControl, _))

/-- All `Cache-Control` lines are visible ASCII and close their quotes. -/
def Headers.Closed (h : Headers) : Prop :=
  ∀ v ∈ h.values .cacheControl, v.Closed

instance (h : Headers) : Decidable h.Closed :=
  inferInstanceAs (Decidable (∀ v ∈ h.values .cacheControl, _))

theorem Headers.Closed.isVisible {h : Headers} (hclosed : h.Closed) : h.IsVisible :=
  fun v hv => (hclosed v hv).isVisible

namespace Exchange

variable {h : Headers} {x y : Exchange} {now receivedAt : Instant}

/-! ## Reading the lines -/

section Reader

theorem visible_eq (label : String) (v : HeaderValue) :
    visible label v = if v.IsVisible then .ok v.text else .error (.notVisible label) := by
  rw [visible, HeaderValue.visible?_eq]
  by_cases h : v.IsVisible
  · rw [if_pos h, if_pos h]
  · rw [if_neg h, if_neg h]

/-- The lines are read all together or not at all. -/
theorem cacheControl_eq (h : Headers) :
    cacheControl h =
      if h.IsVisible then .ok (joinLines ((h.values .cacheControl).map HeaderValue.text))
      else .error (.notVisible "Cache-Control") := by
  have hlines : (h.values .cacheControl).mapM (visible "Cache-Control")
      = if h.IsVisible then .ok ((h.values .cacheControl).map HeaderValue.text)
        else .error (.notVisible "Cache-Control") := by
    rw [funext (visible_eq "Cache-Control"), mapM_ite]
    rfl
  rw [cacheControl, hlines]
  split <;> rfl

/-- Lines that close their quotes are read, and the directives in them are those of the first line,
then those of the second one, and so on. -/
theorem exists_cacheControl (hclosed : h.Closed) :
    ∃ text, cacheControl h = .ok text
      ∧ Directive.ofText text = (h.values .cacheControl).flatMap HeaderValue.directives := by
  have htext := cacheControl_eq h
  rw [if_pos hclosed.isVisible] at htext
  exact ⟨_, htext, directives_of_cacheControl htext hclosed⟩

end Reader

/-! ## Directives on other lines -/

section Spreading

/-- All `Cache-Control` lines of both sides are visible ASCII and close their quotes. -/
def Closed (x : Exchange) : Prop :=
  x.requestHeaders.Closed ∧ x.responseHeaders.Closed

instance (x : Exchange) : Decidable x.Closed :=
  inferInstanceAs (Decidable (_ ∧ _))

/-- Two exchanges differ at most in the `Cache-Control` lines, and in these only by which directive
stands on which line. -/
structure SpreadAs (x y : Exchange) : Prop where
  method : x.method = y.method
  status : x.status = y.status
  others : ∀ name ≠ HeaderName.cacheControl,
    x.responseHeaders.values name = y.responseHeaders.values name
  asked : x.requestHeaders.directives = y.requestHeaders.directives
  told : x.responseHeaders.directives = y.responseHeaders.directives

theorem dateHeader_congr {h h' : Headers} {name : HeaderName}
    (hvalues : h.values name = h'.values name) (label : String) (sentinels : Bool) :
    dateHeader h name label sentinels = dateHeader h' name label sentinels := by
  simp only [dateHeader, firstText, Headers.first?, hvalues]

/-- The directives that are judged are those of the lines. -/
theorem directives_of_assess {a : Assessment} (hx : x.Closed)
    (ha : x.assess now receivedAt = .ok a) :
    RequestDirectives.ofDirectives x.requestHeaders.directives = .ok a.request
      ∧ ResponseDirectives.ofDirectives x.responseHeaders.directives = .ok a.response := by
  obtain ⟨w, hw, rfl⟩ := assess_eq_ok_iff.1 ha
  have hasked := directives_of_cacheControl hw.asked hx.1
  have htold := directives_of_cacheControl hw.told hx.2
  rw [← hasked, ← htold]
  exact ⟨hw.request, hw.response⟩

/-- Nothing else of the lines is looked at than the list of their directives. -/
theorem assess_congr (h : x.SpreadAs y) (hx : x.Closed) (hy : y.Closed)
    (now receivedAt : Instant) : x.assess now receivedAt = y.assess now receivedAt := by
  obtain ⟨askedx, hax, hdax⟩ := exists_cacheControl hx.1
  obtain ⟨askedy, hay, hday⟩ := exists_cacheControl hy.1
  obtain ⟨toldx, htx, hdtx⟩ := exists_cacheControl hx.2
  obtain ⟨toldy, hty, hdty⟩ := exists_cacheControl hy.2
  have hasked : RequestDirectives.ofText askedx = RequestDirectives.ofText askedy := by
    have hlist : Directive.ofText askedx = Directive.ofText askedy :=
      hdax.trans (h.asked.trans hday.symm)
    rw [RequestDirectives.ofText, hlist, ← RequestDirectives.ofText]
  have htold : ResponseDirectives.ofText toldx = ResponseDirectives.ofText toldy := by
    have hlist : Directive.ofText toldx = Directive.ofText toldy :=
      hdtx.trans (h.told.trans hdty.symm)
    rw [ResponseDirectives.ofText, hlist, ← ResponseDirectives.ofText]
  have hdate : ∀ (name : HeaderName) label sentinels, name ≠ .cacheControl →
      dateHeader x.responseHeaders name label sentinels
        = dateHeader y.responseHeaders name label sentinels :=
    fun name label sentinels hname => dateHeader_congr (h.others name hname) label sentinels
  unfold assess
  rw [hax, hay, htx, hty, hdate .expires _ _ (by decide), hdate .date _ _ (by decide),
    hdate .lastModified _ _ (by decide), h.method, h.status]
  simp only [bind, Except.bind, hasked, htold]

end Spreading

/-! ## Lines that cannot be read -/

section Illegible

theorem isVisible_of_cacheControl {text : List Char} (htext : cacheControl h = .ok text) :
    h.IsVisible := by
  by_contra hnot
  rw [cacheControl_eq, if_neg hnot] at htext
  cases htext

/-- Some `Cache-Control` line of either side is not visible ASCII. -/
def Illegible (x : Exchange) : Prop :=
  ∃ v ∈ x.requestHeaders.values .cacheControl ++ x.responseHeaders.values .cacheControl,
    ¬ v.IsVisible

theorem Illegible.not_reads (hx : x.Illegible) (w : Reading) : ¬ x.Reads w := by
  intro hw
  obtain ⟨v, hv, hnot⟩ := hx
  rcases List.mem_append.1 hv with hv | hv
  · exact hnot (isVisible_of_cacheControl hw.asked v hv)
  · exact hnot (isVisible_of_cacheControl hw.told v hv)

theorem Illegible.exists_fault (hx : x.Illegible) (now receivedAt : Instant) :
    ∃ fault, x.assess now receivedAt = .error fault := by
  cases hassess : x.assess now receivedAt with
  | error fault => exact ⟨fault, rfl⟩
  | ok a =>
    obtain ⟨w, hw, -⟩ := assess_eq_ok_iff.1 hassess
    exact absurd hw (hx.not_reads w)

end Illegible

end Exchange

namespace Cache

variable {σ : Type} {r : Request} {p : Response}

/-- A live response of an exchange that cannot be read is not written. -/
theorem settle_of_illegible (h : (r.exchange p).Illegible) (b : Backend σ) (c : Config)
    (storage : σ) (now : Instant) :
    (settle b c storage r now p).storage = storage
      ∧ ∀ e, (settle b c storage r now p).event ≠ .stored e := by
  have hskip : ∃ event, IsSkip event ∧ weigh c r (b.origin storage) now p = .skip event := by
    cases hweigh : weigh c r (b.origin storage) now p with
    | skip event => exact ⟨event, isSkip_of_weigh hweigh, rfl⟩
    | write entry e =>
      obtain ⟨w, hadm, -⟩ := weigh_eq_write_iff.1 hweigh
      exact absurd hadm.toReads (h.not_reads w)
  obtain ⟨event, hevent, hweigh⟩ := hskip
  rw [settle, hweigh]
  refine ⟨rfl, fun e he => ?_⟩
  obtain ⟨_, rfl⟩ | ⟨_, rfl⟩ := hevent <;> cases he

/-- A kept response of an exchange that cannot be read is not served. -/
theorem start_of_illegible (h : (r.exchange p).Illegible) (b : Backend σ) (c : Config)
    (storage : σ) (now : Instant) {entry : Entry}
    (hget : (b.get storage (Key.ofRequest r) now).1 = .ok entry)
    (hdecodes : entry.response r.method = .ok p) :
    (start b c storage r now).answer = none := by
  by_contra hanswer
  obtain ⟨q, hq⟩ := Option.ne_none_iff_exists'.1 hanswer
  obtain ⟨-, origin, e, hhit⟩ := exists_hit_of_answer hq
  obtain ⟨found, kept, w, -, hfound, hs, -⟩ := servable_of_hit hhit
  obtain rfl : found = entry := Except.ok.inj (hfound.symm.trans hget)
  obtain rfl : kept = p := Except.ok.inj (hs.decodes.symm.trans hdecodes)
  exact h.not_reads w hs.admissible.toReads

end Cache

namespace Exchange

open Cache

/-- The `Cache-Control` lines of a header are one list of directives. If they are visible ASCII and
close their quotes, they are read as one text, which has the directives of the first line, then
those of the second one, and so on. These are the directives that are judged, and exchanges that
differ only in how their directives are spread over such lines are assessed alike, faults included.
If one line of either side is not visible ASCII, the exchange cannot be assessed at all, and no
cache writes its response or serves it, wherever it keeps its entries. -/
theorem lines_are_one_list :
    (∀ h : Headers, h.Closed → ∃ text, cacheControl h = .ok text
        ∧ Directive.ofText text = (h.values .cacheControl).flatMap HeaderValue.directives)
      ∧ (∀ (x : Exchange) now receivedAt a, x.Closed → x.assess now receivedAt = .ok a →
        RequestDirectives.ofDirectives x.requestHeaders.directives = .ok a.request
          ∧ ResponseDirectives.ofDirectives x.responseHeaders.directives = .ok a.response)
      ∧ (∀ x y : Exchange, x.SpreadAs y → x.Closed → y.Closed →
        ∀ now receivedAt, x.assess now receivedAt = y.assess now receivedAt)
      ∧ ∀ (r : Request) (p : Response), (r.exchange p).Illegible →
        (∀ now receivedAt, ∃ fault, (r.exchange p).assess now receivedAt = .error fault)
          ∧ ∀ (σ : Type) (b : Backend σ) (c : Config) (storage : σ) (now : Instant),
            (settle b c storage r now p).storage = storage
              ∧ (∀ e, (settle b c storage r now p).event ≠ .stored e)
              ∧ ∀ entry, (b.get storage (Key.ofRequest r) now).1 = .ok entry →
                entry.response r.method = .ok p → (start b c storage r now).answer = none := by
  refine ⟨fun h hclosed => exists_cacheControl hclosed,
    fun x now receivedAt a hx ha => directives_of_assess hx ha,
    fun x y h hx hy now receivedAt => assess_congr h hx hy now receivedAt, fun r p hx => ?_⟩
  refine ⟨hx.exists_fault, fun σ b c storage now => ?_⟩
  obtain ⟨hstorage, hevent⟩ := settle_of_illegible hx b c storage now
  exact ⟨hstorage, hevent, fun entry => start_of_illegible hx b c storage now⟩

end Exchange

namespace Sample

theorem values_withLines {name : HeaderName} (hname : name ≠ .cacheControl)
    (lines : List HeaderValue) (h : Headers) : (withLines h lines).values name = h.values name := by
  induction lines generalizing h with
  | nil => rfl
  | cons v lines ih =>
    have hone : ((h.append? .cacheControl v).getD h).values name = h.values name := by
      cases happended : h.append? .cacheControl v with
      | none => rfl
      | some h' =>
        obtain ⟨hroom, rfl⟩ := Headers.append?_eq_some_iff.1 happended
        rw [Option.getD_some, Headers.values_append, if_neg hname, List.append_nil]
    rw [withLines, List.foldl_cons, ← withLines, ih, hone]

/-- Four directives on five lines, of which two are empty or blank. -/
def spreadLines : List HeaderValue :=
  [⟨Bytes.ofText "public", by decide⟩, ⟨[], by decide⟩, ⟨Bytes.ofText " ", by decide⟩,
    ⟨Bytes.ofText "no-cache=\"a, b\"", by decide⟩, ⟨Bytes.ofText "max-age=7, x", by decide⟩]

/-- The same directives on one line. -/
def oneLine : List HeaderValue :=
  [⟨Bytes.ofText "public,no-cache=\"a, b\",max-age=7,x", by decide⟩]

/-- A line with an octet beyond ASCII. -/
def illegibleLine : HeaderValue := ⟨[0x6e, 0xff], by decide⟩

/-- A store to which a response with such a line has come. -/
def illegibleStore : Store :=
  (Store.backend.set store (Key.ofRequest request)
    (.ofResponse .get "/" .epoch (guarded [illegibleLine]) Store.defaultOrigin)
    Config.sharedCache.entryTtl .epoch).state

end Sample

namespace Exchange

open Sample

/-- The lines `public`, two empty ones, `no-cache="a, b"` and `max-age=7, x` are judged like the
line `public,no-cache="a, b",max-age=7,x`. A response with a line that is not visible ASCII is not
written, and not served if it is in the store. -/
theorem lines_are_one_list_sample :
    (∃ text, cacheControl (withLines .empty spreadLines) = .ok text
        ∧ Directive.ofText text = (withLines .empty oneLine).directives)
      ∧ (∃ a, (request.exchange (guarded spreadLines)).assess .epoch .epoch = .ok a
        ∧ ResponseDirectives.ofDirectives (guarded spreadLines).headers.directives
          = .ok a.response)
      ∧ (request.exchange (guarded spreadLines)).assess .epoch .epoch
        = (request.exchange (guarded oneLine)).assess .epoch .epoch
      ∧ (∃ fault, (request.exchange (guarded [illegibleLine])).assess .epoch .epoch = .error fault)
      ∧ (Cache.settle Store.backend .sharedCache store request .epoch
        (guarded [illegibleLine])).storage = store
      ∧ (Cache.start Store.backend .sharedCache illegibleStore request .epoch).answer = none := by
  obtain ⟨hread, hjudged, hspread, hfault⟩ := lines_are_one_list
  obtain ⟨text, htext, hdirectives⟩ := hread (withLines .empty spreadLines) (by decide +kernel)
  have hlist :
      (withLines .empty spreadLines).directives = (withLines .empty oneLine).directives := by
    decide +kernel
  have hall : (request.exchange (guarded spreadLines)).SpreadAs
      (request.exchange (guarded oneLine)) := by
    refine ⟨rfl, rfl, fun name hname => ?_, rfl, by decide +kernel⟩
    exact (values_withLines hname _ _).trans (values_withLines hname _ _).symm
  have hillegible : (request.exchange (guarded [illegibleLine])).Illegible :=
    ⟨illegibleLine, by decide +kernel, by decide +kernel⟩
  have hclosed : (request.exchange (guarded spreadLines)).Closed := by decide +kernel
  have hsome : ((request.exchange (guarded spreadLines)).assess .epoch
      .epoch).toOption.isSome = true := by
    decide +kernel
  obtain ⟨a, ha⟩ := Option.isSome_iff_exists.1 hsome
  have htold := (hjudged _ _ _ a hclosed (eq_ok_of_toOption ha)).2
  obtain ⟨hnever, hcache⟩ := hfault request _ hillegible
  have hget : (Store.backend.get illegibleStore (Key.ofRequest request) .epoch).1.toOption
      = some (.ofResponse .get "/" .epoch (guarded [illegibleLine]) Store.defaultOrigin) := by
    decide +kernel
  refine ⟨⟨text, htext, hdirectives.trans hlist⟩, ⟨a, eq_ok_of_toOption ha, htold⟩, ?_,
    hnever .epoch .epoch, ?_, ?_⟩
  · exact hspread _ _ hall hclosed (by decide +kernel) .epoch .epoch
  · exact (hcache Store Store.backend .sharedCache store .epoch).1
  · exact (hcache Store Store.backend .sharedCache illegibleStore .epoch).2.2 _
      (eq_ok_of_toOption hget) rfl

end Exchange

end ResponseCache
