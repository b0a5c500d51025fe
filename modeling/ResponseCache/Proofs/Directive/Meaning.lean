import Mathlib
import ResponseCache.Proofs.Directive.Whole

/-!
# The meaning of a `Cache-Control` text

What is read of a text, said of its directives alone: when it cannot be read and which directive is
to blame, and what each field of the record holds if it can (`ofText_meaning`). A number counts as
far as `2 ^ 31`, however many digits it is written with, so all numbers beyond that mean the same.
-/

namespace ResponseCache

namespace Directive

variable {name : String} {list : List Directive}

/-- The field holds the number that the first directive of the name writes, or `2 ^ 31` if the
number is larger. Without a directive of the name it is empty. -/
def HoldsFirst (name : String) (list : List Directive) (field : Option Nat) : Prop :=
  match first? name list with
  | none => field = none
  | some d => ∃ v n, d.value = some v ∧ Decimal.Writes v.toList n ∧ field = some (min n (2 ^ 31))

/-- How a list of directives is read. It cannot be read if one of them is malformed, and then the
fault names the first one that is, with its value. Else the record means what the list says. -/
structure ReadsAs {α : Type} (malformed : Directive → Prop) (means : α → List Directive → Prop)
    (list : List Directive) (read : Except HeaderFault α) : Prop where
  fails_iff : (∃ fault, read = .error fault) ↔ ∃ d ∈ list, malformed d
  earliest : ∀ fault, read = .error fault →
    ∃ before d after, list = before ++ d :: after ∧ (∀ b ∈ before, ¬ malformed b) ∧ malformed d
      ∧ fault = .badSeconds d.name (d.value.getD "")
  meaning : ∀ a, read = .ok a → means a list

theorem holdsFirst_firstSeconds? (h : ∀ d ∈ list, d.name = name → ¬ d.NoNumber) :
    HoldsFirst name list (firstSeconds? name list) := by
  unfold HoldsFirst firstSeconds?
  cases hfirst : first? name list with
  | none => rfl
  | some d =>
    obtain ⟨hd, hname⟩ := mem_of_first? hfirst
    obtain ⟨v, n, hvalue, hwrites, hseconds⟩ := exists_seconds (h d hd hname)
    refine ⟨v, n, hvalue, hwrites, ?_⟩
    rw [Option.bind_some, hseconds]
    rfl

theorem readsAs_of_find? {α : Type} {malformed : Directive → Prop} [DecidablePred malformed]
    {means : α → List Directive → Prop} {a : α}
    (h : (∀ d ∈ list, ¬ malformed d) → means a list) :
    ReadsAs malformed means list
      ((list.find? fun d => malformed d).elim (.ok a) fun d => .error d.fault) where
  fails_iff := by
    cases hfind : list.find? fun d => malformed d with
    | none =>
      have hgood := List.find?_eq_none.1 hfind
      refine iff_of_false nofun fun ⟨d, hd, hbad⟩ => hgood d hd (decide_eq_true hbad)
    | some d =>
      have hbad : malformed d := by simpa using List.find?_some hfind
      exact iff_of_true ⟨_, rfl⟩ ⟨d, List.mem_of_find?_eq_some hfind, hbad⟩
  earliest fault hfault := by
    cases hfind : list.find? fun d => malformed d with
    | none =>
      rw [hfind] at hfault
      cases hfault
    | some d =>
      rw [hfind] at hfault
      obtain ⟨hbad, before, after, hlist, hbefore⟩ := List.find?_eq_some_iff_append.1 hfind
      refine ⟨before, d, after, hlist, fun b hb => ?_, of_decide_eq_true hbad, ?_⟩
      · simpa using hbefore b hb
      · exact (Except.error.inj hfault).symm
  meaning b hb := by
    obtain ⟨hgood, rfl⟩ := elim_find?_eq_ok_iff.1 hb
    exact h hgood

end Directive

namespace RequestDirectives

open Directive

variable {list : List Directive}

/-- The field holds what the first `max-stale` says: any age if it stands alone, and else as many
seconds as it writes, or `2 ^ 31` if these are more. Without a `max-stale` it is empty. -/
def HoldsMaxStale (list : List Directive) (field : Option MaxStale) : Prop :=
  match first? "max-stale" list with
  | none => field = none
  | some ⟨_, none⟩ => field = some .any
  | some ⟨_, some v⟩ => ∃ n, Decimal.Writes v.toList n ∧ field = some (.upTo (min n (2 ^ 31)))

/-- The record says what the directives of a request say. -/
structure Means (ds : RequestDirectives) (list : List Directive) : Prop where
  noCache : ds.noCache = true ↔ ∃ d ∈ list, d.name = "no-cache"
  noStore : ds.noStore = true ↔ ∃ d ∈ list, d.name = "no-store"
  noTransform : ds.noTransform = true ↔ ∃ d ∈ list, d.name = "no-transform"
  onlyIfCached : ds.onlyIfCached = true ↔ ∃ d ∈ list, d.name = "only-if-cached"
  maxAge : HoldsFirst "max-age" list ds.maxAge
  minFresh : HoldsFirst "min-fresh" list ds.minFresh
  maxStale : HoldsMaxStale list ds.maxStale
  extensions : ds.extensions = list.filter fun d => d.name ∉ names

theorem holdsMaxStale_bind (h : ∀ d ∈ list, ¬ Malformed d) :
    HoldsMaxStale list ((first? "max-stale" list).bind maxStaleOf?) := by
  unfold HoldsMaxStale
  cases hfirst : first? "max-stale" list with
  | none => rfl
  | some d =>
    obtain ⟨hd, hname⟩ := mem_of_first? hfirst
    have hgood := h d hd
    obtain ⟨name, _ | v⟩ := d
    · rfl
    · have hno : ¬ NoNumber ⟨name, some v⟩ :=
        not_noNumber (hname ▸ by decide) (fun _ => Option.some_ne_none v) hgood
      obtain ⟨v', n, hvalue, hwrites, hseconds⟩ := exists_seconds hno
      cases hvalue
      refine ⟨n, hwrites, ?_⟩
      rw [Option.bind_some, maxStaleOf?, if_neg (Option.some_ne_none v), hseconds]
      rfl

theorem means_extend (h : ∀ d ∈ list, ¬ Malformed d) : Means (extend {} list) list := by
  have hnumber : ∀ name ∈ numericNames, name ≠ "max-stale" →
      HoldsFirst name list (firstSeconds? name list) := fun name hname hstale =>
    holdsFirst_firstSeconds? fun d hd hn =>
      not_noNumber (hn ▸ hname) (fun hn' => absurd (hn ▸ hn') hstale) (h d hd)
  exact {
    noCache := isNamed_iff
    noStore := isNamed_iff
    noTransform := isNamed_iff
    onlyIfCached := isNamed_iff
    maxAge := hnumber _ (by decide) (by decide)
    minFresh := hnumber _ (by decide) (by decide)
    maxStale := holdsMaxStale_bind h
    extensions := rfl }

end RequestDirectives

namespace ResponseDirectives

open Directive

variable {list : List Directive}

/-- The record says what the directives of a response say. Of the header names that `private` and
`no-cache` may list it is not said which ones count. -/
structure Means (ds : ResponseDirectives) (list : List Directive) : Prop where
  isPublic : ds.isPublic = true ↔ ∃ d ∈ list, d.name = "public"
  isPrivate : ds.isPrivate = true ↔ ∃ d ∈ list, d.name = "private"
  noCache : ds.noCache = true ↔ ∃ d ∈ list, d.name = "no-cache"
  noStore : ds.noStore = true ↔ ∃ d ∈ list, d.name = "no-store"
  mustRevalidate : ds.mustRevalidate = true ↔ ∃ d ∈ list, d.name = "must-revalidate"
  proxyRevalidate : ds.proxyRevalidate = true ↔ ∃ d ∈ list, d.name = "proxy-revalidate"
  noTransform : ds.noTransform = true ↔ ∃ d ∈ list, d.name = "no-transform"
  immutable : ds.immutable = true ↔ ∃ d ∈ list, d.name = "immutable"
  maxAge : HoldsFirst "max-age" list ds.maxAge
  sharedMaxAge : HoldsFirst "s-maxage" list ds.sharedMaxAge
  staleWhileRevalidate : HoldsFirst "stale-while-revalidate" list ds.staleWhileRevalidate
  staleIfError : HoldsFirst "stale-if-error" list ds.staleIfError
  extensions : ds.extensions = list.filter fun d => d.name ∉ names

theorem means_extend (h : ∀ d ∈ list, ¬ Malformed d) : Means (extend {} list) list := by
  have hnumber : ∀ name ∈ numericNames, HoldsFirst name list (firstSeconds? name list) :=
    fun name hname => holdsFirst_firstSeconds? fun d hd hn hno => h d hd ⟨hn ▸ hname, hno⟩
  have hlisted : ∀ name, ((lastFields? name list).or none).isSome = true
      ↔ ∃ d ∈ list, d.name = name := fun name => by
    rw [Option.or_none, isSome_lastFields?, isNamed_iff]
  exact {
    isPublic := isNamed_iff
    isPrivate := hlisted "private"
    noCache := hlisted "no-cache"
    noStore := isNamed_iff
    mustRevalidate := isNamed_iff
    proxyRevalidate := isNamed_iff
    noTransform := isNamed_iff
    immutable := isNamed_iff
    maxAge := hnumber _ (by decide)
    sharedMaxAge := hnumber _ (by decide)
    staleWhileRevalidate := hnumber _ (by decide)
    staleIfError := hnumber _ (by decide)
    extensions := rfl }

end ResponseDirectives

/-- What a request and a response are taken to say with a text is what its directives say. -/
theorem Directive.ofText_meaning (s : List Char) :
    ReadsAs RequestDirectives.Malformed RequestDirectives.Means (ofText s)
        (RequestDirectives.ofText s)
      ∧ ReadsAs ResponseDirectives.Malformed ResponseDirectives.Means (ofText s)
        (ResponseDirectives.ofText s) := by
  rw [RequestDirectives.ofText, RequestDirectives.ofDirectives_eq, ResponseDirectives.ofText,
    ResponseDirectives.ofDirectives_eq]
  exact ⟨readsAs_of_find? RequestDirectives.means_extend,
    readsAs_of_find? ResponseDirectives.means_extend⟩

example : RequestDirectives.ofText "max-age=0099999999999999999999, max-stale, max-age=5".toList
    = .ok { maxAge := some (2 ^ 31), maxStale := some .any } := by
  rfl

example : ResponseDirectives.ofText "max-age=5, s-maxage, max-age=1.5".toList
    = .error (.badSeconds "s-maxage" "") := by
  rfl

end ResponseCache
