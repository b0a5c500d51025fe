import ResponseCache.Directive.Request
import ResponseCache.Directive.Response
import ResponseCache.Proofs.Decimal.Natural
import ResponseCache.Proofs.Except

/-!
# Lists of directives as a whole

The directives of a list are taken in one at a time, but what comes of a list can be said of it as a
whole (`ofDirectives_eq` for requests and for responses). If it has malformed directives, then the
fault is that of the first one. If not, each field of the record is a function of the list: some
directives count by being there, of those with a number the first of a name counts, of those with
header names the last, and those whose name means nothing are kept in order. What one directive
does is said in `add_eq`, and no other lemma looks at its cases.
-/

namespace ResponseCache

namespace Directive

variable {β : Type} {d : Directive} {name : String} {l l' : List Directive}

/-- The fault of a directive that should give a number of seconds and does not. -/
def fault (d : Directive) : HeaderFault :=
  .badSeconds d.name (d.value.getD "")

/-- The directive gives no number: it has no value, or one that is empty or has another character in
it than the ten digits. -/
def NoNumber : Directive → Prop
  | ⟨_, none⟩ => True
  | ⟨_, some v⟩ => v = "" ∨ ∃ c ∈ v.toList, ¬ Decimal.isDigit c

instance : DecidablePred NoNumber
  | ⟨_, none⟩ => inferInstanceAs (Decidable True)
  | ⟨_, some _⟩ => inferInstanceAs (Decidable (_ ∨ _))

theorem noNumber_iff : d.NoNumber ↔ Decimal.value? (d.value.getD "").toList = none := by
  obtain ⟨name, _ | v⟩ := d
  · exact iff_of_true trivial rfl
  · simp [NoNumber, Decimal.value?, or_iff_not_imp_left]

theorem seconds_of_noNumber (h : d.NoNumber) : d.seconds = .error d.fault := by
  rw [seconds, noNumber_iff.1 h, fault]

/-- A value that is a number gives it, up to `maxSeconds`. -/
theorem exists_seconds (h : ¬ d.NoNumber) :
    ∃ v n, d.value = some v ∧ Decimal.Writes v.toList n ∧ d.seconds = .ok (min n maxSeconds) := by
  obtain ⟨name, _ | v⟩ := d
  · exact absurd trivial h
  · obtain ⟨n, hn⟩ := Option.ne_none_iff_exists'.1 (mt noNumber_iff.2 h)
    refine ⟨v, n, rfl, Decimal.value?_eq_some_iff_writes.1 hn, ?_⟩
    rw [seconds, hn]

theorem seconds_le {n : Nat} (h : d.seconds = .ok n) : n ≤ maxSeconds := by
  by_cases hno : d.NoNumber
  · rw [seconds_of_noNumber hno] at h
    cases h
  · obtain ⟨-, m, -, -, hm⟩ := exists_seconds hno
    rw [hm] at h
    cases h
    exact Nat.min_le_right _ _

/-! ## What a list says under a name -/

/-- Whether a directive of the name is in the list. -/
def isNamed (name : String) (l : List Directive) : Bool :=
  l.any fun d => d.name = name

/-- The first directive of a name. -/
def first? (name : String) (l : List Directive) : Option Directive :=
  l.find? fun d => d.name = name

/-- The seconds that the first directive of a name gives. -/
def firstSeconds? (name : String) (l : List Directive) : Option Nat :=
  (first? name l).bind fun d => d.seconds.toOption

/-- The header names that the last directive of a name lists. -/
def lastFields? (name : String) (l : List Directive) : Option (List String) :=
  (l.filterMap fun d => if d.name = name then some d.fieldNames else none).getLast?

theorem isNamed_append : isNamed name (l ++ l') = (isNamed name l || isNamed name l') :=
  List.any_append

theorem isNamed_iff : isNamed name l = true ↔ ∃ d ∈ l, d.name = name := by
  simp only [isNamed, List.any_eq_true, decide_eq_true_eq]

/-- Of two lists the second one decides what the last directive of a name says. -/
theorem lastFields?_append :
    lastFields? name (l ++ l') = (lastFields? name l').or (lastFields? name l) := by
  rw [lastFields?, List.filterMap_append, List.getLast?_append, lastFields?, lastFields?]

theorem mem_of_first? (h : first? name l = some d) : d ∈ l ∧ d.name = name :=
  ⟨List.mem_of_find?_eq_some h, by simpa using List.find?_some h⟩

/-- There is a first directive of a name if there is one at all. -/
theorem isSome_first? : (first? name l).isSome = isNamed name l := by
  rw [Bool.eq_iff_iff, first?, List.find?_isSome, isNamed_iff]
  simp only [decide_eq_true_eq]

theorem isSome_lastFields? : (lastFields? name l).isSome = isNamed name l := by
  rw [Bool.eq_iff_iff, isNamed_iff, lastFields?, List.getLast?_isSome, ne_eq,
    List.filterMap_eq_nil_iff]
  simp

/-- Of two lists the first one decides what the first directive of a name says, if all of this name
say something. -/
theorem bind_first?_append {pick : Directive → Option β}
    (h : ∀ d ∈ l, d.name = name → (pick d).isSome) :
    (first? name (l ++ l')).bind pick
      = ((first? name l).bind pick).or ((first? name l').bind pick) := by
  rw [first?, List.find?_append, ← first?, ← first?]
  cases hfirst : first? name l with
  | none => rfl
  | some d =>
    obtain ⟨hd, hname⟩ := mem_of_first? hfirst
    obtain ⟨b, hb⟩ := Option.isSome_iff_exists.1 (h d hd hname)
    rw [Option.some_or, Option.bind_some, hb, Option.some_or]

theorem isSome_seconds (h : ¬ d.NoNumber) : d.seconds.toOption.isSome := by
  obtain ⟨-, n, -, -, hseconds⟩ := exists_seconds h
  rw [hseconds]
  rfl

/-- Of two lists the first one decides what the first number of a name is. -/
theorem firstSeconds?_append (h : ∀ d ∈ l, d.name = name → ¬ d.NoNumber) :
    firstSeconds? name (l ++ l') = (firstSeconds? name l).or (firstSeconds? name l') :=
  bind_first?_append fun d hd hname => isSome_seconds (h d hd hname)

theorem isSome_firstSeconds? (h : ∀ d ∈ l, d.name = name → ¬ d.NoNumber) :
    (firstSeconds? name l).isSome = isNamed name l := by
  rw [← isSome_first?, firstSeconds?]
  cases hfirst : first? name l with
  | none => rfl
  | some d =>
    obtain ⟨hd, hname⟩ := mem_of_first? hfirst
    exact isSome_seconds (h d hd hname)

theorem firstSeconds?_le : (firstSeconds? name l).getD 0 ≤ maxSeconds := by
  cases hfirst : firstSeconds? name l with
  | none => exact Nat.zero_le _
  | some n =>
    obtain ⟨d, -, hseconds⟩ := Option.bind_eq_some_iff.1 hfirst
    exact seconds_le (eq_ok_of_toOption hseconds)

end Directive

/-! ## Requests -/

namespace RequestDirectives

open Directive

variable {ds : RequestDirectives} {d : Directive} {list more : List Directive}

/-- The names that have a meaning in a request. -/
def names : List String :=
  ["no-cache", "no-store", "no-transform", "only-if-cached", "max-age", "min-fresh", "max-stale"]

/-- The names under which a request gives a number of seconds. -/
def numericNames : List String :=
  ["max-age", "min-fresh", "max-stale"]

/-- The directive should give a number and gives none. Only `max-stale` may stand alone. -/
def Malformed (d : Directive) : Prop :=
  d.name ∈ numericNames ∧ d.NoNumber ∧ ¬ (d.name = "max-stale" ∧ d.value = none)

instance : DecidablePred Malformed :=
  fun _ => inferInstanceAs (Decidable (_ ∧ _))

/-- The limit that a `max-stale` sets. -/
def maxStaleOf? (d : Directive) : Option MaxStale :=
  if d.value = none then some .any else d.seconds.toOption.map .upTo

/-- The record with the directives of a list added to it. -/
def extend (ds : RequestDirectives) (list : List Directive) : RequestDirectives where
  noCache := ds.noCache || isNamed "no-cache" list
  noStore := ds.noStore || isNamed "no-store" list
  maxAge := ds.maxAge.or (firstSeconds? "max-age" list)
  minFresh := ds.minFresh.or (firstSeconds? "min-fresh" list)
  maxStale := ds.maxStale.or ((first? "max-stale" list).bind maxStaleOf?)
  noTransform := ds.noTransform || isNamed "no-transform" list
  onlyIfCached := ds.onlyIfCached || isNamed "only-if-cached" list
  extensions := ds.extensions ++ list.filter fun d => d.name ∉ names

theorem add_eq (ds : RequestDirectives) (d : Directive) :
    ds.add d = if Malformed d then .error d.fault else .ok (ds.extend [d]) := by
  unfold add
  split
  -- the names with a number
  case h_5 | h_6 =>
    rename_i hn
    by_cases hno : d.NoNumber
    · simp [seconds_of_noNumber hno, Malformed, numericNames, hn, hno, Except.map]
    · obtain ⟨v, n, -, -, hseconds⟩ := exists_seconds hno
      simp [hseconds, Malformed, hno, hn, extend, isNamed, first?, firstSeconds?, names, Except.map,
        Except.toOption]
  case h_7 =>
    rename_i hn
    by_cases hno : d.NoNumber
    · cases hvalue : d.value with
      | none =>
        simp [Malformed, hn, hvalue, extend, isNamed, first?, firstSeconds?, names, maxStaleOf?]
      | some v =>
        simp [seconds_of_noNumber hno, Malformed, numericNames, hn, hno, hvalue, Except.map]
    · obtain ⟨v, n, hvalue, -, hseconds⟩ := exists_seconds hno
      simp [hseconds, hvalue, Malformed, hno, hn, extend, isNamed, first?, firstSeconds?, names,
        maxStaleOf?, Except.map, Except.toOption]
  -- the unknown names
  case h_8 =>
    simp_all [Malformed, numericNames, extend, isNamed, first?, firstSeconds?, names]
  all_goals
    rename_i hn
    simp [hn, Malformed, numericNames, extend, isNamed, first?, firstSeconds?, names]

theorem extend_nil (ds : RequestDirectives) : ds.extend [] = ds := by
  simp [extend, isNamed, first?, firstSeconds?]

/-- A directive of a numeric name that is not malformed gives a number, unless it is a `max-stale`
alone. -/
theorem not_noNumber (hname : d.name ∈ numericNames)
    (hvalue : d.name = "max-stale" → d.value ≠ none) (h : ¬ Malformed d) : ¬ d.NoNumber :=
  fun hno => h ⟨hname, hno, fun hbare => hvalue hbare.1 hbare.2⟩

theorem isSome_maxStaleOf? (hname : d.name = "max-stale") (h : ¬ Malformed d) :
    (maxStaleOf? d).isSome := by
  by_cases hvalue : d.value = none
  · rw [maxStaleOf?, if_pos hvalue]
    rfl
  · rw [maxStaleOf?, if_neg hvalue, Option.isSome_map]
    exact isSome_seconds (not_noNumber (hname ▸ by decide) (fun _ => hvalue) h)

/-- A record is extended by two lists one after the other, if the first of them has no malformed
directive. -/
theorem extend_append (ds : RequestDirectives) (h : ∀ d ∈ list, ¬ Malformed d) :
    ds.extend (list ++ more) = (ds.extend list).extend more := by
  have hnumber : ∀ name ∈ numericNames, name ≠ "max-stale" →
      firstSeconds? name (list ++ more)
        = (firstSeconds? name list).or (firstSeconds? name more) := fun name hname hstale =>
    firstSeconds?_append fun d hd hn =>
      not_noNumber (hn ▸ hname) (fun hn' => absurd (hn ▸ hn') hstale) (h d hd)
  have hstale : (first? "max-stale" (list ++ more)).bind maxStaleOf?
      = ((first? "max-stale" list).bind maxStaleOf?).or
          ((first? "max-stale" more).bind maxStaleOf?) :=
    bind_first?_append fun d hd hn => isSome_maxStaleOf? hn (h d hd)
  simp only [extend, isNamed_append, hnumber "max-age" (by decide) (by decide),
    hnumber "min-fresh" (by decide) (by decide), hstale, List.filter_append, Bool.or_assoc,
    Option.or_assoc, List.append_assoc]

/-- A list is read as the record of what it says as a whole, unless a directive in it is malformed;
then the first of these is reported. -/
theorem ofDirectives_eq (list : List Directive) :
    ofDirectives list
      = (list.find? fun d => Malformed d).elim (.ok (extend {} list)) fun d => .error d.fault :=
  foldlM_eq extend_nil (fun ds d more h => (extend_append ds (by simpa using h)).symm) add_eq
    list {}

theorem ofDirectives_eq_ok_iff :
    ofDirectives list = .ok ds ↔ (∀ d ∈ list, ¬ Malformed d) ∧ extend {} list = ds := by
  rw [ofDirectives_eq, elim_find?_eq_ok_iff]

/-- What a list says about `no-store` can be told from the text, without a look at the other
directives. -/
theorem noStore_ofText {s : List Char} {ds : RequestDirectives} (h : ofText s = .ok ds) :
    ds.noStore = Directive.isNamedIn "no-store" s := by
  obtain ⟨-, rfl⟩ := ofDirectives_eq_ok_iff.1 h
  rfl

/-- No request asks that a response is fresh for longer than `Directive.maxSeconds`. -/
theorem minFresh_le (h : ofDirectives list = .ok ds) :
    ds.minFresh.getD 0 ≤ Directive.maxSeconds := by
  obtain ⟨-, rfl⟩ := ofDirectives_eq_ok_iff.1 h
  exact firstSeconds?_le

theorem maxAge_le (h : ofDirectives list = .ok ds) :
    ds.maxAge.getD 0 ≤ Directive.maxSeconds := by
  obtain ⟨-, rfl⟩ := ofDirectives_eq_ok_iff.1 h
  exact firstSeconds?_le

end RequestDirectives

/-! ## Responses -/

namespace ResponseDirectives

open Directive

variable {ds : ResponseDirectives} {d : Directive} {list more : List Directive}

/-- The names that have a meaning in a response. -/
def names : List String :=
  ["public", "private", "no-cache", "no-store", "must-revalidate", "proxy-revalidate",
    "no-transform", "immutable", "max-age", "s-maxage", "stale-while-revalidate", "stale-if-error"]

/-- The names under which a response gives a number of seconds. -/
def numericNames : List String :=
  ["max-age", "s-maxage", "stale-while-revalidate", "stale-if-error"]

/-- The directive should give a number and gives none. -/
def Malformed (d : Directive) : Prop :=
  d.name ∈ numericNames ∧ d.NoNumber

instance : DecidablePred Malformed :=
  fun _ => inferInstanceAs (Decidable (_ ∧ _))

/-- The record with the directives of a list added to it. -/
def extend (ds : ResponseDirectives) (list : List Directive) : ResponseDirectives where
  isPublic := ds.isPublic || isNamed "public" list
  privateFields := (lastFields? "private" list).or ds.privateFields
  noCacheFields := (lastFields? "no-cache" list).or ds.noCacheFields
  noStore := ds.noStore || isNamed "no-store" list
  mustRevalidate := ds.mustRevalidate || isNamed "must-revalidate" list
  proxyRevalidate := ds.proxyRevalidate || isNamed "proxy-revalidate" list
  maxAge := ds.maxAge.or (firstSeconds? "max-age" list)
  sharedMaxAge := ds.sharedMaxAge.or (firstSeconds? "s-maxage" list)
  noTransform := ds.noTransform || isNamed "no-transform" list
  immutable := ds.immutable || isNamed "immutable" list
  staleWhileRevalidate := ds.staleWhileRevalidate.or (firstSeconds? "stale-while-revalidate" list)
  staleIfError := ds.staleIfError.or (firstSeconds? "stale-if-error" list)
  extensions := ds.extensions ++ list.filter fun d => d.name ∉ names

theorem add_eq (ds : ResponseDirectives) (d : Directive) :
    ds.add d = if Malformed d then .error d.fault else .ok (ds.extend [d]) := by
  unfold add
  split
  -- the names with a number
  case h_9 | h_10 | h_11 | h_12 =>
    rename_i hn
    by_cases hno : d.NoNumber
    · simp [seconds_of_noNumber hno, Malformed, numericNames, hn, hno, Except.map]
    · obtain ⟨v, n, -, -, hseconds⟩ := exists_seconds hno
      simp [hseconds, Malformed, hno, hn, extend, isNamed, first?, firstSeconds?, lastFields?,
        names, Except.map, Except.toOption]
  -- the unknown names
  case h_13 =>
    simp_all [Malformed, numericNames, extend, isNamed, first?, firstSeconds?, lastFields?, names]
  all_goals
    rename_i hn
    simp [hn, Malformed, numericNames, extend, isNamed, first?, firstSeconds?, lastFields?, names]

theorem extend_nil (ds : ResponseDirectives) : ds.extend [] = ds := by
  simp [extend, isNamed, first?, firstSeconds?, lastFields?]

theorem extend_append (ds : ResponseDirectives) (h : ∀ d ∈ list, ¬ Malformed d) :
    ds.extend (list ++ more) = (ds.extend list).extend more := by
  have hnumber : ∀ name ∈ numericNames,
      firstSeconds? name (list ++ more)
        = (firstSeconds? name list).or (firstSeconds? name more) := fun name hname =>
    firstSeconds?_append fun d hd hn hno => h d hd ⟨hn ▸ hname, hno⟩
  simp only [extend, isNamed_append, lastFields?_append, hnumber "max-age" (by decide),
    hnumber "s-maxage" (by decide), hnumber "stale-while-revalidate" (by decide),
    hnumber "stale-if-error" (by decide), List.filter_append, Bool.or_assoc, Option.or_assoc,
    List.append_assoc]

/-- A list is read as the record of what it says as a whole, unless a directive in it is malformed;
then the first of these is reported. -/
theorem ofDirectives_eq (list : List Directive) :
    ofDirectives list
      = (list.find? fun d => Malformed d).elim (.ok (extend {} list)) fun d => .error d.fault :=
  foldlM_eq extend_nil (fun ds d more h => (extend_append ds (by simpa using h)).symm) add_eq
    list {}

theorem ofDirectives_eq_ok_iff :
    ofDirectives list = .ok ds ↔ (∀ d ∈ list, ¬ Malformed d) ∧ extend {} list = ds := by
  rw [ofDirectives_eq, elim_find?_eq_ok_iff]

variable {s : List Char}

theorem noStore_ofText (h : ofText s = .ok ds) :
    ds.noStore = Directive.isNamedIn "no-store" s := by
  obtain ⟨-, rfl⟩ := ofDirectives_eq_ok_iff.1 h
  rfl

/-- A response is taken to say `private`, with or without field names, exactly if its list has a
directive of that name. -/
theorem isPrivate_ofText (h : ofText s = .ok ds) :
    ds.isPrivate = Directive.isNamedIn "private" s := by
  obtain ⟨-, rfl⟩ := ofDirectives_eq_ok_iff.1 h
  rw [isPrivate, extend, Option.or_none]
  exact isSome_lastFields?

theorem isSome_maxAge_ofText (h : ofText s = .ok ds) :
    ds.maxAge.isSome = Directive.isNamedIn "max-age" s := by
  obtain ⟨hgood, rfl⟩ := ofDirectives_eq_ok_iff.1 h
  exact isSome_firstSeconds? fun d hd hn hno => hgood d hd ⟨hn ▸ by decide, hno⟩

theorem isSome_sharedMaxAge_ofText (h : ofText s = .ok ds) :
    ds.sharedMaxAge.isSome = Directive.isNamedIn "s-maxage" s := by
  obtain ⟨hgood, rfl⟩ := ofDirectives_eq_ok_iff.1 h
  exact isSome_firstSeconds? fun d hd hn hno => hgood d hd ⟨hn ▸ by decide, hno⟩

end ResponseDirectives

end ResponseCache
