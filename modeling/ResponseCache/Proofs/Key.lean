import ResponseCache.Key
import ResponseCache.Message.Basic
import ResponseCache.Proofs.Text.Trim

/-!
# What a key tells of its request

No method contains a blank, as methods are tokens, and no request target does. So the key of a
request is its method up to the first blank and its target up to the next one, and what follows is
the credential that sets the request apart, if there is one (`ofRequest_eq_iff`). The credential may
contain anything. In terms of the header fields it is the first `Authorization` value of a request
whose first `Cache-Control` value is the word `private` (`partition_eq_some_iff`).
-/

namespace ResponseCache

theorem Method.name_inj {m m' : Method} (h : m.name = m'.name) : m = m' := by
  cases m
  cases m'
  cases h
  rfl

theorem Uri.text_inj {u u' : Uri} (h : u.text = u'.text) : u = u' := by
  cases u
  cases u'
  cases h
  rfl

namespace Key

/-- The text of a key up to the first blank is the method. -/
theorem takeWhile_ofRequest (r : Request) :
    (ofRequest r).text.toList.takeWhile (· != ' ') = r.method.name.toList := by
  have htoken : ∀ c ∈ r.method.name.toList, (c != ' ') = true := fun c hc => by
    have hlegal := r.method.isToken
    rw [Bool.and_eq_true] at hlegal
    have hc := List.all_eq_true.1 hlegal.2 c hc
    refine bne_iff_ne.2 fun e => ?_
    subst e
    exact absurd hc (by decide)
  rw [ofRequest, derive, String.toList_ofList, List.append_assoc,
    List.takeWhile_append_of_pos htoken, List.cons_append, List.takeWhile_cons_of_neg (by decide),
    List.append_nil]

theorem method_eq {r r' : Request} (h : ofRequest r = ofRequest r') : r.method = r'.method := by
  refine Method.name_inj (String.toList_inj.1 ?_)
  rw [← takeWhile_ofRequest r, ← takeWhile_ofRequest r', h]

/-! ## The target and the credential -/

section Partition

/-- What sets a request apart from others of its method and target, if anything does. -/
def partition (r : Request) : Option (List Char) :=
  partition? (r.headers.firstText? .cacheControl) (r.headers.firstText? .authorization)

/-- The end of a key: a blank and the credential, if there is one. -/
def ending : Option (List Char) → List Char
  | some a => ' ' :: a
  | none => []

theorem toList_ofRequest (r : Request) :
    (ofRequest r).text.toList
      = r.method.name.toList ++ ' ' :: (r.uri.text.toList ++ ending (partition r)) := by
  rw [ofRequest, derive, String.toList_ofList, List.append_assoc]
  rfl

theorem ending_inj {a b : Option (List Char)} (h : ending a = ending b) : a = b := by
  cases a with
  | none =>
    cases b with
    | none => rfl
    | some b => cases h
  | some a =>
    cases b with
    | none => cases h
    | some b => rw [List.cons.inj h |>.2]

/-- What comes before the end of a key is the target up to the first blank. -/
theorem takeWhile_uri (u : Uri) (a : Option (List Char)) :
    (u.text.toList ++ ending a).takeWhile (· != ' ') = u.text.toList := by
  have hno : ∀ c ∈ u.text.toList, (c != ' ') = true := fun c hc => by
    have hlegal := u.noBlank
    rw [Bool.and_eq_true] at hlegal
    have hc := List.all_eq_true.1 hlegal.2 c hc
    refine bne_iff_ne.2 fun e => ?_
    subst e
    exact absurd hc (by decide)
  rw [List.takeWhile_append_of_pos hno]
  cases a with
  | none => exact List.append_nil _
  | some a => rw [ending, List.takeWhile_cons_of_neg (by decide), List.append_nil]

/-- A key holds the method, the target and the partition of its request and nothing else. -/
theorem ofRequest_eq_iff {r r' : Request} :
    ofRequest r = ofRequest r' ↔
      r.method = r'.method ∧ r.uri = r'.uri ∧ partition r = partition r' := by
  constructor
  · intro h
    have hmethod := method_eq h
    have htext := congrArg (fun k : Key => k.text.toList) h
    simp only [toList_ofRequest, hmethod] at htext
    have hrest := (List.cons.inj (List.append_cancel_left htext)).2
    have huri : r.uri.text.toList = r'.uri.text.toList := by
      rw [← takeWhile_uri r.uri (partition r), hrest, takeWhile_uri]
    rw [huri] at hrest
    exact ⟨hmethod, Uri.text_inj (String.toList_inj.1 huri),
      ending_inj (List.append_cancel_left hrest)⟩
  · rintro ⟨hmethod, huri, hpartition⟩
    have htext : (ofRequest r).text = (ofRequest r').text := by
      rw [← String.toList_inj, toList_ofRequest, toList_ofRequest, hmethod, huri, hpartition]
    exact congrArg Key.mk htext

end Partition

end Key

/-! ## Requests set apart -/

/-- The request is set apart by the credential `a`: its first `Cache-Control` value is the word
`private` in any case, perhaps with blanks around it, and its first `Authorization` value is `a`,
which is not empty. Both are visible ASCII. -/
structure Request.SetApartBy (r : Request) (a : List Char) : Prop where
  isPrivate : ∃ v before word after, r.headers.first? .cacheControl = some v
    ∧ v.visible? = some (before ++ word ++ after)
    ∧ (∀ c ∈ before ++ after, Text.isBlank c = true) ∧ Text.lower word = "private".toList
  credential : ∃ v, r.headers.first? .authorization = some v ∧ v.visible? = some a
  nonempty : a ≠ []

namespace Key

open Text

/-- A text is private if it is this word in any case, with blanks around it. -/
theorem isPrivate_iff {s : List Char} :
    isPrivate s = true ↔
      ∃ before word after, s = before ++ word ++ after
        ∧ (∀ c ∈ before ++ after, isBlank c = true) ∧ lower word = "private".toList := by
  have hlower : lower "private".toList = "private".toList := by decide
  rw [isPrivate, sameIgnoringCase, beq_iff_eq, hlower]
  constructor
  · intro hword
    obtain ⟨before, after, hs, hblanks⟩ := exists_eq_surround_trim s
    exact ⟨before, trim s, after, hs, hblanks, hword⟩
  · rintro ⟨before, word, after, rfl, hblanks, hword⟩
    have hletters : ∀ c ∈ word, isBlank c = false := by
      intro c hc
      have hmem : c.toLower ∈ "private".toList := hword ▸ List.mem_map_of_mem hc
      have hnone : "private".toList.any isBlank = false := by decide
      rw [← isBlank_toLower]
      exact Bool.eq_false_iff.2 (List.any_eq_false.1 hnone _ hmem)
    rw [trim_surround (fun c hc => hblanks c (List.mem_append_left _ hc))
      (fun c hc => hblanks c (List.mem_append_right _ hc)), trim_eq_self hletters, hword]

theorem partition_eq_some_iff {r : Request} {a : List Char} :
    partition r = some a ↔ r.SetApartBy a := by
  unfold partition partition? Headers.firstText?
  constructor
  · intro h
    split at h
    · rename_i hprivate
      obtain ⟨s, hs, hword⟩ := (Option.any_eq_true _ _).1 hprivate
      obtain ⟨v, hv, hvisible⟩ := Option.bind_eq_some_iff.1 hs
      obtain ⟨before, word, after, rfl, hblanks, hlower⟩ := isPrivate_iff.1 hword
      obtain ⟨ha, hnonempty⟩ := Option.filter_eq_some_iff.1 h
      exact ⟨⟨v, before, word, after, hv, hvisible, hblanks, hlower⟩, Option.bind_eq_some_iff.1 ha,
        by simpa using hnonempty⟩
    · cases h
  · rintro ⟨⟨v, before, word, after, hv, hvisible, hblanks, hlower⟩, hcredential, hnonempty⟩
    have hword : isPrivate (before ++ word ++ after) = true :=
      isPrivate_iff.2 ⟨before, word, after, rfl, hblanks, hlower⟩
    rw [hv, Option.bind_some, hvisible, Option.any_some, hword, if_pos rfl,
      Option.filter_eq_some_iff]
    exact ⟨Option.bind_eq_some_iff.2 hcredential, by simpa using hnonempty⟩

/-- A key identifies what a request is for. Two requests have the same key exactly if their methods
are the same, case included, their targets are, and so is the credential that sets them apart, or if
nothing sets either apart. In particular a request that is set apart never has the key of one that
is not, whatever its credential contains: blanks, methods or targets. -/
theorem same_key_iff (r r' : Request) :
    (ofRequest r = ofRequest r' ↔
        r.method.name = r'.method.name ∧ r.uri.text = r'.uri.text
          ∧ ∀ a, r.SetApartBy a ↔ r'.SetApartBy a)
      ∧ ∀ a, r.SetApartBy a → (∀ a', ¬ r'.SetApartBy a') → ofRequest r ≠ ofRequest r' := by
  have hsame : partition r = partition r' ↔ ∀ a, r.SetApartBy a ↔ r'.SetApartBy a := by
    rw [Option.ext_iff]
    exact forall_congr' fun a => iff_congr partition_eq_some_iff partition_eq_some_iff
  constructor
  · rw [ofRequest_eq_iff, hsame]
    constructor
    · rintro ⟨hmethod, huri, hcredential⟩
      exact ⟨congrArg Method.name hmethod, congrArg Uri.text huri, hcredential⟩
    · rintro ⟨hmethod, huri, hcredential⟩
      exact ⟨Method.name_inj hmethod, Uri.text_inj huri, hcredential⟩
  · intro a ha hnone hkey
    exact hnone a ((hsame.1 (ofRequest_eq_iff.1 hkey).2.2 a).1 ha)

end Key

end ResponseCache
