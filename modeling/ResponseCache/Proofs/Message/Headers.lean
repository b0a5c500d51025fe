import ResponseCache.Cache.Answer
import ResponseCache.Proofs.Text.Printable

/-!
# Collections of header fields

A collection takes a further value as long as it has room (`append?_eq_some_iff`). Appending changes
what is under the value's own name and nothing else (`values_append`), so the markers of a served
response leave all that was there in place (`values_of_decorate?`), and whether there is room for
them is a matter of the names alone (`exists_decorate?_iff`).

A collection is rebuilt from its pairs in order (`ofList?_toList`): the values of a name stand next
to each other in the list, so that each field is opened by its first value and completed by the
others before the next name comes. Room for all of them was there once, and so it is again (`Fit`).
-/

namespace ResponseCache

namespace HeaderField

variable {name other : HeaderName} {value : HeaderValue} {fs : List HeaderField}

/-- A value of the last name joins the last field. -/
theorem append_last {first : HeaderValue} {more : List HeaderValue}
    (h : name ∉ fs.map HeaderField.name) :
    append name value (fs ++ [⟨name, first, more⟩]) = fs ++ [⟨name, first, more ++ [value]⟩] := by
  induction fs with
  | nil => simp [append]
  | cons f fs ih =>
    rw [List.map_cons, List.mem_cons, not_or] at h
    rw [List.cons_append, append, if_neg (Ne.symm h.1), ih h.2]
    rfl

/-- In front of a further field there is room for its name. -/
theorem lt_capacity_of_fit {f : HeaderField} {gs : List HeaderField} (h : Fit (fs ++ f :: gs)) :
    fs.length < capacity := by
  rw [Fit, List.length_append, List.length_cons] at h
  omega

/-- If a further field has more than one value, there is room behind its name. -/
theorem succ_lt_capacity_of_fit {f : HeaderField} {gs : List HeaderField}
    (h : Fit (fs ++ f :: gs)) (hmore : f.more ≠ []) : fs.length + 1 < capacity := by
  rw [Fit, List.length_append, List.length_cons] at h
  rcases h with hlt | ⟨heq, hlast⟩
  · omega
  · cases gs with
    | nil => exact absurd (hlast f (by simp)) hmore
    | cons g gs =>
      rw [List.length_cons] at heq
      omega

theorem find?_append_of_ne (h : other ≠ name) :
    (append name value fs).find? (fun f => f.name = other)
      = fs.find? (fun f => f.name = other) := by
  induction fs with
  | nil => simp [append, h.symm]
  | cons f fs ih =>
    by_cases hf : f.name = name
    · have hne : f.name ≠ other := fun e => h (e.symm.trans hf)
      simp [append, hf, h.symm]
    · rw [append, if_neg hf, List.find?_cons, List.find?_cons, ih]

theorem find?_append_self :
    ((append name value fs).find? (fun f => f.name = name)).map values
      = some (((fs.find? (fun f => f.name = name)).map values).getD [] ++ [value]) := by
  induction fs with
  | nil => simp [append, values]
  | cons f fs ih =>
    by_cases hf : f.name = name
    · simp [append, hf, values]
    · rw [append, if_neg hf, List.find?_cons_of_neg (by simpa using hf),
        List.find?_cons_of_neg (by simpa using hf), ih]

end HeaderField

namespace Headers

open HeaderField

theorem ext {h h' : Headers} (hf : h.fields = h'.fields) : h = h' := by
  cases h
  cases h'
  cases hf
  rfl

theorem values_eq (h : Headers) (name : HeaderName) :
    h.values name = ((h.fields.find? fun f => f.name = name).map HeaderField.values).getD [] := by
  unfold values
  split <;> rename_i hf <;> rw [hf] <;> rfl

theorem append?_eq (h : Headers) (name : HeaderName) (value : HeaderValue) :
    h.append? name value
      = if hroom : h.HasRoom then some (h.append name value hroom) else none := by
  have hfields := HeaderField.append?_eq name value capacity h.fields
  unfold append?
  split
  · rename_i fs taken
    obtain ⟨hroom, rfl⟩ := HeaderField.append?_eq_some_iff.1 taken
    rw [dif_pos (show h.HasRoom from hroom)]
    rfl
  · rename_i refused
    have hfull : ¬ h.HasRoom := fun hroom => by
      rw [refused, if_pos (show h.fields.length < capacity from hroom)] at hfields
      cases hfields
    rw [dif_neg hfull]

theorem append?_eq_some_iff {h h' : Headers} {name : HeaderName} {value : HeaderValue} :
    h.append? name value = some h' ↔ ∃ hroom, h.append name value hroom = h' := by
  rw [append?_eq]
  split <;> simp [*]

theorem append?_eq_none_iff {h : Headers} {name : HeaderName} {value : HeaderValue} :
    h.append? name value = none ↔ ¬ h.HasRoom := by
  rw [append?_eq]
  split <;> simp [*]

section Append

variable (h : Headers) (name other : HeaderName) (value : HeaderValue) (hroom : h.HasRoom)

/-- Appending a value adds it behind the others of its name and leaves all other names alone. -/
theorem values_append :
    (h.append name value hroom).values other
      = h.values other ++ if other = name then [value] else [] := by
  rw [values_eq, values_eq, append]
  by_cases hn : other = name
  · subst hn
    rw [find?_append_self, if_pos rfl, Option.getD_some]
  · rw [find?_append_of_ne hn, if_neg hn, List.append_nil]

/-- Appending keeps the names that are there in their order, and a new one comes last. -/
theorem map_name_append :
    (h.append name value hroom).fields.map HeaderField.name
      = h.fields.map HeaderField.name
        ++ if name ∈ h.fields.map HeaderField.name then [] else [name] := by
  rw [append, HeaderField.map_name_append]
  split <;> simp

theorem length_append :
    (h.append name value hroom).fields.length
      = h.fields.length + if name ∈ h.fields.map HeaderField.name then 0 else 1 := by
  have hlength := congrArg List.length (h.map_name_append name value hroom)
  rw [List.length_map, List.length_append, List.length_map] at hlength
  rw [hlength]
  split <;> rfl

end Append

/-! ## Rebuilding a collection -/

section Rebuild

theorem fields_append? (h : Headers) (name : HeaderName) (value : HeaderValue) :
    (h.append? name value).map Headers.fields
      = HeaderField.append? name value capacity h.fields := by
  rw [append?_eq, HeaderField.append?_eq]
  by_cases hroom : h.fields.length < capacity
  · rw [dif_pos (show h.HasRoom from hroom), if_pos hroom]
    rfl
  · rw [dif_neg (show ¬ h.HasRoom from hroom), if_neg hroom]
    rfl

theorem fields_foldlM_append? (pairs : List (HeaderName × HeaderValue)) (h : Headers) :
    (pairs.foldlM (fun h p => Headers.append? h p.1 p.2) h).map Headers.fields
      = pairs.foldlM (fun fs p => HeaderField.append? p.1 p.2 capacity fs) h.fields := by
  induction pairs generalizing h with
  | nil => rfl
  | cons p pairs ih =>
    rw [List.foldlM_cons, List.foldlM_cons, ← fields_append?]
    cases h.append? p.1 p.2 with
    | none => rfl
    | some h' => exact ih h'

variable {fs gs : List HeaderField} {name : HeaderName} {first : HeaderValue}

/-- The further values of a name complete the field that its first value opened. -/
theorem foldlM_append?_more (h : name ∉ fs.map HeaderField.name) (done : List HeaderValue)
    {more : List HeaderValue} (hroom : more ≠ [] → fs.length + 1 < capacity) :
    (more.map fun v => (name, v)).foldlM (fun fs p => HeaderField.append? p.1 p.2 capacity fs)
        (fs ++ [⟨name, first, done⟩])
      = some (fs ++ [⟨name, first, done ++ more⟩]) := by
  induction more generalizing done with
  | nil => simp
  | cons v more ih =>
    have hlength : (fs ++ [(⟨name, first, done⟩ : HeaderField)]).length < capacity := by
      simpa using hroom (List.cons_ne_nil v more)
    rw [List.map_cons, List.foldlM_cons, HeaderField.append?_eq, if_pos hlength, append_last h]
    exact (ih (done ++ [v]) fun _ => hroom (List.cons_ne_nil v more)).trans
      (by rw [List.append_assoc, List.singleton_append])

/-- The pairs of further fields put these fields behind the ones that are there, as long as all
names differ and all of them together can have come one value after another. -/
theorem foldlM_append?_fields (h : ((fs ++ gs).map HeaderField.name).Nodup)
    (hfit : Fit (fs ++ gs)) :
    (gs.flatMap fun f => f.values.map fun v => (f.name, v)).foldlM
        (fun fs p => HeaderField.append? p.1 p.2 capacity fs) fs
      = some (fs ++ gs) := by
  induction gs generalizing fs with
  | nil => simp
  | cons g gs ih =>
    have hnew : g.name ∉ fs.map HeaderField.name := by
      rw [List.map_append, List.map_cons, List.nodup_append] at h
      exact fun hmem => h.2.2 _ hmem _ List.mem_cons_self rfl
    have hsplit : fs ++ g :: gs = fs ++ [g] ++ gs := by
      rw [List.append_assoc, List.singleton_append]
    have hroom : fs.length < capacity := lt_capacity_of_fit hfit
    have hmore : g.more ≠ [] → fs.length + 1 < capacity := succ_lt_capacity_of_fit hfit
    rw [List.flatMap_cons, List.foldlM_append, HeaderField.values, List.map_cons, List.foldlM_cons,
      HeaderField.append?_eq, if_pos hroom, append_of_not_mem hnew]
    show ((g.more.map fun v => (g.name, v)).foldlM _ (fs ++ [⟨g.name, g.first, []⟩]) >>= _) = _
    rw [foldlM_append?_more hnew [] hmore, List.nil_append, hsplit]
    exact ih (hsplit ▸ h) (hsplit ▸ hfit)

/-- A collection is rebuilt from its pairs in order. -/
theorem ofList?_toList (h : Headers) : ofList? h.toList = some h := by
  have hfields := fields_foldlM_append? h.toList empty
  have hrebuilt : h.toList.foldlM (fun fs p => HeaderField.append? p.1 p.2 capacity fs)
      empty.fields = some h.fields :=
    foldlM_append?_fields h.distinct h.fit
  rw [hrebuilt, Option.map_eq_some_iff] at hfields
  obtain ⟨h', hh', he⟩ := hfields
  rw [ofList?, hh', ext he]

end Rebuild

/-! ## Markers -/

section Decorate

/-- The values that `name` gets in a response served from a storage of tag `origin`, where `date` is
the time of writing: one under each marker, none elsewhere. -/
def markersUnder (date : HeaderValue) (origin : String) (name : HeaderName) : List HeaderValue :=
  if name = Marker.storedAt then [date]
  else if name = Marker.served then [Marker.yes]
  else if name = Marker.origin then [(HeaderValue.ofText? origin).getD Marker.unknown]
  else []

variable {h g : Headers} (storedAt : Instant) (origin : String)

/-- Every time of writing can be a header value, so that it is always three markers that are
added. -/
theorem decorate?_eq :
    ∃ date, HeaderValue.ofText? (String.ofList storedAt.httpDate) = some date
      ∧ ∀ h : Headers, h.decorate? storedAt origin
        = (h.append? Marker.storedAt date).bind fun dated =>
          (dated.append? Marker.served Marker.yes).bind fun served =>
            served.append? Marker.origin ((HeaderValue.ofText? origin).getD Marker.unknown) := by
  obtain ⟨date, hdate⟩ := HeaderValue.exists_ofText? storedAt.printable_httpDate
  refine ⟨date, hdate, fun h => ?_⟩
  rw [decorate?, hdate]
  rfl

variable {storedAt origin}

/-- The markers that are added one after another. -/
theorem exists_of_decorate? (hg : h.decorate? storedAt origin = some g) :
    ∃ date, HeaderValue.ofText? (String.ofList storedAt.httpDate) = some date
      ∧ ∃ hdated hserved hmarked,
        ((h.append Marker.storedAt date hdated).append Marker.served Marker.yes hserved).append
          Marker.origin ((HeaderValue.ofText? origin).getD Marker.unknown) hmarked = g := by
  obtain ⟨date, hdate, heq⟩ := decorate?_eq storedAt origin
  rw [heq] at hg
  simp only [Option.bind_eq_some_iff, append?_eq_some_iff] at hg
  obtain ⟨_, ⟨hdated, rfl⟩, _, ⟨hserved, rfl⟩, hmarked, hg⟩ := hg
  exact ⟨date, hdate, hdated, hserved, hmarked, hg⟩

/-- A served response has all values that were kept, in their order, and behind them one value under
each of the three markers. -/
theorem values_of_decorate? (hg : h.decorate? storedAt origin = some g) :
    ∃ date, HeaderValue.ofText? (String.ofList storedAt.httpDate) = some date
      ∧ ∀ name, g.values name = h.values name ++ markersUnder date origin name := by
  obtain ⟨date, hdate, hdated, hserved, hmarked, rfl⟩ := exists_of_decorate? hg
  refine ⟨date, hdate, fun name => ?_⟩
  have hds : Marker.storedAt ≠ Marker.served := by decide
  have hdo : Marker.storedAt ≠ Marker.origin := by decide
  have hso : Marker.served ≠ Marker.origin := by decide
  rw [values_append, values_append, values_append, List.append_assoc, List.append_assoc]
  refine congrArg (h.values name ++ ·) ?_
  unfold markersUnder
  by_cases h1 : name = Marker.storedAt
  · subst h1
    simp only [if_true, hds, hdo, if_false, List.append_nil]
  · by_cases h2 : name = Marker.served
    · subst h2
      simp only [h1, hso, if_true, if_false, List.append_nil, List.nil_append]
    · simp only [h1, h2, if_false, List.nil_append]

/-- The names of a served response are those that were kept, in their order, and then markers. -/
theorem names_of_decorate? (hg : h.decorate? storedAt origin = some g) :
    h.fields.map HeaderField.name <+: g.fields.map HeaderField.name := by
  obtain ⟨date, -, hdated, hserved, hmarked, rfl⟩ := exists_of_decorate? hg
  rw [map_name_append, map_name_append, map_name_append, List.append_assoc, List.append_assoc]
  exact List.prefix_append _ _

/-- How many names the collection has once the first two markers are there. -/
def dressedLength (h : Headers) : Nat :=
  h.fields.length + (if Marker.storedAt ∈ h.fields.map HeaderField.name then 0 else 1)
    + if Marker.served ∈ h.fields.map HeaderField.name then 0 else 1

/-- The markers find room exactly if there is room once the first two are there: the third needs it
even if its name is among the kept ones. -/
theorem exists_decorate?_iff (h : Headers) (storedAt : Instant) (origin : String) :
    (∃ g, h.decorate? storedAt origin = some g) ↔ h.dressedLength < capacity := by
  obtain ⟨date, -, heq⟩ := decorate?_eq storedAt origin
  have hdressed : ∀ hdated hserved,
      ((h.append Marker.storedAt date hdated).append Marker.served Marker.yes hserved).fields.length
        = h.dressedLength := fun hdated hserved => by
    have hne : Marker.served ≠ Marker.storedAt := by decide
    rw [length_append, length_append, map_name_append, dressedLength]
    split <;> simp [hne]
  rw [heq]
  simp only [Option.bind_eq_some_iff, append?_eq_some_iff]
  constructor
  · rintro ⟨_, _, ⟨hdated, rfl⟩, _, ⟨hserved, rfl⟩, hmarked, -⟩
    rw [HasRoom, hdressed] at hmarked
    exact hmarked
  · intro hroom
    have hle : h.fields.length ≤ h.dressedLength := by
      unfold dressedLength
      omega
    have hdated : h.HasRoom := Nat.lt_of_le_of_lt hle hroom
    have hserved : (h.append Marker.storedAt date hdated).HasRoom := by
      rw [HasRoom, length_append]
      unfold dressedLength at hroom
      omega
    have hmarked : ((h.append Marker.storedAt date hdated).append Marker.served Marker.yes
        hserved).HasRoom := by
      rw [HasRoom, hdressed]
      exact hroom
    exact ⟨_, _, ⟨hdated, rfl⟩, _, ⟨hserved, rfl⟩, hmarked, rfl⟩

end Decorate

end Headers

namespace Response

variable {p q : Response} {storedAt : Instant} {origin : String}

theorem marked?_eq_some_iff :
    p.marked? storedAt origin = some q ↔
      ∃ headers, p.headers.decorate? storedAt origin = some headers
        ∧ { p with headers := headers } = q :=
  Option.map_eq_some_iff

/-- A response can be served exactly if the kept names and the first two markers leave room for the
third. -/
theorem exists_marked?_iff (p : Response) (storedAt : Instant) (origin : String) :
    (∃ q, p.marked? storedAt origin = some q) ↔ p.headers.dressedLength < HeaderField.capacity := by
  rw [← p.headers.exists_decorate?_iff storedAt origin]
  simp only [marked?_eq_some_iff]
  constructor
  · rintro ⟨q, headers, hheaders, -⟩
    exact ⟨headers, hheaders⟩
  · rintro ⟨headers, hheaders⟩
    exact ⟨_, headers, hheaders, rfl⟩

theorem marked?_eq_none_iff :
    p.marked? storedAt origin = none ↔ HeaderField.capacity ≤ p.headers.dressedLength := by
  rw [← Nat.not_lt, ← p.exists_marked?_iff storedAt origin, ← Option.ne_none_iff_exists']
  exact Decidable.not_not.symm

end Response

end ResponseCache
