import ResponseCache.Message.Token

/-!
# Header fields

Header names are tokens in lower case, header values are octets without controls but the tab. A
collection of header fields keeps the names in the order of their first appearance and under each
name its values in the order in which they came. It has room for so many names, and once they are
all there it takes no further value, not even under one of them.
-/

namespace ResponseCache

/-- Whether octets make a header name: a token without capitals, of at most 65535 octets. -/
def isHeaderName (bytes : Bytes) : Bool :=
  !bytes.isEmpty && bytes.length < 65536
    && bytes.all fun b => isTokenByte b && !(0x41 ≤ b && b ≤ 0x5a)

/-- A header name. -/
structure HeaderName where
  bytes : Bytes
  legal : isHeaderName bytes = true

instance : DecidableEq HeaderName := fun m n =>
  decidable_of_iff (m.bytes.same n.bytes = true) (by
    rw [Bytes.same_iff, HeaderName.mk.injEq])

/-- The octet with a capital letter made small. -/
def lowerByte (b : UInt8) : UInt8 :=
  if 0x41 ≤ b ∧ b ≤ 0x5a then b + 0x20 else b

namespace HeaderName

/-- The header name that octets give in any case. -/
def ofBytes? (bytes : Bytes) : Option HeaderName :=
  let lowered := bytes.map lowerByte
  if h : isHeaderName lowered = true then some ⟨lowered, h⟩ else none

/-! The header names that the cache reads. -/

def cacheControl : HeaderName := ⟨Bytes.ofText "cache-control", by decide⟩
def expires : HeaderName := ⟨Bytes.ofText "expires", by decide⟩
def date : HeaderName := ⟨Bytes.ofText "date", by decide⟩
def lastModified : HeaderName := ⟨Bytes.ofText "last-modified", by decide⟩
def authorization : HeaderName := ⟨Bytes.ofText "authorization", by decide⟩
def contentLength : HeaderName := ⟨Bytes.ofText "content-length", by decide⟩

end HeaderName

/-- Whether an octet may stand in a header value. -/
def isValueByte (b : UInt8) : Bool :=
  b == 9 || (0x20 ≤ b && b != 0x7f)

structure HeaderValue where
  bytes : Bytes
  legal : bytes.all isValueByte = true
deriving DecidableEq

namespace HeaderValue

def ofBytes? (bytes : Bytes) : Option HeaderValue :=
  if h : bytes.all isValueByte = true then some ⟨bytes, h⟩ else none

/-- The header value that a text gives in UTF-8. -/
def ofText? (s : String) : Option HeaderValue :=
  ofBytes? (Bytes.ofText s)

/-- The text of a value that is visible ASCII. -/
def visible? (v : HeaderValue) : Option (List Char) :=
  v.bytes.visible?

end HeaderValue

/-- All fields of one name: the first value and the further ones. -/
structure HeaderField where
  name : HeaderName
  first : HeaderValue
  more : List HeaderValue
deriving DecidableEq

namespace HeaderField

def values (f : HeaderField) : List HeaderValue :=
  f.first :: f.more

/-- The fields with one more value under `name`. -/
def append (name : HeaderName) (value : HeaderValue) : List HeaderField → List HeaderField
  | [] => [⟨name, value, []⟩]
  | f :: fs =>
    if f.name = name then ⟨f.name, f.first, f.more ++ [value]⟩ :: fs
    else f :: append name value fs

/-- Appending a value adds a name at the end, and only if it is new. -/
theorem map_name_append (name : HeaderName) (value : HeaderValue) (fs : List HeaderField) :
    (append name value fs).map HeaderField.name
      = if name ∈ fs.map HeaderField.name then fs.map HeaderField.name
        else fs.map HeaderField.name ++ [name] := by
  induction fs with
  | nil => simp [append]
  | cons f fs ih =>
    by_cases h : f.name = name
    · simp [append, h]
    · have h' : ¬ name = f.name := fun e => h e.symm
      simp only [append, h, if_false, List.map_cons, ih, List.mem_cons, h', false_or]
      split <;> simp

/-- Appending a value keeps the names distinct. -/
theorem nodup_append {name : HeaderName} {value : HeaderValue} {fs : List HeaderField}
    (h : (fs.map HeaderField.name).Nodup) :
    ((append name value fs).map HeaderField.name).Nodup := by
  rw [map_name_append]
  split
  · exact h
  · rename_i hn
    refine List.nodup_append.2 ⟨h, by simp, ?_⟩
    intro a ha b hb e
    simp only [List.mem_singleton] at hb
    exact hn (hb ▸ e ▸ ha)

/-- A new name starts a field at the end. -/
theorem append_of_not_mem {name : HeaderName} {value : HeaderValue} {fs : List HeaderField}
    (h : name ∉ fs.map HeaderField.name) :
    append name value fs = fs ++ [⟨name, value, []⟩] := by
  induction fs with
  | nil => rfl
  | cons f fs ih =>
    rw [List.map_cons, List.mem_cons, not_or] at h
    rw [append, if_neg (Ne.symm h.1), ih h.2]
    rfl

/-- How many names a collection has room for. -/
def capacity : Nat := 24576

/-- The fields can have come one value after another: there are fewer names than a collection has
room for, or just as many, and then the last name has one value, for no other came after it. -/
def Fit (fs : List HeaderField) : Prop :=
  fs.length < capacity ∨ fs.length = capacity ∧ ∀ f ∈ fs.getLast?, f.more = []

/-- The fields with one more value under `name`, if they are fewer than `room`. One pass finds both
the name and whether there is room. -/
def append? (name : HeaderName) (value : HeaderValue) :
    (room : Nat) → List HeaderField → Option (List HeaderField)
  | 0, _ => none
  | _ + 1, [] => some [⟨name, value, []⟩]
  | room + 1, f :: fs =>
    if f.name = name then
      if fs.length < room then some (⟨f.name, f.first, f.more ++ [value]⟩ :: fs) else none
    else (append? name value room fs).map (f :: ·)

theorem append?_eq (name : HeaderName) (value : HeaderValue) (room : Nat)
    (fs : List HeaderField) :
    append? name value room fs
      = if fs.length < room then some (append name value fs) else none := by
  induction room, fs using append?.induct name with
  | case1 fs => simp [append?]
  | case2 room => simp [append?, append]
  | case3 room f fs hname hroom => simp [append?, append, hname, hroom]
  | case4 room f fs hname hroom => simp [append?, hname, hroom]
  | case5 room f fs hname ih =>
    rw [append?, if_neg hname, ih, append, if_neg hname]
    by_cases hroom : fs.length < room <;> simp [hroom]

/-- A value that finds room leaves fields that can have come one value after another. -/
theorem fit_append {name : HeaderName} {value : HeaderValue} {fs : List HeaderField}
    (h : fs.length < capacity) : Fit (append name value fs) := by
  by_cases hn : name ∈ fs.map HeaderField.name
  · have hlength := congrArg List.length (map_name_append name value fs)
    rw [if_pos hn, List.length_map, List.length_map] at hlength
    exact .inl (hlength ▸ h)
  · rw [append_of_not_mem hn]
    rcases Nat.lt_or_eq_of_le (Nat.succ_le_of_lt h) with hlt | heq
    · exact .inl (by simpa using hlt)
    · exact .inr ⟨by simpa using heq, by simp⟩

variable {name : HeaderName} {value : HeaderValue} {room : Nat} {fs gs : List HeaderField}

theorem append?_eq_some_iff :
    append? name value room fs = some gs ↔ fs.length < room ∧ append name value fs = gs := by
  rw [append?_eq, Option.ite_none_right_eq_some, Option.some.injEq]

theorem nodup_of_append? (h : (fs.map HeaderField.name).Nodup)
    (hgs : append? name value room fs = some gs) : (gs.map HeaderField.name).Nodup :=
  (append?_eq_some_iff.1 hgs).2 ▸ nodup_append h

theorem fit_of_append? (hgs : append? name value capacity fs = some gs) : Fit gs :=
  (append?_eq_some_iff.1 hgs).2 ▸ fit_append (append?_eq_some_iff.1 hgs).1

end HeaderField

/-- A collection of header fields. -/
structure Headers where
  fields : List HeaderField
  distinct : (fields.map HeaderField.name).Nodup
  fit : HeaderField.Fit fields
deriving DecidableEq

namespace Headers

def empty : Headers := ⟨[], List.nodup_nil, .inl (by decide)⟩

/-- Whether a collection takes a further value. -/
def HasRoom (h : Headers) : Prop :=
  h.fields.length < HeaderField.capacity

instance (h : Headers) : Decidable h.HasRoom :=
  inferInstanceAs (Decidable (_ < _))

/-- The collection with a further value, where there is room. -/
def append (h : Headers) (name : HeaderName) (value : HeaderValue) (hroom : h.HasRoom) : Headers :=
  ⟨HeaderField.append name value h.fields, HeaderField.nodup_append h.distinct,
    HeaderField.fit_append hroom⟩

theorem hasRoom_empty : empty.HasRoom := by decide

theorem hasRoom_append_empty (name : HeaderName) (value : HeaderValue) :
    (empty.append name value hasRoom_empty).HasRoom :=
  show 1 < HeaderField.capacity by decide

/-- The collection with a further value, if it takes one. -/
def append? (h : Headers) (name : HeaderName) (value : HeaderValue) : Option Headers :=
  match taken : HeaderField.append? name value HeaderField.capacity h.fields with
  | some fs =>
    some ⟨fs, HeaderField.nodup_of_append? h.distinct taken, HeaderField.fit_of_append? taken⟩
  | none => none

/-- The collection of name and value pairs, taken one after another, if it takes them all. -/
def ofList? (pairs : List (HeaderName × HeaderValue)) : Option Headers :=
  pairs.foldlM (fun h p => h.append? p.1 p.2) empty

def toList (h : Headers) : List (HeaderName × HeaderValue) :=
  h.fields.flatMap fun f => f.values.map fun v => (f.name, v)

def values (h : Headers) (name : HeaderName) : List HeaderValue :=
  match h.fields.find? fun f => f.name = name with
  | some f => f.values
  | none => []

def first? (h : Headers) (name : HeaderName) : Option HeaderValue :=
  (h.values name).head?

/-- The text of the first value under `name`, if it is visible ASCII. -/
def firstText? (h : Headers) (name : HeaderName) : Option (List Char) :=
  (h.first? name).bind HeaderValue.visible?

end Headers

end ResponseCache
