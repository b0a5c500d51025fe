import ResponseCache.Proofs.Decimal.Natural
import ResponseCache.Proofs.Except
import ResponseCache.Proofs.Message.Headers
import ResponseCache.Proofs.Wire.Lines

/-!
# The wire form read back

What is written of a response is read back: version, status and all header fields in their order,
for every response and whatever the method (`decode_encode`). Only the body depends on more than
itself: the reader frames it by the method, the status and the response's own `Content-Length`,
which need not be the length of the body that was written. `LengthFits` says when it is, and that is
exactly when the body comes back whole (`body_decode_encode_iff`).
-/

namespace ResponseCache

theorem Version.ofName?_name (v : Version) : ofName? v.name = some v := by
  cases v <;> decide

theorem Status.of?_code (s : Status) : of? s.code = some s := by
  rw [of?, dif_pos ⟨s.code_ge, s.code_lt⟩]

theorem Status.printable_reason (s : Status) :
    (s.reason?.getD "").toList.all isPrintable = true := by
  unfold reason? reasonOf
  split <;> decide +kernel

namespace Wire

/-! ## The status line -/

section StatusLine

/-- The characters of the status line. -/
def statusText (r : Response) : List Char :=
  r.version.name.toList ++ ' ' :: (Decimal.digits r.status.code ++ ' ' ::
    (r.status.reason?.getD "").toList)

theorem statusLine_eq (r : Response) :
    statusLine r = Bytes.ofText (String.ofList (statusText r)) := by
  refine congrArg Bytes.ofText (String.toList_inj.1 ?_)
  rw [String.toList_ofList, statusText]
  simp [String.toList_append, Status.codeText, Decimal.digits]

theorem printable_statusText (r : Response) : (statusText r).all isPrintable = true := by
  have hversion : r.version.name.toList.all isPrintable = true := by
    cases r.version <;> decide
  have hblank : isPrintable ' ' = true := by decide
  simp only [statusText, List.all_append, List.all_cons, hversion, hblank,
    Decimal.printable_digits, Status.printable_reason, Bool.and_self]

theorem statusCode?_digits (s : Status) : statusCode? (Decimal.digits s.code) = some s := by
  rw [statusCode?, Decimal.length_digits_eq_three s.code_ge s.code_lt, Decimal.value?_digits]
  exact Status.of?_code s

theorem readStatusLine_statusLine (r : Response) :
    readStatusLine (statusLine r) = .ok (r.version, r.status) := by
  have hblank : ∀ c, (c != ' ') = true ↔ c ≠ ' ' := fun c => bne_iff_ne
  have hname : ∀ c ∈ r.version.name.toList, (c != ' ') = true :=
    List.all_eq_true.1 (by cases r.version <;> decide)
  have hcode : ∀ c ∈ Decimal.digits r.status.code, (c != ' ') = true := fun c hc => by
    have := Decimal.isDigit_of_mem_digits hc
    exact (hblank c).2 fun e => by subst e; exact absurd this (by decide)
  have hversion : (statusText r).takeWhile (· != ' ') = r.version.name.toList := by
    rw [statusText, List.takeWhile_append_of_pos hname, List.takeWhile_cons_of_neg (by decide),
      List.append_nil]
  have hstatus : ((statusText r).dropWhile (· != ' ')).tail.takeWhile (· != ' ')
      = Decimal.digits r.status.code := by
    rw [statusText, List.dropWhile_append_of_pos hname, List.dropWhile_cons_of_neg (by decide),
      List.tail_cons, List.takeWhile_append_of_pos hcode,
      List.takeWhile_cons_of_neg (by decide), List.append_nil]
  rw [statusLine_eq]
  simp [readStatusLine, Bytes.ofUtf8?_ofText (printable_statusText r), hversion, hstatus,
    Version.ofName?_name, statusCode?_digits]

theorem isLine_statusLine (r : Response) : IsLine (statusLine r) := by
  have hge : ∀ b ∈ statusLine r, 0x20 ≤ b.toNat := fun b hb =>
    (Bytes.le_of_mem_ofText (printable_statusText r) (statusLine_eq r ▸ hb)).1
  refine ⟨?_, fun h => ?_, fun h => ?_⟩
  · rw [statusLine_eq, Bytes.ofText_eq (printable_statusText r)]
    simp [statusText]
  · exact absurd (hge 13 h) (by decide)
  · exact absurd (hge 10 h) (by decide)

end StatusLine

/-! ## Header lines -/

section HeaderLines

theorem tokenByte_of_mem {name : HeaderName} {b : UInt8} (h : b ∈ name.bytes) :
    isTokenByte b = true ∧ ¬ (0x41 ≤ b ∧ b ≤ 0x5a) := by
  have hlegal := name.legal
  simp only [isHeaderName, Bool.and_eq_true] at hlegal
  have hb := List.all_eq_true.1 hlegal.2 b h
  simp only [Bool.and_eq_true, Bool.not_eq_true', Bool.and_eq_false_iff,
    decide_eq_false_iff_not] at hb
  refine ⟨hb.1, fun hcap => ?_⟩
  rcases hb.2 with h1 | h1
  · exact h1 hcap.1
  · exact h1 hcap.2

/-- A header name has no capitals, so it is read back as it is. -/
theorem ofBytes?_bytes (name : HeaderName) : HeaderName.ofBytes? name.bytes = some name := by
  have hlower : name.bytes.map lowerByte = name.bytes := by
    refine (List.map_congr_left fun b hb => ?_).trans (List.map_id _)
    rw [lowerByte, if_neg (tokenByte_of_mem hb).2]
    rfl
  unfold HeaderName.ofBytes?
  simp only [hlower, name.legal, dif_pos]

theorem valueByte_of_mem {value : HeaderValue} {b : UInt8} (h : b ∈ value.bytes) :
    isValueByte b = true :=
  List.all_eq_true.1 value.legal b h

/-- A header line ends its name at the first colon and keeps the blanks of its value but for the one
that the writer puts in front. -/
theorem readHeaderLine_headerLine (name : HeaderName) (value : HeaderValue) :
    readHeaderLine (headerLine name value) = .ok (name, value) := by
  have hcolon : ∀ b ∈ name.bytes, (b != 0x3a) = true := fun b hb => by
    refine bne_iff_ne.2 fun e => ?_
    subst e
    exact absurd (tokenByte_of_mem hb).1 (by decide)
  have hline : headerLine name value = name.bytes ++ 0x3a :: 0x20 :: value.bytes := by
    simp [headerLine]
  have hname : (headerLine name value).takeWhile (· != 0x3a) = name.bytes := by
    rw [hline, List.takeWhile_append_of_pos hcolon, List.takeWhile_cons_of_neg (by decide),
      List.append_nil]
  have hvalue : (headerLine name value).dropWhile (· != 0x3a) = 0x3a :: 0x20 :: value.bytes := by
    rw [hline, List.dropWhile_append_of_pos hcolon, List.dropWhile_cons_of_neg (by decide)]
  have hbytes : HeaderValue.ofBytes? value.bytes = some value := by
    rw [HeaderValue.ofBytes?, dif_pos value.legal]
  simp [readHeaderLine, hname, hvalue, ofBytes?_bytes, dropBlank, hbytes]

theorem isLine_headerLine (name : HeaderName) (value : HeaderValue) :
    IsLine (headerLine name value) := by
  have hno : ∀ b : UInt8, isTokenByte b = false → isValueByte b = false → b ≠ 0x3a → b ≠ 0x20 →
      b ∉ headerLine name value := fun b htoken hval hcolon hblank hb => by
    simp only [headerLine, List.mem_append, List.mem_cons, List.not_mem_nil, or_false] at hb
    rcases hb with (hb | rfl | rfl) | hb
    · exact absurd (tokenByte_of_mem hb).1 (by simp [htoken])
    · exact hcolon rfl
    · exact hblank rfl
    · exact absurd (valueByte_of_mem hb) (by simp [hval])
  refine ⟨?_, hno 13 (by decide) (by decide) (by decide) (by decide),
    hno 10 (by decide) (by decide) (by decide) (by decide)⟩
  simp [headerLine]

end HeaderLines

/-! ## The head -/

section Decode

variable {r : Response}

def headerLines (r : Response) : List Bytes :=
  r.headers.toList.map fun h => headerLine h.1 h.2

theorem head_eq (r : Response) :
    head r = joined (statusLine r) (headerLines r) ++ lineEnd ++ lineEnd := by
  have hmove : ∀ l : List (HeaderName × HeaderValue),
      lineEnd ++ l.flatMap (fun h => headerLine h.1 h.2 ++ lineEnd)
        = (l.map fun h => headerLine h.1 h.2).flatMap (lineEnd ++ ·) ++ lineEnd := fun l => by
    induction l with
    | nil => rfl
    | cons h l ih =>
      rw [List.flatMap_cons, List.map_cons, List.flatMap_cons, List.append_assoc,
        List.append_assoc, ← ih, List.append_assoc]
  rw [head, List.append_assoc (statusLine r), hmove, joined, headerLines, List.append_assoc,
    List.append_assoc, List.append_assoc, List.append_assoc]

theorem isLine_of_mem_headerLines {line : Bytes} (h : line ∈ headerLines r) : IsLine line := by
  obtain ⟨field, -, rfl⟩ := List.mem_map.1 h
  exact isLine_headerLine field.1 field.2

/-- The head of a response ends where the writer ends it, whatever follows. -/
theorem splitHead?_head (r : Response) (rest : Bytes) :
    splitHead? (head r ++ rest) = some (joined (statusLine r) (headerLines r), rest) := by
  rw [head_eq]
  exact splitHead?_lines (isLine_statusLine r) fun _ h => isLine_of_mem_headerLines h

/-- The header lines of a collection that takes some fields are read one after another. -/
theorem readHeaders_map {fields : List (HeaderName × HeaderValue)} {h g : Headers}
    (hg : fields.foldlM (fun h p => Headers.append? h p.1 p.2) h = some g) :
    readHeaders h (fields.map fun p => headerLine p.1 p.2) = .ok g := by
  induction fields generalizing h with
  | nil =>
    rw [List.foldlM_nil, Option.pure_def, Option.some.injEq] at hg
    rw [List.map_nil, readHeaders, hg]
  | cons p fields ih =>
    rw [List.foldlM_cons, Option.bind_eq_bind, Option.bind_eq_some_iff] at hg
    obtain ⟨h', hh', hg⟩ := hg
    rw [List.map_cons, readHeaders, readHeaderLine_headerLine]
    dsimp only
    rw [hh']
    exact ih hg

/-- The header lines of a response are read back: a collection has room for what it came from. -/
theorem readHeaders_headerLines (r : Response) :
    readHeaders .empty (headerLines r) = .ok r.headers :=
  readHeaders_map r.headers.ofList?_toList

/-- All but the body of a response is read back from its wire form, and the body as it is framed. -/
theorem decode_encode (r : Response) (m : Method) :
    decode (encode r) m
      = ((frame m r.status r.headers r.body).mapError .failed).map
        fun body => { r with body := body } := by
  have hlines : lines (joined (statusLine r) (headerLines r)) = statusLine r :: headerLines r :=
    lines_joined (isLine_statusLine r) fun _ h => isLine_of_mem_headerLines h
  have hne : (encode r).isEmpty = false := by
    rw [List.isEmpty_eq_false_iff, encode, head_eq]
    simp [joined, (isLine_statusLine r).ne_nil]
  rw [decode, hne, encode, splitHead?_head]
  simp only [Bool.false_eq_true, if_false, hlines, readStatusLine_statusLine,
    readHeaders_headerLines]
  show (do
    let body ← (frame m r.status r.headers r.body).mapError Halt.failed
    pure (⟨r.version, r.status, r.headers, body⟩ : Response)) = _
  cases frame m r.status r.headers r.body <;> rfl

/-- What the writer makes never crashes the reader: the headers fit, as they did in the response. -/
theorem decode_encode_ne_crashed (r : Response) (m : Method) :
    decode (encode r) m ≠ .error .crashed := by
  rw [decode_encode]
  cases frame m r.status r.headers r.body <;> exact nofun

end Decode

/-! ## The body -/

section Body

variable {r : Response} {m : Method}

/-- Under another method than `HEAD`, and if the status allows a body, the body is all that is there
or as many octets as the first `Content-Length` declares, if there are so many. -/
theorem frame_eq_ok_iff {s : Status} {h : Headers} {rest body : Bytes} (hm : m ≠ .head)
    (hs : s.isBodiless = false) :
    frame m s h rest = .ok body ↔
      (h.first? .contentLength = none ∧ rest = body)
        ∨ ∃ v n, h.first? .contentLength = some v ∧ declaredLength? v = some n
          ∧ n ≤ rest.length ∧ rest.take n = body := by
  rw [frame, if_neg (by simp [hm, hs])]
  cases hlength : h.first? .contentLength with
  | none => simp
  | some v =>
    dsimp only
    cases hdeclared : declaredLength? v with
    | none => simp [hdeclared]
    | some n =>
      dsimp only
      split
      · rename_i hshort
        simp only [reduceCtorEq, false_and, false_or, Option.some.injEq, false_iff]
        rintro ⟨v', n', rfl, hn', hle, -⟩
        rw [hdeclared, Option.some.injEq] at hn'
        omega
      · rename_i hlong
        simp only [reduceCtorEq, false_and, false_or, Option.some.injEq, Except.ok.injEq]
        constructor
        · exact fun hbody => ⟨v, n, rfl, hdeclared, by omega, hbody⟩
        · rintro ⟨v', n', rfl, hn', -, hbody⟩
          rw [hdeclared, Option.some.injEq] at hn'
          rw [hn', hbody]

/-- The `Content-Length` of a response, if it has one, is the length of its body. -/
def LengthFits (r : Response) : Prop :=
  ∀ v ∈ r.headers.first? .contentLength, declaredLength? v = some r.body.length

instance (r : Response) : Decidable (LengthFits r) :=
  inferInstanceAs (Decidable (∀ v ∈ r.headers.first? .contentLength, _))

/-- The `Content-Length` of a response, if it has one, is a number and not more than the length of
its body. -/
def LengthCovered (r : Response) : Prop :=
  ∀ v ∈ r.headers.first? .contentLength, ∃ n, declaredLength? v = some n ∧ n ≤ r.body.length

/-- Under another method than `HEAD`, a response that has a body is read back at all exactly if its
body is as long as its `Content-Length` says or longer. -/
theorem exists_decode_encode_iff (hm : m ≠ .head) (hs : r.status.isBodiless = false) :
    (∃ q, decode (encode r) m = .ok q) ↔ LengthCovered r := by
  simp only [decode_encode, map_eq_ok_iff, mapError_eq_ok_iff, frame_eq_ok_iff hm hs,
    LengthCovered, Option.mem_def]
  constructor
  · rintro ⟨q, body, ⟨hnone, -⟩ | ⟨v, n, hv, hn, hle, -⟩, -⟩ v' hv'
    · rw [hnone] at hv'
      cases hv'
    · rw [hv, Option.some.injEq] at hv'
      exact ⟨n, hv' ▸ hn, hle⟩
  · intro hcovered
    cases hv : r.headers.first? .contentLength with
    | none => exact ⟨_, _, .inl ⟨rfl, rfl⟩, rfl⟩
    | some v =>
      obtain ⟨n, hn, hle⟩ := hcovered v hv
      exact ⟨_, _, .inr ⟨v, n, rfl, hn, hle, rfl⟩, rfl⟩

/-- Whenever a response is read back under another method than `HEAD`, its body is whole exactly if
its `Content-Length` fits. -/
theorem body_decode_encode_iff {q : Response} (hm : m ≠ .head) (hs : r.status.isBodiless = false)
    (hq : decode (encode r) m = .ok q) : q.body = r.body ↔ LengthFits r := by
  rw [decode_encode, map_eq_ok_iff] at hq
  obtain ⟨body, hframe, rfl⟩ := hq
  rcases (frame_eq_ok_iff hm hs).1 (mapError_eq_ok_iff.1 hframe) with
    ⟨hnone, rfl⟩ | ⟨v, n, hv, hn, hle, rfl⟩
  · simp [LengthFits, hnone]
  · simp only [LengthFits, hv, Option.mem_def, Option.some.injEq, forall_eq', hn]
    constructor
    · intro h
      have hlen := congrArg List.length h
      rw [List.length_take] at hlen
      omega
    · rintro rfl
      exact List.take_length

/-- Under another method than `HEAD`, a response that has a body is read back whole exactly if its
`Content-Length` fits. -/
theorem decode_encode_eq_ok_iff (hm : m ≠ .head) (hs : r.status.isBodiless = false) :
    decode (encode r) m = .ok r ↔ LengthFits r := by
  constructor
  · exact fun h => (body_decode_encode_iff hm hs h).1 rfl
  · intro hfits
    have hcovered : LengthCovered r := fun v hv => ⟨_, hfits v hv, Nat.le_refl _⟩
    obtain ⟨q, hq⟩ := (exists_decode_encode_iff hm hs).2 hcovered
    have hbody := (body_decode_encode_iff hm hs hq).2 hfits
    have hrest := hq
    rw [decode_encode, map_eq_ok_iff] at hrest
    obtain ⟨body, -, rfl⟩ := hrest
    rw [hq, show body = r.body from hbody]

end Body

end Wire

end ResponseCache
