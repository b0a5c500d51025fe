import ResponseCache.Proofs.Wire.Framing

/-!
# Which octets are accepted

The reader takes octets that the writer never makes, but what it makes of them is a response like
any other, whose body is as long as it is to be (`frame_framed`): written and read again it stays
the same (`decode_encode_of_decode`). And of what the writer makes the reader takes no part for the
whole. The blank line that closes a head is complete only at its end (`splitHead?_eq_none`), and a
body that lacks octets is shorter than a `Content-Length` that counts them (`decode_of_prefix`).
-/

namespace ResponseCache

namespace Wire

variable {r : Response} {m : Method} {bytes head' rest body more : Bytes}

/-! ## What has been read once -/

section Read

/-- The body of a response that is read is framed from some octets. -/
theorem exists_frame_of_decode (h : decode bytes m = .ok r) :
    ∃ rest, frame m r.status r.headers rest = .ok r.body := by
  unfold decode at h
  split at h
  · cases h
  · split at h
    · cases h
    · rename_i rest _
      split at h
      · cases h
      · simp only [bind_eq_ok_iff, pure_eq_ok_iff, mapError_eq_ok_iff] at h
        obtain ⟨line, -, fields, -, body, hbody, rfl⟩ := h
        exact ⟨rest, hbody⟩

/-- A framed body is framed as it is: the octets that are cut off do not count. -/
theorem frame_framed {s : Status} {h : Headers} (hbody : frame m s h rest = .ok body) :
    frame m s h body = .ok body := by
  by_cases hnone : m = .head ∨ s.isBodiless = true
  · rw [frame, if_pos hnone] at hbody ⊢
    exact hbody
  · obtain ⟨hm, hs⟩ := not_or.1 hnone
    rw [frame_eq_ok_iff hm (Bool.not_eq_true _ ▸ hs)] at hbody ⊢
    rcases hbody with ⟨hlength, -⟩ | ⟨v, n, hv, hn, hle, rfl⟩
    · exact .inl ⟨hlength, rfl⟩
    · refine .inr ⟨v, n, hv, hn, ?_, ?_⟩
      · rw [List.length_take]
        omega
      · rw [List.take_take, Nat.min_self]

/-- A response that was read from any octets is read back whole from its wire form. -/
theorem decode_encode_of_decode (h : decode bytes m = .ok r) : decode (encode r) m = .ok r := by
  obtain ⟨rest, hrest⟩ := exists_frame_of_decode h
  rw [decode_encode, frame_framed hrest]
  rfl

end Read

/-! ## What is written only in part -/

section Part

/-- The blank line behind a head is not complete before the head ends. -/
theorem splitHead?_eq_none (h : bytes <+: head r) (hne : bytes ≠ head r) :
    splitHead? bytes = none := by
  cases hsplit : splitHead? bytes with
  | none => rfl
  | some s =>
    obtain ⟨before, rest⟩ := s
    obtain ⟨more, hmore⟩ := h
    have hwhole := splitHead?_append_of_eq_some hsplit more
    have hhead := splitHead?_head r []
    rw [List.append_nil, ← hmore, hwhole, Option.some.injEq, Prod.mk.injEq] at hhead
    obtain ⟨-, hrest⟩ := hhead
    obtain ⟨-, rfl⟩ := List.append_eq_nil_iff.1 hrest
    exact absurd (by rw [← hmore, List.append_nil]) hne

/-- What ends within the head of a wire form is not read at all. -/
theorem decode_of_prefix_head (h : bytes <+: head r) (hne : bytes ≠ head r) :
    decode bytes m = .error (.failed (if bytes = [] then .noStatusLine else .endlessHeaders)) := by
  rw [decode, splitHead?_eq_none h hne]
  simp only [List.isEmpty_iff]
  split <;> rfl

/-- What ends within the body of a wire form is not read if the `Content-Length` counts the whole
body. -/
theorem decode_head_append {v : HeaderValue} (hbody : ¬ Bodiless m r.status)
    (hv : r.headers.first? .contentLength = some v) (hn : v.Declares r.body.length)
    (hlt : rest.length < r.body.length) :
    decode (head r ++ rest) m = .error (.failed (.shortBody r.body.length rest.length)) :=
  (ReadBack.short (r := { r with body := rest }) hbody hv hn hlt).decode_encode

/-- No part of a wire form is taken for the whole. If it ends within the head, nothing is there or
the end of the head is missed; and if the response has a body, of the length that its
`Content-Length` declares, what ends within the body is found to be too short. -/
theorem decode_of_prefix (h : bytes <+: encode r) (hne : bytes ≠ encode r) :
    (bytes.length < (head r).length →
        decode bytes m = .error (.failed (if bytes = [] then .noStatusLine else .endlessHeaders)))
      ∧ ((head r).length ≤ bytes.length → ¬ Bodiless m r.status →
        ∀ v, r.headers.first? .contentLength = some v → v.Declares r.body.length →
          decode bytes m
            = .error (.failed (.shortBody r.body.length (bytes.length - (head r).length)))) := by
  constructor
  · intro hlt
    have hhead : bytes <+: head r :=
      List.prefix_of_prefix_length_le h (List.prefix_append _ _) (Nat.le_of_lt hlt)
    exact decode_of_prefix_head hhead fun heq => Nat.lt_irrefl _ (heq ▸ hlt)
  · intro hle hbody v hv hn
    obtain ⟨rest, rfl⟩ := List.prefix_of_prefix_length_le (List.prefix_append _ _) h hle
    obtain ⟨more, hmore⟩ := h
    rw [encode, List.append_assoc, List.append_cancel_left_eq] at hmore
    have hmore_ne : more ≠ [] := fun hnil => hne (by rw [encode, ← hmore, hnil, List.append_nil])
    have hlt : rest.length < r.body.length := by
      have hpos := List.length_pos_iff.2 hmore_ne
      rw [← hmore, List.length_append]
      omega
    rw [decode_head_append hbody hv hn hlt, List.length_append, Nat.add_sub_cancel_left]

end Part

end Wire

namespace Sample

/-- Octets that the writer never makes: a short name of the version, a reason that is not
registered, a line feed alone, capitals in a header name, no blank behind its colon, and more octets
than the `Content-Length` counts. -/
def foreign : Bytes :=
  Bytes.ofText "HTTP/2 203 Well\nContent-Length:2\r\n\r\nhello"

def lengthTwo : HeaderValue := ⟨Bytes.ofText "2", by decide⟩

/-- A response with a line end as its body. -/
def blankLine : Response where
  version := .http11
  status := ⟨203, by decide, by decide⟩
  headers := Headers.empty.append .contentLength lengthTwo Headers.hasRoom_empty
  body := Wire.lineEnd

end Sample

namespace Wire

open Sample

theorem decode_encode_of_decode_foreign :
    ∃ r, decode foreign .get = .ok r ∧ r.version = .http2 ∧ r.body = Bytes.ofText "he"
      ∧ decode (encode r) .get = .ok r := by
  have hparts : (decode foreign .get).toOption.map (fun r => (r.version, r.body))
      = some (.http2, Bytes.ofText "he") := by decide +kernel
  obtain ⟨r, hr, hparts⟩ := Option.map_eq_some_iff.1 hparts
  rw [Prod.mk.injEq] at hparts
  have hread := eq_ok_of_toOption hr
  exact ⟨r, hread, hparts.1, hparts.2, decode_encode_of_decode hread⟩

/-- Octets are missing, in the blank line behind the head or in the line end that is the body. -/
theorem decode_of_prefix_blankLine :
    decode ((encode blankLine).take 64) .get = .error (.failed .endlessHeaders)
      ∧ decode ((encode blankLine).take 66) .get = .error (.failed (.shortBody 2 1)) := by
  have hhead : (head blankLine).length = 65 := by decide +kernel
  have hdeclares : lengthTwo.Declares 2 := declaredLength?_eq_some_iff.1 (by decide +kernel)
  have hfirst : blankLine.headers.first? .contentLength = some lengthTwo := by decide +kernel
  have hbody : ¬ Bodiless .get blankLine.status := by
    rw [← bodiless_iff]
    decide
  constructor
  · have hlength : ((encode blankLine).take 64).length = 64 := by decide +kernel
    have hne : (encode blankLine).take 64 ≠ encode blankLine := by decide +kernel
    obtain ⟨hopen, -⟩ := decode_of_prefix (m := .get) (List.take_prefix 64 _) hne
    have hnil : (encode blankLine).take 64 ≠ [] := by decide +kernel
    rw [hopen (by rw [hlength, hhead]; decide), if_neg hnil]
  · have hlength : ((encode blankLine).take 66).length = 66 := by decide +kernel
    have hne : (encode blankLine).take 66 ≠ encode blankLine := by decide +kernel
    obtain ⟨-, hshort⟩ := decode_of_prefix (m := .get) (List.take_prefix 66 _) hne
    have hread := hshort (by rw [hlength, hhead]; decide) hbody lengthTwo hfirst hdeclares
    rw [hlength, hhead] at hread
    exact hread

end Wire

end ResponseCache
