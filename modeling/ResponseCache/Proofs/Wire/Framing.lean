import Mathlib
import ResponseCache.Proofs.Wire.RoundTrip

/-!
# How the body of a written response is framed

`decode_encode` leaves the body of a response that is read back to the framing rules. Here these
rules are spelled out. What a `Content-Length` has to look like to be a number is said of its
characters (`HeaderValue.Declares`), and `ReadBack` lists what a written response can be read back
as. Some case applies to every response, and the reader does what it says, so the list says exactly
what the reader makes of what the writer wrote (`decode_encode_eq_iff`).
-/

namespace ResponseCache

/-- The value is visible ASCII and writes the number `n` of 64 bits: within the blanks around it
there are one or more decimal digits, and perhaps a plus sign in front of them. -/
def HeaderValue.Declares (v : HeaderValue) (n : Nat) : Prop :=
  ∃ s ds, v.visible? = some s ∧ (Text.trim s = ds ∨ Text.trim s = '+' :: ds)
    ∧ ds ≠ [] ∧ (∀ d ∈ ds, Decimal.isDigit d = true) ∧ Decimal.value ds = n ∧ n < 2 ^ 64

namespace Wire

theorem declaredLength?_eq_some_iff {v : HeaderValue} {n : Nat} :
    declaredLength? v = some n ↔ v.Declares n := by
  have hlimit : n ≤ 18446744073709551615 ↔ n < 2 ^ 64 := by omega
  unfold declaredLength? HeaderValue.Declares
  simp only [Option.bind_eq_bind, Option.bind_eq_some_iff, Decimal.valueUpTo?_eq_some_iff,
    Decimal.value?_eq_some_iff, hlimit]
  constructor
  · rintro ⟨s, hs, ds, hsign, ⟨hne, hdigits, hvalue⟩, hlt⟩
    exact ⟨s, ds, hs, hsign, hne, hdigits, hvalue, hlt⟩
  · rintro ⟨s, ds, hs, hsign, hne, hdigits, hvalue, hlt⟩
    exact ⟨s, hs, ds, hsign, ⟨hne, hdigits, hvalue⟩, hlt⟩

theorem declaredLength?_eq_none_iff {v : HeaderValue} :
    declaredLength? v = none ↔ ∀ n, ¬ v.Declares n := by
  rw [Option.eq_none_iff_forall_ne_some]
  exact forall_congr' fun n => not_congr declaredLength?_eq_some_iff

/-- A response of status `s` to a request of method `m` has no body: the method is `HEAD` or the
status 1xx, 204 or 304. -/
def Bodiless (m : Method) (s : Status) : Prop :=
  m.name = "HEAD" ∨ s.code < 200 ∨ s.code = 204 ∨ s.code = 304

theorem bodiless_iff {m : Method} {s : Status} :
    m = .head ∨ s.isBodiless = true ↔ Bodiless m s := by
  have hhead : m = .head ↔ m.name = "HEAD" := by
    obtain ⟨name, _⟩ := m
    simp [Method.head]
  rw [Bodiless, hhead, Status.isBodiless]
  simp only [Bool.or_eq_true, decide_eq_true_eq, beq_iff_eq, or_assoc]

/-- What the wire form of `r` is read back as, as the answer to a request of method `m`: `r` itself
but for the body, which goes by the first `Content-Length`, or a fault. -/
inductive ReadBack (r : Response) (m : Method) : Except (Halt WireFault) Response → Prop
  | bodiless (h : Bodiless m r.status) : ReadBack r m (.ok { r with body := [] })
  | whole (h : ¬ Bodiless m r.status) (hnone : r.headers.first? .contentLength = none) :
    ReadBack r m (.ok r)
  | cut {v : HeaderValue} {n : Nat} (h : ¬ Bodiless m r.status)
    (hv : r.headers.first? .contentLength = some v) (hn : v.Declares n)
    (hle : n ≤ r.body.length) : ReadBack r m (.ok { r with body := r.body.take n })
  | short {v : HeaderValue} {n : Nat} (h : ¬ Bodiless m r.status)
    (hv : r.headers.first? .contentLength = some v) (hn : v.Declares n)
    (hlt : r.body.length < n) : ReadBack r m (.error (.failed (.shortBody n r.body.length)))
  | noNumber {v : HeaderValue} (h : ¬ Bodiless m r.status)
    (hv : r.headers.first? .contentLength = some v) (hn : ∀ n, ¬ v.Declares n) :
    ReadBack r m
      (.error (.failed (.badHeader ("content-length: " ++ String.ofList v.bytes.ofUtf8Lossy))))

variable {r : Response} {m : Method} {result : Except (Halt WireFault) Response}

/-- Some case applies to every response, and the reader does as it says. -/
theorem readBack_decode_encode (r : Response) (m : Method) :
    ReadBack r m (decode (encode r) m) := by
  rw [decode_encode, frame]
  by_cases h : Bodiless m r.status
  · rw [if_pos (bodiless_iff.2 h)]
    exact .bodiless h
  · rw [if_neg fun hb => h (bodiless_iff.1 hb)]
    cases hv : r.headers.first? .contentLength with
    | none => exact .whole h hv
    | some v =>
      dsimp only
      cases hn : declaredLength? v with
      | none => exact .noNumber h hv (declaredLength?_eq_none_iff.1 hn)
      | some n =>
        have hdeclares := declaredLength?_eq_some_iff.1 hn
        dsimp only
        split
        · rename_i hlt
          exact .short h hv hdeclares hlt
        · rename_i hge
          exact .cut h hv hdeclares (Nat.le_of_not_lt hge)

theorem ReadBack.decode_encode (h : ReadBack r m result) : decode (encode r) m = result := by
  have hbody : ¬ Bodiless m r.status → ¬ (m = .head ∨ r.status.isBodiless = true) :=
    fun h hb => h (bodiless_iff.1 hb)
  rw [Wire.decode_encode, frame]
  cases h with
  | bodiless h =>
    rw [if_pos (bodiless_iff.2 h)]
    rfl
  | whole h hnone =>
    rw [if_neg (hbody h), hnone]
    rfl
  | cut h hv hn hle =>
    rw [if_neg (hbody h), hv]
    dsimp only
    rw [declaredLength?_eq_some_iff.2 hn]
    dsimp only
    rw [if_neg (Nat.not_lt.2 hle)]
    rfl
  | short h hv hn hlt =>
    rw [if_neg (hbody h), hv]
    dsimp only
    rw [declaredLength?_eq_some_iff.2 hn]
    dsimp only
    rw [if_pos hlt]
    rfl
  | noNumber h hv hn =>
    rw [if_neg (hbody h), hv]
    dsimp only
    rw [declaredLength?_eq_none_iff.2 hn]
    rfl

/-- A written response is read back as `result` exactly if `ReadBack` lists this result: with its
version, its status and all its header fields in their order whenever it is read back at all, and
with a fault exactly if there is to be a body and the first `Content-Length` writes no number or one
that exceeds the length of the body. -/
theorem decode_encode_eq_iff (r : Response) (m : Method)
    (result : Except (Halt WireFault) Response) :
    decode (encode r) m = result ↔ ReadBack r m result := by
  constructor
  · rintro rfl
    exact readBack_decode_encode r m
  · exact ReadBack.decode_encode

end Wire

end ResponseCache
