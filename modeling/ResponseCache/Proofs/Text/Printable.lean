import ResponseCache.Message.Headers
import ResponseCache.Time.HttpDate.Format

/-!
# Printable text

Status lines and dates are made of printable ASCII characters alone. Such a text has one octet for
each character, reads back from its octets as it was, can be a header value and holds no line end.
-/

namespace ResponseCache

/-- Whether a character is a blank or a visible ASCII character. -/
def isPrintable (c : Char) : Bool :=
  0x20 ≤ c.toNat && c.toNat < 0x7f

variable {c : Char} {s : List Char}

theorem isPrintable_iff : isPrintable c = true ↔ 0x20 ≤ c.toNat ∧ c.toNat < 0x7f := by
  simp [isPrintable]

/-- A printable character is no larger than its octet can say. -/
theorem toNat_toUInt8 (h : isPrintable c = true) : c.toUInt8.toNat = c.toNat := by
  have hc := isPrintable_iff.1 h
  exact Nat.mod_eq_of_lt (by omega : c.toNat < 256)

namespace Bytes

/-- UTF-8 writes a printable character as the octet of its number. -/
theorem utf8EncodeChar_eq (h : isPrintable c = true) :
    String.utf8EncodeChar c = [c.toUInt8] := by
  have hc := isPrintable_iff.1 h
  have hsize : c.utf8Size = 1 := by
    rw [Char.utf8Size_eq_one_iff, UInt32.le_iff_toNat_le]
    exact Nat.le_of_lt_succ (by omega : c.toNat < 128)
  rw [String.utf8EncodeChar_eq_singleton hsize, Char.toUInt8_val]

/-- So a printable text has one octet for each of its characters. -/
theorem ofText_eq (h : s.all isPrintable = true) :
    ofText (String.ofList s) = s.map Char.toUInt8 := by
  rw [ofText, String.toList_ofList]
  induction s with
  | nil => rfl
  | cons c s ih =>
    rw [List.all_cons, Bool.and_eq_true] at h
    rw [List.flatMap_cons, utf8EncodeChar_eq h.1, ih h.2]
    rfl

/-- The octet of a printable character starts no longer sequence. -/
theorem utf8First_eq (h : isPrintable c = true) : utf8First c.toUInt8 = .char c := by
  have hc := isPrintable_iff.1 h
  have hle : c.toUInt8 ≤ 0x7f := by
    rw [UInt8.le_iff_toNat_le, toNat_toUInt8 h]
    exact (by omega : c.toNat ≤ 127)
  rw [utf8First, if_pos hle, toNat_toUInt8 h, Char.ofNat_toNat]

/-- A printable text reads back from its octets. -/
theorem ofUtf8?_ofText (h : s.all isPrintable = true) :
    (ofText (String.ofList s)).ofUtf8? = some s := by
  rw [ofText_eq h, ofUtf8?]
  induction s with
  | nil => rfl
  | cons c s ih =>
    rw [List.all_cons, Bool.and_eq_true] at h
    rw [List.map_cons, utf8Run?, utf8Step, utf8First_eq h.1]
    dsimp only
    rw [ih h.2, Option.map_some]

/-- No octet of a printable text is a control, and so none ends a line. -/
theorem le_of_mem_ofText (h : s.all isPrintable = true) {b : UInt8}
    (hb : b ∈ ofText (String.ofList s)) : 0x20 ≤ b.toNat ∧ b.toNat < 0x7f := by
  rw [ofText_eq h, List.mem_map] at hb
  obtain ⟨c, hc, rfl⟩ := hb
  have hp := List.all_eq_true.1 h c hc
  rw [toNat_toUInt8 hp]
  exact isPrintable_iff.1 hp

end Bytes

/-- Every printable text can be a header value. -/
theorem HeaderValue.exists_ofText? (h : s.all isPrintable = true) :
    ∃ v, HeaderValue.ofText? (String.ofList s) = some v := by
  have hlegal : (Bytes.ofText (String.ofList s)).all isValueByte = true := by
    refine List.all_eq_true.2 fun b hb => ?_
    have hb := Bytes.le_of_mem_ofText h hb
    have hge : (0x20 : UInt8) ≤ b := UInt8.le_iff_toNat_le.2 hb.1
    have hne : b ≠ 0x7f := fun e => by
      subst e
      exact absurd hb.2 (by decide)
    simp [isValueByte, hge, hne]
  exact ⟨⟨_, hlegal⟩, by rw [HeaderValue.ofText?, HeaderValue.ofBytes?, dif_pos hlegal]⟩

theorem isPrintable_of_isDigit (h : c.isDigit = true) : isPrintable c = true := by
  simp only [Char.isDigit, ge_iff_le, Bool.and_eq_true, decide_eq_true_eq,
    UInt32.le_iff_toNat_le] at h
  have h0 : (48 : Nat) ≤ c.toNat := h.1
  have h9 : c.toNat ≤ 57 := h.2
  rw [isPrintable_iff]
  omega

theorem Decimal.printable_digits (n : Nat) : (Decimal.digits n).all isPrintable = true :=
  List.all_eq_true.2 fun _ hc =>
    isPrintable_of_isDigit (Nat.isDigit_of_mem_toDigits (by decide) (by decide) hc)

/-- Numbers are printable, with zeros in front too. -/
theorem Decimal.printable_padded (width n : Nat) :
    (Decimal.padded width n).all isPrintable = true := by
  have hzeros : ∀ k : Nat, (List.replicate k '0').all isPrintable = true := fun k =>
    List.all_eq_true.2 fun c hc => by
      rw [List.eq_of_mem_replicate hc]
      decide
  rw [Decimal.padded, List.leftpad, List.all_append, hzeros, Decimal.printable_digits]
  rfl

theorem Weekday.printable_short (w : Weekday) : w.short.all isPrintable = true := by
  cases w <;> decide

/-- No month beyond the twelfth has a name, and the empty text is printable. -/
theorem printable_monthName (m : Nat) : (monthName m).all isPrintable = true := by
  unfold monthName
  rcases Nat.lt_or_ge (m - 1) 12 with h | h
  · have hall : ∀ k : Fin 12, (((monthNames[k.val]?).getD "").toList).all isPrintable = true := by
      decide
    exact hall ⟨m - 1, h⟩
  · rw [List.getElem?_eq_none h]
    rfl

/-- A year is printable in either of its forms, with and without a sign. -/
theorem printable_yearText (y : Int) : (yearText y).all isPrintable = true := by
  unfold yearText
  split
  · exact Decimal.printable_padded 4 _
  · rw [List.all_cons, Decimal.printable_padded]
    split <;> decide

/-- The header form of every instant is printable, so that it can be a header value. -/
theorem Instant.printable_httpDate (t : Instant) : t.httpDate.all isPrintable = true := by
  simp only [httpDate, timeText, List.all_append, Weekday.printable_short,
    Decimal.printable_padded, printable_monthName, printable_yearText, Bool.true_and,
    Bool.and_true]
  decide

end ResponseCache
