import ResponseCache.Json.Token
import ResponseCache.Proofs.Decimal.Natural
import ResponseCache.Proofs.Text.Reader

/-!
# Number literals read

A number literal is written as its parts: the sign, the digits before the point, the point with the
digits after it, and the exponent with its sign. If the digits are digits and no needless zero
stands in front (`IsLiteral`), the text is read as the literal (`ofChars?_written`). All of its
characters are those of numbers, so that the reader of tokens finds its end
(`isNumeric_of_mem_written`). The digits of a word are such a text, and the literal is read as the
word (`toUInt64?_natural`).
-/

namespace ResponseCache.Json.Number

open Token (isNumeric)

/-! ## Writing a literal -/

/-- The exponent of a literal after its mark, with its sign. -/
def exponentText : Option Int → List Char
  | none => []
  | some e =>
    'e' :: if e < 0 then '-' :: Decimal.digits e.natAbs else '+' :: Decimal.digits e.natAbs

def fractionText (fraction : List Char) : List Char :=
  if fraction.isEmpty then [] else '.' :: fraction

/-- The text of a literal without its sign. -/
def unsignedText (n : Number) : List Char :=
  n.whole ++ (fractionText n.fraction ++ exponentText n.exponent)

def written (n : Number) : List Char :=
  if n.negative then '-' :: n.unsignedText else n.unsignedText

/-- There are digits before the point, of which a zero in front stands alone, and after the point
there is nothing but digits. -/
structure IsLiteral (n : Number) : Prop where
  whole_ne_nil : n.whole ≠ []
  isDigit_whole : ∀ c ∈ n.whole, Decimal.isDigit c = true
  length_of_zero : n.whole.head? = some '0' → n.whole.length = 1
  isDigit_fraction : ∀ c ∈ n.fraction, Decimal.isDigit c = true

variable {n : Number} {negative : Bool} {whole ds : List Char} {e : Option Int}

/-! ## Reading it -/

theorem exponent?_minus (k : Nat) :
    exponent? ('-' :: Decimal.digits k) = some (-(k : Int)) := by
  rw [exponent?, Decimal.value?_digits]
  rfl

theorem exponent?_plus (k : Nat) : exponent? ('+' :: Decimal.digits k) = some (k : Int) := by
  rw [exponent?, Decimal.value?_digits]
  rfl

/-- After its mark the exponent is read. -/
theorem exponent?_exponentText (k : Int) : exponent? (exponentText (some k)).tail = some k := by
  show exponent? (if k < 0 then _ else _) = some k
  split
  · rw [exponent?_minus]
    exact congrArg some (by omega)
  · rw [exponent?_plus]
    exact congrArg some (by omega)

theorem ends_exponentText (e : Option Int) : Text.Ends Decimal.isDigit (exponentText e) := by
  cases e with
  | none => exact .nil
  | some k => exact .cons (by decide) _

theorem ends_fractionText (ds : List Char) (e : Option Int) :
    Text.Ends Decimal.isDigit (fractionText ds ++ exponentText e) := by
  unfold fractionText
  split
  · exact ends_exponentText e
  · exact .cons (by decide) _

theorem tail?_exponentText (negative : Bool) (whole : List Char) (e : Option Int) :
    tail? negative whole (exponentText e) = some ⟨negative, whole, [], e⟩ := by
  cases e with
  | none => rfl
  | some k =>
    show Option.map _ (exponent? (exponentText (some k)).tail) = _
    rw [exponent?_exponentText]
    rfl

theorem tail?_fractionText (hds : ∀ c ∈ ds, Decimal.isDigit c = true) (negative : Bool)
    (whole : List Char) (e : Option Int) :
    tail? negative whole (fractionText ds ++ exponentText e) = some ⟨negative, whole, ds, e⟩ := by
  cases ds with
  | nil => exact tail?_exponentText negative whole e
  | cons d ds =>
    have htake := (ends_exponentText e).takeWhile_append hds
    have hdrop := (ends_exponentText e).dropWhile_append hds
    show tail? negative whole ('.' :: (d :: ds ++ exponentText e)) = _
    rw [tail?, htake, hdrop]
    cases e with
    | none => rfl
    | some k =>
      show Option.map _ (exponent? (exponentText (some k)).tail) = _
      rw [exponent?_exponentText]
      rfl

theorem ofChars?_written (h : n.IsLiteral) : ofChars? n.written = some n := by
  have hends := ends_fractionText n.fraction n.exponent
  have htake : n.unsignedText.takeWhile Decimal.isDigit = n.whole :=
    hends.takeWhile_append h.isDigit_whole
  have hdrop : n.unsignedText.dropWhile Decimal.isDigit
      = fractionText n.fraction ++ exponentText n.exponent :=
    hends.dropWhile_append h.isDigit_whole
  have hne : n.whole.isEmpty = false := List.isEmpty_eq_false_iff.2 h.whole_ne_nil
  have hzero : (n.whole.head? == some '0' && n.whole.length != 1) = false := by
    by_cases hhead : n.whole.head? = some '0'
    · simp [h.length_of_zero hhead]
    · simp [hhead]
  have hunsigned : unsigned? n.negative n.unsignedText = some n := by
    simp only [unsigned?, htake, hdrop, hne, hzero, Bool.or_self, Bool.false_eq_true, if_false]
    exact tail?_fractionText h.isDigit_fraction n.negative n.whole n.exponent
  unfold written
  split
  · rename_i hnegative
    rw [ofChars?, ← hnegative, hunsigned]
  · rename_i hnegative
    have hpositive : n.negative = false := Bool.eq_false_iff.2 hnegative
    rw [← hunsigned, hpositive]
    obtain ⟨d, ds, hwhole⟩ := List.exists_cons_of_ne_nil h.whole_ne_nil
    have hd : d ≠ '-' := by
      rintro rfl
      exact absurd (h.isDigit_whole '-' (hwhole ▸ List.mem_cons_self)) (by decide)
    have htext : n.unsignedText
        = d :: (ds ++ (fractionText n.fraction ++ exponentText n.exponent)) := by
      rw [unsignedText, hwhole, List.cons_append]
    rw [htext]
    unfold ofChars?
    split
    · rename_i heq
      exact absurd (List.cons.inj heq).1 hd
    · rfl

theorem isNumeric_of_isDigit {c : Char} (h : Decimal.isDigit c = true) : isNumeric c = true := by
  simp [isNumeric, h]

theorem isNumeric_of_mem_exponentText {c : Char} (hc : c ∈ exponentText e) :
    isNumeric c = true := by
  cases e with
  | none => cases hc
  | some k =>
    have hdigits : ∀ c ∈ Decimal.digits k.natAbs, isNumeric c = true :=
      fun c hc => isNumeric_of_isDigit (Decimal.isDigit_of_mem_digits hc)
    revert c
    show ∀ c ∈ 'e' :: (if k < 0 then _ else _), _
    refine List.forall_mem_cons.2 ⟨rfl, ?_⟩
    split
    · exact List.forall_mem_cons.2 ⟨rfl, hdigits⟩
    · exact List.forall_mem_cons.2 ⟨rfl, hdigits⟩

theorem isNumeric_of_mem_fractionText {c : Char} (hds : ∀ c ∈ ds, Decimal.isDigit c = true)
    (hc : c ∈ fractionText ds) : isNumeric c = true := by
  unfold fractionText at hc
  split at hc
  · cases hc
  · rcases List.mem_cons.1 hc with rfl | hc
    · rfl
    · exact isNumeric_of_isDigit (hds c hc)

theorem isNumeric_of_mem_written {c : Char} (h : n.IsLiteral) (hc : c ∈ n.written) :
    isNumeric c = true := by
  have hunsigned : ∀ c ∈ n.unsignedText, isNumeric c = true := by
    intro c hc
    rw [unsignedText, List.mem_append, List.mem_append] at hc
    rcases hc with hc | hc | hc
    · exact isNumeric_of_isDigit (h.isDigit_whole c hc)
    · exact isNumeric_of_mem_fractionText h.isDigit_fraction hc
    · exact isNumeric_of_mem_exponentText hc
  unfold written at hc
  split at hc
  · rcases List.mem_cons.1 hc with rfl | hc
    · rfl
    · exact hunsigned c hc
  · exact hunsigned c hc

/-- A literal begins with a digit or with a minus sign. -/
theorem IsLiteral.exists_cons_written (h : n.IsLiteral) :
    ∃ c s, n.written = c :: s ∧ (Decimal.isDigit c || c == '-') = true := by
  unfold written
  split
  · exact ⟨'-', n.unsignedText, rfl, rfl⟩
  · obtain ⟨d, ds, hwhole⟩ := List.exists_cons_of_ne_nil h.whole_ne_nil
    refine ⟨d, ds ++ (fractionText n.fraction ++ exponentText n.exponent), ?_, ?_⟩
    · rw [unsignedText, hwhole, List.cons_append]
    · rw [h.isDigit_whole d (hwhole ▸ List.mem_cons_self), Bool.true_or]

/-- The literal of a natural number. -/
def natural (k : Nat) : Number :=
  ⟨false, Decimal.digits k, [], none⟩

theorem isLiteral_natural (k : Nat) : (natural k).IsLiteral where
  whole_ne_nil := Decimal.digits_ne_nil k
  isDigit_whole _ hc := Decimal.isDigit_of_mem_digits hc
  length_of_zero hzero := by
    by_cases hk : k = 0
    · rw [hk]
      rfl
    · exact absurd hzero (Decimal.head?_digits hk)
  isDigit_fraction _ hc := nomatch hc

theorem written_natural (k : Nat) : (natural k).written = Decimal.digits k :=
  List.append_nil _

/-- A word is read from its digits. -/
theorem toUInt64?_natural (word : UInt64) : (natural word.toNat).toUInt64? = some word := by
  have hlt : word.toNat < 18446744073709551616 := word.toNat_lt
  have hvalue : Decimal.value (natural word.toNat).whole = word.toNat := Decimal.value_digits _
  show (if Decimal.value (natural word.toNat).whole < 18446744073709551616 then _ else _) = _
  rw [hvalue, if_pos hlt, UInt64.ofNat_toNat]

end ResponseCache.Json.Number
