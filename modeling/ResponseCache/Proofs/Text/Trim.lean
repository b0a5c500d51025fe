import Mathlib.Data.List.DropRight
import ResponseCache.Text.Blank
import ResponseCache.Text.Case

/-!
# Trimmed text

Trimming stops at the first character from either side that is no blank, so it keeps all characters
that are none (`mem_trim`) and works on the two sides of such a character apart
(`trim_append_cons`). Blanks around a text do not count (`trim_surround`), and blanks are all that
is taken away (`exists_eq_surround_trim`). The case of letters has no part in it (`trim_lower`).
-/

namespace ResponseCache.Text

variable {s t : List Char} {c : Char}

theorem trimStart_append_cons (hc : isBlank c = false) :
    trimStart (s ++ c :: t) = trimStart s ++ c :: t := by
  unfold trimStart
  induction s with
  | nil => simp [hc]
  | cons d s ih =>
    cases hd : isBlank d with
    | true => simpa [hd] using ih
    | false => simp [hd]

theorem trimEnd_append_cons (hc : isBlank c = false) :
    trimEnd (s ++ c :: t) = s ++ c :: trimEnd t := by
  have hreverse : (s ++ c :: t).reverse = t.reverse ++ c :: s.reverse := by simp
  have hstart : (t.reverse ++ c :: s.reverse).dropWhile isBlank
      = t.reverse.dropWhile isBlank ++ c :: s.reverse := trimStart_append_cons hc
  rw [trimEnd, hreverse, hstart, trimEnd]
  simp

/-- A character that is no blank keeps apart what is trimmed in front of it and behind it. -/
theorem trim_append_cons (hc : isBlank c = false) :
    trim (s ++ c :: t) = trimStart s ++ c :: trimEnd t := by
  rw [trim, trimStart_append_cons hc, trimEnd_append_cons hc]

/-- Only blanks are trimmed away. -/
theorem mem_trim (h : c ∈ s) (hc : isBlank c = false) : c ∈ trim s := by
  obtain ⟨before, after, rfl⟩ := List.append_of_mem h
  rw [trim_append_cons hc]
  exact List.mem_append_right _ List.mem_cons_self

theorem mem_of_mem_trim (h : c ∈ trim s) : c ∈ s := by
  rw [trim, trimEnd, List.mem_reverse] at h
  have hstart := (List.dropWhile_sublist _).subset h
  rw [List.mem_reverse] at hstart
  exact (List.dropWhile_sublist _).subset hstart

theorem trim_trimStart (s : List Char) : trim (trimStart s) = trim s := by
  have hidem : trimStart (trimStart s) = trimStart s := by
    unfold trimStart
    induction s with
    | nil => rfl
    | cons c s ih =>
      cases hc : isBlank c with
      | true => simpa [hc] using ih
      | false => simp [hc]
  rw [trim, hidem, trim]

/-! ## Blanks around a text -/

section Surround

variable {before after : List Char}

theorem trimStart_append (h : ∀ c ∈ before, isBlank c = true) (s : List Char) :
    trimStart (before ++ s) = trimStart s :=
  List.dropWhile_append_of_pos h

theorem trimEnd_append (h : ∀ c ∈ after, isBlank c = true) (s : List Char) :
    trimEnd (s ++ after) = trimEnd s := by
  have hreverse : ∀ c ∈ after.reverse, isBlank c = true := fun c hc => h c (List.mem_reverse.1 hc)
  rw [trimEnd, List.reverse_append, List.dropWhile_append_of_pos hreverse, trimEnd]

/-- Blanks around a text change nothing about what it is trimmed to. -/
theorem trim_surround (hbefore : ∀ c ∈ before, isBlank c = true)
    (hafter : ∀ c ∈ after, isBlank c = true) (s : List Char) :
    trim (before ++ s ++ after) = trim s := by
  have hnone : trimStart after = [] := List.dropWhile_eq_nil_iff.2 hafter
  rw [trim, List.append_assoc, trimStart_append hbefore, trim, trimStart, List.dropWhile_append]
  split
  · rename_i hempty
    rw [← trimStart, hnone, trimStart, List.isEmpty_iff.1 hempty]
  · exact trimEnd_append hafter _

/-- A text is what it is trimmed to, with blanks around it. -/
theorem exists_eq_surround_trim (s : List Char) :
    ∃ before after, s = before ++ trim s ++ after ∧ ∀ c ∈ before ++ after, isBlank c = true := by
  have hstart : s.takeWhile isBlank ++ trimStart s = s := List.takeWhile_append_dropWhile
  have hend : trim s ++ ((trimStart s).reverse.takeWhile isBlank).reverse = trimStart s := by
    rw [trim, trimEnd, ← List.reverse_append, List.takeWhile_append_dropWhile, List.reverse_reverse]
  refine ⟨s.takeWhile isBlank, ((trimStart s).reverse.takeWhile isBlank).reverse, ?_, ?_⟩
  · rw [List.append_assoc, hend, hstart]
  · intro c hc
    rw [List.mem_append, List.mem_reverse] at hc
    rcases hc with hc | hc
    · exact List.mem_takeWhile_imp hc
    · exact List.mem_takeWhile_imp hc

theorem trimEnd_eq_self (h : trim s = s) : trimEnd s = s := by
  have hidem : trimEnd (trim s) = trim s := by
    rw [trim, trimEnd, trimEnd, List.reverse_reverse, List.dropWhile_idempotent]
  rwa [h] at hidem

theorem trim_eq_self (h : ∀ c ∈ s, isBlank c = false) : trim s = s := by
  have hkeep : ∀ t : List Char, (∀ c ∈ t, isBlank c = false) → t.dropWhile isBlank = t :=
    fun t ht => List.dropWhile_eq_self_iff.2 fun hl => by simp [ht _ (List.getElem_mem hl)]
  have hreverse : ∀ c ∈ s.reverse, isBlank c = false := fun c hc => h c (List.mem_reverse.1 hc)
  rw [trim, trimStart, hkeep s h, trimEnd, hkeep s.reverse hreverse, List.reverse_reverse]

end Surround

/-! ## Letter case -/

section Case

/-- Only capital letters change, and into small ones. -/
theorem toLower_cases (c : Char) :
    c.toLower = c
      ∨ 65 ≤ c.toNat ∧ c.toNat ≤ 90 ∧ 97 ≤ c.toLower.toNat ∧ c.toLower.toNat ≤ 122 := by
  by_cases h : c.val ≥ 'A'.val ∧ c.val ≤ 'Z'.val
  · have hge : 65 ≤ c.toNat := UInt32.le_iff_toNat_le.1 h.1
    have hle : c.toNat ≤ 90 := UInt32.le_iff_toNat_le.1 h.2
    have hval : c.toLower.val = c.val + 32 := congrArg Char.val (dif_pos h)
    have hsum : c.toLower.toNat = (c.toNat + 32) % 2 ^ 32 :=
      (congrArg UInt32.toNat hval).trans (UInt32.toNat_add c.val 32)
    omega
  · exact .inl (dif_neg h)

/-- No letter is a blank, and nothing between the letters. -/
theorem isBlank_eq_false {c : Char} (h : 65 ≤ c.toNat ∧ c.toNat ≤ 122) : isBlank c = false := by
  simp only [isBlank, Bool.or_eq_false_iff, Bool.and_eq_false_iff, decide_eq_false_iff_not,
    beq_eq_false_iff_ne]
  omega

theorem isBlank_toLower (c : Char) : isBlank c.toLower = isBlank c := by
  rcases toLower_cases c with h | ⟨hge, hle, hge', hle'⟩
  · rw [h]
  · rw [isBlank_eq_false ⟨by omega, hle'⟩, isBlank_eq_false ⟨hge, by omega⟩]

/-- What is no small letter is in a text exactly if it is in the text in lower case. -/
theorem mem_lower_iff (hc : ¬ (97 ≤ c.toNat ∧ c.toNat ≤ 122))
    (hsmall : c.toLower = c) : c ∈ lower s ↔ c ∈ s := by
  rw [lower, List.mem_map]
  constructor
  · rintro ⟨d, hd, rfl⟩
    rcases toLower_cases d with h | ⟨-, -, hge, hle⟩
    · rwa [h]
    · exact absurd ⟨hge, hle⟩ hc
  · exact fun h => ⟨c, h, hsmall⟩

theorem dropWhile_lower (s : List Char) :
    (lower s).dropWhile isBlank = lower (s.dropWhile isBlank) := by
  rw [lower, List.dropWhile_map, lower]
  congr 2
  exact funext isBlank_toLower

/-- Letters are put into lower case before or after a text is trimmed. -/
theorem trim_lower (s : List Char) : trim (lower s) = lower (trim s) := by
  have hreverse : ∀ t : List Char, (lower t).reverse = lower t.reverse :=
    fun t => List.map_reverse.symm
  rw [trim, trimStart, dropWhile_lower, trimEnd, hreverse, dropWhile_lower, hreverse, trim, trimEnd,
    trimStart]

end Case

end ResponseCache.Text
