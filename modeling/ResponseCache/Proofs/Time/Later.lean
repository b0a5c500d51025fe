import Mathlib.Order.Defs.LinearOrder
import ResponseCache.Proofs.Time.Line

/-!
# Some seconds later

Instants are in a linear order. Whatever the span, a shift forward leads to a later instant, in leap
seconds too (`lt_of_shift?_eq_some`).

`afterSeconds` is the instant some seconds after another one, cut off at the end of the calendar. A
leap second counts as the second before it, so that what comes out lies outside leap seconds unless
nothing was added (`afterSeconds_cases`). Adding goes step by step (`afterSeconds_add`) and keeps
the order (`afterSeconds_le`).
-/

namespace ResponseCache.Instant

variable {a b x t e : Instant} {m n : Nat}

theorem lt_iff : a < b ↔ a.seconds < b.seconds ∨ a.seconds = b.seconds ∧ a.nanos < b.nanos :=
  Iff.rfl

theorem le_iff : a ≤ b ↔ a.seconds < b.seconds ∨ a.seconds = b.seconds ∧ a.nanos ≤ b.nanos := by
  show ¬ (b < a) ↔ _
  rw [lt_iff]
  omega

instance : LinearOrder Instant where
  le := (· ≤ ·)
  lt := (· < ·)
  le_refl _ := le_iff.2 (by omega)
  le_trans _ _ _ hab hbx := by
    rw [le_iff] at *
    omega
  le_antisymm _ _ hab hba := by
    rw [le_iff] at hab hba
    exact Instant.ext (by omega) (by omega)
  lt_iff_le_not_ge _ _ := by
    rw [le_iff, le_iff, lt_iff]
    omega
  le_total _ _ := by
    rw [le_iff, le_iff]
    omega
  toDecidableLE := inferInstance
  toDecidableEq := inferInstance
  toDecidableLT := inferInstance

/-- What lies ahead by a positive span is later, if it lies outside leap seconds itself: the leap
second that ends a day lies ahead of the start of the next day by its fraction. -/
theorem lt_of_since_pos (he : e.isLeap = false) (h : 0 < e.since t) : t < e := by
  have hleap := t.leap_last
  have hnanos : e.nanos < 1000000000 := by simpa [isLeap] using he
  rw [lt_iff]
  simp only [since, secondOfDay, isLeap, decide_eq_true_eq] at h
  split at h
  · omega
  · split at h <;> omega

theorem lt_of_shift?_eq_some {span : Int} (hspan : 0 < span) (h : t.shift? span = some a) :
    t < a := by
  have hsum := Int.mul_tdiv_add_tmod span 1000000000
  have hwhole := Int.tdiv_nonneg (Int.le_of_lt hspan) (by decide : (0 : Int) ≤ 1000000000)
  have hrest := Int.tmod_nonneg 1000000000 (Int.le_of_lt hspan)
  rw [lt_iff]
  unfold shift? at h
  dsimp only at h
  split at h
  · obtain ⟨hseconds, hnanos⟩ := of?_eq_some h
    omega
  · -- `t` lies in a leap second, which the shift leaves or not
    split at h
    · obtain ⟨hseconds, hnanos⟩ := of?_eq_some h
      omega
    · split at h
      · omega
      · obtain ⟨hseconds, hnanos⟩ := of?_eq_some h
        omega

/-! ## Adding seconds -/

section AfterSeconds

/-- The instant `n` seconds after `t`, or the last one if that is beyond the calendar. -/
def afterSeconds (t : Instant) (n : Nat) : Instant :=
  (t.shift? (n * 1000000000)).getD latest

theorem shift?_zero (t : Instant) : t.shift? 0 = some t := by
  have hnanos := t.nanos_lt
  have hself : of? t.seconds t.nanos = some t := by
    rw [of?, dif_pos ⟨t.seconds_ge, t.seconds_le, t.nanos_lt, t.leap_last⟩]
  unfold shift?
  simp only [Int.zero_tdiv, Int.zero_tmod, Int.add_zero]
  by_cases hplain : (t.nanos : Int) < 1000000000
  · have hseconds : t.seconds + (t.nanos : Int) / 1000000000 = t.seconds := by omega
    have hsame : ((t.nanos : Int) % 1000000000).toNat = t.nanos := by omega
    simp only [hplain, if_true, hseconds, hsame, hself]
  · simp only [hplain, if_false, Int.lt_irrefl, false_and, or_self, Int.toNat_natCast, hself]

theorem shift?_seconds (t : Instant) (hn : 0 < n) :
    t.shift? (n * 1000000000) = of? (t.seconds + n) (t.nanos % 1000000000) := by
  have hnanos := t.nanos_lt
  have hdiv : ((n : Int) * 1000000000).tdiv 1000000000 = n := Int.mul_tdiv_cancel _ (by decide)
  have hmod : ((n : Int) * 1000000000).tmod 1000000000 = 0 := Int.mul_tmod_left _ _
  unfold shift?
  simp only [hdiv, hmod, Int.add_zero]
  by_cases hplain : (t.nanos : Int) < 1000000000
  · have hseconds : t.seconds + n + (t.nanos : Int) / 1000000000 = t.seconds + n := by omega
    have hsame : ((t.nanos : Int) % 1000000000).toNat = t.nanos % 1000000000 := by omega
    simp only [hplain, if_true, hseconds, hsame]
  · have hpos : (0 : Int) < n := by omega
    have hseconds : t.seconds + n + ((t.nanos : Int) - 1000000000) / 1000000000
        = t.seconds + n := by omega
    have hsame : (((t.nanos : Int) - 1000000000) % 1000000000).toNat
        = t.nanos % 1000000000 := by omega
    simp only [hplain, if_false, hpos, true_or, if_true, hseconds, hsame]

/-- A span of a second or more ends no later if it is cut to whole seconds. -/
theorem exists_shift?_seconds_le {rest : Nat} (hn : 0 < n) (hrest : rest < 1000000000)
    (h : t.shift? (n * 1000000000 + rest) = some a) :
    ∃ b, t.shift? (n * 1000000000) = some b ∧ b ≤ a := by
  have hnanos := t.nanos_lt
  have hge := t.seconds_ge
  have hle := a.seconds_le
  have hdiv : ((n : Int) * 1000000000 + rest).tdiv 1000000000 = n := by
    rw [Int.tdiv_eq_ediv_of_nonneg (by omega)]
    omega
  have hmod : ((n : Int) * 1000000000 + rest).tmod 1000000000 = rest := by
    rw [Int.tmod_eq_emod_of_nonneg (by omega)]
    omega
  have hseconds : t.seconds + n + (t.nanos % 1000000000 + rest) / 1000000000 = a.seconds
      ∧ a.nanos = (t.nanos % 1000000000 + rest) % 1000000000 := by
    unfold shift? at h
    simp only [hdiv, hmod] at h
    split at h
    · obtain ⟨hseconds, hnanos⟩ := of?_eq_some h
      omega
    · rw [if_pos (.inl (by omega))] at h
      obtain ⟨hseconds, hnanos⟩ := of?_eq_some h
      omega
  have hlegible : -8334601228800 ≤ t.seconds + n ∧ t.seconds + n ≤ 8210266876799
      ∧ t.nanos % 1000000000 < 2000000000
      ∧ (1000000000 ≤ t.nanos % 1000000000 → (t.seconds + n) % 60 = 59) := by
    omega
  refine ⟨_, (shift?_seconds t hn).trans (dif_pos hlegible), ?_⟩
  rw [le_iff]
  dsimp only
  omega

theorem afterSeconds_zero (t : Instant) : t.afterSeconds 0 = t := by
  have hspan : ((0 : Nat) : Int) * 1000000000 = 0 := by decide
  rw [afterSeconds, hspan, shift?_zero, Option.getD_some]

/-- Some seconds later it is the same time within the second, outside leap seconds. -/
theorem afterSeconds_cases (t : Instant) (hn : 0 < n) :
    (t.afterSeconds n).seconds = t.seconds + n
        ∧ (t.afterSeconds n).nanos = t.nanos % 1000000000
      ∨ 8210266876799 < t.seconds + n ∧ t.afterSeconds n = latest := by
  have hlow := t.seconds_ge
  rw [afterSeconds, shift?_seconds t hn, of?]
  split
  · exact .inl ⟨rfl, rfl⟩
  · exact .inr ⟨by omega, rfl⟩

theorem isLeap_afterSeconds (t : Instant) (hn : 0 < n) : (t.afterSeconds n).isLeap = false := by
  rw [isLeap, decide_eq_false_iff_not]
  rcases t.afterSeconds_cases hn with ⟨-, hnanos⟩ | ⟨-, hlatest⟩
  · omega
  · rw [hlatest]
    decide

theorem isLeap_afterSeconds_of_isLeap (ht : t.isLeap = false) :
    (t.afterSeconds n).isLeap = false := by
  rcases Nat.eq_zero_or_pos n with rfl | hn
  · rw [afterSeconds_zero]
    exact ht
  · exact t.isLeap_afterSeconds hn

/-- After the epoch an instant lies as many nanoseconds as its seconds have, in the calendar. -/
theorem toNanos_epoch_afterSeconds (hn : n ≤ 8210266876799) :
    (epoch.afterSeconds n).toNanos = n * 1000000000 := by
  have hepoch : epoch.toNanos = 0 := rfl
  have hlatest : latest.toNanos = 8210266876799 * 1000000000 + 999999999 := rfl
  rw [afterSeconds, toNanos_shift rfl (by omega), hepoch, hlatest]
  omega

theorem latest_afterSeconds (n : Nat) : latest.afterSeconds n = latest := by
  rcases Nat.eq_zero_or_pos n with rfl | hn
  · exact afterSeconds_zero latest
  · rcases latest.afterSeconds_cases hn with ⟨hseconds, -⟩ | ⟨-, hlatest⟩
    · have hle := (latest.afterSeconds n).seconds_le
      have hlatest : latest.seconds = 8210266876799 := rfl
      omega
    · exact hlatest

theorem afterSeconds_add (t : Instant) (m n : Nat) :
    (t.afterSeconds m).afterSeconds n = t.afterSeconds (m + n) := by
  rcases Nat.eq_zero_or_pos m with rfl | hm
  · rw [afterSeconds_zero, Nat.zero_add]
  rcases Nat.eq_zero_or_pos n with rfl | hn
  · rw [afterSeconds_zero, Nat.add_zero]
  have hle := (t.afterSeconds (m + n)).seconds_le
  have hsum := t.afterSeconds_cases (Nat.add_pos_left hm n)
  rcases t.afterSeconds_cases hm with ⟨hseconds, hnanos⟩ | ⟨hlate, hlatest⟩
  · have hle' := ((t.afterSeconds m).afterSeconds n).seconds_le
    rcases (t.afterSeconds m).afterSeconds_cases hn with ⟨hseconds', hnanos'⟩ | ⟨hlate', hlatest'⟩
    · rcases hsum with ⟨hs, hns⟩ | ⟨hl, -⟩
      · exact Instant.ext (by omega) (by omega)
      · omega
    · rcases hsum with ⟨hs, -⟩ | ⟨-, hl⟩
      · omega
      · rw [hlatest', hl]
  · rw [hlatest, latest_afterSeconds]
    rcases hsum with ⟨hs, -⟩ | ⟨-, hl⟩
    · omega
    · exact hl.symm

theorem le_latest (h : t.isLeap = false) : t ≤ latest := by
  have hle := t.seconds_le
  have hnanos : t.nanos < 1000000000 := by simpa [isLeap] using h
  have hseconds : latest.seconds = 8210266876799 := rfl
  have hlast : latest.nanos = 999999999 := rfl
  rw [le_iff]
  omega

theorem afterSeconds_mono (t : Instant) (hm : 0 < m) (h : m ≤ n) :
    t.afterSeconds m ≤ t.afterSeconds n := by
  have hn : 0 < n := Nat.lt_of_lt_of_le hm h
  rcases t.afterSeconds_cases hn with ⟨hs', hns'⟩ | ⟨-, hlast'⟩
  · have hle := (t.afterSeconds n).seconds_le
    rw [le_iff]
    rcases t.afterSeconds_cases hm with ⟨hs, hns⟩ | ⟨hl, -⟩ <;> omega
  · rw [hlast']
    exact le_latest (t.isLeap_afterSeconds hm)

/-- Adding the same to an earlier and a later instant keeps their order, if the later one lies
outside leap seconds. -/
theorem afterSeconds_le (h : t < x) (hx : x.isLeap = false) :
    t.afterSeconds n ≤ x.afterSeconds n := by
  rcases Nat.eq_zero_or_pos n with rfl | hn
  · rw [afterSeconds_zero, afterSeconds_zero]
    exact le_of_lt h
  have hnanos : x.nanos < 1000000000 := by simpa [isLeap] using hx
  rw [lt_iff] at h
  rcases x.afterSeconds_cases hn with ⟨hs', hns'⟩ | ⟨-, hlast'⟩
  · have hle := (x.afterSeconds n).seconds_le
    rw [le_iff]
    rcases t.afterSeconds_cases hn with ⟨hs, hns⟩ | ⟨hl, -⟩ <;> omega
  · rw [hlast']
    exact le_latest (t.isLeap_afterSeconds hn)

theorem afterSeconds_le_mul (t : Instant) {k : Nat} (hk : 0 < k) (n : Nat) :
    t.afterSeconds n ≤ t.afterSeconds (k * n) := by
  rcases Nat.eq_zero_or_pos n with rfl | hn
  · exact le_refl _
  · exact t.afterSeconds_mono hn (Nat.le_mul_of_pos_left n hk)

/-- What is before `k` times `n` seconds after `x`, is `n` seconds later at most `m` times `n`
seconds after `x`, for a larger `m`. -/
theorem afterSeconds_le_of_lt_mul {k : Nat} (h : t < x.afterSeconds (k * n)) (hk : 0 < k)
    (hm : k < m) : t.afterSeconds n ≤ x.afterSeconds (m * n) := by
  rcases Nat.eq_zero_or_pos n with rfl | hn
  · rw [afterSeconds_zero]
    exact le_of_lt h
  have hpos : 0 < k * n := Nat.mul_pos hk hn
  have hsum : k * n + n ≤ m * n := by
    rw [← Nat.succ_mul]
    exact Nat.mul_le_mul_right n hm
  refine le_trans (afterSeconds_le h (x.isLeap_afterSeconds hpos)) ?_
  rw [afterSeconds_add]
  exact x.afterSeconds_mono (Nat.add_pos_left hpos n) hsum

end AfterSeconds

end ResponseCache.Instant
