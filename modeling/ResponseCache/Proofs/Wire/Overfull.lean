import Mathlib.Data.Finset.Card
import ResponseCache.Proofs.Wire.RoundTrip

/-!
# Octets with too many header names

The reader crashes at the header line that finds no room. Which octets make it do so is said here
of the octets themselves (`Overfull`): as many distinct names as there is room for, and one more
line. Neither the method nor anything behind that line matters (`decode_eq_crashed_iff`).
-/

namespace ResponseCache

namespace Headers

variable (h : Headers)

/-- The names of a collection. -/
def names : Finset HeaderName :=
  (h.fields.map HeaderField.name).toFinset

/-- The fields of a collection have different names. -/
theorem card_names : h.names.card = h.fields.length := by
  rw [names, List.toFinset_card_of_nodup h.distinct, List.length_map]

/-- A value that is appended adds its name. -/
theorem names_append (name : HeaderName) (value : HeaderValue) (hroom : h.HasRoom) :
    (h.append name value hroom).names = insert name h.names := by
  rw [names, map_name_append, List.toFinset_append]
  split
  · rename_i hmem
    rw [names, Finset.insert_eq_of_mem (List.mem_toFinset.2 hmem), List.toFinset_nil,
      Finset.union_empty]
  · rw [names, Finset.insert_eq, Finset.union_comm]
    rfl

end Headers

namespace Wire

open HeaderField (capacity)

/-- The first of the lines are header fields, and without the last of these they bring the names
that are there to as many as a collection has room for. -/
def Crowds (there : Finset HeaderName) (lines : List Bytes) : Prop :=
  ∃ (fields : List (HeaderName × HeaderValue)) (last : HeaderName × HeaderValue)
      (rest : List (Except WireFault (HeaderName × HeaderValue))),
    lines.map readHeaderLine = fields.map .ok ++ .ok last :: rest
      ∧ capacity ≤ (there ∪ (fields.map Prod.fst).toFinset).card

theorem crowds_cons_iff {there : Finset HeaderName} {line : Bytes} {lines : List Bytes}
    {name : HeaderName} {value : HeaderValue} (hline : readHeaderLine line = .ok (name, value)) :
    Crowds there (line :: lines) ↔ capacity ≤ there.card ∨ Crowds (insert name there) lines := by
  have hunion : ∀ ns : Finset HeaderName, there ∪ insert name ns = insert name there ∪ ns :=
    fun ns => by rw [Finset.union_insert, Finset.insert_union]
  constructor
  · rintro ⟨fields, last, rest, hmap, hcard⟩
    rw [List.map_cons, hline] at hmap
    cases fields with
    | nil => exact .inl (by simpa using hcard)
    | cons field fields =>
      rw [List.map_cons, List.cons_append, List.cons.injEq, Except.ok.injEq] at hmap
      obtain ⟨rfl, hmap⟩ := hmap
      rw [List.map_cons, List.toFinset_cons, hunion] at hcard
      exact .inr ⟨fields, last, rest, hmap, hcard⟩
  · rintro (hcard | ⟨fields, last, rest, hmap, hcard⟩)
    · exact ⟨[], (name, value), lines.map readHeaderLine, by rw [List.map_cons, hline]; rfl,
        by simpa using hcard⟩
    · refine ⟨(name, value) :: fields, last, rest, by rw [List.map_cons, hline, hmap]; rfl, ?_⟩
      rw [List.map_cons, List.toFinset_cons, hunion]
      exact hcard

/-- The header lines crash the reader exactly if they bring its names to more than there is room
for. -/
theorem readHeaders_eq_crashed_iff (lines : List Bytes) (h : Headers) :
    readHeaders h lines = .error .crashed ↔ Crowds h.names lines := by
  induction lines generalizing h with
  | nil => simp [readHeaders, Crowds]
  | cons line lines ih =>
    rw [readHeaders]
    cases hline : readHeaderLine line with
    | error fault =>
      refine iff_of_false (fun h => by cases h) ?_
      rintro ⟨fields, last, rest, hmap, -⟩
      rw [List.map_cons, hline] at hmap
      cases fields <;> cases hmap
    | ok field =>
      obtain ⟨name, value⟩ := field
      rw [crowds_cons_iff hline, h.card_names]
      dsimp only
      cases happend : h.append? name value with
      | none =>
        have hfull := Headers.append?_eq_none_iff.1 happend
        exact iff_of_true rfl (.inl (Nat.le_of_not_lt hfull))
      | some h' =>
        obtain ⟨hroom, rfl⟩ := Headers.append?_eq_some_iff.1 happend
        dsimp only
        rw [ih, h.names_append]
        exact (or_iff_right (Nat.not_le.2 hroom)).symm

/-- A status line, and behind it header lines with as many distinct names as a collection has room
for, and one line more; where the blank line is that closes the head, there may be anything. -/
def Overfull (bytes : Bytes) : Prop :=
  ∃ (head rest first : Bytes) (more : List Bytes) (start : Version × Status),
    splitHead? bytes = some (head, rest) ∧ lines head = first :: more
      ∧ readStatusLine first = .ok start ∧ Crowds ∅ more

/-- Octets crash the reader exactly if they are overfull, whatever the method. -/
theorem decode_eq_crashed_iff (bytes : Bytes) (m : Method) :
    decode bytes m = .error .crashed ↔ Overfull bytes := by
  have hcrowds : ∀ more, readHeaders .empty more = .error .crashed ↔ Crowds ∅ more :=
    fun more => readHeaders_eq_crashed_iff more .empty
  constructor
  · intro h
    unfold decode at h
    split at h
    · cases h
    · split at h
      · cases h
      · rename_i head rest hsplit
        split at h
        · cases h
        · rename_i first more hlines
          -- of all that follows the split, only the header lines can crash
          obtain hstart | ⟨⟨version, status⟩, hstart, h⟩ := bind_eq_error_iff.1 h
          · obtain ⟨fault, -, hfault⟩ := mapError_eq_error_iff.1 hstart
            cases hfault
          obtain hread | ⟨headers, -, h⟩ := bind_eq_error_iff.1 h
          · exact ⟨head, rest, first, more, _, hsplit, hlines, mapError_eq_ok_iff.1 hstart,
              (hcrowds more).1 hread⟩
          obtain hframe | ⟨body, -, h⟩ := bind_eq_error_iff.1 h
          · obtain ⟨fault, -, hfault⟩ := mapError_eq_error_iff.1 hframe
            cases hfault
          · cases h
  · rintro ⟨head, rest, first, more, start, hsplit, hlines, hstart, hfull⟩
    have hne : bytes.isEmpty = false := by
      cases bytes with
      | nil => cases hsplit
      | cons b bytes => rfl
    simp only [decode, hne, hsplit, hlines, hstart, (hcrowds more).2 hfull]
    rfl

end Wire

/-! Octets that are overfull. -/

namespace Sample

/-- The header name of five decimal digits, the units first. -/
def numbered (n : Nat) : HeaderName where
  bytes := [n, n / 10, n / 100, n / 1000, n / 10000].map fun k => 48 + UInt8.ofNat (k % 10)
  legal := by
    have hdigit : ∀ d < 10, (isTokenByte (48 + UInt8.ofNat d)
        && !(0x41 ≤ 48 + UInt8.ofNat d && 48 + UInt8.ofNat d ≤ 0x5a)) = true := by decide
    simp only [isHeaderName, List.all_map, List.all_cons, List.all_nil, Function.comp_apply,
      hdigit _ (Nat.mod_lt _ (by decide))]
    rfl

theorem numbered_inj {m n : Nat} (hm : m < 100000) (hn : n < 100000)
    (h : numbered m = numbered n) : m = n := by
  have hdigit : ∀ a b : Nat, 48 + UInt8.ofNat (a % 10) = 48 + UInt8.ofNat (b % 10) →
      a % 10 = b % 10 := fun a b h => by
    have hnat := congrArg UInt8.toNat ((UInt8.add_right_inj 48).1 h)
    rw [UInt8.toNat_ofNat', UInt8.toNat_ofNat'] at hnat
    omega
  simp only [numbered, HeaderName.mk.injEq, List.map_cons, List.map_nil, List.cons.injEq] at h
  obtain ⟨h0, h1, h2, h3, h4, -⟩ := h
  have := hdigit _ _ h0
  have := hdigit _ _ h1
  have := hdigit _ _ h2
  have := hdigit _ _ h3
  have := hdigit _ _ h4
  omega

/-- A field of no value under each of the first `n` numbered names. -/
def numberedFields (n : Nat) : List (HeaderName × HeaderValue) :=
  (List.range n).map fun k => (numbered k, ⟨[], rfl⟩)

/-- The start of a response. -/
def opening : Response := ⟨.http11, ⟨202, by decide, by decide⟩, .empty, []⟩

/-- A response with one name more than a collection has room for. -/
def crowd : Bytes :=
  Wire.joined (Wire.statusLine opening)
      ((numberedFields (HeaderField.capacity + 1)).map fun p => Wire.headerLine p.1 p.2)
    ++ Wire.lineEnd ++ Wire.lineEnd

end Sample

namespace Wire

open Sample HeaderField

/-- Numbered fields have as many different names as there are of them. -/
theorem card_numbered {n : Nat} (hn : n ≤ 100000) :
    ((numberedFields n).map Prod.fst).toFinset.card = n := by
  have hnames : (numberedFields n).map Prod.fst = (List.range n).map numbered := by
    rw [numberedFields, List.map_map]
    rfl
  have hdistinct : ((List.range n).map numbered).Nodup := by
    refine List.Nodup.map_on (fun i hi j hj h => numbered_inj ?_ ?_ h) List.nodup_range
    · exact Nat.lt_of_lt_of_le (List.mem_range.1 hi) hn
    · exact Nat.lt_of_lt_of_le (List.mem_range.1 hj) hn
  rw [hnames, List.toFinset_card_of_nodup hdistinct, List.length_map, List.length_range]

theorem overfull_crowd : Overfull crowd := by
  have hlines : ∀ line ∈ (numberedFields (capacity + 1)).map fun p => headerLine p.1 p.2,
      IsLine line := fun line hline => by
    obtain ⟨p, -, rfl⟩ := List.mem_map.1 hline
    exact isLine_headerLine p.1 p.2
  have hsplit : splitHead? (_ ++ []) = some (_, []) :=
    splitHead?_lines (isLine_statusLine opening) hlines
  rw [List.append_nil] at hsplit
  refine ⟨_, _, _, _, _, hsplit, lines_joined (isLine_statusLine opening) hlines,
    readStatusLine_statusLine opening, ?_⟩
  refine ⟨numberedFields capacity, (numbered capacity, ⟨[], rfl⟩), [], ?_, ?_⟩
  · rw [List.map_map, numberedFields, List.range_succ, List.map_append, List.map_append]
    refine congrArg₂ (· ++ ·) (List.map_congr_left fun p _ => ?_) ?_
    · exact readHeaderLine_headerLine p.1 p.2
    · exact congrArg (fun field => [field]) (readHeaderLine_headerLine _ _)
  · rw [Finset.empty_union, card_numbered (by decide)]

end Wire

end ResponseCache
