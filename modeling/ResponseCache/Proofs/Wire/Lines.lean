import ResponseCache.Wire.Decode

/-!
# Lines and the blank line

The head of a wire form is a run of lines, each closed by carriage return and line feed, and a blank
line. If no line is empty and none contains either of the two octets (`IsLine`), the first blank
line is the one that closes the head (`splitHead?_lines`), and cutting the head at its line ends
gives the lines back (`lines_joined`).
-/

namespace ResponseCache.Wire

/-- Octets that can stand as one line of a head. -/
structure IsLine (line : Bytes) : Prop where
  ne_nil : line ≠ []
  no_cr : 13 ∉ line
  no_lf : 10 ∉ line

/-- Lines one after another with line ends between them. -/
def joined (first : Bytes) (more : List Bytes) : Bytes :=
  first ++ more.flatMap (lineEnd ++ ·)

variable {line first rest body : Bytes} {more : List Bytes}

/-! ## The end of the head -/

section SplitHead

theorem splitHead?_cons {b : UInt8} (hb : b ≠ 13) :
    splitHead? (b :: rest) = (splitHead? rest).map fun s => (b :: s.1, s.2) := by
  rw [splitHead?]
  intro rest' e
  exact absurd e hb

/-- Octets other than carriage returns belong to the head, whatever follows. -/
theorem splitHead?_append (h : 13 ∉ line) :
    splitHead? (line ++ rest) = (splitHead? rest).map fun s => (line ++ s.1, s.2) := by
  induction line with
  | nil => simp
  | cons b line ih =>
    rw [List.mem_cons, not_or] at h
    rw [List.cons_append, splitHead?_cons (Ne.symm h.1), ih h.2, Option.map_map]
    rfl

/-- A line end before another line belongs to the head. -/
theorem splitHead?_lineEnd (h : IsLine line) :
    splitHead? (lineEnd ++ (line ++ rest))
      = (splitHead? (line ++ rest)).map fun s => (lineEnd ++ s.1, s.2) := by
  obtain ⟨b, line, rfl⟩ := List.exists_cons_of_ne_nil h.ne_nil
  have hb : b ≠ 13 := fun e => h.no_cr (e ▸ List.mem_cons_self)
  have hcr : splitHead? (13 :: 10 :: b :: (line ++ rest))
      = (splitHead? (10 :: b :: (line ++ rest))).map fun s => (13 :: s.1, s.2) := by
    rw [splitHead?]
    intro rest' _ e
    simp only [List.cons.injEq] at e
    exact hb e.2.1
  have hlf : (10 : UInt8) ≠ 13 := by decide
  show splitHead? (13 :: 10 :: b :: (line ++ rest)) = _
  rw [hcr, splitHead?_cons hlf, Option.map_map]
  rfl

/-- The head of some lines ends at the blank line behind them. -/
theorem splitHead?_lines (hfirst : IsLine first) (hmore : ∀ line ∈ more, IsLine line) :
    splitHead? (joined first more ++ lineEnd ++ lineEnd ++ body)
      = some (joined first more, body) := by
  induction more generalizing first with
  | nil =>
    have hend : splitHead? (lineEnd ++ (lineEnd ++ body)) = some ([], body) := rfl
    simp only [joined, List.flatMap_nil, List.append_nil, List.append_assoc]
    rw [splitHead?_append hfirst.no_cr, hend]
    simp
  | cons line more ih =>
    have hline : IsLine line := hmore line List.mem_cons_self
    have hrest := ih hline fun l hl => hmore l (List.mem_cons_of_mem _ hl)
    have hcons : joined first (line :: more) = first ++ (lineEnd ++ joined line more) := by
      simp [joined]
    simp only [hcons, List.append_assoc] at hrest ⊢
    rw [splitHead?_append hfirst.no_cr]
    have hlead : joined line more ++ (lineEnd ++ (lineEnd ++ body))
        = line ++ (more.flatMap (lineEnd ++ ·) ++ (lineEnd ++ (lineEnd ++ body))) := by
      simp [joined]
    rw [hlead] at hrest ⊢
    rw [splitHead?_lineEnd hline, hrest]
    rfl

/-- A head that has ended once ends there whatever else follows. -/
theorem splitHead?_append_of_eq_some {bytes head : Bytes} (h : splitHead? bytes = some (head, rest))
    (more : Bytes) : splitHead? (bytes ++ more) = some (head, rest ++ more) := by
  fun_induction splitHead? bytes generalizing head with
  | case1 rest' =>
    cases h
    rfl
  | case2 b bytes hopen ih =>
    obtain ⟨⟨head', rest'⟩, hsplit, h⟩ := Option.map_eq_some_iff.1 h
    cases h
    -- behind a head that has ended there is no room for an earlier blank line to be completed
    have hopen' : ∀ rest', b = 13 → bytes ++ more = 10 :: 13 :: 10 :: rest' → False := by
      intro rest' hb hmore
      rcases bytes with _ | ⟨x, _ | ⟨y, _ | ⟨z, bytes⟩⟩⟩
      · cases hsplit
      · simp [splitHead?] at hsplit
      · simp [splitHead?] at hsplit
      · simp only [List.cons_append, List.cons.injEq] at hmore
        obtain ⟨rfl, rfl, rfl, -⟩ := hmore
        exact hopen bytes hb rfl
    rw [List.cons_append, splitHead?, ih hsplit]
    · rfl
    · exact hopen'
  | case3 => cases h

end SplitHead

/-! ## The lines of the head -/

section Cut

theorem chomp_append_cr : chomp (line ++ [13]) = line := by
  simp [chomp]

theorem chomp_eq_self (h : 13 ∉ line) : chomp line = line := by
  unfold chomp
  split
  · rename_i hlast
    exact absurd (List.mem_of_getLast? hlast) h
  · rfl

/-- Cutting a head at its line ends gives its lines. -/
theorem lines_joined (hfirst : IsLine first) (hmore : ∀ line ∈ more, IsLine line) :
    lines (joined first more) = first :: more := by
  induction more generalizing first with
  | nil =>
    rw [joined, List.flatMap_nil, List.append_nil, lines,
      List.splitOn_eq_singleton hfirst.no_lf, List.map_singleton, chomp_eq_self hfirst.no_cr]
  | cons line more ih =>
    have hcons : joined first (line :: more) = (first ++ [13]) ++ 10 :: joined line more := by
      simp [joined, lineEnd]
    have hlf : (10 : UInt8) ∉ first ++ [13] := by
      rw [List.mem_append, not_or]
      exact ⟨hfirst.no_lf, by decide⟩
    have hrest := ih (hmore line List.mem_cons_self) fun l hl =>
      hmore l (List.mem_cons_of_mem _ hl)
    rw [lines] at hrest ⊢
    rw [hcons, List.splitOn_append_cons_self_of_not_mem hlf, List.map_cons, chomp_append_cr, hrest]

end Cut

end ResponseCache.Wire
