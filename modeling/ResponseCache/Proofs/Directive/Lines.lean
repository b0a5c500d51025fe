import Mathlib.Data.List.Induction
import ResponseCache.Evaluation.Exchange
import ResponseCache.Proofs.Text.Trim

/-!
# Directives of several lines

Several `Cache-Control` lines count as one list with commas between the lines. Cutting a text into
items may be stopped and taken up anywhere, given where that is with respect to quotes
(`exists_last_item`): what comes further on only makes the last item longer. So a line that ends
outside quotes has the same items whatever follows it (`items_append_comma`), and the directives of
such lines are simply listed one line after the other (`ofText_joinLines`). A line that ends inside
quotes runs into the next one, but only in the value of its last directive, and no name is lost:
what a line names, all lines together name too (`isNamedIn_joinLines_cons`).
-/

namespace ResponseCache.Directive

open Text

variable {q : Quoting} {s t x : List Char} {name : String}

theorem Quoting.after_append (q : Quoting) (s t : List Char) :
    q.after (s ++ t) = (q.after s).after t :=
  List.foldl_append

/-! ## Items -/

section Items

theorem exists_cons_items (q : Quoting) (s : List Char) : ∃ y rest, items q s = y :: rest := by
  induction s generalizing q with
  | nil => exact ⟨_, _, rfl⟩
  | cons c s ih =>
    unfold items
    split
    · exact ⟨_, _, rfl⟩
    · obtain ⟨y, rest, h⟩ := ih (q.next c)
      exact ⟨c :: y, rest, by rw [h]⟩

theorem items_comma (s : List Char) : items .outside (',' :: s) = [] :: items .outside s := by
  simp [items]

theorem items_cons {c : Char} (h : ¬ (q = .outside ∧ c = ',')) {y : List Char}
    {rest : List (List Char)} (hs : items (q.next c) s = y :: rest) :
    items q (c :: s) = (c :: y) :: rest := by
  rw [items, if_neg h, hs]

/-- The last item of a text is the one that goes on if the text does: all others stay as they are.
It began outside quotes, unless it is the first one. -/
theorem exists_last_item (q : Quoting) (s : List Char) :
    ∃ done x, items q s = done ++ [x]
      ∧ q.after s = (if done = [] then q else .outside).after x
      ∧ ∀ t y rest, items (q.after s) t = y :: rest →
        items q (s ++ t) = done ++ (x ++ y) :: rest := by
  induction s generalizing q with
  | nil => exact ⟨[], [], rfl, rfl, fun t y rest h => h⟩
  | cons c s ih =>
    by_cases hc : q = .outside ∧ c = ','
    · obtain ⟨rfl, rfl⟩ := hc
      obtain ⟨done, x, hitems, hafter, happend⟩ := ih .outside
      refine ⟨[] :: done, x, ?_, ?_, fun t y rest h => ?_⟩
      · rw [items_comma, hitems, List.cons_append]
      · rw [if_neg (List.cons_ne_nil _ _)]
        rw [ite_self] at hafter
        exact hafter
      · rw [List.cons_append, items_comma, happend t y rest h, List.cons_append]
    · obtain ⟨done, x, hitems, hafter, happend⟩ := ih (q.next c)
      cases done with
      | nil =>
        refine ⟨[], c :: x, items_cons hc hitems, hafter, fun t y rest h => ?_⟩
        exact items_cons hc (happend t y rest h)
      | cons first done =>
        refine ⟨(c :: first) :: done, x, items_cons hc hitems, hafter, fun t y rest h => ?_⟩
        exact items_cons hc (happend t y rest h)

/-- Behind a comma outside quotes the items of what follows are as if it stood alone. -/
theorem items_append_comma (h : q.after s = .outside) (t : List Char) :
    items q (s ++ ',' :: t) = items q s ++ items .outside t := by
  obtain ⟨done, x, hitems, -, happend⟩ := exists_last_item q s
  rw [happend _ [] (items .outside t) (by rw [h, items_comma]), hitems, List.append_nil,
    List.append_assoc, List.singleton_append]

end Items

/-! ## Names -/

section Names

theorem after_of_not_mem (h : '"' ∉ x) : Quoting.outside.after x = .outside := by
  unfold Quoting.after
  induction x with
  | nil => rfl
  | cons c x ih =>
    rw [List.mem_cons, not_or] at h
    rw [List.foldl_cons, Quoting.next, if_neg (Ne.symm h.1)]
    exact ih h.2

/-- An item with an equals sign is what stands before the first one, without blanks, as the name and
what stands behind it as the value. -/
theorem ofItem?_append (h : '=' ∉ s) (t : List Char) :
    ofItem? (s ++ '=' :: t) = some ⟨String.ofList (lower (trim s)),
      some (String.ofList (unquote (trim (trimEnd t))))⟩ := by
  have hs : ∀ c ∈ trimStart s, (c != '=') = true := fun c hc => by
    refine bne_iff_ne.2 fun e => ?_
    subst e
    exact h ((List.dropWhile_sublist _).subset hc)
  have htrim : trim (s ++ '=' :: t) = trimStart s ++ '=' :: trimEnd t :=
    trim_append_cons (by decide)
  have hname : (trimStart s ++ '=' :: trimEnd t).takeWhile (· != '=') = trimStart s := by
    rw [List.takeWhile_append_of_pos hs, List.takeWhile_cons_of_neg (by decide), List.append_nil]
  have hvalue : (trimStart s ++ '=' :: trimEnd t).dropWhile (· != '=') = '=' :: trimEnd t := by
    rw [List.dropWhile_append_of_pos hs, List.dropWhile_cons_of_neg (by decide)]
  have hne : (trimStart s ++ '=' :: trimEnd t).isEmpty = false := by simp
  simp only [ofItem?, htrim, hname, hvalue, hne, Bool.false_eq_true, if_false, trim_trimStart]

theorem name_ofItem?_append (h : '=' ∉ s) (t : List Char) :
    (ofItem? (s ++ '=' :: t)).map Directive.name = some (String.ofList (lower (trim s))) := by
  rw [ofItem?_append h, Option.map_some]

/-- The name of an item without a value is the item. -/
theorem ofItem?_of_not_mem (h : '=' ∉ x) :
    ofItem? x = if (trim x).isEmpty then none
      else some ⟨String.ofList (lower (trim x)), none⟩ := by
  have hx : ∀ c ∈ trim x, (c != '=') = true := fun c hc => by
    refine bne_iff_ne.2 fun e => ?_
    subst e
    exact h (mem_of_mem_trim hc)
  have hname : (trim x).takeWhile (· != '=') = trim x := by
    rw [← List.append_nil (trim x), List.takeWhile_append_of_pos hx, List.takeWhile_nil]
  have hvalue : (trim x).dropWhile (· != '=') = [] := by
    rw [← List.append_nil (trim x), List.dropWhile_append_of_pos hx, List.dropWhile_nil]
  simp only [ofItem?, hname, hvalue]

/-- An item that has begun a quoted part and whose name has no quote in it has begun its value. -/
theorem exists_split_of_quote (hquote : '"' ∈ x) (hname : '"' ∉ name.toList)
    (h : (ofItem? x).map Directive.name = some name) :
    ∃ before after, x = before ++ '=' :: after ∧ '=' ∉ before
      ∧ String.ofList (lower (trim before)) = name := by
  by_cases hx : '=' ∈ x
  · obtain ⟨before, after, hsplit, hbefore⟩ := List.eq_append_cons_of_mem hx
    rw [hsplit, name_ofItem?_append hbefore, Option.some.injEq] at h
    exact ⟨before, after, hsplit, hbefore, h⟩
  · rw [ofItem?_of_not_mem hx] at h
    split at h
    · cases h
    · obtain rfl : String.ofList (lower (trim x)) = name := by simpa using h
      refine absurd ?_ hname
      rw [String.toList_ofList, lower, List.mem_map]
      exact ⟨'"', mem_trim hquote (by decide), by decide⟩

/-- Such an item has this name however it goes on. -/
theorem name_ofItem?_of_quote (hquote : '"' ∈ x) (hname : '"' ∉ name.toList)
    (h : (ofItem? x).map Directive.name = some name) (t : List Char) :
    (ofItem? (x ++ t)).map Directive.name = some name := by
  obtain ⟨before, after, rfl, hbefore, rfl⟩ := exists_split_of_quote hquote hname h
  rw [List.append_assoc, List.cons_append, name_ofItem?_append hbefore]

theorem isNamedIn_iff :
    isNamedIn name s = true ↔
      ∃ x ∈ items .outside s, (ofItem? x).map Directive.name = some name := by
  simp only [isNamedIn, ofText, List.any_filterMap, List.any_eq_true, Option.map_eq_some_iff]
  refine exists_congr fun x => and_congr_right fun _ => ?_
  cases ofItem? x <;> simp

/-- A directive of a line is one of the line and all that follows it. -/
theorem isNamedIn_append_comma (hname : '"' ∉ name.toList) (h : isNamedIn name s = true)
    (t : List Char) : isNamedIn name (s ++ ',' :: t) = true := by
  obtain ⟨x, hx, hnamed⟩ := isNamedIn_iff.1 h
  by_cases hs : Quoting.outside.after s = .outside
  · rw [isNamedIn_iff, items_append_comma hs]
    exact ⟨x, List.mem_append_left _ hx, hnamed⟩
  · obtain ⟨done, last, hitems, hafter, happend⟩ := exists_last_item .outside s
    obtain ⟨y, rest, hy⟩ := exists_cons_items (Quoting.outside.after s) (',' :: t)
    rw [ite_self] at hafter
    rw [isNamedIn_iff, happend _ y rest hy]
    rw [hitems, List.mem_append, List.mem_singleton] at hx
    rcases hx with hx | rfl
    · exact ⟨x, List.mem_append_left _ hx, hnamed⟩
    · -- the line ends inside quotes, so its last item has begun them
      have hquote : '"' ∈ x :=
        Decidable.byContradiction fun hno => hs (hafter.trans (after_of_not_mem hno))
      exact ⟨x ++ y, List.mem_append_right _ List.mem_cons_self,
        name_ofItem?_of_quote hquote hname hnamed y⟩

end Names

/-! ## Lines -/

section Lines

open Exchange

/-- What a line names, that line and all the following ones name together. -/
theorem isNamedIn_joinLines_cons (hname : '"' ∉ name.toList) {line : List Char}
    (h : isNamedIn name line = true) (lines : List (List Char)) :
    isNamedIn name (joinLines (line :: lines)) = true := by
  have hfold : ∀ (lines : List (List Char)) (sofar : List Char), isNamedIn name sofar = true →
      isNamedIn name (lines.foldl
        (fun sofar line => if sofar.isEmpty then line else sofar ++ [',', ' '] ++ line) sofar)
        = true := by
    intro lines
    induction lines with
    | nil => exact fun _ h => h
    | cons next lines ih =>
      intro sofar hsofar
      have hne : sofar.isEmpty = false := by
        cases sofar with
        | nil => cases hsofar
        | cons c sofar => rfl
      rw [List.foldl_cons, hne]
      refine ih _ ?_
      rw [if_neg (by simp), List.append_assoc]
      exact isNamedIn_append_comma hname hsofar _
  exact hfold lines line h

theorem ofItem?_cons_blank {c : Char} (hc : Text.isBlank c = true) (x : List Char) :
    ofItem? (c :: x) = ofItem? x := by
  have htrim : trim (c :: x) = trim x := by
    rw [trim, trimStart, List.dropWhile_cons_of_pos hc, trim, trimStart]
  rw [ofItem?, htrim, ofItem?]

theorem ofText_append_separator (hs : Quoting.outside.after s = .outside) (t : List Char) :
    ofText (s ++ [',', ' '] ++ t) = ofText s ++ ofText t := by
  obtain ⟨y, rest, hy⟩ := exists_cons_items .outside t
  have hblank : items .outside (' ' :: t) = (' ' :: y) :: rest := items_cons (by decide) hy
  rw [List.append_assoc, List.cons_append, List.singleton_append, ofText, items_append_comma hs,
    List.filterMap_append, hblank, List.filterMap_cons, ofItem?_cons_blank (by decide),
    ← List.filterMap_cons, ← hy]
  rfl

theorem joinLines_concat (lines : List (List Char)) (line : List Char) :
    joinLines (lines ++ [line])
      = if (joinLines lines).isEmpty then line else joinLines lines ++ [',', ' '] ++ line := by
  rw [joinLines, List.foldl_append, ← joinLines, List.foldl_cons, List.foldl_nil]

variable {lines : List (List Char)}

theorem after_joinLines (h : ∀ line ∈ lines, Quoting.outside.after line = .outside) :
    Quoting.outside.after (joinLines lines) = .outside := by
  induction lines using List.reverseRecOn with
  | nil => rfl
  | append_singleton lines line ih =>
    have hlines := ih fun line hline => h line (List.mem_append_left _ hline)
    have hline := h line (List.mem_append_right _ List.mem_cons_self)
    have hcomma : Quoting.outside.after [',', ' '] = .outside := rfl
    rw [joinLines_concat]
    split
    · exact hline
    · rw [Quoting.after_append, Quoting.after_append, hlines, hcomma, hline]

/-- The directives of lines that all end outside quotes are those of the first line, then those of
the second one, and so on. -/
theorem ofText_joinLines (h : ∀ line ∈ lines, Quoting.outside.after line = .outside) :
    ofText (joinLines lines) = lines.flatMap ofText := by
  induction lines using List.reverseRecOn with
  | nil => rfl
  | append_singleton lines line ih =>
    have hlines : ∀ line ∈ lines, Quoting.outside.after line = .outside :=
      fun line hline => h line (List.mem_append_left _ hline)
    rw [joinLines_concat, List.flatMap_append, ← ih hlines, List.flatMap_singleton]
    split
    · rename_i hempty
      rw [List.isEmpty_iff.1 hempty]
      rfl
    · exact ofText_append_separator (after_joinLines hlines) line

end Lines

end ResponseCache.Directive
