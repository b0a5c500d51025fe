import ResponseCache.Proofs.Directive.Lines
import ResponseCache.Proofs.Directive.Whole

/-!
# Directives that count by their first appearance

Of several directives that give a number under one name the first counts, and none of them may be
malformed. So no directive that is added behind the first one of a name, or that has another name,
changes what is read of a list under that name (`firstSeconds?_insert`). This holds of added lines
too (`first?_ofText_joinLines_append`): they can run into the last directive of the lines in front
of them if these end inside quotes, but a number that runs on into another line has a comma in it,
and then no directive is read at all.

A request limits what is fresh for it by the first `max-age` and the first `min-fresh` alone. What
is added to a list of directives so that these stay first makes it no looser (`NoLooser`).
-/

namespace ResponseCache

namespace Directive

open Text

variable {s t x : List Char} {c : Char} {name : String} {d : Directive}

theorem firstSeconds?_filter {other : String} (h : name ≠ other) (l : List Directive) :
    firstSeconds? name (l.filter fun d => d.name ≠ other) = firstSeconds? name l := by
  have hfirst : first? name (l.filter fun d => d.name ≠ other) = first? name l := by
    rw [first?, List.find?_filter]
    refine congrFun (congrArg List.find? (funext fun d => ?_)) l
    by_cases hd : d.name = name
    · simp [hd, h]
    · simp [hd]
  rw [firstSeconds?, hfirst, firstSeconds?]

/-- A directive that is put into a list does not change what the list says first under a name,
unless it has this name itself and stands in front of all others of the name. -/
theorem firstSeconds?_insert {front back : List Directive} {n : Nat}
    (h : d.name = name → isNamed name front = true ∨ isNamed name back = false)
    (hn : firstSeconds? name (front ++ back) = some n) :
    firstSeconds? name (front ++ d :: back) = some n := by
  have hnamed : isNamed name front = true ∨ isNamed name back = true := by
    obtain ⟨d', hd', -⟩ := Option.bind_eq_some_iff.1 hn
    rw [← Bool.or_eq_true, ← isNamed_append, ← isSome_first?, hd', Option.isSome_some]
  have hplace : isNamed name front = true ∨ d.name ≠ name := by
    by_cases hd : d.name = name
    · rcases hnamed with hfront | hback
      · exact .inl hfront
      · exact .inl ((h hd).resolve_right (by rw [hback]; decide))
    · exact .inr hd
  have hfirst : first? name (front ++ d :: back) = first? name (front ++ back) := by
    rw [first?, first?, List.find?_append, List.find?_append]
    rcases hplace with hfront | hd
    · rw [← isSome_first?, first?] at hfront
      rw [Option.or_of_isSome hfront, Option.or_of_isSome hfront]
    · rw [List.find?_cons_of_neg (by simpa using hd)]
  rw [firstSeconds?, hfirst]
  exact hn

/-! ## Numbers that run into another line -/

section Comma

theorem mem_unescape (hc : c ≠ '\\') (h : c ∈ s) : c ∈ unescape s := by
  fun_induction unescape s with
  | case1 => exact h
  | case2 d s ih =>
    rcases List.mem_cons.1 h with rfl | h
    · exact absurd rfl hc
    · rcases List.mem_cons.1 h with rfl | h
      · exact List.mem_cons_self
      · exact List.mem_cons_of_mem _ (ih h)
  | case3 => exact absurd (List.mem_singleton.1 h) hc
  | case4 d s _ _ ih =>
    rcases List.mem_cons.1 h with rfl | h
    · exact List.mem_cons_self
    · exact List.mem_cons_of_mem _ (ih h)

/-- What is neither a quote nor a backslash stays in a value when its quotes are taken off. -/
theorem mem_unquote (hquote : c ≠ '"') (hc : c ≠ '\\') (h : c ∈ s) : c ∈ unquote s := by
  unfold unquote
  split
  · rename_i inner
    split
    · rename_i hlast
      obtain ⟨body, rfl⟩ := List.getLast?_eq_some_iff.1 hlast
      have hbody : c ∈ body := by simpa [hquote] using h
      rw [List.dropLast_concat]
      exact mem_unescape hc hbody
    · exact h
  · exact h

theorem isDigit_of_seconds (h : d.seconds.toOption.isSome) {v : String} (hv : d.value = some v) :
    ∀ c ∈ v.toList, Decimal.isDigit c = true := by
  rw [seconds, hv, Option.getD_some] at h
  cases hvalue : Decimal.value? v.toList with
  | none =>
    rw [hvalue] at h
    cases h
  | some n => exact (Decimal.value?_eq_some_iff.1 hvalue).2.1

/-- A number does not run on behind a comma: with a comma inside quotes behind it, an item that
gives a number gives none. -/
theorem not_isSome_seconds_of_quote (hquote : '"' ∈ x) (hname : '"' ∉ name.toList)
    (h : (ofItem? x).map Directive.name = some name) (t : List Char) :
    ∃ d, ofItem? (x ++ ',' :: t) = some d ∧ d.name = name ∧ d.seconds.toOption.isSome = false := by
  obtain ⟨before, after, rfl, hbefore, rfl⟩ := exists_split_of_quote hquote hname h
  have hitem := ofItem?_append hbefore (after ++ ',' :: t)
  rw [List.append_assoc, List.cons_append]
  refine ⟨_, hitem, rfl, Bool.eq_false_iff.2 fun hseconds => ?_⟩
  have hcomma : ',' ∈ unquote (trim (trimEnd (after ++ ',' :: t))) := by
    refine mem_unquote (by decide) (by decide) (mem_trim ?_ (by decide))
    rw [trimEnd_append_cons (by decide)]
    exact List.mem_append_right _ List.mem_cons_self
  rw [← String.toList_ofList (l := unquote _)] at hcomma
  exact absurd (isDigit_of_seconds hseconds rfl ',' hcomma) (by decide)

end Comma

/-! ## Lines added behind others -/

section Added

open Exchange

/-- What follows a text behind a comma does not come before the first directive of a name in the
text, if all directives of this name are to give a number. -/
theorem first?_ofText_append_comma (hname : '"' ∉ name.toList)
    (h : first? name (ofText s) = some d)
    (hall : ∀ d ∈ ofText (s ++ ',' :: t), d.name = name → d.seconds.toOption.isSome) :
    first? name (ofText (s ++ ',' :: t)) = some d := by
  by_cases hs : Quoting.outside.after s = .outside
  · rw [ofText, items_append_comma hs, List.filterMap_append, first?, List.find?_append]
    rw [first?, ofText] at h
    rw [h, Option.some_or]
  · obtain ⟨done, x, hitems, hafter, happend⟩ := exists_last_item .outside s
    obtain ⟨y, rest, hy⟩ := exists_cons_items ((Quoting.outside.after s).next ',') t
    have hnext := happend (',' :: t) (',' :: y) rest (items_cons (fun hc => hs hc.1) hy)
    rw [ite_self] at hafter
    rw [ofText, hnext, List.filterMap_append] at hall ⊢
    rw [first?, ofText, hitems, List.filterMap_append, List.find?_append] at h
    rw [first?, List.find?_append]
    cases hdone : (done.filterMap ofItem?).find? fun d => d.name = name with
    | some d' =>
      rw [hdone] at h
      exact h
    | none =>
      -- the directive is the last one of the text, which goes on inside quotes
      rw [hdone, Option.none_or] at h
      have hx : (ofItem? x).map Directive.name = some name := by
        have hitem := List.mem_filterMap.1 (List.mem_of_find?_eq_some h)
        have hnamed := List.find?_some h
        simp only [List.mem_singleton, exists_eq_left] at hitem
        rw [hitem, Option.map_some, of_decide_eq_true hnamed]
      have hquote : '"' ∈ x :=
        Decidable.byContradiction fun hno => hs (hafter.trans (after_of_not_mem hno))
      obtain ⟨d', hd', hnamed, hbad⟩ := not_isSome_seconds_of_quote hquote hname hx y
      have hmem : d' ∈ ((x ++ ',' :: y) :: rest).filterMap ofItem? :=
        List.mem_filterMap.2 ⟨_, List.mem_cons_self, hd'⟩
      have hgood := hall d' (List.mem_append_right _ hmem) hnamed
      rw [hbad] at hgood
      cases hgood

/-- Further lines stand behind the lines that are there, with a comma between them. -/
theorem joinLines_append {lines : List (List Char)} (h : joinLines lines ≠ [])
    (more : List (List Char)) :
    joinLines (lines ++ more) = joinLines lines
      ∨ ∃ t, joinLines (lines ++ more) = joinLines lines ++ ',' :: t := by
  induction more using List.reverseRecOn with
  | nil => exact .inl (by rw [List.append_nil])
  | append_singleton more line ih =>
    have hne : (joinLines (lines ++ more)).isEmpty = false := by
      rw [List.isEmpty_eq_false_iff]
      rcases ih with ih | ⟨t, ih⟩
      · rwa [ih]
      · rw [ih]
        exact List.append_ne_nil_of_left_ne_nil h _
    rw [← List.append_assoc, joinLines_concat, hne, if_neg (by decide)]
    rcases ih with ih | ⟨t, ih⟩
    · exact .inr ⟨' ' :: line, by rw [ih, List.append_assoc]; rfl⟩
    · exact .inr ⟨t ++ [',', ' '] ++ line, by rw [ih]; simp⟩

/-- Lines added behind others keep the first directive of a name where it is, if all directives of
this name are to give a number. -/
theorem first?_ofText_joinLines_append (hname : '"' ∉ name.toList) {lines more : List (List Char)}
    (h : first? name (ofText (joinLines lines)) = some d)
    (hall : ∀ d ∈ ofText (joinLines (lines ++ more)), d.name = name →
      d.seconds.toOption.isSome) :
    first? name (ofText (joinLines (lines ++ more))) = some d := by
  have hne : joinLines lines ≠ [] := fun hempty => by
    rw [hempty] at h
    cases h
  rcases joinLines_append hne more with hsame | ⟨t, hmore⟩
  · rwa [hsame]
  · rw [hmore] at hall ⊢
    exact first?_ofText_append_comma hname h hall

end Added

end Directive

namespace RequestDirectives

variable {list : List Directive} {ds : RequestDirectives}

/-- The limits of a list are those of its first directives of these names, and all directives of
these names are well formed. -/
theorem limits_ofDirectives (h : ofDirectives list = .ok ds) :
    (ds.maxAge = Directive.firstSeconds? "max-age" list
        ∧ ∀ d ∈ list, d.name = "max-age" → d.seconds.toOption.isSome)
      ∧ ds.minFresh = Directive.firstSeconds? "min-fresh" list
        ∧ ∀ d ∈ list, d.name = "min-fresh" → d.seconds.toOption.isSome := by
  obtain ⟨hgood, rfl⟩ := ofDirectives_eq_ok_iff.1 h
  have hnumber : ∀ name ∈ numericNames, name ≠ "max-stale" → ∀ d ∈ list, d.name = name →
      d.seconds.toOption.isSome := fun name hname hstale d hd hn =>
    Directive.isSome_seconds
      (not_noNumber (hn ▸ hname) (fun hn' => absurd (hn ▸ hn') hstale) (hgood d hd))
  exact ⟨⟨rfl, hnumber _ (by decide) (by decide)⟩, rfl, hnumber _ (by decide) (by decide)⟩

/-- The directives `asked'` admit no more than the directives `asked`: a `max-age` in `asked` has
one in `asked'` that is no larger, and the `min-fresh` of `asked'` is no smaller, where none is as
good as zero. Of several directives of one name this is about the first. -/
structure NoLooser (asked asked' : List Directive) : Prop where
  maxAge : ∀ n, Directive.firstSeconds? "max-age" asked = some n →
    ∃ m, m ≤ n ∧ Directive.firstSeconds? "max-age" asked' = some m
  minFresh : (Directive.firstSeconds? "min-fresh" asked).getD 0
    ≤ (Directive.firstSeconds? "min-fresh" asked').getD 0

section NoLooser

variable {asked asked' front back : List Directive} {ds' : RequestDirectives} {d : Directive}

theorem noLooser_iff (h : ofDirectives asked = .ok ds) (h' : ofDirectives asked' = .ok ds') :
    NoLooser asked asked' ↔
      (∀ n, ds.maxAge = some n → ∃ m, m ≤ n ∧ ds'.maxAge = some m)
        ∧ ds.minFresh.getD 0 ≤ ds'.minFresh.getD 0 := by
  obtain ⟨⟨hage, -⟩, hfresh, -⟩ := limits_ofDirectives h
  obtain ⟨⟨hage', -⟩, hfresh', -⟩ := limits_ofDirectives h'
  rw [hage, hage', hfresh, hfresh']
  exact ⟨fun hno => ⟨hno.maxAge, hno.minFresh⟩, fun hno => ⟨hno.1, hno.2⟩⟩

/-- Limits that stay in force are no looser. -/
theorem noLooser_of_kept (h : ∀ name ∈ ["max-age", "min-fresh"], ∀ n,
      Directive.firstSeconds? name asked = some n →
        Directive.firstSeconds? name asked' = some n) :
    NoLooser asked asked' where
  maxAge n hn := ⟨n, Nat.le_refl n, h "max-age" (by decide) n hn⟩
  minFresh := by
    cases hn : Directive.firstSeconds? "min-fresh" asked with
    | none => exact Nat.zero_le _
    | some n => rw [h "min-fresh" (by decide) n hn]

/-- A directive that is put anywhere in a list makes it no looser, unless it is a limit in front of
all of its own name. -/
theorem noLooser_insert
    (h : d.name ∈ ["max-age", "min-fresh"] →
      Directive.isNamed d.name front = true ∨ Directive.isNamed d.name back = false) :
    NoLooser (front ++ back) (front ++ d :: back) :=
  noLooser_of_kept fun _ hname _ hn =>
    Directive.firstSeconds?_insert (fun hd => hd ▸ h (hd ▸ hname)) hn

/-- Lines that are added behind the lines of a request make it no looser. -/
theorem noLooser_joinLines_append {lines more : List (List Char)}
    (h : ofText (Exchange.joinLines (lines ++ more)) = .ok ds) :
    NoLooser (Directive.ofText (Exchange.joinLines lines))
      (Directive.ofText (Exchange.joinLines (lines ++ more))) := by
  obtain ⟨⟨-, hage⟩, -, hfresh⟩ := limits_ofDirectives h
  refine noLooser_of_kept fun name hname n hn => ?_
  obtain ⟨d, hd, hseconds⟩ := Option.bind_eq_some_iff.1 hn
  refine Option.bind_eq_some_iff.2 ⟨d, ?_, hseconds⟩
  simp only [List.mem_cons, List.not_mem_nil, or_false] at hname
  rcases hname with rfl | rfl
  · exact Directive.first?_ofText_joinLines_append (by decide) hd hage
  · exact Directive.first?_ofText_joinLines_append (by decide) hd hfresh

end NoLooser

end RequestDirectives

namespace ResponseDirectives

variable {list : List Directive} {ds : ResponseDirectives}

theorem maxAge_ofDirectives (h : ofDirectives list = .ok ds) :
    ds.maxAge = Directive.firstSeconds? "max-age" list := by
  obtain ⟨-, rfl⟩ := ofDirectives_eq_ok_iff.1 h
  rfl

end ResponseDirectives

end ResponseCache
