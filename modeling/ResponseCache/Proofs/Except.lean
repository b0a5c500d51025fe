/-!
# Computations that may fail

When a computation made of others succeeds: each part has, and the last one gave the result. When it
fails: one part has, and those before it have not. With these a chain of readers is taken apart into
what each of them read, and a fold is said to be what its steps are to the whole list (`foldlM_eq`).
-/

namespace ResponseCache

variable {ε α β : Type}

theorem bind_eq_ok_iff {x : Except ε α} {f : α → Except ε β} {b : β} :
    (x >>= f) = .ok b ↔ ∃ a, x = .ok a ∧ f a = .ok b := by
  cases x <;> simp [bind, Except.bind]

theorem bind_eq_error_iff {x : Except ε α} {f : α → Except ε β} {e : ε} :
    (x >>= f) = .error e ↔ x = .error e ∨ ∃ a, x = .ok a ∧ f a = .error e := by
  cases x <;> simp [bind, Except.bind]

theorem map_eq_ok_iff {x : Except ε α} {f : α → β} {b : β} :
    x.map f = .ok b ↔ ∃ a, x = .ok a ∧ f a = b := by
  cases x <;> simp [Except.map]

theorem mapError_eq_ok_iff {ε' : Type} {x : Except ε α} {f : ε → ε'} {a : α} :
    x.mapError f = .ok a ↔ x = .ok a := by
  cases x with
  | error e =>
    show Except.error _ = Except.ok _ ↔ _
    simp only [reduceCtorEq]
  | ok b => exact ⟨fun h => by cases h; rfl, fun h => by cases h; rfl⟩

theorem mapError_eq_error_iff {ε' : Type} {x : Except ε α} {f : ε → ε'} {e' : ε'} :
    x.mapError f = .error e' ↔ ∃ e, x = .error e ∧ f e = e' := by
  cases x with
  | error e =>
    show Except.error (f e) = Except.error e' ↔ _
    simp only [Except.error.injEq, exists_eq_left']
  | ok a =>
    show Except.ok _ = Except.error _ ↔ _
    simp only [reduceCtorEq, false_and, exists_false]

theorem pure_eq_ok_iff {a b : α} : (pure a : Except ε α) = .ok b ↔ a = b := by
  simp [pure, Except.pure]

theorem eq_ok_of_toOption {x : Except ε α} {a : α} (h : x.toOption = some a) : x = .ok a := by
  cases x with
  | error => cases h
  | ok a' => rw [Option.some.inj h]

/-- A list is read if all its items can be read. -/
theorem mapM_ite {p : α → Prop} [DecidablePred p] {g : α → β} {fault : ε} (l : List α) :
    (l.mapM fun a => if p a then .ok (g a) else .error fault : Except ε (List β))
      = if ∀ a ∈ l, p a then .ok (l.map g) else .error fault := by
  induction l with
  | nil => rfl
  | cons a l ih =>
    rw [List.mapM_cons, ih]
    by_cases ha : p a
    · by_cases hl : ∀ a ∈ l, p a
      · rw [if_pos ha, if_pos hl, if_pos (List.forall_mem_cons.2 ⟨ha, hl⟩)]
        rfl
      · rw [if_pos ha, if_neg hl, if_neg fun h => hl (List.forall_mem_cons.1 h).2]
        rfl
    · rw [if_neg ha, if_neg fun h => ha (List.forall_mem_cons.1 h).1]
      rfl

/-- If a step fails at the items of one kind and takes the others in, a fold fails at the first item
of that kind, and without one it takes in the list as a whole. -/
theorem foldlM_eq {step : α → β → Except ε α} {bad : β → Prop} [DecidablePred bad] {fault : β → ε}
    {extend : α → List β → α} (hnil : ∀ a, extend a [] = a)
    (hcons : ∀ a d list, ¬ bad d → extend (extend a [d]) list = extend a (d :: list))
    (hstep : ∀ a d, step a d = if bad d then .error (fault d) else .ok (extend a [d]))
    (list : List β) (a : α) :
    list.foldlM step a
      = (list.find? fun d => bad d).elim (.ok (extend a list)) fun d => .error (fault d) := by
  induction list generalizing a with
  | nil => exact congrArg Except.ok (hnil a).symm
  | cons d list ih =>
    rw [List.foldlM_cons, hstep, List.find?_cons]
    by_cases hd : bad d
    · rw [if_pos hd, decide_eq_true hd]
      rfl
    · rw [if_neg hd, decide_eq_false hd, ← hcons a d list hd]
      exact ih (extend a [d])

theorem elim_find?_eq_ok_iff {bad : β → Prop} [DecidablePred bad] {fault : β → ε}
    {list : List β} {a b : α} :
    ((list.find? fun d => bad d).elim (.ok a) fun d => .error (fault d) : Except ε α) = .ok b
      ↔ (∀ d ∈ list, ¬ bad d) ∧ a = b := by
  cases hfind : list.find? fun d => bad d with
  | none =>
    have hgood := List.find?_eq_none.1 hfind
    simp only [decide_eq_true_eq] at hgood
    rw [Option.elim_none, Except.ok.injEq]
    exact (and_iff_right hgood).symm
  | some d =>
    have hbad : bad d := by simpa using List.find?_some hfind
    exact iff_of_false nofun fun h => h.1 d (List.mem_of_find?_eq_some hfind) hbad

end ResponseCache
