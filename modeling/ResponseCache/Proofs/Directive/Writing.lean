import ResponseCache.Proofs.Directive.Lines

/-!
# Directives written and read

A list of directives can be written in many ways: names in any case, values bare or between quotes,
blanks around each directive, and items of blanks alone anywhere. `Piece` is what may stand between
two commas, and to read a list of pieces gives back the directives in them (`ofText_written`).

Two readers have to agree on this, for the one that cuts a text into items keeps track of quotes and
backslashes by itself and the one that takes the quotes off a value starts anew. `Uncut` says of a
part of an item that the first one reads on over it, and where that leaves it. It holds of names and
bare values, which have no commas, and between quotes it holds of everything that `escape` writes
(`Uncut.escape`). The second reader takes back what `escape` has done (`unescape_escape`).
-/

namespace ResponseCache.Directive

open Text

/-! ## Writing -/

/-- A text as it stands between quotes, with a backslash in front of each quote and backslash. -/
def escape (s : List Char) : List Char :=
  s.flatMap fun c => if c = '"' ∨ c = '\\' then ['\\', c] else [c]

/-- A text that a value may be without quotes. -/
structure BareText where
  text : List Char
  trimmed : trim text = text
  noComma : ',' ∉ text
  noQuote : '"' ∉ text

/-- A name of directives, without capitals. -/
structure Name extends BareText where
  nonempty : text ≠ []
  noEquals : '=' ∉ text
  small : lower text = text

/-- A value as it is written. -/
inductive Value where
  | absent
  | bare (value : BareText)
  | quoted (text : List Char)

/-- What the value is when it is read. -/
def Value.read : Value → Option String
  | absent => none
  | bare value => some (String.ofList value.text)
  | quoted text => some (String.ofList text)

/-- The value and the equals sign in front of it. -/
def Value.written : Value → List Char
  | absent => []
  | bare value => '=' :: value.text
  | quoted text => '=' :: '"' :: (escape text ++ ['"'])

/-- A name with some of its letters written as capitals, perhaps. -/
def Spelling (name : Name) : Type :=
  {s : List Char // lower s = name.text}

/-- Any number of blanks. -/
def Blanks : Type :=
  {s : List Char // ∀ c ∈ s, isBlank c = true}

/-- What stands between two commas. -/
inductive Piece where
  | empty (blanks : Blanks)
  | directive (before : Blanks) (name : Name) (spelling : Spelling name) (value : Value)
    (after : Blanks)

namespace Piece

def written : Piece → List Char
  | empty blanks => blanks.val
  | directive before _ spelling value after =>
    before.val ++ (spelling.val ++ value.written) ++ after.val

/-- The directive that the piece is. -/
def directive? : Piece → Option Directive
  | empty _ => none
  | directive _ name _ value _ => some ⟨String.ofList name.text, value.read⟩

end Piece

/-- The pieces with commas between them. -/
def written (pieces : List Piece) : List Char :=
  [','].intercalate (pieces.map Piece.written)

/-! ## Items -/

section Items

variable {q q' q'' : Quoting} {c : Char} {s x y : List Char}

/-- There is no cut in `x` if it is read from `q` on, and then `q'` is reached. -/
structure Uncut (q : Quoting) (x : List Char) (q' : Quoting) : Prop where
  items_eq : items q x = [x]
  after_eq : q.after x = q'

namespace Uncut

theorem nil (q : Quoting) : Uncut q [] q :=
  ⟨rfl, rfl⟩

theorem cons (hc : ¬ (q = .outside ∧ c = ',')) (h : Uncut (q.next c) x q') :
    Uncut q (c :: x) q' :=
  ⟨items_cons hc h.items_eq, h.after_eq⟩

theorem append (hx : Uncut q x q') (hy : Uncut q' y q'') : Uncut q (x ++ y) q'' := by
  obtain ⟨done, last, hitems, -, happend⟩ := exists_last_item q x
  rw [hx.items_eq, List.singleton_eq_append_iff] at hitems
  obtain ⟨rfl, hlast⟩ | ⟨-, hnil⟩ := hitems
  · obtain rfl : last = x := (List.singleton_inj.1 hlast)
    refine ⟨happend y y [] ?_, ?_⟩
    · rw [hx.after_eq, hy.items_eq]
    · rw [Quoting.after_append, hx.after_eq, hy.after_eq]
  · cases hnil

/-- Outside quotes only commas cut, and only quotes lead elsewhere. -/
theorem plain (hcomma : ',' ∉ x) (hquote : '"' ∉ x) : Uncut .outside x .outside := by
  induction x with
  | nil => exact nil _
  | cons c x ih =>
    rw [List.mem_cons, not_or] at hcomma hquote
    have hnext : Quoting.outside.next c = .outside := if_neg (Ne.symm hquote.1)
    refine cons (fun hc => hcomma.1 hc.2.symm) ?_
    rw [hnext]
    exact ih hcomma.2 hquote.2

/-- Between quotes an escaped text does not end the quotes, whatever it is. -/
theorem escape (s : List Char) : Uncut .inside (escape s) .inside := by
  induction s with
  | nil => exact nil _
  | cons c s ih =>
    have hinside : ∀ c : Char, ¬ (Quoting.inside = .outside ∧ c = ',') := fun _ h => nomatch h.1
    rw [Directive.escape, List.flatMap_cons]
    refine append ?_ ih
    split
    · -- the backslash takes the next character as it is
      refine cons (hinside _) ?_
      exact cons (fun h => nomatch h.1) (nil _)
    · rename_i hplain
      rw [not_or] at hplain
      have hnext : Quoting.inside.next c = .inside := by
        rw [Quoting.next, if_neg hplain.1, if_neg hplain.2]
      refine cons (hinside _) ?_
      rw [hnext]
      exact nil _

theorem quoted (s : List Char) :
    Uncut .outside ('"' :: (Directive.escape s ++ ['"'])) .outside := by
  have hopen : Quoting.outside.next '"' = .inside := rfl
  have hclose : Uncut .inside ['"'] .outside := ⟨rfl, rfl⟩
  refine cons (by decide) ?_
  rw [hopen]
  exact (escape s).append hclose

end Uncut

/-- Texts without a cut are the items of the text that they make with commas between them. -/
theorem items_intercalate {items' : List (List Char)} (hne : items' ≠ [])
    (h : ∀ x ∈ items', Uncut .outside x .outside) :
    items .outside ([','].intercalate items') = items' := by
  induction items' with
  | nil => exact absurd rfl hne
  | cons x rest ih =>
    have hx := h x List.mem_cons_self
    cases rest with
    | nil => rw [List.intercalate_singleton, hx.items_eq]
    | cons y rest =>
      have hrest := ih (List.cons_ne_nil _ _) fun z hz => h z (List.mem_cons_of_mem _ hz)
      rw [List.intercalate_cons_cons, List.append_assoc, List.singleton_append,
        items_append_comma hx.after_eq, hx.items_eq, hrest, List.singleton_append]

end Items

/-! ## Values -/

section Values

variable {c : Char}

theorem unescape_cons (hc : c ≠ '\\') (s : List Char) : unescape (c :: s) = c :: unescape s := by
  cases s <;> simp [unescape, hc]

theorem unescape_escape (s : List Char) : unescape (escape s) = s := by
  induction s with
  | nil => rfl
  | cons c s ih =>
    rw [escape, List.flatMap_cons, ← escape]
    split
    · rw [List.cons_append, List.singleton_append, unescape, ih]
    · rename_i hplain
      rw [not_or] at hplain
      rw [List.singleton_append, unescape_cons hplain.2, ih]

theorem unquote_quoted (s : List Char) : unquote ('"' :: (escape s ++ ['"'])) = s := by
  have hlast : (escape s ++ ['"']).getLast? = some '"' := List.getLast?_concat
  rw [unquote, if_pos hlast, List.dropLast_concat, unescape_escape]

theorem unquote_of_not_mem {s : List Char} (h : '"' ∉ s) : unquote s = s := by
  unfold unquote
  split
  · exact absurd List.mem_cons_self h
  · rfl

theorem trim_quoted (s : List Char) : trim ('"' :: (s ++ ['"'])) = '"' :: (s ++ ['"']) := by
  have hquote : isBlank '"' = false := by decide
  have hclose : trimEnd (s ++ ['"']) = s ++ ['"'] := trimEnd_append_cons hquote
  have hopen := trim_append_cons (s := []) (t := s ++ ['"']) hquote
  rw [hclose] at hopen
  exact hopen

end Values

/-! ## Reading what is written -/

theorem not_mem_blanks {c : Char} (hc : isBlank c = false) (blanks : Blanks) : c ∉ blanks.val :=
  fun h => Bool.false_ne_true (hc.symm.trans (blanks.property c h))

theorem uncut_blanks (blanks : Blanks) : Uncut .outside blanks.val .outside :=
  .plain (not_mem_blanks (by decide) blanks) (not_mem_blanks (by decide) blanks)

theorem uncut_value (value : Value) : Uncut .outside value.written .outside := by
  cases value with
  | absent => exact .nil _
  | bare value => exact .cons (by decide) (.plain value.noComma value.noQuote)
  | quoted text => exact .cons (by decide) (.quoted text)

section Pieces

variable {name : Name} (before after : Blanks) (spelling : Spelling name)

/-- What is no letter is in a name exactly if it is in the name as it is spelled. -/
theorem not_mem_spelling {c : Char} (hc : ¬ (97 ≤ c.toNat ∧ c.toNat ≤ 122))
    (hsmall : c.toLower = c) (hname : c ∉ name.text) : c ∉ spelling.val := by
  rwa [← spelling.property, mem_lower_iff hc hsmall] at hname

theorem lower_trim_spelling : lower (trim (before.val ++ spelling.val)) = name.text := by
  have htrim := trim_surround before.property (List.forall_mem_nil _) spelling.val
  rw [List.append_nil] at htrim
  rw [htrim, ← trim_lower, spelling.property, name.trimmed]

theorem not_mem_before_spelling : '=' ∉ before.val ++ spelling.val := by
  rw [List.mem_append, not_or]
  exact ⟨not_mem_blanks (by decide) before,
    not_mem_spelling spelling (by decide) (by decide) name.noEquals⟩

theorem uncut_piece (piece : Piece) : Uncut .outside piece.written .outside := by
  cases piece with
  | empty blanks => exact uncut_blanks blanks
  | directive before name spelling value after =>
    have hname : Uncut .outside spelling.val .outside :=
      .plain (not_mem_spelling spelling (by decide) (by decide) name.noComma)
        (not_mem_spelling spelling (by decide) (by decide) name.noQuote)
    exact ((uncut_blanks before).append (hname.append (uncut_value value))).append
      (uncut_blanks after)

theorem ofItem?_bareName :
    ofItem? (before.val ++ (spelling.val ++ []) ++ after.val)
      = some ⟨String.ofList name.text, none⟩ := by
  have hequals : '=' ∉ before.val ++ spelling.val ++ after.val := by
    rw [List.mem_append, not_or]
    exact ⟨not_mem_before_spelling before spelling, not_mem_blanks (by decide) after⟩
  have htrim : trim (before.val ++ spelling.val ++ after.val) = trim (before.val ++ spelling.val) :=
    trim_surround (List.forall_mem_nil _) after.property (before.val ++ spelling.val)
  have hlower := lower_trim_spelling before spelling
  have hne : (trim (before.val ++ spelling.val)).isEmpty = false := by
    rw [List.isEmpty_eq_false_iff]
    intro hnil
    rw [hnil] at hlower
    exact name.nonempty hlower.symm
  rw [List.append_nil, ofItem?_of_not_mem hequals, htrim, hne, if_neg Bool.false_ne_true, hlower]

theorem ofItem?_valued {w : List Char} (hw : trim w = w) :
    ofItem? (before.val ++ (spelling.val ++ '=' :: w) ++ after.val)
      = some ⟨String.ofList name.text, some (String.ofList (unquote w))⟩ := by
  have hequals := not_mem_before_spelling before spelling
  have hsplit : before.val ++ (spelling.val ++ '=' :: w) ++ after.val
      = (before.val ++ spelling.val) ++ '=' :: (w ++ after.val) := by simp
  rw [hsplit, ofItem?_append hequals, lower_trim_spelling, trimEnd_append after.property,
    trimEnd_eq_self hw, hw]

theorem ofItem?_written (piece : Piece) : ofItem? piece.written = piece.directive? := by
  cases piece with
  | empty blanks =>
    have hnone : trim blanks.val = [] := by
      have htrim := trim_surround blanks.property (List.forall_mem_nil _) []
      rwa [List.append_nil, List.append_nil] at htrim
    rw [Piece.written, ofItem?_of_not_mem (not_mem_blanks (by decide) blanks), hnone]
    rfl
  | directive before name spelling value after =>
    cases value with
    | absent => exact ofItem?_bareName before after spelling
    | bare value =>
      refine (ofItem?_valued before after spelling value.trimmed).trans ?_
      rw [unquote_of_not_mem value.noQuote]
      rfl
    | quoted text =>
      refine (ofItem?_valued before after spelling (trim_quoted _)).trans ?_
      rw [unquote_quoted]
      rfl

end Pieces

/-- Reading a list of directives undoes writing it. Whatever the pieces are, the text that they make
with commas between them is read as the directives in them, in their order: each with its name, in
whatever case the letters of the name are written, and with its value, which may be absent, bare or
any text at all between quotes. Blanks around directives and empty pieces leave no trace. -/
theorem ofText_written (pieces : List Piece) :
    ofText (written pieces) = pieces.filterMap Piece.directive? := by
  cases pieces with
  | nil => rfl
  | cons piece rest =>
    have hne : (piece :: rest).map Piece.written ≠ [] := List.cons_ne_nil _ _
    have hitems := items_intercalate hne fun x hx => by
      obtain ⟨p, -, rfl⟩ := List.mem_map.1 hx
      exact uncut_piece p
    rw [ofText, written, hitems, List.filterMap_map]
    exact congrArg (List.filterMap · _) (funext ofItem?_written)

end ResponseCache.Directive
