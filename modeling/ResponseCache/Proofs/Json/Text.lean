import ResponseCache.Json.Reader
import ResponseCache.Proofs.Json.Number
import ResponseCache.Text.Inspect

/-!
# Written objects are read

A word or a number of JSON goes on as long as its characters do, so it is read from a text if a mark
or nothing comes after it (`Stops`); a quoted text ends at its quote. An object whose values are
single tokens is written as its members with commas between them and braces around them. A member
carries the facts that make it readable (`Member`), and what is made of such members is read as the
object with these names and values in the same order (`ofString?_object`).
-/

namespace ResponseCache.Json

namespace Token

variable {c : Char} {s rest : List Char} {n w : List Char} {t : Token} {number : Number}

/-! ## Marks -/

/-- The text ends or goes on with a mark. -/
def Stops (s : List Char) : Prop :=
  ∀ c ∈ s.head?, (ofPunctuation? c).isSome = true

/-- The text is read as one token, whatever stands behind it and does not go on with it. -/
def Reads (s : List Char) (t : Token) : Prop :=
  ∀ rest, Stops rest → read? .between (s ++ rest) = (read? .between rest).map (t :: ·)

/-- A number or a word ends in front of a punctuation mark. -/
theorem stops_cons (h : (ofPunctuation? c).isSome = true) (s : List Char) : Stops (c :: s) := by
  intro d hd
  obtain rfl : c = d := Option.some.inj hd
  exact h

theorem mark_cases (h : (ofPunctuation? c).isSome = true) :
    c = '\x7b' ∨ c = '\x7d' ∨ c = '[' ∨ c = ']' ∨ c = ':' ∨ c = ',' := by
  unfold ofPunctuation? at h
  split at h <;> simp_all

/-- A mark is neither a blank nor a quote and belongs to no word and no number. -/
theorem mark_kinds (h : (ofPunctuation? c).isSome = true) :
    isSeparator c = false ∧ c ≠ '"' ∧ (Decimal.isDigit c || c == '-') = false
      ∧ c.isAlpha = false ∧ isNumeric c = false := by
  rcases mark_cases h with rfl | rfl | rfl | rfl | rfl | rfl <;> decide

theorem read?_mark (h : ofPunctuation? c = some t) (s : List Char) :
    read? .between (c :: s) = (read? .between s).map (t :: ·) := by
  obtain ⟨hblank, hquote, hnumber, hword, -⟩ := mark_kinds (Option.isSome_of_eq_some h)
  rw [read?, hblank, if_neg Bool.false_ne_true, if_neg hquote, hnumber,
    if_neg Bool.false_ne_true, hword, if_neg Bool.false_ne_true, h, Option.map_eq_bind]
  rfl

/-! ## Words and numbers -/

/-- Where a number ends, it is read from the characters so far. -/
theorem read?_number_stops (h : Stops rest) (n : List Char) :
    read? (.number n) rest
      = (Number.ofChars? n.reverse).bind fun v => (read? .between rest).map (.number v :: ·) := by
  cases rest with
  | nil =>
    rw [read?, read?]
    rfl
  | cons c s =>
    obtain ⟨t, ht⟩ := Option.isSome_iff_exists.1 (h c rfl)
    obtain ⟨hblank, -, -, -, hnumeric⟩ := mark_kinds (h c rfl)
    rw [read?_mark ht, read?, hnumeric, if_neg Bool.false_ne_true, hblank, ht]
    cases Number.ofChars? n.reverse <;> cases read? .between s <;> rfl

theorem read?_number (h : Stops rest) (hs : ∀ c ∈ s, isNumeric c = true) (n : List Char) :
    read? (.number n) (s ++ rest)
      = (Number.ofChars? (n.reverse ++ s)).bind fun v =>
        (read? .between rest).map (.number v :: ·) := by
  induction s generalizing n with
  | nil => rw [List.nil_append, List.append_nil, read?_number_stops h]
  | cons c s ih =>
    rw [List.cons_append, read?, if_pos (hs c List.mem_cons_self),
      ih (fun c hc => hs c (List.mem_cons_of_mem _ hc)), List.reverse_cons, List.append_assoc]
    rfl

theorem read?_word_stops (h : Stops rest) (w : List Char) :
    read? (.word w) rest
      = (ofWord? w.reverse).bind fun t => (read? .between rest).map (t :: ·) := by
  cases rest with
  | nil =>
    rw [read?, read?]
    rfl
  | cons c s =>
    obtain ⟨t, ht⟩ := Option.isSome_iff_exists.1 (h c rfl)
    obtain ⟨hblank, -, -, hword, -⟩ := mark_kinds (h c rfl)
    rw [read?_mark ht, read?, hword, if_neg Bool.false_ne_true, hblank, ht]
    cases ofWord? w.reverse <;> cases read? .between s <;> rfl

theorem reads_bool (b : Bool) : Reads (Text.inspectBool b).toList (.bool b) := by
  intro rest h
  cases b with
  | false => exact read?_word_stops h ['e', 's', 'l', 'a', 'f']
  | true => exact read?_word_stops h ['e', 'u', 'r', 't']

/-- A digit and a minus sign are neither blanks nor quotes. -/
theorem digit_kinds (h : (Decimal.isDigit c || c == '-') = true) :
    isSeparator c = false ∧ c ≠ '"' := by
  constructor
  · by_contra hblank
    simp only [isSeparator, Bool.not_eq_false, Bool.or_eq_true, beq_iff_eq] at hblank
    rcases hblank with ((rfl | rfl) | rfl) | rfl <;> exact absurd h (by decide)
  · rintro rfl
    exact absurd h (by decide)

theorem reads_number (h : number.IsLiteral) : Reads number.written (.number number) := by
  intro rest hrest
  obtain ⟨c, s, hwritten, hc⟩ := h.exists_cons_written
  obtain ⟨hblank, hquote⟩ := digit_kinds hc
  have hs : ∀ d ∈ s, isNumeric d = true := fun d hd =>
    Number.isNumeric_of_mem_written h (hwritten ▸ List.mem_cons_of_mem c hd)
  have hread := read?_number hrest hs [c]
  rw [List.reverse_singleton, List.singleton_append, ← hwritten, Number.ofChars?_written h] at hread
  rw [hwritten, List.cons_append, read?, hblank, if_neg Bool.false_ne_true, if_neg hquote,
    if_pos hc, hread]
  rfl

/-! ## Quoted texts -/

/-- The character stands for itself in a quoted text. -/
def IsPlain (c : Char) : Prop :=
  c ≠ '"' ∧ c ≠ '\\' ∧ 0x20 ≤ c.toNat ∧ c.toNat < 0xd800

instance : DecidablePred IsPlain := fun c =>
  inferInstanceAs (Decidable (c ≠ '"' ∧ c ≠ '\\' ∧ 0x20 ≤ c.toNat ∧ c.toNat < 0xd800))

theorem isPlain_of_all (h : (s.all fun c => decide (IsPlain c)) = true) : ∀ c ∈ s, IsPlain c :=
  fun c hc => of_decide_eq_true (List.all_eq_true.1 h c hc)

theorem textOfUnits?_plain (hs : ∀ c ∈ s, IsPlain c) :
    textOfUnits? (s.map Char.toNat) = some s := by
  induction s with
  | nil => rfl
  | cons c s ih =>
    obtain ⟨⟨-, -, -, hlt⟩, hs⟩ := List.forall_mem_cons.1 hs
    have hhigh : isHighSurrogate c.toNat = false := by
      simp [isHighSurrogate]; omega
    have hlow : isLowSurrogate c.toNat = false := by
      simp [isLowSurrogate]; omega
    cases s with
    | nil =>
      simp [textOfUnits?, hhigh, hlow]
    | cons d s =>
      rw [List.map_cons, List.map_cons, textOfUnits?, hhigh, hlow, ← List.map_cons, ih hs]
      simp

/-- A string of plain characters runs up to the next quote. -/
theorem read?_string (hs : ∀ c ∈ s, IsPlain c) (units : List Nat) :
    read? (.string units) (s ++ '"' :: rest)
      = (read? .between rest).map
        (.string (textOfUnits? (units.reverse ++ s.map Char.toNat)) :: ·) := by
  induction s generalizing units with
  | nil =>
    rw [List.nil_append, read?, if_pos rfl, List.map_nil, List.append_nil, Option.map_eq_bind]
    rfl
  | cons c s ih =>
    obtain ⟨⟨hquote, hescape, hge, -⟩, hs⟩ := List.forall_mem_cons.1 hs
    rw [List.cons_append, read?, if_neg hquote, if_neg hescape, if_neg (Nat.not_lt.2 hge), ih hs,
      List.reverse_cons, List.append_assoc]
    rfl

theorem read?_quoted (hs : ∀ c ∈ s, IsPlain c) (rest : List Char) :
    read? .between ('"' :: s ++ '"' :: rest)
      = (read? .between rest).map (.string (some s) :: ·) := by
  rw [← textOfUnits?_plain hs]
  exact read?_string hs []

theorem reads_quoted (hs : ∀ c ∈ s, IsPlain c) :
    Reads ('"' :: s ++ ['"']) (.string (some s)) := by
  intro rest _
  rw [List.append_assoc]
  exact read?_quoted hs rest

/-- The value that a token is by itself. -/
def value? : Token → Option Json
  | .null => some .null
  | .bool b => some (.bool b)
  | .number n => some (.number n)
  | .string s => some (.string s)
  | _ => none

/-- A value of one token stands for itself, and the rest of its surroundings follows. -/
theorem readValue?_of_value? {v : Json} (h : t.value? = some v) (around : List Open)
    (opened : Bool) (ts : List Token) :
    readValue? around opened (t :: ts) = readRest? around v ts := by
  cases t <;> cases h <;> rw [readValue?]

end Token

/-! ## Objects -/

/-- A member of an object whose value is one token: its name, the text of its value, and the value.
The name can be quoted as it is, and the text is read as the value. -/
structure Member where
  name : String
  text : String
  token : Token
  value : Json
  isPlain_name : ∀ c ∈ name.toList, Token.IsPlain c
  reads_text : Token.Reads text.toList token
  value?_token : token.value? = some value

namespace Member

open Token

/-- The member as it is written. -/
def written (m : Member) : String :=
  "\"" ++ m.name ++ "\":" ++ m.text

def tokens (m : Member) : List Token :=
  [.string (some m.name.toList), .colon, m.token]

/-- The member of the object. -/
def entry (m : Member) : Option (List Char) × Json :=
  (some m.name.toList, m.value)

/-- The text of further members, each after a comma. -/
def moreText (ms : List Member) : List Char :=
  ms.flatMap fun m => ',' :: m.written.toList

def moreTokens (ms : List Member) : List Token :=
  ms.flatMap fun m => .comma :: m.tokens

variable {m : Member} {ms : List Member} {rest : List Char} {around : List Open}
  {members : List (Option (List Char) × Json)} {opened : Bool} {ts : List Token}

theorem toList_joinWith (m : Member) (ms : List Member) :
    (Text.joinWith "," ((m :: ms).map written)).toList = m.written.toList ++ moreText ms := by
  induction ms generalizing m with
  | nil => exact (List.append_nil _).symm
  | cons m' ms ih =>
    show (m.written ++ "," ++ Text.joinWith "," ((m' :: ms).map written)).toList = _
    rw [String.toList_append, String.toList_append, ih, List.append_assoc]
    rfl

theorem stops_moreText (h : Stops rest) (ms : List Member) : Stops (moreText ms ++ rest) := by
  cases ms with
  | nil => exact h
  | cons m ms => exact stops_cons rfl _

theorem read?_written (h : Stops rest) (m : Member) :
    read? .between (m.written.toList ++ rest) = (read? .between rest).map (m.tokens ++ ·) := by
  have htext : m.written.toList ++ rest
      = '"' :: m.name.toList ++ '"' :: (':' :: (m.text.toList ++ rest)) := by
    simp [written]
  rw [htext, read?_quoted m.isPlain_name, read?_mark rfl, m.reads_text rest h, Option.map_map,
    Option.map_map]
  rfl

/-- Further members are read after a comma each. -/
theorem read?_moreText (h : Stops rest) (ms : List Member) :
    read? .between (moreText ms ++ rest) = (read? .between rest).map (moreTokens ms ++ ·) := by
  induction ms with
  | nil => exact Option.map_id'.symm
  | cons m ms ih =>
    have htext : moreText (m :: ms) ++ rest
        = ',' :: (m.written.toList ++ (moreText ms ++ rest)) := by
      simp [moreText]
    have htokens : ∀ ts,
        moreTokens (m :: ms) ++ ts = .comma :: (m.tokens ++ (moreTokens ms ++ ts)) := by
      simp [moreTokens]
    rw [htext, read?_mark rfl, read?_written (stops_moreText h ms), ih, Option.map_map,
      Option.map_map]
    exact congrArg (Option.map · _) (funext fun ts => (htokens ts).symm)

/-- Once its tokens are there, a member is read and the object goes on behind it. -/
theorem readName?_tokens (m : Member) (ts : List Token) :
    readName? around members opened (m.tokens ++ ts)
      = readRest? (.object members (some m.name.toList) :: around) m.value ts := by
  show readName? around members opened (.string (some m.name.toList) :: .colon :: m.token :: ts) = _
  rw [readName?, readValue?_of_value? m.value?_token]

/-- The members of an object are collected in order up to the brace that closes it. -/
theorem readRest?_moreTokens (ms : List Member) (m : Member) :
    readRest? (.object members (some m.name.toList) :: around) m.value
        (moreTokens ms ++ .rightBrace :: ts)
      = readRest? around (.object (members.reverse ++ (m :: ms).map entry)) ts := by
  -- the members read before come last first
  induction ms generalizing m members with
  | nil =>
    show readRest? _ m.value (.rightBrace :: ts) = _
    rw [readRest?, List.reverse_cons]
    rfl
  | cons m' ms ih =>
    have htokens : moreTokens (m' :: ms) ++ .rightBrace :: ts
        = .comma :: (m'.tokens ++ (moreTokens ms ++ .rightBrace :: ts)) := by
      simp [moreTokens]
    rw [htokens, readRest?, readName?_tokens, ih, List.reverse_cons, List.append_assoc]
    rfl

end Member

/-- An object is read as its members. -/
theorem ofString?_object (ms : List Member) :
    ofString? ("\x7b" ++ Text.joinWith "," (ms.map Member.written) ++ "\x7d")
      = some (.object (ms.map Member.entry)) := by
  cases ms with
  | nil => rfl
  | cons m ms =>
    have hstops : Token.Stops ['\x7d'] := Token.stops_cons rfl []
    have htokens : Token.ofChars?
        ("\x7b" ++ Text.joinWith "," ((m :: ms).map Member.written) ++ "\x7d").toList
          = some (.leftBrace :: (m.tokens ++ (Member.moreTokens ms ++ [.rightBrace]))) := by
      have htext : ("\x7b" ++ Text.joinWith "," ((m :: ms).map Member.written) ++ "\x7d").toList
          = '\x7b' :: (m.written.toList ++ (Member.moreText ms ++ ['\x7d'])) := by
        rw [String.toList_append, String.toList_append, Member.toList_joinWith]
        simp
      rw [htext, Token.ofChars?, Token.read?_mark rfl,
        Member.read?_written (Member.stops_moreText hstops ms), Member.read?_moreText hstops,
        Token.read?_mark rfl, Token.read?]
      rfl
    show (Token.ofChars? _).bind (readValue? [] false) = _
    rw [htokens, Option.bind_some, readValue?, Member.readName?_tokens, Member.readRest?_moreTokens,
      readRest?]
    rfl

end ResponseCache.Json
