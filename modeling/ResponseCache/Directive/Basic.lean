import ResponseCache.Decimal.Natural
import ResponseCache.Failure
import ResponseCache.Text.Blank
import ResponseCache.Text.Case

/-!
# Directives

A `Cache-Control` text is a list of directives with commas between them. A directive is a name, or a
name, an equals sign and a value, which may be quoted. Commas inside quotes belong to the value, and
a backslash inside quotes takes the next character as it is. Names have no case; blanks around
items, names and values do not count, and items of blanks alone are no directives.
-/

namespace ResponseCache

/-- One directive, its name in lower case and its value without quotes. -/
structure Directive where
  name : String
  value : Option String
deriving DecidableEq

namespace Directive

/-- Where a position in a list of directives lies with respect to quotes. -/
inductive Quoting where
  | outside
  | inside
  | escaped
deriving DecidableEq, Repr

def Quoting.next : Quoting → Char → Quoting
  | outside, c => if c = '"' then inside else outside
  | inside, c => if c = '"' then outside else if c = '\\' then escaped else inside
  | escaped, _ => inside

def Quoting.after (q : Quoting) (s : List Char) : Quoting :=
  s.foldl Quoting.next q

/-- The texts between the commas that stand outside quotes. -/
def items : Quoting → List Char → List (List Char)
  | _, [] => [[]]
  | q, c :: s =>
    if q = .outside ∧ c = ',' then [] :: items .outside s
    else
      match items (q.next c) s with
      | [] => [[c]]
      | item :: more => (c :: item) :: more

/-- The text with each backslash replaced by the character after it. -/
def unescape : List Char → List Char
  | [] => []
  | '\\' :: c :: s => c :: unescape s
  | ['\\'] => []
  | c :: s => c :: unescape s

/-- The text that a value stands for: what is between its quotes, or the value itself if it does not
both start and end with one. -/
def unquote (s : List Char) : List Char :=
  match s with
  | '"' :: inner => if inner.getLast? = some '"' then unescape inner.dropLast else s
  | _ => s

/-- The directive that an item is, unless it is blank. -/
def ofItem? (item : List Char) : Option Directive :=
  let item := Text.trim item
  if item.isEmpty then none
  else
    let name := item.takeWhile (· != '=')
    match item.dropWhile (· != '=') with
    | _ :: value =>
      some ⟨String.ofList (Text.lower (Text.trim name)),
        some (String.ofList (unquote (Text.trim value)))⟩
    | [] => some ⟨String.ofList (Text.lower name), none⟩

/-- The directives of a text in order. -/
def ofText (s : List Char) : List Directive :=
  (items .outside s).filterMap ofItem?

/-- Whether a text has a directive of the given name. -/
def isNamedIn (name : String) (s : List Char) : Bool :=
  (ofText s).any fun d => d.name = name

/-- The most seconds that a directive can give; larger numbers stand for it. -/
def maxSeconds : Nat := 2147483648

/-- The number of seconds that the value of a directive gives. -/
def seconds (d : Directive) : Except HeaderFault Nat :=
  let value := d.value.getD ""
  match Decimal.value? value.toList with
  | some n => .ok (min n maxSeconds)
  | none => .error (.badSeconds d.name value)

/-- The header names that the value of a directive lists, in lower case. -/
def fieldNames (d : Directive) : List String :=
  match d.value with
  | some value =>
    ((value.toList.splitOn ',').map fun f => Text.lower (Text.trim f)).filterMap fun f =>
      if f.isEmpty then none else some (String.ofList f)
  | none => []

end Directive

end ResponseCache
