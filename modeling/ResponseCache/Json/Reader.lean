import ResponseCache.Json.Basic
import ResponseCache.Json.Token

/-!
# Reading JSON

A value is read from tokens with the containers around it on a stack, the innermost first, so that
values may nest to any depth.
-/

namespace ResponseCache.Json

/-- A container that has been opened: what it holds so far, last first. -/
inductive Open where
  | array (items : List Json)
  /-- An object, and the name of the member whose value is being read. -/
  | object (members : List (Option (List Char) × Json)) (name : Option (List Char))

mutual

/-- Reads on where a value must come next, or the end of an array that has just been opened. -/
def readValue? (around : List Open) (justOpened : Bool) : List Token → Option Json
  | [] => none
  | .null :: ts => readRest? around .null ts
  | .bool b :: ts => readRest? around (.bool b) ts
  | .number n :: ts => readRest? around (.number n) ts
  | .string s :: ts => readRest? around (.string s) ts
  | .leftBracket :: ts => readValue? (.array [] :: around) true ts
  | .leftBrace :: ts => readName? around [] true ts
  | .rightBracket :: ts => if justOpened then readRest? around.tail (.array []) ts else none
  | .rightBrace :: _ => none
  | .colon :: _ => none
  | .comma :: _ => none

/-- Reads on where the name of a member must come next, or the end of an object that has just been
opened. -/
def readName? (around : List Open) (members : List (Option (List Char) × Json))
    (justOpened : Bool) : List Token → Option Json
  | .string name :: .colon :: ts => readValue? (.object members name :: around) false ts
  | .rightBrace :: ts => if justOpened then readRest? around (.object []) ts else none
  | _ => none

/-- Reads on after a value. -/
def readRest? (around : List Open) (value : Json) : List Token → Option Json
  | [] => if around.isEmpty then some value else none
  | .comma :: ts =>
    match around with
    | .array items :: around => readValue? (.array (value :: items) :: around) false ts
    | .object members name :: around => readName? around ((name, value) :: members) false ts
    | [] => none
  | .rightBracket :: ts =>
    match around with
    | .array items :: around => readRest? around (.array (value :: items).reverse) ts
    | _ => none
  | .rightBrace :: ts =>
    match around with
    | .object members name :: around =>
      readRest? around (.object ((name, value) :: members).reverse) ts
    | _ => none
  | _ => none

end

def ofString? (s : String) : Option Json := do
  readValue? [] false (← Token.ofChars? s.toList)

end ResponseCache.Json
