import ResponseCache.Text.Quoted

/-!
# Diagnostic forms of values

Diagnostics show a value by the name of its kind and its parts: `Name { part: value, … }` for named
parts and `Name(value, …)` for unnamed ones. A value that keeps some parts to itself ends in `..`.
-/

namespace ResponseCache.Text

/-- The items one after another with `separator` between them. -/
def joinWith (separator : String) : List String → String
  | [] => ""
  | [item] => item
  | item :: items => item ++ separator ++ joinWith separator items

/-- A named part of a value. -/
def part (label value : String) : String :=
  label ++ ": " ++ value

/-- A value shown with all its named parts. -/
def inspectRecord (name : String) (parts : List (String × String)) : String :=
  name ++ " \x7b " ++ joinWith ", " (parts.map fun p => part p.1 p.2) ++ " \x7d"

/-- A value shown with some of its named parts. -/
def inspectPartly (name : String) (parts : List (String × String)) : String :=
  name ++ " \x7b " ++ joinWith ", " (parts.map fun p => part p.1 p.2) ++ ", .. \x7d"

/-- A value shown with its unnamed parts. -/
def inspectTuple (name : String) (values : List String) : String :=
  name ++ "(" ++ joinWith ", " values ++ ")"

/-- A list of values, each shown already. -/
def inspectList (values : List String) : String :=
  "[" ++ joinWith ", " values ++ "]"

def inspectBool (b : Bool) : String :=
  if b then "true" else "false"

end ResponseCache.Text
