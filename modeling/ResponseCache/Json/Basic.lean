import ResponseCache.Json.Number

/-!
# JSON values
-/

namespace ResponseCache

/-- A JSON value as it was written: members in order, with repetitions. A string is absent if its
escapes name a surrogate without its partner, for no text has such a character. -/
inductive Json where
  | null
  | bool (value : Bool)
  | number (value : Json.Number)
  | string (value : Option (List Char))
  | array (items : List Json)
  | object (members : List (Option (List Char) × Json))

end ResponseCache
