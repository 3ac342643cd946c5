/-!
# JSON values

The values that a report is made of: texts, natural numbers, truth values, lists, and objects
whose members keep the order in which they were put in.
-/

namespace TemplateLint

/-- A JSON value. -/
inductive Json where
  | text (value : String)
  | number (value : Nat)
  | boolean (value : Bool)
  | array (items : List Json)
  | object (members : List (String × Json))

end TemplateLint
