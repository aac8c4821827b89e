import PulseTrain.Toml.Datetime

/-!
# TOML values

A document is a table: keys with their values, in the order in which they first appear.
-/

namespace PulseTrain.Toml

inductive Value where
  | string (text : String)
  | integer (value : Int)
  | float (value : Float)
  | boolean (value : Bool)
  | datetime (value : Datetime)
  | array (items : List Value)
  | table (entries : List (String × Value))

/-- The entries of a table, in document order. -/
abbrev Entries := List (String × Value)

end PulseTrain.Toml
