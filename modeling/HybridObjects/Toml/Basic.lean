/-!
# HybridObjects.Toml.Basic

TOML values. Tables keep their keys in the order in which these were first written.
-/

namespace HybridObjects

/-- A TOML value. Of floating-point numbers and of dates only the fact is kept, since no setting
takes one. -/
inductive Toml where
  | str (s : String)
  | int (n : Int)
  | float
  | bool (b : Bool)
  | date
  | arr (items : List Toml)
  | table (entries : List (String × Toml))

end HybridObjects
