import HybridObjects.Model.Lookup
import HybridObjects.Session.Failure
import HybridObjects.Text.Lines

/-!
# HybridObjects.Session.Target

What a run is about, and how it is chosen: by the qualified name of a method or a class, or by
asking for the main block or for everything.
-/

namespace HybridObjects

/-- What a run verifies. -/
inductive Target where
  | method (path : String)
  | initializer (path : String)
  | wholeClass (path : String)
  | zeno (path : String)
  | main
  | full
deriving DecidableEq

/-- The targets that were asked for. -/
structure Selection where
  method : Option String
  initializer : Option String
  wholeClass : Option String
  zeno : Option String
  main : Bool
  full : Bool

namespace Selection

/-- A qualified name with at least the given number of parts. Empty parts do not count. -/
def qualified (path : String) (parts : Nat) : Except Failure String :=
  let names := (Text.splitAt '.' path.toList).filter fun name => !name.isEmpty
  if names.length < parts then .error (.of (.invalidPath path)) else .ok path

/-- The target of a selection. Of several the first one in the order of the members counts. -/
def target (s : Selection) : Except Failure Target :=
  match s.method, s.initializer, s.wholeClass, s.zeno, s.main, s.full with
  | some path, _, _, _, _, _ => (qualified path 3).map .method
  | none, some path, _, _, _, _ => (qualified path 2).map .initializer
  | none, none, some path, _, _, _ => (qualified path 2).map .wholeClass
  | none, none, none, some path, _, _ => (qualified path 2).map .zeno
  | none, none, none, none, true, _ => .ok .main
  | none, none, none, none, false, true => .ok .full
  | none, none, none, none, false, false => .error .noTarget

end Selection
end HybridObjects
