import HybridObjects.Error
import HybridObjects.Json.Decode

/-!
# HybridObjects.Session.Failure

Why a session ends without a report. A failure to get at a file says which file it was, and what
went wrong with it is its cause.
-/

namespace HybridObjects

inductive Failure where
  | of (e : Error)
  | noTarget
  | unreadableModel (path : Path) (fault : FileFault)
  | malformedModel (path : Path) (fault : Json.Fault)
  | unreadableConfig (path : Path) (fault : FileFault)
  | malformedConfig (path : Path)

namespace Failure

def message : Failure → String
  | .of e => e.message
  | .noTarget => "no run target given"
  | .unreadableModel path _ => "cannot read model file " ++ path
  | .malformedModel path _ => "cannot parse model file " ++ path
  | .unreadableConfig path _ => "cannot read config file " ++ path
  | .malformedConfig path => "invalid config file " ++ path

def cause? : Failure → Option String
  | .of _ => none
  | .noTarget => none
  | .unreadableModel _ fault => some fault.message
  | .malformedModel _ fault => some fault.message
  | .unreadableConfig _ fault => some fault.message
  | .malformedConfig _ => some "the text is not a table of settings"

/-- The whole story of a failure. -/
def story (f : Failure) : String :=
  match f.cause? with
  | none => f.message
  | some cause => f.message ++ "\n\nCaused by:\n    " ++ cause

end Failure
end HybridObjects
