import HybridObjects.Model.Decode
import HybridObjects.Prover.Backend
import HybridObjects.Session.Failure

/-!
# HybridObjects.Session.Loading

Models from files. A model may be spread over several files; the modules of all of them, in the
order of the files, make up the model.
-/

namespace HybridObjects

/-- Steps of a session on the world, which they keep when they fail. -/
abbrev SessionM := EStateM Failure World

namespace SessionM

def note (level : Level) (component : Component) (text : String) : SessionM Unit := fun w =>
  .ok () (w.note level component text)

/-- The text of a model file. -/
def textOf (path : Path) : SessionM String := fun w =>
  match w.files.read path with
  | .ok text => .ok text w
  | .error fault => .error (.unreadableModel path fault) w

end SessionM

/-- The model of one file. -/
def Model.load (path : Path) : SessionM Model := do
  SessionM.note .debug .models ("loading model file " ++ path)
  let text ← SessionM.textOf path
  match Model.ofText text with
  | .ok model => pure model
  | .error fault => throw (.malformedModel path fault)

/-- The modules of several files. -/
def Model.loadModules : List Path → SessionM (List Module)
  | [] => pure []
  | path :: paths => do
    let model ← Model.load path
    let modules ← Model.loadModules paths
    return model.modules ++ modules

/-- The model that is spread over several files. -/
def Model.loadAll (paths : List Path) : SessionM Model := do
  let modules ← Model.loadModules paths
  return ⟨modules⟩

end HybridObjects
