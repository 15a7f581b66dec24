import HybridObjects.Session.Tool

/-!
# HybridObjects.Main

The command line program. It reads the files that the arguments name, runs the tool on them, prints
what the tool prints and writes the files that the tool leaves. It starts no other program: a
configured prover is not found, and no artifact counts as proved.
-/

namespace HybridObjects
namespace Console

/-- The files that a command line names. -/
def namedFiles (args : List String) : List Path :=
  match Arguments.parse args with
  | .ok a => a.files ++ (a.value? .config).toList
  | .error _ => []

/-- The named files that can be read, with their contents. -/
def contents (paths : List Path) : IO (List (Path × String)) :=
  paths.filterMapM fun (path : Path) => do
    match ← (IO.FS.readFile path).toBaseIO with
    | .ok content => return some (path, content)
    | .error _ => return none

/-- Writes a file, and the directory it is in if need be. -/
def writeOut (file : Path × String) : IO Unit := do
  if let some (directory, _) := Text.splitLast? '/' file.1.toList then
    IO.FS.createDirAll (String.ofList directory)
  IO.FS.writeFile file.1 file.2

/-- The host on which no program is found. -/
def host : Host := fun _ _ _ =>
  .error (.file .notFound)

end Console
end HybridObjects

open HybridObjects in
def main (args : List String) : IO UInt32 := do
  let directory := (← IO.currentDir).toString
  let files := (FileTree.emptyAt (Path.names directory)).addFiles
    (← Console.contents (Console.namedFiles args))
  let result := Tool.run Console.host.launcher files args
  (← IO.getStdout).putStr result.stdout
  (← IO.getStderr).putStr result.stderr
  (result.files.changes files).forM Console.writeOut
  return result.code.toUInt32
