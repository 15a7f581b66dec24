import HybridObjects.Text.Blank
import HybridObjects.Text.Lines

/-!
# HybridObjects.Prover.Verdict

Verdicts on obligations, and the verdict that the output of the prover states: it reports `PROVED`
at the start of its second-to-last line.
-/

namespace HybridObjects

inductive Verdict where
  | proved
  | notProved
  | notChecked
deriving DecidableEq

namespace Verdict

def label : Verdict → String
  | .proved => "proved"
  | .notProved => "not proved"
  | .notChecked => "not checked"

def ofLabel? (s : String) : Option Verdict :=
  [Verdict.proved, .notProved, .notChecked].find? fun v => v.label == s

def isProved (v : Verdict) : Bool :=
  v == .proved

/-- The line before the last one. -/
def secondToLast? {α : Type} (lines : List α) : Option α :=
  match lines.reverse with
  | _ :: line :: _ => some line
  | _ => none

/-- The verdict that an output states. -/
def ofOutput (stdout : String) : Verdict :=
  match secondToLast? (Text.lines stdout.toList) with
  | some line =>
    if "PROVED".toList.isPrefixOf (Text.trimStart line) then .proved else .notProved
  | none => .notProved

end Verdict
end HybridObjects
