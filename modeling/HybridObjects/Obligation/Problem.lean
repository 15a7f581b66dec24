import HybridObjects.Files.Path
import HybridObjects.Logic.Printer
import HybridObjects.Logic.Resolution

/-!
# HybridObjects.Obligation.Problem

Proof problems and their text for the prover. A problem has predicate definitions, program
variables, a statement and a tactic.

Predicates range over the parameters of the problem, each followed by its derivative copy: inside
a definition `x'` is spelled `xder`, and a predicate is applied to the variables and their
differential symbols.
-/

namespace HybridObjects

/-- The tactic of problems that name none. -/
def defaultTactic : String := "expandAllDefs; master"

structure Problem where
  parameters : List String
  predicates : List (String × Formula)
  /-- The program variables that the problem declares. -/
  declared : List String
  statement : Formula
  tactic : String

/-- The definition of a predicate over parameters. -/
def definePredicate (name : String) (body : Formula) (parameters : List String) :
    String × Formula :=
  (name, body.renamePrimes parameters)

/-- The application of a predicate to the parameters and their differential symbols. -/
def applyPredicate (parameters : List String) (name : String) : Formula :=
  .pred name (parameters.map Term.var ++ parameters.map Term.primed)

namespace Problem

/-- The placeholders left in a problem. -/
def placeholders (p : Problem) : List Placeholder :=
  p.statement.placeholders ++ p.predicates.flatMap fun predicate => predicate.2.placeholders

/-- A problem is closed if no placeholder is left; otherwise the first one is the error. -/
def validate (p : Problem) : Except Placeholder Unit :=
  match p.placeholders with
  | [] => .ok ()
  | id :: _ => .error id

/-- The formal parameters of all predicates. -/
def signature (p : Problem) : String :=
  ", ".intercalate
    (p.parameters.map ("Real " ++ ·) ++ p.parameters.map fun v => "Real " ++ derivativeName v)

/-- Writes the predicate definitions. -/
def writePredicates (signature : String) (w : Writer) (predicates : List (String × Formula)) :
    Writer :=
  predicates.foldl
    (fun w predicate =>
      let w := w.write ("Bool " ++ predicate.1 ++ "(" ++ signature ++ ") <-> (")
      (w.write predicate.2.text).line ");")
    w

/-- Writes the section of the definitions. -/
def writeDefinitions (p : Problem) (w : Writer) : Writer :=
  let w := (w.write "Definitions").indent true
  let w := w.line "HP skip ::= \x7b?true;\x7d;"
  let w := writePredicates p.signature w p.predicates
  (w.dedent false).line "End."

/-- Writes the section of the program variables. -/
def writeVariables (p : Problem) (w : Writer) : Writer :=
  let w := (w.write "ProgramVariables").indent true
  let w := p.declared.foldl (fun w v => w.line ("Real " ++ v ++ ";")) w
  (w.dedent false).line "End."

/-- Writes the section of the statement. -/
def writeStatement (p : Problem) (w : Writer) : Writer :=
  let w := (w.write "Problem").indent true
  ((p.statement.write w).dedent true).line "End."

/-- Writes the section of the tactic. -/
def writeTactic (p : Problem) (w : Writer) : Writer :=
  let w := (w.write "Tactic \"default\"").indent true
  ((w.line p.tactic).dedent false).line "End."

/-- The text of a closed problem. -/
def text (p : Problem) : Except Placeholder String :=
  match p.validate with
  | .error id => .error id
  | .ok () =>
    let w := (p.writeDefinitions (.empty .manyLines)).newline
    let w := (p.writeVariables w).newline
    let w := (p.writeStatement w).newline
    .ok (p.writeTactic w).text

end Problem

/-- A proof obligation, named for the directory and the file that its text is written to. One
without a problem holds trivially. -/
structure Obligation where
  group : String
  name : String
  problem : Option Problem

namespace Obligation

/-- The file of the obligation inside the output directory. -/
def relativePath (o : Obligation) : Path :=
  Path.join o.group (o.name ++ ".kyx")

def qualifiedName (o : Obligation) : String :=
  o.group ++ "." ++ o.name

end Obligation
end HybridObjects
