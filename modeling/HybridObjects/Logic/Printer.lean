import HybridObjects.Logic.Formula
import HybridObjects.Logic.Writer

/-!
# HybridObjects.Logic.Printer

The concrete text of terms, formulas and programs.

On several lines the program of a box stands one statement per line, one level deeper. Conditions
of tests and domains of evolutions always stand on a single line. An operand is put into
parentheses unless it binds at least as tightly as its place asks for.
-/

namespace HybridObjects

def ArithOp.symbol : ArithOp → String
  | .add => "+"
  | .sub => "-"
  | .mul => "*"
  | .div => "/"

def CmpOp.symbol : CmpOp → String
  | .lt => "<"
  | .le => "<="
  | .gt => ">"
  | .ge => ">="
  | .eq => "="
  | .ne => "!="

/-- Writes a term: binary operations always in parentheses, the operand of a minus sign unless it
is atomic. -/
def Term.write (w : Writer) : Term → Writer
  | .var name => w.write name
  | .num text => w.write text
  | .primed name => (w.write name).write "'"
  | .bin op lhs rhs =>
    let w := Term.write (w.write "(") lhs
    let w := Term.write (w.write (" " ++ op.symbol ++ " ")) rhs
    w.write ")"
  | .neg arg =>
    if arg.isAtomic then
      Term.write (w.write "-") arg
    else
      (Term.write (w.write "-(") arg).write ")"

/-- Writes the equations of a system, a comma between them. -/
def Ode.write (w : Writer) (ode : Ode) : Writer :=
  w.items ", " (fun w equation => equation.2.write ((w.write equation.1).write "' = "))
    ode.equations

namespace Formula

/-- A formula that can stand anywhere without parentheses. -/
def isTight : Formula → Bool
  | .verum | .falsum | .not _ | .box .. | .exist .. | .pred .. | .raw _ | .hole _ => true
  | .cmp .. | .and .. | .or .. | .implies .. => false

/-- Operands of a conjunction that need no parentheses. -/
def fitsAnd : Formula → Bool
  | .cmp .. | .and .. => true
  | f => f.isTight

/-- Operands of a disjunction that need no parentheses. -/
def fitsOr : Formula → Bool
  | .cmp .. | .or .. => true
  | f => f.isTight

/-- Operands of an implication that need no parentheses. -/
def fitsImplies : Formula → Bool
  | .cmp .. => true
  | f => f.isTight

end Formula

mutual

/-- Writes a formula. -/
def Formula.write (w : Writer) : Formula → Writer
  | .verum => w.write "true"
  | .falsum => w.write "false"
  | .cmp op lhs rhs => rhs.write ((lhs.write w).write (" " ++ op.symbol ++ " "))
  | .not arg =>
    if arg.isTight then
      Formula.write (w.write "!") arg
    else
      (Formula.write (w.write "!(") arg).write ")"
  | .and lhs rhs =>
    let w :=
      if lhs.fitsAnd then Formula.write w lhs else (Formula.write (w.write "(") lhs).write ")"
    let w := w.write " & "
    if rhs.fitsAnd then Formula.write w rhs else (Formula.write (w.write "(") rhs).write ")"
  | .or lhs rhs =>
    let w :=
      if lhs.fitsOr then Formula.write w lhs else (Formula.write (w.write "(") lhs).write ")"
    let w := w.write " | "
    if rhs.fitsOr then Formula.write w rhs else (Formula.write (w.write "(") rhs).write ")"
  | .implies lhs rhs =>
    let w :=
      if lhs.fitsImplies then Formula.write w lhs
      else (Formula.write (w.write "(") lhs).write ")"
    let w := if w.isSingleLine then w.write " -> " else (w.newline).line "->"
    if rhs.fitsImplies then Formula.write w rhs
    else (Formula.write (w.write "(") rhs).write ")"
  | .box program post =>
    let w := w.write "["
    let w :=
      if w.isSingleLine then Program.write w program
      else (Program.write (w.indent true) program).dedent true
    let w := w.write "]"
    if post.isTight then Formula.write w post else (Formula.write (w.write "(") post).write ")"
  | .exist var body =>
    let w := ((w.write "\\exists ").write var).write " ("
    (Formula.write w body).write ")"
  | .pred name args =>
    (((w.write name).write "(").items ", " Term.write args).write ")"
  | .raw text => ((w.write "(").write text).write ")"
  | .hole id => w.write id.name

/-- Writes a program, its statements on lines of their own. -/
def Program.write (w : Writer) : Program → Writer
  | .skip => w.write "skip;"
  | .havoc var => (w.write var).write " := *;"
  | .assign var value => (value.write ((w.write var).write " := ")).write ";"
  | .test cond =>
    ((w.write "?").write (Formula.write (.empty .singleLine) cond).text).write ";"
  | .evolve ode domain =>
    let w := (ode.write (w.write "\x7b")).write " & "
    (w.write (Formula.write (.empty .singleLine) domain).text).write "\x7d"
  | .seq first second => Program.write (Program.write w first).newline second
  | .choice left right =>
    let w := (Program.write ((w.write "\x7b").indent true) left).dedent true
    let w := (Program.write ((w.write "\x7d ++ \x7b").indent true) right).dedent true
    w.write "\x7d"
  | .group body => ((Program.write ((w.write "\x7b").indent true) body).dedent true).write "\x7d"

end

/-- The text of a term. -/
def Term.text (t : Term) : String :=
  (t.write (.empty .singleLine)).text

/-- The text of a formula on a single line. -/
def Formula.text (f : Formula) : String :=
  (f.write (.empty .singleLine)).text

/-- The text of a program on a single line. -/
def Program.text (p : Program) : String :=
  (p.write (.empty .singleLine)).text

/-- The text of a formula on several lines. -/
def Formula.display (f : Formula) : String :=
  (f.write (.empty .manyLines)).text

/-- The text of a program on several lines. -/
def Program.display (p : Program) : String :=
  (p.write (.empty .manyLines)).text

end HybridObjects
