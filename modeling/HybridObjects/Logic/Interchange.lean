import HybridObjects.Json.Decode
import HybridObjects.Logic.Printer

/-!
# HybridObjects.Logic.Interchange

Terms, formulas, programs and equation systems as JSON values. A node is an object whose one
member is named for the node and holds its parts; `true`, `false` and `"skip"` stand for
themselves. Trees are read as they are, without simplification.
-/

namespace HybridObjects

open Json (Fault asString asWord asList)

/-- The member of an object that has one. -/
def Json.asNode : Json → Except Fault (String × Json)
  | .obj [(tag, parts)] => .ok (tag, parts)
  | _ => .error (.expected "a node")

/-- A node with one member named `tag`. -/
def Json.node (tag : String) (parts : Json) : Json :=
  .obj [(tag, parts)]

def ArithOp.ofSymbol (s : String) : Except Fault ArithOp :=
  match s with
  | "+" => .ok .add
  | "-" => .ok .sub
  | "*" => .ok .mul
  | "/" => .ok .div
  | _ => .error (.unknownVariant s)

def CmpOp.ofSymbol (s : String) : Except Fault CmpOp :=
  match s with
  | "<" => .ok .lt
  | "<=" => .ok .le
  | ">" => .ok .gt
  | ">=" => .ok .ge
  | "=" => .ok .eq
  | "!=" => .ok .ne
  | _ => .error (.unknownVariant s)

def Term.toJson : Term → Json
  | .var name => .node "var" (.str name)
  | .num text => .node "num" (.str text)
  | .primed name => .node "primed" (.str name)
  | .neg arg => .node "neg" arg.toJson
  | .bin op lhs rhs => .node "bin" (.arr [.str op.symbol, lhs.toJson, rhs.toJson])

/-- Reads a term whose nesting is at most the given bound. -/
def Term.ofJsonWithin : Nat → Json → Except Fault Term
  | 0, _ => .error (.expected "less nesting")
  | n + 1, j => do
    match ← j.asNode with
    | ("var", .str name) => return .var name
    | ("num", .str text) => return .num text
    | ("primed", .str name) => return .primed name
    | ("neg", arg) => .neg <$> Term.ofJsonWithin n arg
    | ("bin", .arr [.str symbol, lhs, rhs]) =>
      let op ← ArithOp.ofSymbol symbol
      let lhs ← Term.ofJsonWithin n lhs
      let rhs ← Term.ofJsonWithin n rhs
      return .bin op lhs rhs
    | (tag, _) => .error (.unknownVariant tag)

def Term.ofJson (j : Json) : Except Fault Term :=
  Term.ofJsonWithin (j.depth + 1) j

def Ode.toJson (ode : Ode) : Json :=
  .arr (ode.equations.map fun equation => .arr [.str equation.1, equation.2.toJson])

/-- Reads an equation of a system. -/
def Ode.equationOfJson : Json → Except Fault (String × Term)
  | .arr [.str name, term] => (name, ·) <$> Term.ofJson term
  | _ => .error (.expected "an equation")

def Ode.ofJson (j : Json) : Except Fault Ode :=
  Ode.mk <$> asList Ode.equationOfJson j

mutual

def Formula.toJson : Formula → Json
  | .verum => .bool true
  | .falsum => .bool false
  | .cmp op lhs rhs => .node "cmp" (.arr [.str op.symbol, lhs.toJson, rhs.toJson])
  | .not arg => .node "not" arg.toJson
  | .and lhs rhs => .node "and" (.arr [lhs.toJson, rhs.toJson])
  | .or lhs rhs => .node "or" (.arr [lhs.toJson, rhs.toJson])
  | .implies lhs rhs => .node "implies" (.arr [lhs.toJson, rhs.toJson])
  | .box program post => .node "box" (.arr [program.toJson, post.toJson])
  | .exist var body => .node "exists" (.arr [.str var, body.toJson])
  | .pred name args => .node "pred" (.arr [.str name, .arr (args.map Term.toJson)])
  | .raw text => .node "raw" (.str text)
  | .hole id => .node "ph" (.num (toString id.index))

def Program.toJson : Program → Json
  | .skip => .str "skip"
  | .havoc var => .node "havoc" (.str var)
  | .assign var value => .node "assign" (.arr [.str var, value.toJson])
  | .test cond => .node "test" cond.toJson
  | .evolve ode domain => .node "evolve" (.arr [ode.toJson, domain.toJson])
  | .seq p q => .node "seq" (.arr [p.toJson, q.toJson])
  | .choice p q => .node "choice" (.arr [p.toJson, q.toJson])
  | .group p => .node "group" p.toJson

end

mutual

/-- Reads a formula whose nesting is at most the given bound. -/
def Formula.ofJsonWithin : Nat → Json → Except Fault Formula
  | 0, _ => .error (.expected "less nesting")
  | _ + 1, .bool true => return .verum
  | _ + 1, .bool false => return .falsum
  | n + 1, j => do
    match ← j.asNode with
    | ("cmp", .arr [.str symbol, lhs, rhs]) =>
      let op ← CmpOp.ofSymbol symbol
      let lhs ← Term.ofJson lhs
      let rhs ← Term.ofJson rhs
      return .cmp op lhs rhs
    | ("not", arg) => .not <$> Formula.ofJsonWithin n arg
    | ("and", .arr [lhs, rhs]) =>
      let lhs ← Formula.ofJsonWithin n lhs
      let rhs ← Formula.ofJsonWithin n rhs
      return .and lhs rhs
    | ("or", .arr [lhs, rhs]) =>
      let lhs ← Formula.ofJsonWithin n lhs
      let rhs ← Formula.ofJsonWithin n rhs
      return .or lhs rhs
    | ("implies", .arr [lhs, rhs]) =>
      let lhs ← Formula.ofJsonWithin n lhs
      let rhs ← Formula.ofJsonWithin n rhs
      return .implies lhs rhs
    | ("box", .arr [program, post]) =>
      let program ← Program.ofJsonWithin n program
      let post ← Formula.ofJsonWithin n post
      return .box program post
    | ("exists", .arr [.str var, body]) => .exist var <$> Formula.ofJsonWithin n body
    | ("pred", .arr [.str name, args]) => .pred name <$> asList Term.ofJson args
    | ("raw", .str text) => return .raw text
    | ("ph", index) =>
      let index ← asWord index
      return .hole ⟨index⟩
    | (tag, _) => .error (.unknownVariant tag)

/-- Reads a program whose nesting is at most the given bound. -/
def Program.ofJsonWithin : Nat → Json → Except Fault Program
  | 0, _ => .error (.expected "less nesting")
  | _ + 1, .str "skip" => return .skip
  | n + 1, j => do
    match ← j.asNode with
    | ("havoc", .str var) => return .havoc var
    | ("assign", .arr [.str var, value]) => .assign var <$> Term.ofJson value
    | ("test", cond) => .test <$> Formula.ofJsonWithin n cond
    | ("evolve", .arr [ode, domain]) =>
      let ode ← Ode.ofJson ode
      let domain ← Formula.ofJsonWithin n domain
      return .evolve ode domain
    | ("seq", .arr [p, q]) =>
      let p ← Program.ofJsonWithin n p
      let q ← Program.ofJsonWithin n q
      return .seq p q
    | ("choice", .arr [p, q]) =>
      let p ← Program.ofJsonWithin n p
      let q ← Program.ofJsonWithin n q
      return .choice p q
    | ("group", p) => .group <$> Program.ofJsonWithin n p
    | (tag, _) => .error (.unknownVariant tag)

end

def Formula.ofJson (j : Json) : Except Fault Formula :=
  Formula.ofJsonWithin (j.depth + 1) j

def Program.ofJson (j : Json) : Except Fault Program :=
  Program.ofJsonWithin (j.depth + 1) j

end HybridObjects
