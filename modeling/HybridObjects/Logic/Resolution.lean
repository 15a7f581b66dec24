import HybridObjects.Logic.Formula

/-!
# HybridObjects.Logic.Resolution

Placeholders of formulas and programs, and their replacement by formulas.

* `placeholders` — the placeholders of a tree in the order of its text, boxes included.
* `resolve`      — every placeholder is replaced by its formula, once; the first one without a
  formula is the error.
-/

namespace HybridObjects

/-- Formulas for placeholders; the first entry of a placeholder counts. -/
abbrev Resolution := List (Placeholder × Formula)

mutual

/-- The placeholders of a formula from left to right. -/
def Formula.placeholders : Formula → List Placeholder
  | .hole id => [id]
  | .not arg => arg.placeholders
  | .and lhs rhs | .or lhs rhs | .implies lhs rhs => lhs.placeholders ++ rhs.placeholders
  | .box program post => program.placeholders ++ post.placeholders
  | .exist _ body => body.placeholders
  | .verum | .falsum | .cmp .. | .pred .. | .raw _ => []

/-- The placeholders of a program from left to right. -/
def Program.placeholders : Program → List Placeholder
  | .test cond => cond.placeholders
  | .evolve _ domain => domain.placeholders
  | .seq p q | .choice p q => p.placeholders ++ q.placeholders
  | .group p => p.placeholders
  | .skip | .havoc _ | .assign .. => []

end

mutual

/-- The formula with every placeholder replaced, or the first placeholder without a formula. What
replaces a placeholder is not looked into again. -/
def Formula.resolve (res : Resolution) : Formula → Except Placeholder Formula
  | .hole id =>
    match res.lookup id with
    | some f => .ok f
    | none => .error id
  | .not arg => do
    let arg ← arg.resolve res
    return .not arg
  | .and lhs rhs => do
    let lhs ← lhs.resolve res
    let rhs ← rhs.resolve res
    return .and lhs rhs
  | .or lhs rhs => do
    let lhs ← lhs.resolve res
    let rhs ← rhs.resolve res
    return .or lhs rhs
  | .implies lhs rhs => do
    let lhs ← lhs.resolve res
    let rhs ← rhs.resolve res
    return .implies lhs rhs
  | .box program post => do
    let program ← program.resolve res
    let post ← post.resolve res
    return .box program post
  | .exist var body => do
    let body ← body.resolve res
    return .exist var body
  | .verum => .ok .verum
  | .falsum => .ok .falsum
  | .cmp op lhs rhs => .ok (.cmp op lhs rhs)
  | .pred name args => .ok (.pred name args)
  | .raw text => .ok (.raw text)

/-- The program with every placeholder replaced, or the first placeholder without a formula. -/
def Program.resolve (res : Resolution) : Program → Except Placeholder Program
  | .test cond => do
    let cond ← cond.resolve res
    return .test cond
  | .evolve ode domain => do
    let domain ← domain.resolve res
    return .evolve ode domain
  | .seq p q => do
    let p ← p.resolve res
    let q ← q.resolve res
    return .seq p q
  | .choice p q => do
    let p ← p.resolve res
    let q ← q.resolve res
    return .choice p q
  | .group p => do
    let p ← p.resolve res
    return .group p
  | .skip => .ok .skip
  | .havoc var => .ok (.havoc var)
  | .assign var value => .ok (.assign var value)

end

end HybridObjects
