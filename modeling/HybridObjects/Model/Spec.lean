import HybridObjects.Error

/-!
# HybridObjects.Model.Spec

Specification clauses of annotations. A specification is an annotation whose type ends in
`HybridSpec`; its value is a constructor that names the kind of clause, applied to one string
literal with the text of the clause.
-/

namespace HybridObjects

/-- How several clauses of one kind are combined. -/
inductive Combination where
  | conjoin
  | last
deriving DecidableEq

/-- The clause of all clauses read before a further one, and that one. -/
def Combination.combine : Combination → Option String → String → String
  | .conjoin, some before, text => "(" ++ before ++ ") & (" ++ text ++ ")"
  | _, _, text => text

def Annotation.isSpec (a : Annotation) : Bool :=
  "HybridSpec".toList.isSuffixOf a.type.toList

/-- The text of an annotation if it is a clause of the given kind. -/
def Annotation.clauseText (clause : Clause) (a : Annotation) : Except Error (Option String) :=
  if a.isSpec then
    match a.value with
    | .construct name args =>
      if name = clause.label then
        match args with
        | [.string text] => .ok (some text)
        | _ => .error (.notOneText clause args)
      else .ok none
    | found => .error (.notAClause clause found)
  else .ok none

/-- The clause of the given kind of some annotations, with what has been read before them. -/
def clauseFrom (clause : Clause) (combination : Combination) (before : Option String) :
    List Annotation → Except Error (Option String)
  | [] => .ok before
  | a :: annotations =>
    match a.clauseText clause with
    | .error e => .error e
    | .ok none => clauseFrom clause combination before annotations
    | .ok (some text) =>
      clauseFrom clause combination (some (combination.combine before text)) annotations

/-- The clause of the given kind of a list of annotations, if there is one. -/
def clauseOf (clause : Clause) (combination : Combination) (annotations : List Annotation) :
    Except Error (Option String) :=
  clauseFrom clause combination none annotations

/-- The clause as a formula, `true` if there is none. -/
def clauseFormula (clause : Clause) (annotations : List Annotation) : Except Error Formula :=
  match clauseOf clause .conjoin annotations with
  | .error e => .error e
  | .ok (some text) => .ok (.raw text)
  | .ok none => .ok .verum

end HybridObjects
