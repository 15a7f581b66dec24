import HybridObjects.Proofs.Acceptance

/-!
# HybridObjects.Proofs.Offences

Which statements have a program, each looked at by itself. Whether one has depends on its own
expressions and on what the model declares, not on the statements inside it or around it.

* `Contract.Admits`   — annotations and arguments from which a precondition can be made.
* `consulted`         — the contracts that are looked at for the precondition of a call.
* `Scope.Supports`    — the statement has a program.
* `Scope.offence?`    — why it has none; `Scope.offence?_eq_none_iff` says that there is a reason
  exactly if it has none.
* `Scope.errorOf?_callPrecondition`, `Scope.errorOf?_creationPrecondition` — looking up a
  precondition fails for these reasons.
-/

namespace HybridObjects

/-! ## Contracts -/

/-- Annotations, and the parameters that their clauses speak about. -/
structure Contract where
  annotations : List Annotation
  formals : List String

def Signature.contract (sig : Signature) (annotations : List Annotation) : Contract :=
  ⟨annotations, sig.params.map Param.name⟩

def Class.contract (c : Class) : Contract :=
  ⟨c.annotations, c.params.map Param.name⟩

/-- A specification is a constructor, and a precondition is applied to one text. -/
def Annotation.IsProper (a : Annotation) : Prop :=
  a.isSpec = true → ∃ name args, a.value = .construct name args ∧
    (name = "Requires" → ∃ text, args = [.string text])

/-- Why an annotation cannot be passed on the way to a precondition. -/
def Annotation.fault? (a : Annotation) : Option Error :=
  if a.isSpec then
    match a.value with
    | .construct "Requires" [.string _] => none
    | .construct "Requires" args => some (.notOneText .requires args)
    | .construct .. => none
    | found => some (.notAClause .requires found)
  else none

/-- Why an argument cannot stand for its parameter in a text, if the text mentions it. -/
def argumentFault? (text formal : String) (arg : Expr) : Option Error :=
  if mentions text formal then (firstOffence (arg.visits .value)).map .unsupportedExpr else none

namespace Contract

variable (k : Contract)

/-- The precondition, if there is one and it can be read. -/
def precondition? : Option String :=
  match clauseOf .requires .conjoin k.annotations with
  | .ok text => text
  | .error _ => none

/-- All annotations are proper, and the arguments for the parameters that the precondition mentions
are arithmetic. -/
def Admits (args : List Expr) : Prop :=
  (∀ a ∈ k.annotations, a.IsProper) ∧
    ∀ text, k.precondition? = some text → ∀ formal arg, (formal, arg) ∈ k.formals.zip args →
      mentions text formal = true → arg.Arithmetic

/-- The first annotation that is not proper is at fault, or else the first argument that is not
arithmetic but mentioned. -/
def fault? (args : List Expr) : Option Error :=
  (k.annotations.findSome? Annotation.fault?).or <| k.precondition?.bind fun text =>
    (k.formals.zip args).findSome? fun bound => argumentFault? text bound.1 bound.2

end Contract

/-- The contracts that are looked at: those up to the first one with a precondition. -/
def consulted : List Contract → List Contract
  | [] => []
  | k :: ks => k :: if k.precondition?.isSome then [] else consulted ks

/-- The contracts that may hold the precondition of a call. For a call on `this` they are that of
the declaration and that of the method, for a call on another object that of the declaration. -/
def Scope.contracts (scope : Scope) (callee : Expr) (interface : Option String)
    (method : Signature) : List Contract :=
  if callee.isThis then
    match scope.owner with
    | none => []
    | some c =>
      ((scope.model.contractOf? c method).map fun d => d.sig.contract d.annotations).toList ++
        ((c.methodBySig? method).map fun m => m.sig.contract m.annotations).toList
  else
    ((interface.bind fun name => scope.model.declared? name method).map fun d =>
      d.sig.contract d.annotations).toList

/-! ## Supported statements -/

/-- An expression can play its role. -/
def Expr.Plays : Role → Expr → Prop
  | .value, e => e.Arithmetic
  | .truth, e => e.Condition

namespace Scope

variable (scope : Scope)

def SupportsEffect : Effect → Prop
  | .asyncCall callee interface method args =>
    ∀ k ∈ consulted (scope.contracts callee interface method), k.Admits args
  | .create className args =>
    ∃ c, scope.model.findClassByName className = .ok c ∧ c.contract.Admits args
  | .get _ => True
  | .syncCall .. => False

def SupportsRhs : Rhs → Prop
  | .pure value => value.Arithmetic
  | .effect action => scope.SupportsEffect action

/-- The statement has a program, whatever the statements inside it are. -/
def Supports : Stmt → Prop
  | .assign _ value | .declare _ _ (some value) => scope.SupportsRhs value
  | .eval (.effect action) => scope.SupportsEffect action
  | .cond test _ _ => test.Condition
  | .ret value => value.Arithmetic
  | .await guard => ∀ asked ∈ guard.asks, asked.2.Plays asked.1
  | .skip | .declare _ _ none | .eval (.pure _) | .block _ => True
  | .loop .. | .cases .. | .duration .. | .assert _ => False

def effectOffence? : Effect → Option Error
  | .asyncCall callee interface method args =>
    (consulted (scope.contracts callee interface method)).findSome? fun k => k.fault? args
  | .create className args =>
    match scope.model.findClassByName className with
    | .ok c => c.contract.fault? args
    | .error _ => some (.classNotFound className)
  | .get _ => none
  | .syncCall callee interface method args =>
    some (.unsupportedEffect (.syncCall callee interface method args))

def rhsOffence? : Rhs → Option Error
  | .pure value => (firstOffence (value.visits .value)).map .unsupportedExpr
  | .effect action => scope.effectOffence? action

/-- Why a statement has no program, whatever the statements inside it are. -/
def offence? : Stmt → Option Error
  | .assign _ value | .declare _ _ (some value) => scope.rhsOffence? value
  | .eval (.effect action) => scope.effectOffence? action
  | .cond test _ _ => (firstOffence (test.visits .truth)).map .unsupportedExpr
  | .ret value => (firstOffence (value.visits .value)).map .unsupportedExpr
  | .await guard => (firstOffence guard.visits).map .unsupportedExpr
  | .skip | .declare _ _ none | .eval (.pure _) | .block _ => none
  | .loop test body => some (.unsupportedStmt (.loop test body))
  | .cases subject branches => some (.unsupportedStmt (.cases subject branches))
  | .duration min max => some (.unsupportedStmt (.duration min max))
  | .assert claim => some (.unsupportedStmt (.assert claim))

end Scope

/-! ## Expressions and annotations -/

/-- The error of a computation that writes nothing down, if it fails. -/
def errorOf? {α : Type} : Except Error α → Option Error
  | .ok _ => none
  | .error e => some e

theorem refusal_eq_none {α : Type} {x : Except Expr α} : refusal x = none ↔ ∃ a, x = .ok a := by
  cases x <;> simp [refusal]

namespace Expr

variable {e : Expr}

theorem firstOffence_value_eq_none : firstOffence (e.visits .value) = none ↔ e.Arithmetic := by
  rw [firstOffence_value, refusal_eq_none, exists_toTerm_iff]

theorem firstOffence_truth_eq_none : firstOffence (e.visits .truth) = none ↔ e.Condition := by
  rw [firstOffence_truth, refusal_eq_none, exists_toFormula_iff]

theorem isLowered_iff {role : Role} : e.IsLowered role ↔ e.Plays role := by
  cases role with
  | value => exact exists_toTerm_iff
  | truth => exact exists_toFormula_iff

end Expr

theorem Guard.firstOffence_eq_none {g : Guard} :
    firstOffence g.visits = none ↔ ∀ asked ∈ g.asks, asked.2.Plays asked.1 := by
  rw [g.firstOffence_visits, refusal_eq_none, Guard.exists_toFormula_iff]
  simp only [Expr.isLowered_iff]

namespace Annotation

variable {a : Annotation}

theorem fault?_eq_none_iff : a.fault? = none ↔ a.IsProper := by
  unfold fault? IsProper
  by_cases hspec : a.isSpec = true
  · rw [if_pos hspec]
    split <;> simp_all
  · simp [hspec]

theorem errorOf?_clauseText : errorOf? (a.clauseText .requires) = a.fault? := by
  unfold fault? clauseText
  split
  · cases a.value with
    | construct name args =>
      by_cases hname : name = "Requires"
      · subst hname
        rcases args with _ | ⟨arg, _ | ⟨other, rest⟩⟩
        · rfl
        · cases arg <;> rfl
        · cases arg <;> rfl
      · simp [hname, Clause.label, errorOf?]
    | _ => rfl
  · rfl

end Annotation

theorem errorOf?_clauseFrom (before : Option String) (annotations : List Annotation) :
    errorOf? (clauseFrom .requires .conjoin before annotations) =
      annotations.findSome? Annotation.fault? := by
  induction annotations generalizing before with
  | nil => rfl
  | cons a annotations ih =>
    rw [List.findSome?_cons, ← a.errorOf?_clauseText, clauseFrom]
    cases a.clauseText .requires with
    | error e => rfl
    | ok text => cases text <;> exact ih _

theorem errorOf?_bindArguments (text : String) (sub : Substitution) (formals : List String)
    (args : List Expr) :
    errorOf? (bindArguments text sub formals args) =
      (formals.zip args).findSome? fun bound => argumentFault? text bound.1 bound.2 := by
  induction formals generalizing sub args with
  | nil => rfl
  | cons formal formals ih =>
    cases args with
    | nil => rfl
    | cons arg args =>
      rw [List.zip_cons_cons, List.findSome?_cons, bindArguments, argumentFault?,
        arg.firstOffence_value]
      cases arg.toTerm with
      | ok term => simpa [refusal] using ih _ args
      | error e =>
        by_cases hmention : mentions text formal = true
        · simp [refusal, hmention, errorOf?]
        · simpa [hmention] using ih sub args

/-! ## Preconditions -/

namespace Contract

variable (k : Contract) {args : List Expr}

theorem fault?_eq_none_iff : k.fault? args = none ↔ k.Admits args := by
  rw [fault?, Option.or_eq_none_iff, List.findSome?_eq_none_iff]
  refine and_congr (by simp only [ Annotation.fault?_eq_none_iff]) ?_
  cases k.precondition? with
  | none => simp
  | some text =>
    simp only [Option.bind_some, List.findSome?_eq_none_iff, Prod.forall, Option.some.injEq,
      forall_eq']
    refine forall_congr' fun formal => forall_congr' fun arg => forall_congr' fun _ => ?_
    by_cases hmention : mentions text formal = true
    · simp [argumentFault?, hmention, Expr.firstOffence_value_eq_none]
    · simp [argumentFault?, hmention]

/-- Instantiating a precondition fails with what is at fault. -/
theorem errorOf?_instantiate : errorOf? (instantiate k.annotations k.formals args) =
    k.fault? args := by
  have hannotations : errorOf? (clauseOf .requires .conjoin k.annotations) =
      k.annotations.findSome? Annotation.fault? := errorOf?_clauseFrom none k.annotations
  rw [fault?, ← hannotations, instantiate, precondition?]
  cases clauseOf .requires .conjoin k.annotations with
  | error e => rfl
  | ok text =>
    cases text with
    | none => rfl
    | some text =>
      rw [Option.bind_some, ← errorOf?_bindArguments text []]
      cases hbound : bindArguments text [] k.formals args <;> simp [errorOf?, hbound]

theorem isSome_of_instantiate {found : Option Formula}
    (h : instantiate k.annotations k.formals args = .ok found) :
    found.isSome = k.precondition?.isSome := by
  rw [instantiate] at h
  rw [precondition?]
  cases hclause : clauseOf .requires .conjoin k.annotations with
  | error e => simp [hclause] at h
  | ok text =>
    rw [hclause] at h
    cases text with
    | none =>
      cases h
      rfl
    | some text =>
      cases hbound : bindArguments text [] k.formals args with
      | error e => simp [hbound] at h
      | ok sub =>
        simp only [hbound, Except.ok.injEq] at h
        rw [← h]
        rfl

end Contract

/-- The precondition of the first contract that has one. -/
def firstPrecondition (args : List Expr) : List Contract → Except Error (Option Formula)
  | [] => .ok none
  | k :: ks =>
    match instantiate k.annotations k.formals args with
    | .error e => .error e
    | .ok (some pre) => .ok (some pre)
    | .ok none => firstPrecondition args ks

theorem errorOf?_firstPrecondition (args : List Expr) (ks : List Contract) :
    errorOf? (firstPrecondition args ks) = (consulted ks).findSome? fun k => k.fault? args := by
  induction ks with
  | nil => rfl
  | cons k ks ih =>
    rw [consulted, List.findSome?_cons, firstPrecondition, ← k.errorOf?_instantiate]
    cases hinst : instantiate k.annotations k.formals args with
    | error e => rfl
    | ok found =>
      have hsome := k.isSome_of_instantiate hinst
      cases found with
      | some pre => simp [errorOf?, ← hsome]
      | none => simpa [errorOf?, ← hsome] using ih

namespace Scope

variable {scope : Scope}

/-- Looking up the precondition of a call goes through its contracts. -/
theorem callPrecondition_eq (callee : Expr) (interface : Option String) (method : Signature)
    (args : List Expr) :
    scope.model.callPrecondition scope.owner callee interface method args =
      firstPrecondition args (scope.contracts callee interface method) := by
  have hone : ∀ (sig : Signature) (annotations : List Annotation),
      sig.instantiate annotations args = firstPrecondition args [sig.contract annotations] := by
    intro sig annotations
    rw [firstPrecondition, Signature.instantiate, Signature.contract]
    cases instantiate annotations (sig.params.map Param.name) args with
    | error e => rfl
    | ok found => cases found <;> rfl
  unfold Model.callPrecondition contracts
  split
  · cases scope.owner with
    | none => rfl
    | some c =>
      simp only [Model.selfCallPrecondition, Model.declaredPrecondition]
      cases scope.model.contractOf? c method with
      | none =>
        cases c.methodBySig? method with
        | none => rfl
        | some m => exact hone m.sig m.annotations
      | some d =>
        simp only [Signature.instantiate, Option.map_some, Option.toList_some,
          List.singleton_append, firstPrecondition, Signature.contract]
        cases instantiate d.annotations (d.sig.params.map Param.name) args with
        | error e => rfl
        | ok found =>
          cases found with
          | some pre => rfl
          | none =>
            cases c.methodBySig? method with
            | none => rfl
            | some m => exact hone m.sig m.annotations
  · cases interface with
    | none => rfl
    | some name =>
      simp only [Model.otherCallPrecondition, Option.bind_some]
      cases scope.model.declared? name method with
      | none => rfl
      | some d => exact hone d.sig d.annotations

theorem errorOf?_creationPrecondition (className : String) (args : List Expr) :
    errorOf? (scope.model.creationPrecondition className args) =
      scope.effectOffence? (.create className args) := by
  rw [effectOffence?, Model.creationPrecondition]
  cases hfound : scope.model.findClassByName className with
  | error e =>
    have hname : e = .classNotFound className := by
      unfold Model.findClassByName at hfound
      split at hfound
      · cases hfound
      · split at hfound <;> cases hfound
        rfl
    rw [hname]
    rfl
  | ok c =>
    have hinst : errorOf? (instantiate c.annotations (c.params.map Param.name) args) =
        c.contract.fault? args := c.contract.errorOf?_instantiate
    simp only [← hinst]
    cases instantiate c.annotations (c.params.map Param.name) args <;> rfl

theorem errorOf?_callPrecondition (callee : Expr) (interface : Option String) (method : Signature)
    (args : List Expr) :
    errorOf? (scope.model.callPrecondition scope.owner callee interface method args) =
      scope.effectOffence? (.asyncCall callee interface method args) := by
  rw [callPrecondition_eq, errorOf?_firstPrecondition]
  rfl

/-! ## Statements that offend -/

theorem effectOffence?_eq_none_iff {e : Effect} :
    scope.effectOffence? e = none ↔ scope.SupportsEffect e := by
  cases e with
  | asyncCall callee interface method args =>
    simp only [effectOffence?, SupportsEffect, List.findSome?_eq_none_iff,
      Contract.fault?_eq_none_iff]
  | create className args =>
    simp only [effectOffence?, SupportsEffect]
    cases scope.model.findClassByName className with
    | error e => simp
    | ok c => simp [Contract.fault?_eq_none_iff]
  | get future => simp [effectOffence?, SupportsEffect]
  | syncCall callee interface method args => simp [effectOffence?, SupportsEffect]

theorem rhsOffence?_eq_none_iff {value : Rhs} :
    scope.rhsOffence? value = none ↔ scope.SupportsRhs value := by
  cases value with
  | pure e => simp [rhsOffence?, SupportsRhs, Expr.firstOffence_value_eq_none]
  | effect e => exact effectOffence?_eq_none_iff

/-- What does not offend is supported. -/
theorem offence?_eq_none_iff {s : Stmt} : scope.offence? s = none ↔ scope.Supports s := by
  match s with
  | .assign _ value | .declare _ _ (some value) => exact rhsOffence?_eq_none_iff
  | .eval (.effect action) => exact effectOffence?_eq_none_iff
  | .cond test _ _ => simp [offence?, Supports, Expr.firstOffence_truth_eq_none]
  | .ret value => simp [offence?, Supports, Expr.firstOffence_value_eq_none]
  | .await guard => simp [offence?, Supports, Guard.firstOffence_eq_none]
  | .skip | .declare _ _ none | .eval (.pure _) | .block _ => simp [offence?, Supports]
  | .loop .. | .cases .. | .duration .. | .assert _ => simp [offence?, Supports]

end Scope

end HybridObjects
