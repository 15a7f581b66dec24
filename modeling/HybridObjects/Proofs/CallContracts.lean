import HybridObjects.Obligation.Contract
import HybridObjects.Proofs.ClauseText
import HybridObjects.Proofs.Lowers
import HybridObjects.Proofs.Semantics

/-!
# HybridObjects.Proofs.CallContracts

What a call has to establish, and what the method assumes that it runs.

`self_call_checks_assumption`: a call on `this` checks the clause that the obligation of the method
assumes, with the arguments in the place of the parameters, to the letter.

`other_call_covers_iff`: a call through an interface covers that clause only if it happens to check
the same text. It looks for a clause from the interface alone; the method takes its clause from the
first interface of its class that declares it, and falls back on its own annotations.

* `Signature.matches_congr` — lookups do not tell matching signatures apart.
* `Model.requirement`       — the clause that counts for a method, and the signature it stands at.
* `Signature.Fits`          — clauses that can be restated in the names of other parameters.
-/

namespace HybridObjects

open Text (isIdent)
open Substitution (binding)

/-! ## Matching signatures -/

namespace Signature

theorem matches_iff {a b : Signature} :
    a.matches b = true ↔ a.name = b.name ∧ a.params.map Param.type = b.params.map Param.type := by
  simp [Signature.matches]

theorem matches_congr {a b : Signature} (h : a.matches b = true) (sig : Signature) :
    sig.matches a = sig.matches b := by
  obtain ⟨hname, htypes⟩ := matches_iff.mp h
  simp [Signature.matches, hname, htypes]

theorem matches_self (sig : Signature) : sig.matches sig = true := by
  simp [Signature.matches]

/-- The names of the parameters. -/
def formals (sig : Signature) : List String :=
  sig.params.map Param.name

theorem length_formals_of_matches {a b : Signature} (h : a.matches b = true) :
    a.formals.length = b.formals.length := by
  have htypes := congrArg List.length (matches_iff.mp h).2
  simpa [formals] using htypes

end Signature

section

variable {a b : Signature} (h : a.matches b = true)

include h

theorem Interface.method?_congr (i : Interface) : i.method? a = i.method? b := by
  simp only [Interface.method?, Signature.matches_congr h]

theorem Class.methodBySig?_congr (c : Class) : c.methodBySig? a = c.methodBySig? b := by
  simp only [Class.methodBySig?, Signature.matches_congr h]

theorem Model.search_congr (model : Model) (n : Nat) (visited pending : List String) :
    model.search a n visited pending = model.search b n visited pending := by
  induction n generalizing visited pending with
  | zero => rfl
  | succ n ih =>
    cases pending with
    | nil => rfl
    | cons name pending => simp only [Model.search, ih, Interface.method?_congr h]

theorem Model.declared?_congr (model : Model) (interface : String) :
    model.declared? interface a = model.declared? interface b :=
  Model.search_congr h model _ _ _

theorem Model.contractOf?_congr (model : Model) (c : Class) :
    model.contractOf? c a = model.contractOf? c b := by
  simp only [Model.contractOf?, Model.declared?_congr h]

end

/-- A method is found by its signature if no other method of the class has a matching one. -/
theorem Class.methodBySig?_of_mem {c : Class} {m : Method} (hm : m ∈ c.methods)
    (hmethods : c.methods.Pairwise fun a b => a.sig.matches b.sig = false) :
    c.methodBySig? m.sig = some m := by
  unfold Class.methodBySig?
  generalize c.methods = methods at hm hmethods
  induction methods with
  | nil => cases hm
  | cons first methods ih =>
    obtain ⟨hfirst, hmethods⟩ := List.pairwise_cons.mp hmethods
    rcases List.mem_cons.mp hm with rfl | hlater
    · simp [Signature.matches_self]
    · simp [hfirst m hlater, ih hlater hmethods]

theorem Class.matches_of_methodBySig? {c : Class} {sig : Signature} {m : Method}
    (h : c.methodBySig? sig = some m) : m.sig.matches sig = true := by
  unfold Class.methodBySig? at h
  simpa using List.find?_some h

theorem Interface.matches_of_method? {i : Interface} {sig : Signature} {found : InterfaceMethod}
    (h : i.method? sig = some found) : found.sig.matches sig = true := by
  unfold Interface.method? at h
  simpa using List.find?_some h

theorem Model.matches_of_search {model : Model} {sig : Signature} {n : Nat}
    {visited pending : List String} {found : InterfaceMethod}
    (h : model.search sig n visited pending = some found) : found.sig.matches sig = true := by
  induction n generalizing visited pending with
  | zero => cases h
  | succ n ih =>
    cases pending with
    | nil => cases h
    | cons name pending =>
      rw [Model.search] at h
      split at h
      · exact ih h
      · split at h
        · exact ih h
        · split at h
          · next hfound =>
            cases h
            exact Interface.matches_of_method? hfound
          · exact ih h

theorem Model.matches_of_contractOf? {model : Model} {c : Class} {sig : Signature}
    {found : InterfaceMethod} (h : model.contractOf? c sig = some found) :
    found.sig.matches sig = true := by
  obtain ⟨_, interface, _, -, hfound, -⟩ := List.findSome?_eq_some_iff.mp h
  exact Model.matches_of_search hfound

/-! ## The clause that counts -/

/-- The `Requires` clause of a signature with the given annotations, and the signature. -/
def Signature.requirement (sig : Signature) (annotations : List Annotation) :
    Except Error (Option (Signature × String)) :=
  match clauseOf .requires .conjoin annotations with
  | .error e => .error e
  | .ok none => .ok none
  | .ok (some text) => .ok (some (sig, text))

/-- The `Requires` clause of a declaration if there is one. -/
def requirementOf : Option InterfaceMethod → Except Error (Option (Signature × String))
  | some declared => declared.sig.requirement declared.annotations
  | none => .ok none

namespace Model

/-- The clause that counts for the method of a class with a signature: that of the declaration if
it has one, else that of the method. -/
def requirement (model : Model) (c : Class) (sig : Signature) :
    Except Error (Option (Signature × String)) :=
  match requirementOf (model.contractOf? c sig) with
  | .error e => .error e
  | .ok (some found) => .ok (some found)
  | .ok none =>
    match c.methodBySig? sig with
    | some m => m.sig.requirement m.annotations
    | none => .ok none

theorem requirement_congr {a b : Signature} (h : a.matches b = true) (model : Model) (c : Class) :
    model.requirement c a = model.requirement c b := by
  simp only [requirement, contractOf?_congr h, Class.methodBySig?_congr h]

end Model

theorem Signature.eq_of_requirement {sig found : Signature} {annotations : List Annotation}
    {text : String} (h : sig.requirement annotations = .ok (some (found, text))) : found = sig := by
  unfold Signature.requirement at h
  split at h
  · cases h
  · cases h
  · cases h
    rfl

theorem matches_of_requirementOf {declared : Option InterfaceMethod} {sig found : Signature}
    {text : String} (hdeclared : ∀ d, declared = some d → d.sig.matches sig = true)
    (h : requirementOf declared = .ok (some (found, text))) : found.matches sig = true := by
  cases declared with
  | none => cases h
  | some d =>
    rw [Signature.eq_of_requirement h]
    exact hdeclared d rfl

/-- The clause that counts is stated for a signature that matches the one it is asked for. -/
theorem Model.matches_of_requirement {model : Model} {c : Class} {sig found : Signature}
    {text : String} (h : model.requirement c sig = .ok (some (found, text))) :
    found.matches sig = true := by
  unfold Model.requirement at h
  split at h
  · cases h
  · next hfound =>
    cases h
    exact matches_of_requirementOf (fun d hd => Model.matches_of_contractOf? hd) hfound
  · split at h
    · next m hm =>
      rw [Signature.eq_of_requirement h]
      exact Class.matches_of_methodBySig? hm
    · cases h

/-! ### At the call -/

/-- The formula that a call checks: its precondition, `true` if it has none. -/
def Model.callCheck (model : Model) (caller : Option Class) (callee : Expr)
    (interface : Option String) (call : Signature) (args : List Expr) : Except Error Formula :=
  (model.callPrecondition caller callee interface call args).map (·.getD .verum)

/-- The program of a call is the check of that formula. -/
theorem Scope.lowerEffect_asyncCall {scope : Scope} {callee : Expr} {interface : Option String}
    {call : Signature} {args : List Expr} {check : Formula}
    (h : scope.model.callCheck scope.owner callee interface call args = .ok check) (calls : CallSet)
    (st : LoweringState) :
    ∃ st', scope.lowerEffect (.asyncCall callee interface call args) calls st =
      .ok ⟨contractCheck check, if callee.isThis then calls.insert call else calls⟩ st' := by
  unfold Model.callCheck at h
  rw [Scope.lowerEffect, Scope.lowerCall]
  cases hpre : scope.model.callPrecondition scope.owner callee interface call args with
  | error e =>
    rw [hpre] at h
    cases h
  | ok pre =>
    rw [hpre] at h
    cases h
    cases pre <;> exact ⟨_, rfl⟩

/-- The arguments have counterparts in the logic. -/
def Translate (args : List Expr) (terms : List Term) : Prop :=
  List.Forall₂ (fun arg term => arg.toTerm = .ok term) args terms

/-- A clause with texts for the parameters of its signature. -/
def checkOf (texts : List String) (found : Signature × String) : Formula :=
  .raw (substitute (binding found.1.formals texts) found.2)

section

variable {args : List Expr} {terms : List Term}

theorem bindArguments_eq_ok (h : Translate args terms) (text : String) (formals : List String)
    (sub : Substitution) :
    ∃ bound, bindArguments text sub formals args = .ok bound ∧
      ∀ x, bound.lookup x = (binding formals (terms.map Term.text) ++ sub).lookup x := by
  induction h generalizing formals sub with
  | nil =>
    refine ⟨sub, ?_, by simp [binding]⟩
    cases formals <;> rfl
  | cons harg _ ih =>
    cases formals with
    | nil => exact ⟨sub, rfl, by simp [binding]⟩
    | cons formal formals =>
      obtain ⟨bound, hbound, hlookup⟩ := ih formals (sub.insert formal (Term.text _))
      refine ⟨bound, ?_, fun x => ?_⟩
      · rw [bindArguments, harg]
        exact hbound
      · rw [hlookup, List.map_cons, Substitution.binding_cons, List.append_assoc]
        simp only [List.lookup_append, Substitution.lookup_insert, List.cons_append,
          List.nil_append, lookup_entry_cons]

theorem Signature.instantiate_eq (h : Translate args terms) (sig : Signature)
    (annotations : List Annotation) :
    sig.instantiate annotations args =
      (sig.requirement annotations).map (Option.map (checkOf (terms.map Term.text))) := by
  unfold Signature.instantiate HybridObjects.instantiate Signature.requirement
  cases hclause : clauseOf .requires .conjoin annotations with
  | error e => rfl
  | ok found =>
    cases found with
    | none => rfl
    | some text =>
      obtain ⟨bound, hbound, hlookup⟩ := bindArguments_eq_ok h text (sig.params.map Param.name) []
      have htext : substitute bound text =
          substitute (binding sig.formals (terms.map Term.text)) text := by
        refine substitute_congr fun x _ => ?_
        rw [Substitution.apply, Substitution.apply, hlookup, List.append_nil]
        rfl
      simp [hbound, htext, checkOf, Except.map]

theorem Model.selfCallPrecondition_eq (h : Translate args terms) (model : Model) (c : Class)
    (call : Signature) :
    model.selfCallPrecondition c call args =
      (model.requirement c call).map (Option.map (checkOf (terms.map Term.text))) := by
  have hdeclared : model.declaredPrecondition c call args =
      (requirementOf (model.contractOf? c call)).map
        (Option.map (checkOf (terms.map Term.text))) := by
    unfold Model.declaredPrecondition
    cases model.contractOf? c call with
    | none => rfl
    | some declared => exact Signature.instantiate_eq h _ _
  unfold Model.selfCallPrecondition Model.requirement
  rw [hdeclared]
  cases requirementOf (model.contractOf? c call) with
  | error e => rfl
  | ok found =>
    cases found with
    | some found => rfl
    | none =>
      cases c.methodBySig? call with
      | none => rfl
      | some target => exact Signature.instantiate_eq h _ _

theorem Model.otherCallPrecondition_eq (h : Translate args terms) (model : Model)
    (interface : String) (call : Signature) :
    model.otherCallPrecondition (some interface) call args =
      (requirementOf (model.declared? interface call)).map
        (Option.map (checkOf (terms.map Term.text))) := by
  unfold Model.otherCallPrecondition
  dsimp only
  cases model.declared? interface call with
  | none => rfl
  | some declared => exact Signature.instantiate_eq h _ _

end

/-! ### At the method -/

theorem parameterRenaming_self (sub : Substitution) (params : List Param) :
    parameterRenaming sub params params = sub := by
  induction params with
  | nil => rfl
  | cons param params ih => simp [parameterRenaming, ih]

theorem lookup_parameterRenaming {formals : List Param}
    (hformals : (formals.map Param.name).Nodup) (actuals : List Param) (sub : Substitution)
    (hsub : ∀ formal ∈ formals, sub.lookup formal.name = none) (x : String) :
    (parameterRenaming sub formals actuals).lookup x =
      match (binding (formals.map Param.name) (actuals.map Param.name)).lookup x with
      | some y => if x = y then none else some y
      | none => sub.lookup x := by
  induction formals generalizing actuals sub with
  | nil => rfl
  | cons formal formals ih =>
    obtain ⟨hformal, hformals⟩ := List.nodup_cons.mp hformals
    obtain ⟨hfirst, hsub⟩ := List.forall_mem_cons.mp hsub
    cases actuals with
    | nil => rfl
    | cons actual actuals =>
      rw [parameterRenaming, List.map_cons, List.map_cons, Substitution.binding_cons,
        List.lookup_append]
      split
      · next hsame =>
        rw [ih hformals actuals sub hsub]
        cases (binding (formals.map Param.name) (actuals.map Param.name)).lookup x with
        | some y => rfl
        | none =>
          by_cases hx : x = formal.name
          · simp [hx, ← hsame, hfirst]
          · simp [hx]
      · next hother =>
        have hsub' : ∀ f ∈ formals, (sub.insert formal.name actual.name).lookup f.name = none := by
          intro f hf
          have hne : f.name ≠ formal.name := by
            intro heq
            exact hformal (heq ▸ List.mem_map_of_mem hf)
          rw [Substitution.lookup_insert, if_neg hne, hsub f hf]
        rw [ih hformals actuals _ hsub', Substitution.lookup_insert]
        cases (binding (formals.map Param.name) (actuals.map Param.name)).lookup x with
        | some y => rfl
        | none =>
          by_cases hx : x = formal.name
          · simp [hx, hother]
          · simp [hx]

/-- A clause stated for a signature can be restated in the names of another one: the names are
identifiers, those of one signature differ from each other, and the new names do not occur in the
clause unless they are among the old ones. -/
structure Signature.Fits (sig other : Signature) (text : String) : Prop where
  idents : ∀ x ∈ sig.formals, isIdent x.toList = true
  idents' : ∀ x ∈ other.formals, isIdent x.toList = true
  nodup : sig.formals.Nodup
  apart : ∀ x ∈ other.formals, mentions text x = true → x ∈ sig.formals

/-- To rename the parameters is to bind each of them to its new name. -/
theorem substitute_parameterRenaming {sig other : Signature} {text : String}
    (h : sig.Fits other text) :
    substitute (parameterRenaming [] sig.params other.params) text =
      substitute (binding sig.formals other.formals) text := by
  refine substitute_congr fun x _ => ?_
  have hlookup : (parameterRenaming [] sig.params other.params).lookup x =
      match (binding sig.formals other.formals).lookup x with
      | some y => if x = y then none else some y
      | none => none :=
    lookup_parameterRenaming h.nodup other.params [] (by simp) x
  rw [Substitution.apply, Substitution.apply, String.ofList_toList, hlookup]
  cases hbound : (binding sig.formals other.formals).lookup x with
  | none => rfl
  | some y =>
    have hy : y ∈ other.formals :=
      (List.of_mem_zip (List.mem_reverse.mp (mem_of_lookup hbound))).2
    have hident := Text.asOperand_of_isIdent (h.idents' y hy)
    by_cases hxy : x = y
    · subst hxy
      simp [hident]
    · simp [hxy]

/-- A clause in the names of the parameters of another signature. -/
def restate (sig : Signature) (found : Signature × String) : Formula :=
  .raw (substitute (parameterRenaming [] found.1.params sig.params) found.2)

namespace Profile

variable {p : Profile} {m : Method}

theorem declaredClause_eq :
    p.declaredClause m .requires =
      (requirementOf (p.model.contractOf? p.owner m.sig)).map (Option.map (restate m.sig)) := by
  unfold declaredClause
  cases p.model.contractOf? p.owner m.sig with
  | none => rfl
  | some declared =>
    dsimp only [requirementOf, Signature.requirement]
    cases HybridObjects.clauseOf .requires .conjoin declared.annotations with
    | error e => rfl
    | ok found => cases found <;> rfl

theorem clauseFormula_requires_eq :
    clauseFormula .requires m.annotations =
      (m.sig.requirement m.annotations).map fun found =>
        (found.map (restate m.sig)).getD .verum := by
  unfold clauseFormula Signature.requirement
  cases HybridObjects.clauseOf .requires .conjoin m.annotations with
  | error e => rfl
  | ok found =>
    cases found with
    | none => rfl
    | some text => simp [Except.map, restate, parameterRenaming_self]

/-- The clause that a method assumes is the one that counts, in the names of its parameters. -/
theorem clauseOf_requires_eq (hm : p.owner.methodBySig? m.sig = some m) :
    p.clauseOf m .requires =
      (p.model.requirement p.owner m.sig).map fun found =>
        (found.map (restate m.sig)).getD .verum := by
  unfold clauseOf Model.requirement
  rw [declaredClause_eq, hm]
  cases requirementOf (p.model.contractOf? p.owner m.sig) with
  | error e => rfl
  | ok found =>
    cases found with
    | some found => rfl
    | none => exact clauseFormula_requires_eq

end Profile

/-- A clause in the names of a method, with arguments for the parameters of the method, is the
clause with the arguments for the parameters of its own signature. -/
theorem checkOf_restate {sig other : Signature} {text : String} (hfits : sig.Fits other text)
    (hother : other.formals.Nodup) (hlength : sig.formals.length = other.formals.length)
    {texts : List String} (htexts : texts.length = other.formals.length) :
    ∃ restated, restate other (sig, text) = .raw restated ∧
      checkOf texts (sig, text) = .raw (substitute (binding other.formals texts) restated) := by
  refine ⟨_, rfl, ?_⟩
  rw [checkOf, substitute_parameterRenaming hfits,
    substitute_binding hfits.nodup hother hlength htexts.symm hfits.idents hfits.idents'
      hfits.apart]

/-! ## Calls on the same object -/

theorem Translate.length_texts {args : List Expr} {terms : List Term} (h : Translate args terms) :
    (terms.map Term.text).length = args.length := by
  rw [List.length_map, List.Forall₂.length_eq h]

/-- A call on `this` checks what the method assumes. Both take the same clause, of the declaration
that the method implements or of the method itself. Both fail alike, and otherwise the call checks
`true` if the method assumes `true`, and the text assumed with the arguments in the place of the
parameters if it assumes a text. -/
theorem self_call_checks_assumption {p : Profile} {m : Method} (hm : m ∈ p.owner.methods)
    (hmethods : p.owner.methods.Pairwise fun a b => a.sig.matches b.sig = false)
    (hparams : m.sig.formals.Nodup) {callee : Expr} (hcallee : callee.isThis = true)
    {call : Signature} (hcall : call.matches m.sig = true) {args : List Expr} {terms : List Term}
    (hargs : Translate args terms) (hlength : args.length = m.sig.params.length)
    (hfits : ∀ sig text, p.model.requirement p.owner m.sig = .ok (some (sig, text)) →
      sig.Fits m.sig text)
    (interface : Option String) :
    p.model.requirement p.owner call = p.model.requirement p.owner m.sig ∧
      (∀ e, p.model.callCheck (some p.owner) callee interface call args = .error e ↔
        p.clauseOf m .requires = .error e) ∧
      ∀ assumed, p.clauseOf m .requires = .ok assumed → ∃ check,
        p.model.callCheck (some p.owner) callee interface call args = .ok check ∧
          (assumed = .verum ∧ check = .verum ∨ ∃ text, assumed = .raw text ∧
            check = .raw (substitute (binding m.sig.formals (terms.map Term.text)) text)) ∧
          ∀ calls st, ∃ st', p.scope.lowerEffect (.asyncCall callee interface call args) calls st =
            .ok ⟨contractCheck check, calls.insert call⟩ st' := by
  have hsame := Model.requirement_congr hcall p.model p.owner
  have hclause := Profile.clauseOf_requires_eq (Class.methodBySig?_of_mem hm hmethods)
  have hcheck : p.model.callCheck (some p.owner) callee interface call args =
      ((p.model.requirement p.owner m.sig).map
        (Option.map (checkOf (terms.map Term.text)))).map (·.getD .verum) := by
    rw [Model.callCheck, Model.callPrecondition, if_pos hcallee, ← hsame,
      Model.selfCallPrecondition_eq hargs]
  have hlowers : ∀ {check},
      p.model.callCheck (some p.owner) callee interface call args = .ok check →
      ∀ calls st, ∃ st', p.scope.lowerEffect (.asyncCall callee interface call args) calls st =
        .ok ⟨contractCheck check, calls.insert call⟩ st' := by
    intro check hok calls st
    have hlowered : ∃ st', p.scope.lowerEffect (.asyncCall callee interface call args) calls st =
        .ok ⟨contractCheck check, if callee.isThis then calls.insert call else calls⟩ st' :=
      Scope.lowerEffect_asyncCall hok calls st
    rwa [if_pos hcallee] at hlowered
  refine ⟨hsame, ?_⟩
  rw [hclause]
  cases hfound : p.model.requirement p.owner m.sig with
  | error e =>
    rw [hfound] at hcheck
    rw [hcheck]
    simp [Except.map]
  | ok found =>
    rw [hfound] at hcheck
    refine ⟨by rw [hcheck]; simp [Except.map], ?_⟩
    rintro assumed hassumed
    cases hassumed
    refine ⟨_, hcheck, ?_, hlowers hcheck⟩
    cases found with
    | none => exact .inl ⟨rfl, rfl⟩
    | some found =>
      obtain ⟨sig, text⟩ := found
      have hmatches := Signature.length_formals_of_matches (Model.matches_of_requirement hfound)
      have htexts : (terms.map Term.text).length = m.sig.formals.length := by
        rw [hargs.length_texts, hlength, Signature.formals, List.length_map]
      exact .inr (checkOf_restate (hfits sig text hfound) hparams hmatches htexts)

/-! ### A valve with two interfaces -/

/-- Opens the valve between two levels. The parameters have the names of the declaration, in the
other order. -/
def Method.set : Method :=
  ⟨⟨"set", [⟨"high", "Int"⟩, ⟨"low", "Int"⟩]⟩,
    [.assign (.field "x") (.pure (.var "low"))], []⟩

/-- Lets off steam, with a clause of its own. -/
def Method.vent : Method :=
  ⟨⟨"vent", [⟨"n", "Int"⟩]⟩, [.assign (.field "x") (.pure (.int "0"))],
    [⟨"ABS.DC.HybridSpec", .construct "Requires" [.string "n > 0"]⟩]⟩

def Interface.control : Interface :=
  ⟨"Control", [],
    [⟨⟨"set", [⟨"low", "Int"⟩, ⟨"high", "Int"⟩]⟩,
      [⟨"ABS.DC.HybridSpec", .construct "Requires" [.string "low < high"]⟩]⟩]⟩

/-- An interface that declares the same methods without any clause. -/
def Interface.panel : Interface :=
  ⟨"Panel", [], [⟨⟨"set", [⟨"a", "Int"⟩, ⟨"b", "Int"⟩]⟩, []⟩, ⟨⟨"vent", [⟨"k", "Int"⟩]⟩, []⟩]⟩

def Class.valve : Class :=
  { name := "Valve"
    params := []
    fields := []
    physical := some
      { fields := [⟨"x", .int "0", ⟨.derivative (.field "x"), .int "1"⟩⟩]
        annotations := [⟨"ABS.DC.HybridSpec", .construct "ObjInv" [.string "x >= 0"]⟩] }
    init := none
    methods := [.set, .vent]
    implements := ["Control", "Panel"]
    annotations := [] }

def Model.valve : Model :=
  ⟨[⟨"M", [.control, .panel], [.valve], none⟩]⟩

def Profile.valve : Profile :=
  { model := .valve
    owner := .valve
    strategy := .basic
    ode := ⟨[("x", .num "1")]⟩
    invariant := .raw "x >= 0"
    precondition := .verum
    controllers := []
    controllerGuards := [] }

theorem Signature.fits_set :
    Signature.Fits ⟨"set", [⟨"low", "Int"⟩, ⟨"high", "Int"⟩]⟩ Method.set.sig "low < high" where
  idents := by decide
  idents' := by decide
  nodup := by decide
  apart := by decide

/-- The method assumes the clause of the first interface with its names exchanged, and a call on
`this` checks it with the arguments in the right places. -/
theorem self_call_checks_assumption_valve : ∃ log,
    Profile.of .valve .valve .basic [] = .ok .valve log ∧
      Profile.valve.clauseOf .set .requires = .ok (.raw "high < low") ∧
      Model.valve.callCheck (some .valve) .this none ⟨"set", [⟨"from", "Int"⟩, ⟨"to", "Int"⟩]⟩
        [.int "1", .binary .add (.field "x") (.int "2")] = .ok (.raw "1 < ((x + 2))") := by
  have hprofile : ∃ log, Profile.of .valve .valve .basic [] = .ok .valve log := ⟨_, rfl⟩
  obtain ⟨log, hprofile⟩ := hprofile
  have hmem : Method.set ∈ Profile.valve.owner.methods := List.mem_cons_self
  have hcall :
      Signature.matches ⟨"set", [⟨"from", "Int"⟩, ⟨"to", "Int"⟩]⟩ Method.set.sig = true := by
    decide
  have hargs : Translate [.int "1", .binary .add (.field "x") (.int "2")]
      [.num "1", .bin .add (.var "x") (.num "2")] := .cons rfl (.cons rfl .nil)
  have hfits : ∀ sig text,
      Profile.valve.model.requirement Profile.valve.owner Method.set.sig = .ok (some (sig, text)) →
        sig.Fits Method.set.sig text := by
    intro sig text hfound
    have hdeclared : Profile.valve.model.requirement Profile.valve.owner Method.set.sig =
        .ok (some (⟨"set", [⟨"low", "Int"⟩, ⟨"high", "Int"⟩]⟩, "low < high")) := rfl
    rw [hdeclared] at hfound
    cases hfound
    exact Signature.fits_set
  have hassumed : Profile.valve.clauseOf .set .requires = .ok (.raw "high < low") := rfl
  obtain ⟨-, -, hchecks⟩ := self_call_checks_assumption hmem (by decide) (by decide)
    (rfl : Expr.this.isThis = true) hcall hargs rfl hfits none
  obtain ⟨check, hcheck, ⟨hverum, -⟩ | ⟨text, htext, rfl⟩, -⟩ := hchecks _ hassumed
  · cases hverum
  · cases htext
    exact ⟨log, hprofile, hassumed, hcheck⟩

/-! ## Calls through an interface -/

/-- Reads clause texts one way or the other, in all stores alike. -/
noncomputable def Interp.reading (P : String → Prop) : Interp where
  num _ := 0
  div _ _ := 0
  pred _ _ := False
  raw text _ := P text
  hole _ _ := False
  flow _ _ _ _ := False

/-- Whatever texts mean, a text follows from another one only if it is the same. -/
theorem Formula.entails_raw_iff {check : Formula} {text : String}
    (hcheck : check = .verum ∨ ∃ stated, check = .raw stated) :
    (∀ (I : Interp) (s : Store), check.Holds I s → (Formula.raw text).Holds I s) ↔
      check = .raw text := by
  constructor
  · intro h
    let s : Store := ⟨fun _ => 0, fun _ => 0⟩
    rcases hcheck with rfl | ⟨stated, rfl⟩
    · have hfalse := h (.reading fun _ => False) s (by rw [Formula.Holds]; trivial)
      rw [Formula.Holds] at hfalse
      exact hfalse.elim
    · have hsame := h (.reading (· = stated)) s (by rw [Formula.Holds]; exact rfl)
      rw [Formula.Holds] at hsame
      exact congrArg Formula.raw hsame.symm
  · rintro rfl I s hs
    exact hs

/-- What a call through an interface checks comes from the declaration found through the interface:
its clause, and nothing if it has none. This covers what the method assumes if and only if it is the
same text. It is if the declaration is the one that the method takes its clause from. It need not be
if the class takes it from another interface or from the method itself. -/
theorem other_call_covers_iff {p : Profile} {m : Method} {text : String}
    (hassumed : p.clauseOf m .requires = .ok (.raw text)) {callee : Expr}
    (hcallee : callee.isThis = false) {interface : String} {call : Signature}
    (hcall : call.matches m.sig = true) {args : List Expr} {terms : List Term}
    (hargs : Translate args terms) {caller : Option Class} {check : Formula}
    (hcheck : p.model.callCheck caller callee (some interface) call args = .ok check) :
    ∃ found, requirementOf (p.model.declared? interface m.sig) = .ok found ∧
      check = (found.map (checkOf (terms.map Term.text))).getD .verum ∧
      ((∀ (I : Interp) (s : Store), check.Holds I s →
          (checkOf (terms.map Term.text) (m.sig, text)).Holds I s) ↔
        ∃ stated, found = some stated ∧
          checkOf (terms.map Term.text) stated = checkOf (terms.map Term.text) (m.sig, text)) ∧
      (p.model.declared? interface m.sig = p.model.contractOf? p.owner m.sig →
        m.sig.formals.Nodup → args.length = m.sig.params.length →
        ∀ sig stated, found = some (sig, stated) → sig.Fits m.sig stated →
          check = checkOf (terms.map Term.text) (m.sig, text)) := by
  have hother : p.model.callPrecondition caller callee (some interface) call args =
      p.model.otherCallPrecondition (some interface) call args := by
    unfold Model.callPrecondition
    rw [hcallee, if_neg Bool.false_ne_true]
  have hfound : ((requirementOf (p.model.declared? interface m.sig)).map
      (Option.map (checkOf (terms.map Term.text)))).map (·.getD .verum) = .ok check := by
    rw [← hcheck, Model.callCheck, hother, Model.otherCallPrecondition_eq hargs,
      Model.declared?_congr hcall]
  cases hrequirement : requirementOf (p.model.declared? interface m.sig) with
  | error e =>
    rw [hrequirement] at hfound
    cases hfound
  | ok found =>
    rw [hrequirement] at hfound
    obtain rfl : (found.map (checkOf (terms.map Term.text))).getD .verum = check := by
      cases hfound
      rfl
    refine ⟨found, rfl, rfl, ?_, ?_⟩
    · have hshape : (found.map (checkOf (terms.map Term.text))).getD .verum = .verum ∨
          ∃ stated, (found.map (checkOf (terms.map Term.text))).getD .verum = .raw stated := by
        cases found with
        | none => exact .inl rfl
        | some stated => exact .inr ⟨_, rfl⟩
      rw [checkOf, Formula.entails_raw_iff hshape]
      cases found with
      | none => simp
      | some stated => simp
    · rintro hsame hnodup hlength sig stated rfl hfits
      have hmatches := Signature.length_formals_of_matches
        (matches_of_requirementOf (fun d hd => Model.matches_of_search hd) hrequirement)
      have htexts : (terms.map Term.text).length = m.sig.formals.length := by
        rw [hargs.length_texts, hlength, Signature.formals, List.length_map]
      obtain ⟨restated, hrestated, hcovers⟩ := checkOf_restate hfits hnodup hmatches htexts
      have hdeclared : p.clauseOf m .requires = .ok (restate m.sig (sig, stated)) := by
        rw [Profile.clauseOf, Profile.declaredClause_eq, ← hsame, hrequirement]
        rfl
      rw [hassumed, hrestated] at hdeclared
      cases hdeclared
      exact hcovers

/-- The panel declares `vent` without a clause, so a call through it checks nothing, although the
method assumes a clause of its own, which may fail. A call through the interface that `set` takes
its clause from checks what `set` assumes. -/
theorem other_call_covers_iff_valve :
    Profile.valve.clauseOf .vent .requires = .ok (.raw "n > 0") ∧
      Model.valve.callCheck none (.var "v") (some "Panel") ⟨"vent", [⟨"k", "Int"⟩]⟩ [.int "0"] =
        .ok .verum ∧
      (∃ (I : Interp) (s : Store), Formula.verum.Holds I s ∧ ¬ (Formula.raw "0 > 0").Holds I s) ∧
      Profile.valve.clauseOf .set .requires = .ok (.raw "high < low") ∧
      Model.valve.callCheck none (.var "v") (some "Control") ⟨"set", [⟨"a", "Int"⟩, ⟨"b", "Int"⟩]⟩
        [.int "1", .int "2"] = .ok (.raw "1 < 2") := by
  have hvent : Profile.valve.clauseOf .vent .requires = .ok (.raw "n > 0") := rfl
  have hventCall : Signature.matches ⟨"vent", [⟨"k", "Int"⟩]⟩ Method.vent.sig = true := by decide
  have hventCheck : Profile.valve.model.callCheck none (.var "v") (some "Panel")
      ⟨"vent", [⟨"k", "Int"⟩]⟩ [.int "0"] = .ok .verum := rfl
  have hzero : Translate [.int "0"] [.num "0"] := .cons rfl .nil
  obtain ⟨found, hfound, -, hcovers, -⟩ :=
    other_call_covers_iff hvent (rfl : (Expr.var "v").isThis = false) hventCall hzero hventCheck
  have hnothing :
      requirementOf (Profile.valve.model.declared? "Panel" Method.vent.sig) = .ok none := rfl
  rw [hnothing] at hfound
  cases hfound
  have hopen : ¬ ∀ (I : Interp) (s : Store), Formula.verum.Holds I s →
      (checkOf [Term.text (.num "0")] (Method.vent.sig, "n > 0")).Holds I s := by
    intro hall
    obtain ⟨stated, hstated, -⟩ := hcovers.mp hall
    cases hstated
  have hset : Profile.valve.clauseOf .set .requires = .ok (.raw "high < low") := rfl
  have hsetCall :
      Signature.matches ⟨"set", [⟨"a", "Int"⟩, ⟨"b", "Int"⟩]⟩ Method.set.sig = true := by
    decide
  have hlevels : Translate [.int "1", .int "2"] [.num "1", .num "2"] := .cons rfl (.cons rfl .nil)
  have hsetCheck : ∃ check, Profile.valve.model.callCheck none (.var "v") (some "Control")
      ⟨"set", [⟨"a", "Int"⟩, ⟨"b", "Int"⟩]⟩ [.int "1", .int "2"] = .ok check := ⟨_, rfl⟩
  obtain ⟨check, hsetCheck⟩ := hsetCheck
  obtain ⟨found, hfound, -, -, hsame⟩ :=
    other_call_covers_iff hset (rfl : (Expr.var "v").isThis = false) hsetCall hlevels hsetCheck
  have hclause : requirementOf (Profile.valve.model.declared? "Control" Method.set.sig) =
      .ok (some (⟨"set", [⟨"low", "Int"⟩, ⟨"high", "Int"⟩]⟩, "low < high")) := rfl
  rw [hclause] at hfound
  cases hfound
  obtain rfl := hsame rfl (by decide) rfl _ _ rfl Signature.fits_set
  refine ⟨hvent, hventCheck, ?_, hset, hsetCheck⟩
  push Not at hopen
  exact hopen

end HybridObjects
