import HybridObjects.Proofs.Assembly
import HybridObjects.Proofs.LoweringSteps

/-!
# HybridObjects.Proofs.ClosedObligations

Obligations are closed. `settles_obligations`: the obligations of a class and of the main block have
no placeholders left, so each has a text, and no generation fails for want of a formula.

A profile has no placeholders; so the regions in which its class waits have none, every suspension
of a lowered block gets a formula without placeholders, and the block resolves.

* `Profile.settles_of`      — profiles.
* `answers_resolveAll`      — formulas for all suspensions.
* `Obligation.Closed`       — what is left to prove about an obligation.
-/

namespace HybridObjects

/-! ## Profiles -/

/-- A profile without placeholders. -/
structure Profile.Closed (p : Profile) : Prop where
  invariant : p.invariant.placeholders = []
  precondition : p.precondition.placeholders = []
  guards : ∀ guard ∈ p.controllerGuards, guard.placeholders = []

theorem PhysicalField.answers_equation (className : String) (f : PhysicalField) :
    Answers (f.equation className) fun _ => True := by
  fun_cases PhysicalField.equation className f with
  | case1 => exact .of_ok trivial
  | case2 own _ e _ => exact .of_error (Error.plain_unsupportedExpr e)
  | case3 => exact .of_error (by rintro id ⟨⟩)

theorem answers_equationsOf (className : String) (fields : List PhysicalField) :
    Answers (equationsOf className fields) fun _ => True := by
  fun_induction equationsOf className fields with
  | case1 => exact .of_ok trivial
  | case2 f fields e he => exact .of_error ((f.answers_equation className).error he)
  | case3 f fields equation _ e he ih => exact .of_error (ih.error he)
  | case4 => exact .of_ok trivial

theorem answers_leadingGuards (methods : List Method) :
    Answers (leadingGuards methods) fun guards => ∀ g ∈ guards, g.2.placeholders = [] := by
  fun_induction leadingGuards methods with
  | case1 => exact .of_ok (by simp)
  | case2 m methods _ ih => exact ih
  | case3 m methods guard _ e _ => exact .of_error (Error.plain_unsupportedExpr e)
  | case4 m methods guard _ f _ e he ih => exact .of_error (ih.error he)
  | case5 m methods guard _ f hf rest hrest ih =>
    refine .of_ok (List.forall_mem_cons.mpr ⟨?_, ih.ok hrest⟩)
    exact (Guard.states_of_toFormula hf).placeholders_eq

theorem Class.answers_controllers (c : Class) :
    Answers c.controllers fun guards => ∀ g ∈ guards, g.2.placeholders = [] := by
  unfold Class.controllers
  split
  · exact answers_leadingGuards _
  · exact .of_ok (by simp)

/-- The profile of a class has no placeholders. -/
theorem Profile.settles_of (model : Model) (c : Class) (requested : Strategy) :
    Settles (Profile.of model c requested) Profile.Closed := by
  unfold Profile.of
  split
  · next physical _ =>
    refine .bind (Logged.settles_lift (answers_equationsOf _ _)) fun equations _ => ?_
    refine .bind (Logged.settles_lift (answers_clauseFormula _ _)) fun invariant hinv => ?_
    refine .bind (Logged.settles_lift (answers_clauseFormula _ _)) fun precondition hpre => ?_
    refine .before (Logged.settles_note _ _ _) ?_
    refine .bind (Logged.settles_lift c.answers_controllers) fun controllers hguards => ?_
    have hguards : ∀ guard ∈ controllers.map Prod.snd, guard.placeholders = [] :=
      List.forall_mem_map.mpr hguards
    have hclosed : ∀ {strategy}, Profile.Closed ⟨model, c, strategy, ⟨equations⟩, invariant,
        precondition, controllers.map Prod.fst, controllers.map Prod.snd⟩ :=
      ⟨hinv.placeholders_eq, hpre.placeholders_eq, hguards⟩
    dsimp only
    split
    · refine .before (Logged.settles_note _ _ _) ?_
      split
      · exact .before (Logged.settles_note _ _ _) (.pure hclosed)
      · exact .pure hclosed
    · split
      · exact .before (Logged.settles_note _ _ _) (.pure hclosed)
      · exact .pure hclosed
  · exact .throw (by rintro id ⟨⟩)

/-! ## Regions -/

namespace Profile

theorem answers_excludedGuards (c : Class) (sigs : List Signature) :
    Answers (excludedGuards c sigs) fun guards => ∀ g ∈ guards, g.placeholders = [] := by
  fun_induction excludedGuards c sigs with
  | case1 => exact .of_ok (by simp)
  | case2 sig sigs cond _ e _ => exact .of_error (Error.plain_unsupportedExpr e)
  | case3 sig sigs cond _ guard _ e he ih => exact .of_error (ih.error he)
  | case4 sig sigs cond _ guard hguard guards hguards ih =>
    refine .of_ok (List.forall_mem_cons.mpr ⟨?_, ih.ok hguards⟩)
    rw [Formula.placeholders]
    exact (Expr.states_of_toFormula hguard).placeholders_eq
  | case5 sig sigs _ ih => exact ih

variable {p : Profile} {extra : Formula}

theorem answers_uniformDomain (hextra : extra.placeholders = []) (calls : CallSet) :
    Answers (p.uniformDomain extra calls) fun domain => domain.placeholders = [] := by
  have hexcluded := answers_excludedGuards p.owner calls.members
  unfold uniformDomain
  split
  · next e he => exact .of_error (hexcluded.error he)
  · next guards hguards =>
    refine .of_ok ?_
    rw [Formula.placeholders_both, Formula.placeholders_conj, hextra, List.append_nil,
      List.flatMap_eq_nil_iff]
    exact hexcluded.ok hguards

theorem Closed.controllerRegion (hp : p.Closed) : p.controllerRegion.placeholders = [] := by
  rw [Profile.controllerRegion, Formula.placeholders_disj, List.flatMap_eq_nil_iff]
  exact hp.guards

theorem Closed.answers_domain (hp : p.Closed) (hextra : extra.placeholders = [])
    (calls : CallSet) : Answers (p.domain extra calls) fun domain => domain.placeholders = [] := by
  have huniform := answers_uniformDomain (p := p) hextra calls
  unfold Profile.domain
  split
  · exact .of_ok (by rw [Formula.placeholders])
  · exact huniform
  · split
    · next e he => exact .of_error (huniform.error he)
    · next domain hdomain =>
      refine .of_ok ?_
      rw [Formula.placeholders_both, huniform.ok hdomain, Formula.placeholders,
        hp.controllerRegion, List.append_nil]

theorem Closed.answers_region (hp : p.Closed) (hextra : extra.placeholders = [])
    (calls : CallSet) :
    Answers (p.region extra calls) fun region => region.placeholders = [] := by
  have hdomain := hp.answers_domain hextra calls
  unfold Profile.region
  split
  · next e he => exact .of_error (hdomain.error he)
  · next domain hok =>
    refine .of_ok ?_
    rw [Program.placeholders_timedEvolution]
    exact hdomain.ok hok

/-- What is said about a suspension has no placeholders if its guard has none. -/
theorem Closed.answers_waiting (hp : p.Closed) {s : Suspension} (hs : s.guard.placeholders = []) :
    Answers (p.waiting p.invariant s) fun f => f.placeholders = [] := by
  have hregion := hp.answers_region hs s.calls
  unfold Profile.waiting
  split
  · next e he => exact .of_error (hregion.error he)
  · next region hok =>
    refine .of_ok ?_
    rw [Formula.placeholders, hregion.ok hok, hp.invariant, List.append_nil]

end Profile

/-! ## Closing programs -/

theorem answers_resolveFrom {answer : Suspension → Except Error Formula} (n : Nat)
    (sus : List Suspension)
    (h : ∀ s ∈ sus, Answers (answer s) fun f => f.placeholders = []) :
    Answers (resolveFrom answer n sus) fun res => ∀ i < sus.length, res.Covers [⟨n + i⟩] := by
  fun_induction resolveFrom answer n sus with
  | case1 n => exact .of_ok (by simp)
  | case2 n s rest e he => exact .of_error ((h s (by simp)).error he)
  | case3 n s rest f _ e he ih =>
    exact .of_error ((ih fun s hs => h s (List.mem_cons_of_mem _ hs)).error he)
  | case4 n s rest f hf res hres ih =>
    have hrest := (ih fun s hs => h s (List.mem_cons_of_mem _ hs)).ok hres
    refine .of_ok ?_
    intro i hi id hid
    obtain rfl := List.mem_singleton.mp hid
    -- the first suspension has the number `n`; the others are looked up behind it
    cases i with
    | zero => exact ⟨f, List.lookup_cons_self, (h s (by simp)).ok hf⟩
    | succ i =>
      have hnext : n + 1 + i = n + (i + 1) := by omega
      obtain ⟨g, hg, hclosed⟩ := hrest i (by simpa using hi) ⟨n + 1 + i⟩ (by simp)
      rw [hnext] at hg
      have hne : (⟨n + (i + 1)⟩ : Placeholder) ≠ ⟨n⟩ := by simp
      exact ⟨g, by rw [List.lookup_cons, beq_false_of_ne hne]; exact hg, hclosed⟩

/-- Every suspension gets a formula, so all placeholders of the program are covered. -/
theorem answers_resolveAll {answer : Suspension → Except Error Formula} {program : Program}
    {sus : List Suspension} (hrefers : RefersTo program 0 sus)
    (h : ∀ s ∈ sus, Answers (answer s) fun f => f.placeholders = []) :
    Answers (resolveAll answer sus) fun res => res.Covers program.placeholders := by
  refine (answers_resolveFrom 0 sus h).imp fun res hres id hid => ?_
  have hlt := hrefers.index_lt id hid
  rw [Nat.zero_add] at hlt
  have hcovers := hres id.index hlt
  rw [Nat.zero_add] at hcovers
  exact hcovers id (by simp)

theorem Program.answers_close {p : Program} {res : Resolution} (h : res.Covers p.placeholders) :
    Answers (p.close res) fun q => q.placeholders = [] := by
  obtain ⟨q, hq, hclosed⟩ := Program.resolve_of_covers h
  rw [Program.close, hq]
  exact .of_ok hclosed

/-- Lowering a block of a scope without placeholders leaves only those of its suspensions. -/
theorem Scope.settles_lower {scope : Scope} (hinv : scope.invariant.placeholders = [])
    (b : Block) : Settles (scope.lower b) fun r => RefersTo r.1.program 0 r.2 where
  ok := by
    intro log r log' h
    obtain ⟨ps, hlow, hprog⟩ := lower_eq_ok h
    rw [hprog]
    exact hlow.refersTo hinv
  error := by
    intro log e log' h
    unfold Scope.lower at h
    split at h
    · cases h
    · next e₁ st hlower =>
      cases h
      exact (scope.settles_lowerStmts b .empty .skip).error hlower

/-! ## Obligations -/

/-- The problem of an obligation, if it has one, has no placeholders, is valid and has a text. -/
def Obligation.Closed (o : Obligation) : Prop :=
  ∀ problem, o.problem = some problem →
    problem.statement.placeholders = [] ∧
      (∀ predicate ∈ problem.predicates, predicate.2.placeholders = []) ∧
      problem.validate = .ok () ∧ ∃ text, problem.text = .ok text

theorem Obligation.closed_none (group name : String) : Obligation.Closed ⟨group, name, none⟩ := by
  intro problem h
  cases h

theorem Obligation.closed_some {group name : String} {problem : Problem}
    (hstatement : problem.statement.placeholders = [])
    (hpredicates : ∀ predicate ∈ problem.predicates, predicate.2.placeholders = []) :
    Obligation.Closed ⟨group, name, some problem⟩ := by
  intro problem' h
  cases h
  have hvalid : problem.validate = .ok () := by
    rw [Problem.validate, Problem.placeholders, hstatement,
      List.flatMap_eq_nil_iff.mpr hpredicates]
    rfl
  exact ⟨hstatement, hpredicates, hvalid, _, by rw [Problem.text, hvalid]⟩

theorem placeholders_definePredicate (name : String) (body : Formula) (parameters : List String) :
    (definePredicate name body parameters).2.placeholders = body.placeholders :=
  Formula.placeholders_renamePrimes parameters body

theorem answers_tacticOf (annotations : List Annotation) :
    Answers (tacticOf annotations) fun _ => True := by
  unfold tacticOf
  split
  · next e he => exact .of_error ((answers_clauseOf .tactic .last annotations).error he)
  · exact .of_ok trivial

theorem Method.answers_entry (m : Method) : Answers m.entry fun f => f.placeholders = [] := by
  unfold Method.entry
  split
  · exact .of_ok (by rw [Formula.placeholders])
  · split
    · next f hf => exact .of_ok (Guard.states_of_toFormula hf).placeholders_eq
    · exact .of_error (Error.plain_unsupportedExpr _)

namespace Profile

theorem answers_declaredClause (p : Profile) (m : Method) (clause : Clause) :
    Answers (p.declaredClause m clause) fun found => (found.getD .verum).Verbatim := by
  unfold declaredClause
  split
  · exact .of_ok .verum
  · next declared _ =>
    split
    · next e he => exact .of_error ((answers_clauseOf clause .conjoin _).error he)
    · exact .of_ok .verum
    · exact .of_ok (.raw _)

theorem answers_clauseOf (p : Profile) (m : Method) (clause : Clause) :
    Answers (p.clauseOf m clause) fun f => f.Verbatim := by
  have hdeclared := p.answers_declaredClause m clause
  unfold Profile.clauseOf
  split
  · next e he => exact .of_error (hdeclared.error he)
  · next f hf => exact .of_ok (hdeclared.ok hf)
  · exact answers_clauseFormula clause m.annotations

theorem answers_initialValues (fields : List (String × Expr)) :
    Answers (initialValues fields) fun equations => ∀ f ∈ equations, f.placeholders = [] := by
  fun_induction initialValues fields with
  | case1 => exact .of_ok (by simp)
  | case2 name value rest e _ => exact .of_error (Error.plain_unsupportedExpr e)
  | case3 name value rest term _ e he ih => exact .of_error (ih.error he)
  | case4 name value rest term _ equations hequations ih =>
    exact .of_ok (List.forall_mem_cons.mpr ⟨by rw [Formula.placeholders], ih.ok hequations⟩)

variable {p : Profile} (hp : p.Closed)
include hp

/-- Programs of the class resolve by what is said about their suspensions. -/
theorem Closed.answers_resolutions {program : Program} {sus : List Suspension}
    (hrefers : RefersTo program 0 sus) :
    Answers (p.resolutions sus) fun res => res.Covers program.placeholders :=
  answers_resolveAll hrefers fun s hs => hp.answers_waiting (hrefers.guard_closed s hs)

theorem Closed.answers_contractProblem {pre post : Formula} {program : Program}
    (hpre : pre.placeholders = []) (hpost : post.placeholders = [])
    (hprogram : program.placeholders = []) (parameters : List String) (tail : CallSet)
    (tactic : String) (group name : String) :
    Answers (p.contractProblem parameters pre post program tail tactic)
      fun problem => Obligation.Closed ⟨group, name, some problem⟩ := by
  have hverum : Formula.verum.placeholders = [] := by rw [Formula.placeholders]
  have hregion := hp.answers_region hverum tail
  unfold contractProblem
  split
  · next e he => exact .of_error (hregion.error he)
  · next region hok =>
    refine .of_ok (Obligation.closed_some ?_ ?_)
    · simp [applyPredicate, hprogram, hregion.ok hok, hp.invariant]
    · simp [placeholders_definePredicate, hpre, hpost]

theorem Closed.methodPrecondition {requires : Formula} (h : requires.placeholders = []) :
    (p.methodPrecondition requires).placeholders = [] := by
  rw [Profile.methodPrecondition, Formula.placeholders_conj]
  simp [Formula.varEq, hp.invariant, h]

theorem Closed.settles_methodProgram (m : Method) :
    Settles (p.methodProgram m) fun r => r.1.placeholders = [] := by
  refine .bind (Scope.settles_lower hp.invariant _) fun ⟨lowered, sus⟩ hrefers => ?_
  refine .bind (Logged.settles_lift m.answers_entry) fun entry hentry => ?_
  have hprogram : RefersTo (.andThen (.test entry) lowered.program) 0 sus := by
    refine hrefers.congr ?_
    rw [Program.placeholders_andThen, Program.placeholders, hentry, List.nil_append]
  refine .bind (Logged.settles_lift (hp.answers_resolutions hprogram)) fun res hcovers => ?_
  exact .bind (Logged.settles_lift (Program.answers_close hcovers)) fun program hclosed =>
    .pure hclosed

/-- Every obligation of a method is closed. -/
theorem Closed.settles_methodObligation (m : Method) :
    Settles (p.methodObligation m) Obligation.Closed := by
  refine .bind (Logged.settles_lift (p.answers_clauseOf m .ensures)) fun ensures hensures => ?_
  split
  · exact .before (Logged.settles_note _ _ _) (.pure (Obligation.closed_none _ _))
  · refine .bind (Logged.settles_lift (p.answers_clauseOf m .requires)) fun requires hreq => ?_
    refine .bind (hp.settles_methodProgram m) fun ⟨program, tail, resolved⟩ hprogram => ?_
    refine .before (Logged.settles_note _ _ _) ?_
    refine .bind (Logged.settles_lift (answers_tacticOf _)) fun tactic _ => ?_
    have hpost : (Formula.conj [.varEq contractVar "1", p.invariant, ensures]).placeholders =
        [] := by
      rw [Formula.placeholders_conj]
      simp [Formula.varEq, hp.invariant, hensures.placeholders_eq]
    have hproblem := hp.answers_contractProblem (hp.methodPrecondition hreq.placeholders_eq) hpost hprogram
      (p.methodParameters m) tail tactic p.owner.name m.sig.name
    exact .bind (Logged.settles_lift hproblem) fun problem hclosed => .pure hclosed

theorem Closed.settles_initObligation : Settles p.initObligation Obligation.Closed := by
  refine .bind (Logged.settles_lift (answers_initialValues _)) fun initial hinitial => ?_
  refine .bind (Scope.settles_lower hp.invariant _) fun ⟨lowered, sus⟩ hrefers => ?_
  refine .bind (Logged.settles_lift (hp.answers_resolutions hrefers)) fun res hcovers => ?_
  refine .bind (Logged.settles_lift (Program.answers_close hcovers)) fun program hprogram => ?_
  refine .bind (Logged.settles_lift (answers_tacticOf _)) fun tactic _ => ?_
  have hpre : (Formula.conj (.varEq contractVar "1" :: initial ++ [p.precondition])).placeholders =
      [] := by
    rw [Formula.placeholders_conj, List.flatMap_eq_nil_iff]
    simpa [Formula.varEq, hp.precondition, or_imp, forall_and] using hinitial
  have hpost : (Formula.varEq contractVar "1").placeholders = [] := by
    rw [Formula.varEq, Formula.placeholders]
  exact .bind (Logged.settles_lift (hp.answers_contractProblem hpre hpost hprogram _ _ tactic _ _))
    fun problem hclosed => .pure hclosed

/-- The obligation of a controller is closed. -/
theorem Closed.settles_zenoObligation (m : Method) :
    Settles (p.zenoObligation m) Obligation.Closed := by
  refine .bind (Logged.settles_lift (p.answers_clauseOf m .requires)) fun requires hreq => ?_
  refine .bind (hp.settles_methodProgram m) fun ⟨program, tail, resolved⟩ hprogram => ?_
  refine .bind (Logged.settles_lift (answers_tacticOf _)) fun tactic _ => ?_
  refine .pure (Obligation.closed_some ?_ ?_)
  · simp [applyPredicate, hprogram, hp.controllerRegion]
  · simp [placeholders_definePredicate, hp.methodPrecondition hreq.placeholders_eq]

theorem Closed.settles_checkMethods (methods : List Method) :
    Settles (p.checkMethods methods) fun check => ∀ o ∈ check.obligations, o.Closed := by
  induction methods with
  | nil => exact .pure (by simp)
  | cons m methods ih =>
    unfold checkMethods
    split
    · refine .bind (hp.settles_zenoObligation m) fun obligation hobligation => ?_
      exact .bind ih fun rest hrest => .pure (List.forall_mem_cons.mpr ⟨hobligation, hrest⟩)
    · split
      · refine .before (Logged.settles_note _ _ _) ?_
        exact .bind ih fun rest hrest => .pure hrest
      · exact ih

theorem Closed.settles_zenoCheck :
    Settles p.zenoCheck fun check => ∀ o ∈ check.obligations, o.Closed := by
  unfold zenoCheck
  split
  · exact .before (Logged.settles_note _ _ _) (.pure (by simp))
  · exact hp.settles_checkMethods _

end Profile

/-- The obligation of the main block is closed: waiting there is no matter of regions. -/
theorem Model.settles_mainObligation (m : Model) :
    Settles m.mainObligation Obligation.Closed := by
  have hverum : Formula.verum.placeholders = [] := by rw [Formula.placeholders]
  unfold Model.mainObligation
  split
  · refine .bind (Scope.settles_lower hverum _) fun ⟨lowered, sus⟩ hrefers => ?_
    have hcovers := answers_resolveAll hrefers fun s _ => .of_ok hverum
    refine .bind (Logged.settles_lift hcovers) fun res hcovers => ?_
    refine .bind (Logged.settles_lift (Program.answers_close hcovers)) fun program hprogram => ?_
    refine .pure (Obligation.closed_some ?_ ?_)
    · simp [Formula.varEq, hprogram]
    · simp
  · exact .throw (by rintro id ⟨⟩)

/-- No obligation that is generated for a class or for the main block has placeholders left, and no
generation fails because a placeholder has no formula. -/
theorem settles_obligations (model : Model) (c : Class) (strategy : Strategy) (m : Method) :
    Settles (Profile.of model c strategy >>= fun p => p.methodObligation m) Obligation.Closed ∧
      Settles (Profile.of model c strategy >>= fun p => p.initObligation) Obligation.Closed ∧
      Settles (Profile.of model c strategy >>= fun p => p.zenoCheck)
        (fun check => ∀ o ∈ check.obligations, o.Closed) ∧
      Settles model.mainObligation Obligation.Closed := by
  have hprofile := Profile.settles_of model c strategy
  exact ⟨.bind hprofile fun p hp => hp.settles_methodObligation m,
    .bind hprofile fun p hp => hp.settles_initObligation,
    .bind hprofile fun p hp => hp.settles_zenoCheck, model.settles_mainObligation⟩

end HybridObjects
