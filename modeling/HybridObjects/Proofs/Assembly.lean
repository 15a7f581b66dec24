import HybridObjects.Obligation.Progress
import HybridObjects.Proofs.Lowers
import Mathlib.Data.List.Forall2

/-!
# HybridObjects.Proofs.Assembly

What profiles and obligations are made of. Every step of the generation is inverted once, so that
facts about obligations are proved from their parts: the clauses of the model, the lowered code with
its placeholders resolved, and the regions.

* `Profile.IsOf`       — the parts of a profile, `Profile.isOf_of` finds them.
* `Class.Guards`       — the leading guards of the methods that pending calls will run; regions
  exclude them.
* `Scope.Compiles`     — a block lowered and resolved, behind an opening program.
* `Profile.methodObligation_eq_ok`, `Profile.initObligation_eq_ok`, `Profile.zenoObligation_eq_ok`,
  `Model.mainObligation_eq_ok` — the parts of the four kinds of obligations.
* `Profile.checkMethods_classifies` — what one pass over the methods of a class finds.
-/

namespace HybridObjects

/-! ## Profiles -/

/-- The parts of the profile of a class. -/
structure Profile.IsOf (p : Profile) (model : Model) (c : Class) (requested : Strategy) : Prop where
  model_eq : p.model = model
  owner_eq : p.owner = c
  equations : equationsOf c.name c.physicalFields = .ok p.ode.equations
  invariant : ∃ physical, c.physical = some physical ∧
    clauseFormula .objInv physical.annotations = .ok p.invariant
  precondition : clauseFormula .requires c.annotations = .ok p.precondition
  control : ∃ controllers, c.controllers = .ok controllers ∧
    p.controllers = controllers.map Prod.fst ∧ p.controllerGuards = controllers.map Prod.snd ∧
    p.strategy = effective requested c.isControllable p.controllers

theorem Logged.note_bind_eq_ok {α : Type} {level : Level} {component : Component} {text : String}
    {x : Logged α} {a : α} {log log' : Log}
    (h : (Logged.note level component text >>= fun _ => x) log = .ok a log') :
    ∃ log₁, x log₁ = .ok a log' := by
  obtain ⟨_, log₁, -, h⟩ := bind_eq_ok.mp h
  exact ⟨log₁, h⟩

theorem Logged.noteIf_eq_ok {α : Type} {P : Prop} [Decidable P] {level : Level}
    {component : Component} {text : String} {a b : α} {log log' : Log}
    (h : (if P then Logged.note level component text >>= fun _ => pure a else pure a) log =
      .ok b log') : b = a := by
  split at h
  · obtain ⟨_, h⟩ := Logged.note_bind_eq_ok h
    exact (pure_eq_ok.mp h).1.symm
  · exact (pure_eq_ok.mp h).1.symm

theorem Profile.isOf_of {model : Model} {c : Class} {requested : Strategy} {p : Profile}
    {log log' : Log} (h : Profile.of model c requested log = .ok p log') :
    p.IsOf model c requested := by
  cases hphysical : c.physical with
  | none =>
    rw [Profile.of, hphysical] at h
    exact absurd h throw_ne_ok
  | some physical =>
    rw [Profile.of, hphysical] at h
    simp only [bind_eq_ok, Logged.lift_eq_ok] at h
    obtain ⟨equations, _, ⟨hequations, -⟩, invariant, _, ⟨hinv, -⟩, precondition, _, ⟨hpre, -⟩,
      _, _, -, controllers, _, ⟨hcontrollers, -⟩, h⟩ := h
    have hparts : ∀ {q : Profile},
        q = ⟨model, c, effective requested c.isControllable (controllers.map Prod.fst), ⟨equations⟩,
          invariant, precondition, controllers.map Prod.fst, controllers.map Prod.snd⟩ →
        q.IsOf model c requested := by
      rintro q rfl
      refine ⟨rfl, rfl, ?_, ⟨physical, hphysical, hinv⟩, hpre,
        ⟨controllers, hcontrollers, rfl, rfl, rfl⟩⟩
      rwa [Class.physicalFields, hphysical]
    -- the notes only write to the log
    cases hnote : fallbackNote c.name requested c.isControllable (controllers.map Prod.fst) with
    | none =>
      rw [hnote] at h
      exact hparts (Logged.noteIf_eq_ok h)
    | some text =>
      rw [hnote] at h
      obtain ⟨_, h⟩ := Logged.note_bind_eq_ok h
      exact hparts (Logged.noteIf_eq_ok h)

/-! ## Regions -/

/-- The methods that wait for their leading guard, act, and call themselves again. -/
def Class.controllerMethods (c : Class) : List Method :=
  c.methods.filter fun m => m.isController c.reachableFromInit

/-- The formula is the continuous leading guard of the method that one of the signatures calls. -/
def Class.Guards (c : Class) (sigs : List Signature) (f : Formula) : Prop :=
  ∃ sig ∈ sigs, ∃ m cond, c.methodBySig? sig = some m ∧
    m.leadingGuard = some (.differential cond) ∧ cond.toFormula = .ok f

theorem Class.guards_cons {c : Class} {sig : Signature} {sigs : List Signature} {f : Formula} :
    c.Guards (sig :: sigs) f ↔
      (∃ m cond, c.methodBySig? sig = some m ∧ m.leadingGuard = some (.differential cond) ∧
        cond.toFormula = .ok f) ∨ c.Guards sigs f := by
  simp [Guards]

namespace Profile

/-- The formulas excluded are the negated leading guards of the methods called. -/
theorem mem_excludedGuards_iff {c : Class} {sigs : List Signature} {guards : List Formula}
    (h : excludedGuards c sigs = .ok guards) {g : Formula} :
    g ∈ guards ↔ ∃ f, c.Guards sigs f ∧ g = .not f := by
  fun_induction excludedGuards c sigs generalizing guards with
  | case1 =>
    cases h
    simp [Class.Guards]
  | case2 | case3 => cases h
  | case4 sig sigs cond hlead guard hguard rest hrest ih =>
    cases h
    obtain ⟨m, hm, hlead⟩ := Option.bind_eq_some_iff.mp hlead
    have hfirst : ∀ f, (∃ m cond, c.methodBySig? sig = some m ∧
        m.leadingGuard = some (.differential cond) ∧ cond.toFormula = .ok f) ↔ f = guard := by
      intro f
      constructor
      · rintro ⟨m', cond', hm', hlead', hf⟩
        rw [hm] at hm'
        cases hm'
        rw [hlead] at hlead'
        cases hlead'
        rw [hguard] at hf
        cases hf
        rfl
      · rintro rfl
        exact ⟨m, cond, hm, hlead, hguard⟩
    rw [List.mem_cons, ih hrest]
    simp only [Class.guards_cons, hfirst, or_and_right, exists_or, exists_eq_left]
  | case5 sig sigs hnone ih =>
    -- without a continuous leading guard the call excludes nothing
    have hfirst : ∀ f, ¬ ∃ m cond, c.methodBySig? sig = some m ∧
        m.leadingGuard = some (.differential cond) ∧ cond.toFormula = .ok f := by
      rintro f ⟨m, cond, hm, hlead, -⟩
      exact hnone cond (Option.bind_eq_some_iff.mpr ⟨m, hm, hlead⟩)
    rw [ih h]
    simp only [Class.guards_cons, hfirst, false_or]

variable {p : Profile}

/-- What the domain of a continuous step is made of. -/
theorem domain_eq_ok {extra domain : Formula} {calls : CallSet}
    (h : p.domain extra calls = .ok domain) :
    (p.strategy = .basic ∧ domain = .verum) ∨
      ∃ guards, excludedGuards p.owner calls.members = .ok guards ∧
        (p.strategy = .uniform ∧ domain = (Formula.conj guards).both extra ∨
          p.strategy = .controlled ∧
            domain = ((Formula.conj guards).both extra).both (.not p.controllerRegion)) := by
  unfold Profile.domain uniformDomain at h
  cases hstrategy : p.strategy with
  | basic =>
    rw [hstrategy] at h
    cases h
    exact .inl ⟨rfl, rfl⟩
  | uniform =>
    rw [hstrategy] at h
    cases hguards : excludedGuards p.owner calls.members with
    | error e => rw [hguards] at h; cases h
    | ok guards =>
      rw [hguards] at h
      cases h
      exact .inr ⟨guards, rfl, .inl ⟨rfl, rfl⟩⟩
  | controlled =>
    rw [hstrategy] at h
    cases hguards : excludedGuards p.owner calls.members with
    | error e => rw [hguards] at h; cases h
    | ok guards =>
      rw [hguards] at h
      cases h
      exact .inr ⟨guards, rfl, .inr ⟨rfl, rfl⟩⟩

theorem region_eq_ok {extra : Formula} {calls : CallSet} {region : Program}
    (h : p.region extra calls = .ok region) :
    ∃ domain, p.domain extra calls = .ok domain ∧ region = .timedEvolution p.ode domain := by
  unfold Profile.region at h
  split at h
  · cases h
  · next domain hdomain =>
    cases h
    exact ⟨domain, hdomain, rfl⟩

theorem waiting_eq_ok {invariant answer : Formula} {entry : Suspension}
    (h : p.waiting invariant entry = .ok answer) :
    ∃ domain, p.domain entry.guard entry.calls = .ok domain ∧
      answer = .box (.timedEvolution p.ode domain) invariant := by
  unfold waiting at h
  split at h
  · cases h
  · next region hregion =>
    cases h
    obtain ⟨domain, hdomain, rfl⟩ := region_eq_ok hregion
    exact ⟨domain, hdomain, rfl⟩

end Profile

/-! ## Code -/

/-- A block is lowered, put behind an opening program, and its placeholders are resolved by what is
said about its suspensions. -/
def Scope.Compiles (scope : Scope) (answer : Suspension → Except Error Formula) (front : Program)
    (b : Block) (program : Program) (calls : CallSet) : Prop :=
  ∃ ps sus res, Lowers scope b .empty 0 ps calls sus ∧ resolveAll answer sus = .ok res ∧
    (front.andThen (.sequence ps)).resolve res = .ok program

theorem Scope.lower_eq_ok {scope : Scope} {b : Block} {log log' : Log}
    {r : Lowered × List Suspension} (h : scope.lower b log = .ok r log') :
    ∃ ps, Lowers scope b .empty 0 ps r.1.calls r.2 ∧ r.1.program = .sequence ps := by
  unfold Scope.lower at h
  split at h
  · next lowered state hlower =>
    cases h
    obtain ⟨ps, sus, hlow, hprogram, hstate⟩ := lowers_of_lowerBlock hlower
    rw [List.nil_append] at hstate
    rw [hstate]
    exact ⟨ps, hlow, hprogram⟩
  · cases h

theorem Program.close_eq_ok {p q : Program} {res : Resolution} (h : p.close res = .ok q) :
    p.resolve res = .ok q := by
  unfold Program.close at h
  split at h
  · next hq =>
    cases h
    exact hq
  · cases h

namespace Profile

variable {p : Profile} {m : Method} {log log' : Log}

theorem methodProgram_eq_ok {r : Program × CallSet × Nat}
    (h : p.methodProgram m log = .ok r log') :
    ∃ entry, m.entry = .ok entry ∧
      p.scope.Compiles (p.waiting p.invariant) (.test entry) m.afterGuard r.1 r.2.1 := by
  simp only [methodProgram, bind_eq_ok, Logged.lift_eq_ok, pure_eq_ok] at h
  obtain ⟨⟨lowered, sus⟩, _, hlower, entry, _, ⟨hentry, -⟩, res, _, ⟨hres, -⟩, program, _,
    ⟨hclose, -⟩, rfl, -⟩ := h
  obtain ⟨ps, hlow, hprogram⟩ := Scope.lower_eq_ok hlower
  dsimp only at hlow hprogram hclose
  rw [hprogram] at hclose
  exact ⟨entry, hentry, ps, sus, res, hlow, hres, Program.close_eq_ok hclose⟩

/-! ## Obligations -/

theorem contractProblem_eq_ok {parameters : List String} {pre post : Formula} {program : Program}
    {tail : CallSet} {tactic : String} {problem : Problem}
    (h : p.contractProblem parameters pre post program tail tactic = .ok problem) :
    ∃ region, p.region .verum tail = .ok region ∧
      problem =
        { parameters := parameters
          predicates :=
            [definePredicate "pre" pre parameters, definePredicate "post" post parameters]
          declared := parameters
          statement := .implies (applyPredicate parameters "pre")
            (.box program ((applyPredicate parameters "post").both (.box region p.invariant)))
          tactic := tactic } := by
  unfold contractProblem at h
  split at h
  · cases h
  · next region hregion =>
    cases h
    exact ⟨region, hregion, rfl⟩

/-- The parts of the obligation of a method, which is left out if it is trivial. -/
theorem methodObligation_cases {o : Obligation} (h : p.methodObligation m log = .ok o log') :
    ∃ ensures, p.clauseOf m .ensures = .ok ensures ∧
      (isTrivial m.body ensures = true ∧ o = ⟨p.owner.name, m.sig.name, none⟩ ∨
        ∃ requires entry program calls tactic problem,
          p.clauseOf m .requires = .ok requires ∧ m.entry = .ok entry ∧
            p.scope.Compiles (p.waiting p.invariant) (.test entry) m.afterGuard program calls ∧
            p.contractProblem (p.methodParameters m) (p.methodPrecondition requires)
              (.conj [.varEq contractVar "1", p.invariant, ensures]) program calls tactic =
                .ok problem ∧
            o = ⟨p.owner.name, m.sig.name, some problem⟩) := by
  obtain ⟨ensures, _, hensures, h⟩ := bind_eq_ok.mp h
  obtain ⟨hensures, -⟩ := Logged.lift_eq_ok.mp hensures
  refine ⟨ensures, hensures, ?_⟩
  split at h
  · next htrivial =>
    obtain ⟨_, h⟩ := Logged.note_bind_eq_ok h
    obtain ⟨rfl, -⟩ := pure_eq_ok.mp h
    exact .inl ⟨htrivial, rfl⟩
  · simp only [bind_eq_ok, Logged.lift_eq_ok, pure_eq_ok] at h
    obtain ⟨requires, _, ⟨hrequires, -⟩, r, _, hprogram, _, _, -, tactic, _, -, problem, _,
      ⟨hproblem, -⟩, rfl, -⟩ := h
    obtain ⟨entry, hentry, hcompiles⟩ := methodProgram_eq_ok hprogram
    exact .inr ⟨requires, entry, r.1, r.2.1, tactic, problem, hrequires, hentry, hcompiles,
      hproblem, rfl⟩

/-- The parts of the obligation of a method that is not left out. -/
theorem methodObligation_eq_ok {o : Obligation} {problem : Problem}
    (h : p.methodObligation m log = .ok o log') (hproblem : o.problem = some problem) :
    ∃ requires ensures entry program calls tactic,
      p.clauseOf m .requires = .ok requires ∧ p.clauseOf m .ensures = .ok ensures ∧
        m.entry = .ok entry ∧
        p.scope.Compiles (p.waiting p.invariant) (.test entry) m.afterGuard program calls ∧
        p.contractProblem (p.methodParameters m) (p.methodPrecondition requires)
          (.conj [.varEq contractVar "1", p.invariant, ensures]) program calls tactic =
            .ok problem := by
  obtain ⟨ensures, hensures, ⟨-, rfl⟩ | ⟨requires, entry, program, calls, tactic, _, hrequires,
    hentry, hcompiles, hfound, rfl⟩⟩ := methodObligation_cases h
  · cases hproblem
  · cases hproblem
    exact ⟨requires, ensures, entry, program, calls, tactic, hrequires, hensures, hentry,
      hcompiles, hfound⟩

/-- The calls pending after the initializer: its own, and the call of `run`. -/
def pendingAfterInit (c : Class) (calls : CallSet) : CallSet :=
  match c.runMethod? with
  | some run => calls.insert run.sig
  | none => calls

/-- The parts of the obligation of the initializer. -/
theorem initObligation_eq_ok {o : Obligation} (h : p.initObligation log = .ok o log') :
    ∃ initial program calls tactic problem,
      initialValues (initializedFields p.owner) = .ok initial ∧
        p.scope.Compiles (p.waiting p.invariant) .skip (p.owner.init.getD []) program calls ∧
        p.contractProblem
          (programVariables (p.owner.fieldNames ++ Block.localNames (p.owner.init.getD [])))
          (.conj (.varEq contractVar "1" :: initial ++ [p.precondition])) (.varEq contractVar "1")
          program (pendingAfterInit p.owner calls) tactic = .ok problem ∧
        o = ⟨p.owner.name, "init", some problem⟩ := by
  simp only [initObligation, bind_eq_ok, Logged.lift_eq_ok, pure_eq_ok] at h
  obtain ⟨initial, _, ⟨hinitial, -⟩, ⟨lowered, sus⟩, _, hlower, res, _, ⟨hres, -⟩, program, _,
    ⟨hclose, -⟩, tactic, _, -, problem, _, ⟨hproblem, -⟩, rfl, -⟩ := h
  obtain ⟨ps, hlow, hprogram⟩ := Scope.lower_eq_ok hlower
  dsimp only at hlow hprogram hclose hproblem
  rw [hprogram] at hclose
  exact ⟨initial, program, lowered.calls, tactic, problem, hinitial,
    ⟨ps, sus, res, hlow, hres, Program.close_eq_ok hclose⟩, hproblem, rfl⟩

/-- The parts of the obligation of a controller. -/
theorem zenoObligation_eq_ok {o : Obligation} (h : p.zenoObligation m log = .ok o log') :
    ∃ requires entry program calls tactic,
      p.clauseOf m .requires = .ok requires ∧ m.entry = .ok entry ∧
        p.scope.Compiles (p.waiting p.invariant) (.test entry) m.afterGuard program calls ∧
        o = ⟨p.owner.name, "zeno_" ++ m.sig.name, some
          { parameters := p.methodParameters m
            predicates :=
              [definePredicate "pre" (p.methodPrecondition requires) (p.methodParameters m)]
            declared := p.methodParameters m ++ [zenoVar]
            statement := .implies (applyPredicate (p.methodParameters m) "pre")
              (.exist zenoVar ((Formula.cmp .gt (.var zenoVar) (.num "0")).both
                (.box (program.andThen
                  (.timedEvolution p.ode (.cmp .le (.var clockVar) (.var zenoVar))))
                  (.not p.controllerRegion))))
            tactic := tactic }⟩ := by
  simp only [zenoObligation, bind_eq_ok, Logged.lift_eq_ok, pure_eq_ok] at h
  obtain ⟨requires, _, ⟨hrequires, -⟩, r, _, hprogram, tactic, _, -, rfl, -⟩ := h
  obtain ⟨entry, hentry, hcompiles⟩ := methodProgram_eq_ok hprogram
  exact ⟨requires, entry, r.1, r.2.1, tactic, hrequires, hentry, hcompiles, rfl⟩

/-- One pass makes an obligation for each controller and notes each other method that changes the
state. -/
theorem checkMethods_classifies {methods : List Method} {check : ZenoCheck}
    (h : p.checkMethods methods log = .ok check log') :
    List.Forall₂ (fun m o => ∃ log₁ log₂, p.zenoObligation m log₁ = .ok o log₂)
        (methods.filter fun m => p.isController m.sig) check.obligations ∧
      check.violations =
        (methods.filter fun m => !p.isController m.sig && Block.changesState m.body).map
          fun m => m.sig.name := by
  induction methods generalizing check log log' with
  | nil =>
    obtain ⟨rfl, -⟩ := pure_eq_ok.mp h
    exact ⟨.nil, rfl⟩
  | cons m methods ih =>
    unfold checkMethods at h
    split at h
    · next hcontroller =>
      simp only [bind_eq_ok, pure_eq_ok] at h
      obtain ⟨o, log₁, ho, rest, _, hrest, rfl, rfl⟩ := h
      obtain ⟨hobligations, hviolations⟩ := ih hrest
      simp only [List.filter_cons, hcontroller, if_true, Bool.not_true, Bool.false_and,
        Bool.false_eq_true, if_false]
      exact ⟨.cons ⟨log, log₁, ho⟩ hobligations, hviolations⟩
    · next hcontroller =>
      rw [Bool.not_eq_true] at hcontroller
      split at h
      · next hchanges =>
        obtain ⟨_, h⟩ := Logged.note_bind_eq_ok h
        simp only [bind_eq_ok, pure_eq_ok] at h
        obtain ⟨rest, _, hrest, rfl, rfl⟩ := h
        obtain ⟨hobligations, hviolations⟩ := ih hrest
        simp only [List.filter_cons, hcontroller, hchanges, Bool.not_false, Bool.and_self, if_true,
          Bool.false_eq_true, if_false, List.map_cons]
        exact ⟨hobligations, by rw [hviolations]⟩
      · next hchanges =>
        simp only [List.filter_cons, hcontroller, hchanges, Bool.and_false, Bool.false_eq_true,
          if_false]
        exact ih h

/-- The obligations of a check are those of the controllers, one for each. -/
theorem zenoCheck_eq_ok {check : ZenoCheck} (h : p.zenoCheck log = .ok check log') :
    List.Forall₂ (fun m o => ∃ log₁ log₂, p.zenoObligation m log₁ = .ok o log₂)
      (p.owner.methods.filter fun m => p.isController m.sig) check.obligations := by
  unfold zenoCheck at h
  split at h
  · next hnone =>
    obtain ⟨_, h⟩ := Logged.note_bind_eq_ok h
    obtain ⟨rfl, -⟩ := pure_eq_ok.mp h
    simp [isController, List.isEmpty_iff.mp hnone]
  · exact (checkMethods_classifies h).1

theorem zenoObligation_of_mem {check : ZenoCheck} (h : p.zenoCheck log = .ok check log')
    {o : Obligation} (ho : o ∈ check.obligations) :
    ∃ m log₁ log₂, p.zenoObligation m log₁ = .ok o log₂ := by
  obtain ⟨i, hi, rfl⟩ := List.mem_iff_getElem.mp ho
  have heach := zenoCheck_eq_ok h
  exact ⟨_, heach.get (heach.length_eq ▸ hi) hi⟩

end Profile

/-- The main block: it stands outside of all classes. -/
def Model.mainScope (m : Model) : Scope :=
  ⟨m, none, .verum, [resultVar, clockVar]⟩

/-- The parts of the obligation of the main block. -/
theorem Model.mainObligation_eq_ok {m : Model} {o : Obligation} {log log' : Log}
    (h : m.mainObligation log = .ok o log') :
    ∃ body program calls, m.mainBlock? = some body ∧
      m.mainScope.Compiles (fun _ => .ok .verum) .skip body program calls ∧
      o = ⟨"main", "main", some
        { parameters := []
          predicates := []
          declared := programVariables body.localNames
          statement := .implies (.varEq contractVar "1") (.box program (.varEq contractVar "1"))
          tactic := defaultTactic }⟩ := by
  cases hbody : m.mainBlock? with
  | none =>
    rw [Model.mainObligation, hbody] at h
    exact absurd h throw_ne_ok
  | some body =>
    rw [Model.mainObligation, hbody] at h
    simp only [bind_eq_ok, Logged.lift_eq_ok, pure_eq_ok] at h
    obtain ⟨⟨lowered, sus⟩, _, hlower, res, _, ⟨hres, -⟩, program, _, ⟨hclose, -⟩, rfl, -⟩ := h
    obtain ⟨ps, hlow, hprogram⟩ := Scope.lower_eq_ok hlower
    dsimp only at hlow hprogram hclose
    rw [hprogram] at hclose
    exact ⟨body, program, lowered.calls, rfl,
      ⟨ps, sus, res, hlow, hres, Program.close_eq_ok hclose⟩, rfl⟩

end HybridObjects
