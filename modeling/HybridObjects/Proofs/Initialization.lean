import Mathlib.Tactic.NormNum
import HybridObjects.Proofs.Assembly
import HybridObjects.Proofs.EntryStates
import HybridObjects.Proofs.Regions

/-!
# HybridObjects.Proofs.Initialization

What the obligation of an initializer establishes. Its postcondition is the contract alone; the
invariant is asked for only inside the region that follows.

`establishes_where_quiet`: if the problem is true, the contract holds in every store in which the
initializer ends, and the invariant holds in those in which nothing else can take over, or in all
of them under the basic strategy. Where a guard of a pending call or of a controller already holds,
no evolution starts, and the problem is true whether the invariant holds or not.

* `Problem.Defines`                  — predicate symbols are read as they are defined.
* `Profile.holds_contractProblem_iff` — what a contract obligation says.
* `Profile.Initializes`              — the program of the initializer and the calls pending after it.
-/

namespace HybridObjects

/-! ## What a contract obligation says -/

/-- The predicate symbols of a problem are read as they are defined: applied to the parameters and
their derivatives, each says of a store what its body says of the store with copies. -/
def Problem.Defines (problem : Problem) (I : Interp) : Prop :=
  ∀ predicate ∈ problem.predicates, ∀ s : Store,
    (applyPredicate problem.parameters predicate.1).Holds I s ↔
      predicate.2.Holds I (s.withCopies problem.parameters)

namespace Profile

variable {p : Profile}

/-- A contract obligation says, of a store in which its precondition holds, that every run of the
program ends in the postcondition and in front of a region in which the invariant holds. -/
theorem holds_contractProblem_iff {parameters : List String} {pre post : Formula}
    {program : Program} {tail : CallSet} {tactic : String} {problem : Problem}
    (h : p.contractProblem parameters pre post program tail tactic = .ok problem) {I : Interp}
    (hI : problem.Defines I) {s : Store} (hs : problem.StartsAt I s) :
    ∃ domain, p.domain .verum tail = .ok domain ∧
      (problem.statement.Holds I s ↔ ∀ t, program.Runs I s t →
        (post.renamePrimes parameters).Holds I (t.withCopies parameters) ∧
          (Formula.box (.timedEvolution p.ode domain) p.invariant).Holds I t) := by
  obtain ⟨region, hregion, rfl⟩ := contractProblem_eq_ok h
  obtain ⟨domain, hdomain, rfl⟩ := region_eq_ok hregion
  have hpre : (applyPredicate parameters "pre").Holds I s := by
    obtain ⟨body, hbody, hholds⟩ := hs
    cases hbody
    exact (hI (definePredicate "pre" pre parameters) (by simp) s).mpr hholds
  have hpost : ∀ t, (applyPredicate parameters "post").Holds I t ↔
      (post.renamePrimes parameters).Holds I (t.withCopies parameters) :=
    hI (definePredicate "post" post parameters) (by simp)
  refine ⟨domain, hdomain, ?_⟩
  rw [Formula.Holds, Formula.Holds]
  simp only [hpre, true_implies, Formula.holds_both, hpost]

/-- The program of the initializer, and the calls pending after it: its own, and that of `run`. -/
def Initializes (p : Profile) (program : Program) (pending : CallSet) : Prop :=
  ∃ calls, p.scope.Compiles (p.waiting p.invariant) .skip (p.owner.init.getD []) program calls ∧
    pending = pendingAfterInit p.owner calls

end Profile

/-- What the obligation of an initializer establishes. If it is true where its precondition holds,
every run of the initializer keeps the contract, and ends in the invariant if the strategy is basic
or no guard of a pending call or controller holds there. If such a guard holds wherever a run ends,
the obligation asks for nothing but the contract. -/
theorem establishes_where_quiet {p : Profile} {log log' : Log} {o : Obligation}
    {problem : Problem} (h : p.initObligation log = .ok o log')
    (hproblem : o.problem = some problem) :
    ∃ program pending, problem.statement.boxed? = some program ∧ p.Initializes program pending ∧
      ∀ (I : Interp) (s : Store), I.Lawful → problem.Defines I → problem.StartsAt I s →
        (problem.statement.Holds I s → ∀ t, program.Runs I s t →
          t.value contractVar = I.num "1" ∧
            (p.strategy = .basic ∨ p.Quiet I pending (t.set clockVar (I.num "0")) →
              p.invariant.Holds I (t.set clockVar (I.num "0")))) ∧
        (p.strategy ≠ .basic →
          (∀ t, program.Runs I s t → t.value contractVar = I.num "1" ∧
            ¬ p.Quiet I pending (t.set clockVar (I.num "0"))) →
          problem.statement.Holds I s) := by
  obtain ⟨initial, program, calls, tactic, _, -, hcompiles, hassembled, rfl⟩ :=
    Profile.initObligation_eq_ok h
  cases hproblem
  have hboxed : problem.statement.boxed? = some program := by
    obtain ⟨region, -, rfl⟩ := Profile.contractProblem_eq_ok hassembled
    rfl
  refine ⟨program, _, hboxed, ⟨calls, hcompiles, rfl⟩, ?_⟩
  intro I s hI hdefines hs
  obtain ⟨domain, hdomain, hstatement⟩ :=
    Profile.holds_contractProblem_iff hassembled hdefines hs
  have hcontract : ∀ x, derivativeName x ≠ contractVar := derivativeName_ne (by decide)
  simp only [Formula.holds_renamePrimes_varEq hcontract] at hstatement
  have hholds : ∀ u, domain.Holds I u ↔ p.strategy = .basic ∨
      p.Quiet I (Profile.pendingAfterInit p.owner calls) u := by
    intro u
    rw [Profile.holds_domain_iff hdomain]
    simp [Formula.Holds]
  rw [hstatement]
  constructor
  · intro hall t hrun
    obtain ⟨hone, hbox⟩ := hall t hrun
    refine ⟨hone, fun hinside => ?_⟩
    -- an evolution of no duration ends where it starts
    rw [Formula.Holds] at hbox
    exact hbox _ (Program.runs_timedEvolution.mpr (hI.rest ((hholds _).mpr hinside)))
  · intro hstrategy hall t hrun
    obtain ⟨hone, hbusy⟩ := hall t hrun
    refine ⟨hone, Formula.holds_box_timedEvolution_of_not hI ?_ p.invariant⟩
    rw [hholds]
    rintro (hbasic | hquiet)
    · exact hstrategy hbasic
    · exact hbusy hquiet

/-! ## A boiler that starts beyond its limit -/

/-- Waits for the boiler to get hot and cools it down. -/
def Method.cool : Method :=
  ⟨⟨"run", []⟩,
    [.await (.differential (.binary .ge (.field "x") (.int "10"))),
      .assign (.field "x") (.pure (.int "0"))], []⟩

/-- A class in which `x` starts at 20 although it should never exceed 15. -/
def Class.boiler : Class :=
  { name := "Boiler"
    params := []
    fields := []
    physical := some
      { fields := [⟨"x", .int "20", ⟨.derivative (.field "x"), .int "1"⟩⟩]
        annotations := [⟨"ABS.DC.HybridSpec", .construct "ObjInv" [.string "x <= 15"]⟩] }
    init := none
    methods := [.cool]
    implements := []
    annotations := [] }

def Model.boiler : Model :=
  ⟨[⟨"M", [], [.boiler], none⟩]⟩

def Profile.boiler : Profile :=
  { model := .boiler
    owner := .boiler
    strategy := .uniform
    ode := ⟨[("x", .num "1")]⟩
    invariant := .raw "x <= 15"
    precondition := .verum
    controllers := []
    controllerGuards := [] }

/-- Reads number literals and the invariant of the boiler as they are meant, and the predicates as
they are defined. Evolutions take no time. -/
noncomputable def Interp.boiler : Interp where
  num text :=
    match text with
    | "1" => 1
    | "10" => 10
    | "20" => 20
    | _ => 0
  div a b := a / b
  pred name args :=
    match name, args with
    | "pre", contract :: _ :: _ :: x :: _ => contract = 1 ∧ x = 20
    | "post", contract :: _ => contract = 1
    | _, _ => False
  raw _ s := s.value "x" ≤ 15
  hole _ _ := False
  flow _ domain s t := domain s ∧ t = s

/-- The boiler when it is created. -/
noncomputable def Store.boiler : Store :=
  (⟨fun _ => 0, fun _ => 0⟩ : Store).set contractVar 1 |>.set "x" 20

/-- The obligation is true when the boiler is created, and the initializer ends there; but the
invariant does not hold. -/
theorem establishes_where_quiet_boiler : ∃ log log' problem program,
    Profile.of .boiler .boiler .uniform [] = .ok .boiler log ∧
      Profile.boiler.initObligation log = .ok ⟨"Boiler", "init", some problem⟩ log' ∧
      problem.statement.boxed? = some program ∧
      Interp.boiler.Lawful ∧ problem.Defines .boiler ∧ problem.StartsAt .boiler .boiler ∧
      problem.statement.Holds .boiler .boiler ∧ program.Runs .boiler .boiler .boiler ∧
      ¬ Profile.boiler.invariant.Holds .boiler .boiler := by
  have hprofile : ∃ log, Profile.of .boiler .boiler .uniform [] = .ok .boiler log := ⟨_, rfl⟩
  obtain ⟨log, hprofile⟩ := hprofile
  have hobligation : ∃ log' problem,
      Profile.boiler.initObligation log = .ok ⟨"Boiler", "init", some problem⟩ log' ∧
        problem.parameters = ["contract", "result", "tv", "x"] ∧
        problem.predicates = [("pre", .and (.varEq contractVar "1") (.varEq "x" "20")),
          ("post", .varEq contractVar "1")] ∧
        problem.statement.boxed? = some .skip := ⟨_, _, rfl, rfl, rfl, rfl⟩
  obtain ⟨log', problem, hobligation, hparameters, hpredicates, hskip⟩ := hobligation
  obtain ⟨program, pending, hboxed, ⟨calls, ⟨ps, sus, res, hlow, -, -⟩, hpending⟩, hestablishes⟩ :=
    establishes_where_quiet hobligation rfl
  rw [hskip] at hboxed
  cases hboxed
  have hcontract : ∀ x, derivativeName x ≠ "contract" := derivativeName_ne (by decide)
  have hx : ∀ y, derivativeName y ≠ "x" := derivativeName_ne (by decide)
  have hlawful : Interp.boiler.Lawful := ⟨fun h => ⟨h, rfl⟩, And.left⟩
  have hdefines : problem.Defines .boiler := by
    rw [Problem.Defines, hpredicates, hparameters]
    simp [applyPredicate, Formula.Holds, Formula.varEq, Term.value, CmpOp.Rel, Interp.boiler,
      contractVar, Store.withCopies_value hcontract, Store.withCopies_value hx]
  have hstarts : problem.StartsAt .boiler .boiler := by
    rw [Problem.StartsAt, hpredicates, hparameters]
    simp [Formula.Holds, Formula.varEq, Term.value, CmpOp.Rel, Interp.boiler, Store.boiler,
      contractVar, Store.withCopies_value hcontract, Store.withCopies_value hx, Store.set]
  -- `run` is pending, and its guard holds from the start
  have hguard : Class.boiler.Guards pending.members (.cmp .ge (.var "x") (.num "10")) := by
    rw [hpending]
    cases hlow
    exact ⟨Method.cool.sig, by decide, .cool, _, rfl, rfl, rfl⟩
  have hbusy : ¬ Profile.boiler.Quiet .boiler pending
      (Store.boiler.set clockVar (Interp.boiler.num "0")) := by
    intro hquiet
    refine hquiet.1 _ hguard ?_
    have hlevel : ∀ v, (Store.boiler.set clockVar v).value "x" = 20 := by
      intro v
      rw [Store.set_value_ne _ _ (by decide), Store.boiler, Store.set_value_same]
    norm_num [Formula.Holds, Term.value, CmpOp.Rel, hlevel, Interp.boiler]
  have hholds := (hestablishes .boiler .boiler hlawful hdefines hstarts).2 (by decide) (by
    rintro t rfl
    exact ⟨by simp [Store.boiler, Store.set, Interp.boiler, contractVar], hbusy⟩)
  refine ⟨log, log', problem, .skip, hprofile, hobligation, hskip, hlawful, hdefines, hstarts,
    hholds, rfl, ?_⟩
  norm_num [Profile.boiler, Formula.Holds, Interp.boiler, Store.boiler, Store.set]

end HybridObjects
