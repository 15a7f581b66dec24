import HybridObjects.Proofs.Assembly
import HybridObjects.Proofs.LoweringMeaning
import HybridObjects.Proofs.Placeholders

/-!
# HybridObjects.Proofs.EntryStates

From which states a method can start, as its obligations see it. An obligation assumes that the
clock stands at zero, and its program opens with the test of the leading guard.

`exists_start_iff`: some state satisfies both if and only if some state that keeps the invariant, the
contract and the method's precondition satisfies the guard once the clock is set to zero. For a
guard on the continuous state this is no restriction. A guard that waits for a positive time never
holds then, so the obligations of its method are vacuous.

* `Store.withCopies`, `Problem.StartsAt` — the precondition of a problem.
* `Program.Opens`                        — programs that open with a test.
* `Profile.Ready`                        — what holds when a method is called.
-/

namespace HybridObjects

/-! ## Preconditions of problems -/

namespace Store

/-- The store in which the copies of variables hold their derivatives. -/
noncomputable def withCopies (vars : List String) (s : Store) : Store :=
  { s with
    value := fun y =>
      match vars.find? fun x => derivativeName x == y with
      | some x => s.slope x
      | none => s.value y }

theorem withCopies_value {vars : List String} {s : Store} {y : String}
    (h : ∀ x, derivativeName x ≠ y) : (s.withCopies vars).value y = s.value y := by
  have hnone : (vars.find? fun x => derivativeName x == y) = none := by
    rw [List.find?_eq_none]
    intro x _
    simpa using h x
  simp [withCopies, hnone]

theorem set_value_self (s : Store) {x : String} {v : ℝ} (h : s.value x = v) : s.set x v = s := by
  ext y
  · by_cases hy : y = x
    · rw [hy, set_value_same, h]
    · rw [set_value_ne _ _ hy]
  · rfl

end Store

theorem derivativeName_ne {name : String} (h : name.toList.getLast? ≠ some 'r') (x : String) :
    derivativeName x ≠ name := by
  rintro rfl
  exact h (by simp [derivativeName, String.toList_append])

/-- The precondition of a problem holds in a store: the body of its predicate `pre`, the copies of
the parameters standing for their derivatives. -/
def Problem.StartsAt (problem : Problem) (I : Interp) (s : Store) : Prop :=
  ∃ body, problem.predicates.lookup "pre" = some body ∧
    body.Holds I (s.withCopies problem.parameters)

/-- A clause that does not read the clock, and that says of a store what its copy with derivatives
spelled as variables says of the store with these copies. -/
structure Formula.Steady (I : Interp) (vars : List String) (f : Formula) : Prop where
  clock : ∀ s v, f.Holds I (s.set clockVar v) ↔ f.Holds I s
  spelling : ∀ s, (f.renamePrimes vars).Holds I (s.withCopies vars) ↔ f.Holds I s

/-- What holds when a method is called: the invariant, the contract and its own precondition. -/
def Profile.Ready (p : Profile) (I : Interp) (requires : Formula) (s : Store) : Prop :=
  p.invariant.Holds I s ∧ s.value contractVar = I.num "1" ∧ requires.Holds I s

namespace Formula

variable {I : Interp} {vars : List String} {s : Store}

theorem holds_renamePrimes_both {f g : Formula} :
    ((f.both g).renamePrimes vars).Holds I s ↔
      (f.renamePrimes vars).Holds I s ∧ (g.renamePrimes vars).Holds I s := by
  unfold both
  split <;> simp [renamePrimes, Holds]

theorem holds_renamePrimes_conj {fs : List Formula} :
    ((conj fs).renamePrimes vars).Holds I s ↔ ∀ f ∈ fs, (f.renamePrimes vars).Holds I s := by
  have hfold := foldl_iff (P := fun f => (f.renamePrimes vars).Holds I s)
    (fun _ _ => holds_renamePrimes_both) fs .verum
  rw [conj]
  simpa [renamePrimes, Holds] using hfold

theorem holds_renamePrimes_varEq {name text : String} (h : ∀ x, derivativeName x ≠ name) :
    ((varEq name text).renamePrimes vars).Holds I (s.withCopies vars) ↔
      s.value name = I.num text := by
  simp [varEq, renamePrimes, Holds, Term.renamePrimes, Term.value, CmpOp.Rel,
    Store.withCopies_value h]

end Formula

/-- The precondition of a method holds in the stores in which the method may be called and the clock
stands at zero. -/
theorem Profile.holds_methodPrecondition_iff {p : Profile} {I : Interp} {vars : List String}
    {requires : Formula} (hinv : p.invariant.Steady I vars) (hreq : requires.Steady I vars)
    (s : Store) :
    ((p.methodPrecondition requires).renamePrimes vars).Holds I (s.withCopies vars) ↔
      p.Ready I requires s ∧ s.value clockVar = I.num "0" := by
  have hcontract : ∀ x, derivativeName x ≠ contractVar := derivativeName_ne (by decide)
  have hclock : ∀ x, derivativeName x ≠ clockVar := derivativeName_ne (by decide)
  rw [methodPrecondition, Formula.holds_renamePrimes_conj]
  simp only [List.forall_mem_cons, hinv.spelling, hreq.spelling,
    Formula.holds_renamePrimes_varEq hcontract, Formula.holds_renamePrimes_varEq hclock, Ready,
    List.not_mem_nil, false_implies, implies_true, and_true]
  tauto

theorem Profile.ready_set_clock_iff {p : Profile} {I : Interp} {vars : List String}
    {requires : Formula} (hinv : p.invariant.Steady I vars) (hreq : requires.Steady I vars)
    (s : Store) (v : ℝ) : p.Ready I requires (s.set clockVar v) ↔ p.Ready I requires s := by
  rw [Ready, Ready, hinv.clock, hreq.clock, Store.set_value_ne _ _ (by decide)]

/-! ## Guards and the clock -/

/-- The expression reads no field or variable of the given name. -/
def Expr.Avoids (x : String) : Expr → Prop
  | .field y | .var y => y ≠ x
  | .binary _ lhs rhs => lhs.Avoids x ∧ rhs.Avoids x
  | .unary _ arg => arg.Avoids x
  | _ => True

theorem Expr.Denotes.value_set {e : Expr} {t : Term} (h : e.Denotes t) {x : String}
    (hx : e.Avoids x) (I : Interp) (s : Store) (v : ℝ) :
    t.value I (s.set x v) = t.value I s := by
  induction h with
  | int | float | slopeOfField | slopeOfVar => rfl
  | field y | var y => exact Store.set_value_ne s v hx
  | binary _ _ _ ihl ihr => rw [Term.value, Term.value, ihl hx.1, ihr hx.2]
  | neg _ ih => rw [Term.value, Term.value, ih hx]

theorem Expr.States.holds_set {e : Expr} {f : Formula} (h : e.States f) {x : String}
    (hx : e.Avoids x) (I : Interp) (s : Store) (v : ℝ) :
    f.Holds I (s.set x v) ↔ f.Holds I s := by
  induction h with
  | verum | falsum => exact Iff.rfl
  | cmp _ hl hr =>
    rw [Formula.Holds, Formula.Holds, hl.value_set hx.1, hr.value_set hx.2]
  | and _ _ ihl ihr | or _ _ ihl ihr => rw [Formula.Holds, Formula.Holds, ihl hx.1, ihr hx.2]
  | not _ ih => rw [Formula.Holds, Formula.Holds, ih hx]

theorem Formula.holds_clock_ge_iff {I : Interp} {s : Store} {v : ℝ} {least : Term} :
    (Formula.cmp .ge (.var clockVar) least).Holds I (s.set clockVar v) ↔
      least.value I (s.set clockVar v) ≤ v := by
  rw [Formula.Holds, Term.value, Store.set_value_same]
  exact Iff.rfl

/-! ## Programs that open with a test -/

/-- The program begins with the test of a formula. -/
inductive Program.Opens (f : Formula) : Program → Prop where
  | test : Opens f (.test f)
  | seq {p q : Program} : Opens f p → Opens f (.seq p q)

namespace Program.Opens

variable {f : Formula} {p : Program}

theorem andThen (h : p.Opens f) (q : Program) : (p.andThen q).Opens f := by
  unfold Program.andThen
  split
  · cases h
  · exact h
  · exact .seq h

theorem holds_of_runs (h : p.Opens f) {I : Interp} {s t : Store} (hrun : p.Runs I s t) :
    f.Holds I s := by
  induction h generalizing t with
  | test => exact hrun.2
  | seq _ ih =>
    obtain ⟨u, hu, -⟩ := hrun
    exact ih hu

theorem fill (h : p.Opens f) (res : Resolution) : (p.fill res).Opens (f.fill res) := by
  induction h with
  | test =>
    rw [Program.fill]
    exact .test
  | seq _ ih =>
    rw [Program.fill]
    exact .seq ih

theorem resolve {res : Resolution} {q : Program} (h : p.Opens f) (hf : f.placeholders = [])
    (hq : p.resolve res = .ok q) : q.Opens f := by
  obtain ⟨-, rfl⟩ := Program.resolve_eq_ok.mp hq
  rw [← Formula.fill_of_closed res hf]
  exact h.fill res

end Program.Opens

/-! ## Problems about methods -/

/-- The program of the outermost box. -/
def Formula.boxed? : Formula → Option Program
  | .box program _ => some program
  | .implies _ rhs => rhs.boxed?
  | .and _ rhs => rhs.boxed?
  | .exist _ body => body.boxed?
  | _ => none

/-- A problem about a method: its precondition, and the program in its box, which opens with the
leading guard of the method. -/
structure Profile.Poses (p : Profile) (m : Method) (problem : Problem) (requires : Formula)
    (program : Program) : Prop where
  clause : p.clauseOf m .requires = .ok requires
  body : problem.predicates.lookup "pre" =
    some ((p.methodPrecondition requires).renamePrimes problem.parameters)
  boxed : problem.statement.boxed? = some program
  opens : ∀ {guard}, m.leadingGuard = some guard →
    ∃ entry, guard.toFormula = .ok entry ∧ program.Opens entry

theorem Method.toFormula_of_entry {m : Method} {guard : Guard} {entry : Formula}
    (hguard : m.leadingGuard = some guard) (h : m.entry = .ok entry) :
    guard.toFormula = .ok entry := by
  simp only [Method.entry, hguard] at h
  split at h
  · next f hf =>
    cases h
    exact hf
  · cases h

namespace Profile

variable {p : Profile} {m : Method} {log log' : Log}

/-- The code of a method opens with the leading guard of the method. -/
theorem opens_of_compiles {entry : Formula} {program : Program} {calls : CallSet}
    (hentry : m.entry = .ok entry)
    (h : p.scope.Compiles (p.waiting p.invariant) (.test entry) m.afterGuard program calls)
    {guard : Guard} (hguard : m.leadingGuard = some guard) :
    guard.toFormula = .ok entry ∧ program.Opens entry := by
  obtain ⟨ps, sus, res, -, -, hprogram⟩ := h
  have hformula := Method.toFormula_of_entry hguard hentry
  have hopens : ((Program.test entry).andThen (.sequence ps)).Opens entry :=
    Program.Opens.test.andThen _
  exact ⟨hformula, hopens.resolve (Guard.states_of_toFormula hformula).placeholders_eq hprogram⟩

theorem poses_of_methodObligation {o : Obligation} {problem : Problem}
    (h : p.methodObligation m log = .ok o log') (hproblem : o.problem = some problem) :
    ∃ requires program, p.Poses m problem requires program := by
  obtain ⟨requires, _, entry, program, calls, _, hreq, -, hentry, hcode, hcontract⟩ :=
    methodObligation_eq_ok h hproblem
  obtain ⟨region, -, rfl⟩ := contractProblem_eq_ok hcontract
  exact ⟨requires, program, hreq, by simp [definePredicate], rfl,
    fun hguard => ⟨entry, opens_of_compiles hentry hcode hguard⟩⟩

theorem poses_of_zenoObligation {o : Obligation} {problem : Problem}
    (h : p.zenoObligation m log = .ok o log') (hproblem : o.problem = some problem) :
    ∃ requires program, p.Poses m problem requires program := by
  obtain ⟨requires, entry, program, calls, _, hreq, hentry, hcode, rfl⟩ := zenoObligation_eq_ok h
  cases hproblem
  refine ⟨requires, _, hreq, by simp [definePredicate], rfl, ?_⟩
  intro guard hguard
  obtain ⟨hformula, hopens⟩ := opens_of_compiles hentry hcode hguard
  exact ⟨entry, hformula, hopens.andThen _⟩

/-- A problem about a method can start where the method may be called, if a formula holds there once
the clock is set to zero. -/
theorem Poses.exists_startsAt_iff {problem : Problem} {requires : Formula} {program : Program}
    (h : p.Poses m problem requires program) {I : Interp}
    (hinv : p.invariant.Steady I problem.parameters)
    (hreq : requires.Steady I problem.parameters) (f : Formula) :
    (∃ s, problem.StartsAt I s ∧ f.Holds I s) ↔
      ∃ s, p.Ready I requires s ∧ f.Holds I (s.set clockVar (I.num "0")) := by
  have hstarts : ∀ s, problem.StartsAt I s ↔
      p.Ready I requires s ∧ s.value clockVar = I.num "0" := by
    intro s
    rw [← holds_methodPrecondition_iff hinv hreq, Problem.StartsAt, h.body]
    simp
  constructor
  · rintro ⟨s, hs, hf⟩
    obtain ⟨hready, hclock⟩ := (hstarts s).mp hs
    exact ⟨s, hready, by rwa [Store.set_value_self s hclock]⟩
  · rintro ⟨s, hready, hf⟩
    -- resetting the clock disturbs neither the clauses nor the contract flag
    refine ⟨s.set clockVar (I.num "0"), (hstarts _).mpr ⟨?_, Store.set_value_same _ _ _⟩, hf⟩
    exact (ready_set_clock_iff hinv hreq s _).mpr hready

end Profile

/-- When the obligations of a method with a leading guard can start. Their program opens with the
test of the guard, and a store satisfies both the guard and the precondition if and only if the
method may be called in some store that satisfies the guard with the clock at zero. A continuous
guard that does not read the clock is no restriction; a guard that waits for a time can only be
passed where that time is not positive. -/
theorem exists_start_iff {p : Profile} {m : Method} {log log' : Log} {o : Obligation}
    {problem : Problem} {guard : Guard}
    (h : p.methodObligation m log = .ok o log' ∨ p.zenoObligation m log = .ok o log')
    (hproblem : o.problem = some problem) (hguard : m.leadingGuard = some guard) :
    ∃ requires program entry, p.clauseOf m .requires = .ok requires ∧
      problem.statement.boxed? = some program ∧ guard.toFormula = .ok entry ∧
      program.Opens entry ∧
      ∀ I, p.invariant.Steady I problem.parameters → requires.Steady I problem.parameters →
        ((∃ s, problem.StartsAt I s ∧ entry.Holds I s) ↔
          ∃ s, p.Ready I requires s ∧ entry.Holds I (s.set clockVar (I.num "0"))) ∧
        (∀ e, guard = .differential e → e.Avoids clockVar →
          (∃ s, p.Ready I requires s ∧ entry.Holds I s) →
            ∃ s, problem.StartsAt I s ∧ entry.Holds I s) ∧
        (∀ min, guard = .duration min →
          ((∃ s, problem.StartsAt I s ∧ entry.Holds I s) ↔
            ∃ s least, p.Ready I requires s ∧
              min.value I (s.set clockVar (I.num "0")) = some least ∧ least ≤ I.num "0")) := by
  have hposes : ∃ requires program, p.Poses m problem requires program := by
    rcases h with h | h
    · exact Profile.poses_of_methodObligation h hproblem
    · exact Profile.poses_of_zenoObligation h hproblem
  obtain ⟨requires, program, hposes⟩ := hposes
  obtain ⟨entry, hformula, hopens⟩ := hposes.opens hguard
  refine ⟨requires, program, entry, hposes.clause, hposes.boxed, hformula, hopens, ?_⟩
  intro I hinv hreq
  have hstart := hposes.exists_startsAt_iff hinv hreq entry
  refine ⟨hstart, ?_, ?_⟩
  · rintro e rfl havoids ⟨s, hready, hentry⟩
    have hstates := Expr.states_of_toFormula hformula
    exact hstart.mpr ⟨s, hready, (hstates.holds_set havoids I s _).mpr hentry⟩
  · rintro min rfl
    cases Guard.states_of_toFormula hformula with
    | duration hmin =>
      rw [hstart]
      constructor
      · rintro ⟨s, hready, hentry⟩
        exact ⟨s, _, hready, hmin.value_eq _, Formula.holds_clock_ge_iff.mp hentry⟩
      · rintro ⟨s, least, hready, hvalue, hle⟩
        rw [hmin.value_eq] at hvalue
        cases hvalue
        exact ⟨s, hready, Formula.holds_clock_ge_iff.mpr hle⟩

/-! ## A method that waits for time to pass -/

/-- Waits for five units of time, then resets `x`. -/
def Method.fire : Method :=
  ⟨⟨"fire", []⟩, [.await (.duration (.int "5")), .assign (.field "x") (.pure (.int "0"))], []⟩

/-- A class in which `x` grows with slope one and never is negative. -/
def Class.timer : Class :=
  { name := "Timer"
    params := []
    fields := []
    physical := some
      { fields := [⟨"x", .int "0", ⟨.derivative (.field "x"), .int "1"⟩⟩]
        annotations := [⟨"ABS.DC.HybridSpec", .construct "ObjInv" [.string "x >= 0"]⟩] }
    init := none
    methods := [.fire]
    implements := []
    annotations := [] }

def Model.timer : Model :=
  ⟨[⟨"M", [], [.timer], none⟩]⟩

def Profile.timer : Profile :=
  { model := .timer
    owner := .timer
    strategy := .basic
    ode := ⟨[("x", .num "1")]⟩
    invariant := .raw "x >= 0"
    precondition := .verum
    controllers := []
    controllerGuards := [] }

theorem Formula.steady_verum (I : Interp) (vars : List String) : Formula.verum.Steady I vars :=
  ⟨fun _ _ => Iff.rfl, fun _ => Iff.rfl⟩

/-- A clause text that is read as a condition on `x` alone is steady. -/
theorem Formula.steady_raw {I : Interp} (h : ∀ text s, I.raw text s ↔ 0 ≤ s.value "x")
    (vars : List String) (text : String) : (Formula.raw text).Steady I vars where
  clock := by
    intro s v
    have hx : "x" ≠ clockVar := by decide
    rw [Formula.Holds, Formula.Holds, h, h, Store.set_value_ne _ _ hx]
  spelling := by
    intro s
    have hx : ∀ y, derivativeName y ≠ "x" := derivativeName_ne (by decide)
    rw [Formula.renamePrimes, Formula.Holds, Formula.Holds, h, h, Store.withCopies_value hx]

/-- The method may be called in a store that satisfies its guard, but its obligation starts in none,
so that every property holds after the program of the obligation. -/
theorem exists_start_iff_timer : ∃ log log' problem program,
    Profile.of .timer .timer .basic [] = .ok .timer log ∧
      Profile.timer.methodObligation .fire log = .ok ⟨"Timer", "fire", some problem⟩ log' ∧
      problem.statement.boxed? = some program ∧
      ∀ I : Interp, I.num "0" < I.num "5" → (∀ text s, I.raw text s ↔ 0 ≤ s.value "x") →
        (∃ s, Profile.timer.Ready I .verum s ∧
          (Formula.cmp .ge (.var clockVar) (.num "5")).Holds I s) ∧
        (¬ ∃ s, problem.StartsAt I s ∧
          (Formula.cmp .ge (.var clockVar) (.num "5")).Holds I s) ∧
        ∀ s post, problem.StartsAt I s → (Formula.box program post).Holds I s := by
  have hprofile : ∃ log, Profile.of .timer .timer .basic [] = .ok .timer log := ⟨_, rfl⟩
  obtain ⟨log, hprofile⟩ := hprofile
  have hobligation : ∃ log' problem,
      Profile.timer.methodObligation .fire log = .ok ⟨"Timer", "fire", some problem⟩ log' :=
    ⟨_, _, rfl⟩
  obtain ⟨log', problem, hobligation⟩ := hobligation
  obtain ⟨requires, program, entry, hclause, hboxed, hformula, hopens, hstart⟩ :=
    exists_start_iff (.inl hobligation) rfl (rfl : Method.fire.leadingGuard = some _)
  cases hclause
  cases hformula
  refine ⟨log, log', problem, program, hprofile, hobligation, hboxed, ?_⟩
  intro I hfive hraw
  have hnone : ¬ ∃ s, problem.StartsAt I s ∧
      (Formula.cmp .ge (.var clockVar) (.num "5")).Holds I s := by
    obtain ⟨-, -, hduration⟩ :=
      hstart I (Formula.steady_raw hraw _ _) (Formula.steady_verum I _)
    rw [hduration _ rfl]
    rintro ⟨s, least, -, hvalue, hle⟩
    cases hvalue
    exact absurd hle (not_le.mpr hfive)
  refine ⟨?_, hnone, ?_⟩
  · have hcontract : contractVar ≠ clockVar := by decide
    have hx : "x" ≠ clockVar ∧ "x" ≠ contractVar := by decide
    let ready : Store := Store.set ⟨fun _ => 0, fun _ => 0⟩ contractVar (I.num "1")
    refine ⟨ready.set clockVar (I.num "5"), ⟨?_, ?_, trivial⟩, ?_⟩
    · refine (hraw _ _).mpr ?_
      rw [Store.set_value_ne _ _ hx.1, Store.set_value_ne _ _ hx.2]
    · rw [Store.set_value_ne _ _ hcontract, Store.set_value_same]
    · exact Formula.holds_clock_ge_iff.mpr le_rfl
  · intro s post hs t hrun
    exact absurd ⟨s, hs, hopens.holds_of_runs hrun⟩ hnone

end HybridObjects
