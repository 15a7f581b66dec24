import HybridObjects.Proofs.Assembly
import HybridObjects.Proofs.LoweringMeaning

/-!
# HybridObjects.Proofs.Regions

Where an object evolves between two events, and what is proved about it while a process waits.

`covers_waiting_iff`: where nothing else can take over, the evolution domain of a suspension holds if
and only if the strategy is basic or the awaited guard holds already. So under the other strategies
no evolution starts where the process has to wait, and the formula for the suspension holds there
whatever the invariant says.

* `Interp.Lawful`            — evolutions start inside their domain and may take no time.
* `Profile.Quiet`            — nothing else can take over.
* `Profile.holds_domain_iff` — what an evolution domain says.
-/

namespace HybridObjects

/-! ## Evolutions -/

/-- Evolutions as the logic has them: one of no duration from every store inside the domain, and
none from a store outside of it. -/
structure Interp.Lawful (I : Interp) : Prop where
  rest : ∀ {ode : Ode} {domain : Store → Prop} {s : Store}, domain s → I.flow ode domain s s
  inside : ∀ {ode : Ode} {domain : Store → Prop} {s t : Store}, I.flow ode domain s t → domain s

theorem Program.runs_timedEvolution {I : Interp} {ode : Ode} {domain : Formula} {s t : Store} :
    (timedEvolution ode domain).Runs I s t ↔
      I.flow ode.withClock (fun u => domain.Holds I u) (s.set clockVar (I.num "0")) t := by
  rw [timedEvolution, runs_andThen]
  constructor
  · rintro ⟨u, rfl, hflow⟩
    exact hflow
  · intro hflow
    exact ⟨_, rfl, hflow⟩

namespace Formula

variable {I : Interp} {s : Store}

theorem holds_either {f g : Formula} : (f.either g).Holds I s ↔ f.Holds I s ∨ g.Holds I s := by
  unfold either
  split <;> simp [Holds]

theorem holds_conj {fs : List Formula} : (conj fs).Holds I s ↔ ∀ f ∈ fs, f.Holds I s := by
  have hfold := foldl_iff (P := fun f => f.Holds I s) (fun _ _ => holds_both) fs .verum
  rw [conj]
  simpa [Holds] using hfold

theorem holds_disj {fs : List Formula} : (disj fs).Holds I s ↔ ∃ f ∈ fs, f.Holds I s := by
  have hneither : ∀ f g : Formula, ¬ (f.either g).Holds I s ↔ ¬ f.Holds I s ∧ ¬ g.Holds I s := by
    intro f g
    rw [holds_either, not_or]
  have hfold := foldl_iff (P := fun f => ¬ f.Holds I s) hneither fs .falsum
  rw [disj, ← not_iff_not]
  simpa [Holds] using hfold

end Formula

/-! ## Domains -/

namespace Profile

variable {p : Profile}

/-- Nothing else can take over: no continuous leading guard of a pending call holds and, under
control, no guard of a controller. -/
def Quiet (p : Profile) (I : Interp) (calls : CallSet) (s : Store) : Prop :=
  (∀ f, p.owner.Guards calls.members f → ¬ f.Holds I s) ∧
    (p.strategy = .controlled → ∀ f ∈ p.controllerGuards, ¬ f.Holds I s)

theorem holds_conj_excludedGuards {calls : CallSet} {guards : List Formula}
    (h : excludedGuards p.owner calls.members = .ok guards) {I : Interp} {s : Store} :
    (Formula.conj guards).Holds I s ↔
      ∀ f, p.owner.Guards calls.members f → ¬ f.Holds I s := by
  rw [Formula.holds_conj]
  constructor
  · intro hall f hf
    have hnot := hall (.not f) ((mem_excludedGuards_iff h).mpr ⟨f, hf, rfl⟩)
    rwa [Formula.Holds] at hnot
  · intro hall g hg
    obtain ⟨f, hf, rfl⟩ := (mem_excludedGuards_iff h).mp hg
    rw [Formula.Holds]
    exact hall f hf

/-- An evolution domain holds everywhere under the basic strategy. Otherwise it holds in the quiet
stores that satisfy the further condition. -/
theorem holds_domain_iff {extra domain : Formula} {calls : CallSet}
    (h : p.domain extra calls = .ok domain) {I : Interp} {s : Store} :
    domain.Holds I s ↔ p.strategy = .basic ∨ p.Quiet I calls s ∧ extra.Holds I s := by
  rcases domain_eq_ok h with ⟨hstrategy, rfl⟩ |
    ⟨guards, hguards, ⟨hstrategy, rfl⟩ | ⟨hstrategy, rfl⟩⟩
  · simp [hstrategy, Formula.Holds]
  · rw [Formula.holds_both, holds_conj_excludedGuards hguards]
    simp [hstrategy, Quiet]
  · rw [Formula.holds_both, Formula.holds_both, holds_conj_excludedGuards hguards, Formula.Holds,
      controllerRegion, Formula.holds_disj]
    simp only [hstrategy, Quiet, reduceCtorEq, false_or, true_implies, not_exists, not_and]
    tauto

end Profile

/-- A step whose domain does not hold at its start leads nowhere, so everything holds after it. -/
theorem Formula.holds_box_timedEvolution_of_not {I : Interp} (hI : I.Lawful) {ode : Ode}
    {domain : Formula} {s : Store} (h : ¬ domain.Holds I (s.set clockVar (I.num "0")))
    (post : Formula) : (Formula.box (.timedEvolution ode domain) post).Holds I s := by
  rw [Formula.Holds]
  intro t hrun
  exact absurd (hI.inside (Program.runs_timedEvolution.mp hrun)) h

/-- Which stores the region of a suspension covers. Where nothing else can take over, its domain
holds if and only if the strategy is basic or the awaited guard holds. Under the other strategies
the formula for the suspension therefore holds wherever the process has to wait, with any invariant
in it. -/
theorem covers_waiting_iff {p : Profile} {entry : Suspension} {invariant answer : Formula}
    (h : p.waiting invariant entry = .ok answer) :
    ∃ domain, p.domain entry.guard entry.calls = .ok domain ∧
      answer = .box (.timedEvolution p.ode domain) invariant ∧
      ∀ (I : Interp) (s : Store),
        (p.Quiet I entry.calls s →
          (domain.Holds I s ↔ p.strategy = .basic ∨ entry.guard.Holds I s)) ∧
        (I.Lawful → p.strategy ≠ .basic →
          ¬ entry.guard.Holds I (s.set clockVar (I.num "0")) → answer.Holds I s) := by
  obtain ⟨domain, hdomain, rfl⟩ := Profile.waiting_eq_ok h
  refine ⟨domain, hdomain, rfl, ?_⟩
  intro I s
  constructor
  · intro hquiet
    rw [Profile.holds_domain_iff hdomain]
    simp [hquiet]
  · intro hI hstrategy hguard
    apply Formula.holds_box_timedEvolution_of_not hI
    rw [Profile.holds_domain_iff hdomain]
    rintro (hbasic | ⟨-, hheld⟩)
    · exact hstrategy hbasic
    · exact hguard hheld

/-! ## A tank that waits until it is full -/

/-- Empties the tank, waits until it is full, and empties it again. -/
def Method.settle : Method :=
  ⟨⟨"settle", []⟩,
    [.assign (.field "x") (.pure (.int "0")),
      .await (.differential (.binary .ge (.field "x") (.int "10"))),
      .assign (.field "x") (.pure (.int "0"))], []⟩

/-- A class in which `x` grows with slope one and never is negative. -/
def Class.tank : Class :=
  { name := "Tank"
    params := []
    fields := []
    physical := some
      { fields := [⟨"x", .int "0", ⟨.derivative (.field "x"), .int "1"⟩⟩]
        annotations := [⟨"ABS.DC.HybridSpec", .construct "ObjInv" [.string "x >= 0"]⟩] }
    init := none
    methods := [.settle]
    implements := []
    annotations := [] }

def Model.tank : Model :=
  ⟨[⟨"M", [], [.tank], none⟩]⟩

def Profile.tank : Profile :=
  { model := .tank
    owner := .tank
    strategy := .uniform
    ode := ⟨[("x", .num "1")]⟩
    invariant := .raw "x >= 0"
    precondition := .verum
    controllers := []
    controllerGuards := [] }

/-- The suspension of the tank that is not full yet. -/
def Suspension.filling : Suspension :=
  ⟨.cmp .ge (.var "x") (.num "10"), .empty, false⟩

/-- While the tank fills, nothing else can take over and the guard does not hold; but neither does
the domain, and what is claimed of the region holds for every reading of the invariant. -/
theorem covers_waiting_iff_tank : ∃ log lowered state answer,
    Profile.of .tank .tank .uniform [] = .ok .tank log ∧
      Profile.tank.scope.lowerBlock Method.settle.afterGuard .empty .empty = .ok lowered state ∧
      state.suspensions = [.filling] ∧
      Profile.tank.waiting (.raw "x >= 0") .filling = .ok answer ∧
      ∀ I : Interp, I.Lawful → ∀ s : Store, s.value "x" < I.num "10" →
        Profile.tank.Quiet I .empty s ∧ ¬ Suspension.filling.guard.Holds I s ∧
          (∃ domain, Profile.tank.domain Suspension.filling.guard .empty = .ok domain ∧
            ¬ domain.Holds I s) ∧
          answer.Holds I s := by
  have hprofile : ∃ log, Profile.of .tank .tank .uniform [] = .ok .tank log := ⟨_, rfl⟩
  obtain ⟨log, hprofile⟩ := hprofile
  have hlower : ∃ lowered state,
      Profile.tank.scope.lowerBlock Method.settle.afterGuard .empty .empty = .ok lowered state ∧
        state.suspensions = [.filling] := ⟨_, _, rfl, rfl⟩
  obtain ⟨lowered, state, hlower, hminted⟩ := hlower
  have hanswer : ∃ answer, Profile.tank.waiting (.raw "x >= 0") .filling = .ok answer := ⟨_, rfl⟩
  obtain ⟨answer, hanswer⟩ := hanswer
  obtain ⟨domain, hdomain, -, hcovers⟩ := covers_waiting_iff hanswer
  refine ⟨log, lowered, state, answer, hprofile, hlower, hminted, hanswer, ?_⟩
  intro I hI s hx
  have hquiet : Profile.tank.Quiet I .empty s := by
    refine ⟨?_, fun hcontrolled => by cases hcontrolled⟩
    rintro f ⟨sig, hsig, -⟩
    cases hsig
  have hguard : ∀ u : Store, u.value "x" = s.value "x" →
      ¬ Suspension.filling.guard.Holds I u := by
    intro u hu
    simpa [Suspension.filling, Formula.Holds, CmpOp.Rel, Term.value, hu] using hx
  obtain ⟨hholds, hvacuous⟩ := hcovers I s
  refine ⟨hquiet, hguard s rfl, ⟨domain, hdomain, ?_⟩, ?_⟩
  · rw [hholds hquiet]
    rintro (hbasic | hheld)
    · cases hbasic
    · exact hguard s rfl hheld
  · have hclock : "x" ≠ clockVar := by decide
    exact hvacuous hI (by decide) (hguard _ (Store.set_value_ne _ _ hclock))

end HybridObjects
