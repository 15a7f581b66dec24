import HybridObjects.Proofs.Regions
import Mathlib.Data.List.Forall2

/-!
# HybridObjects.Proofs.Strategies

How the evolution domains of one class compare under the three strategies, and how they change with
the pending calls.

`domains_refine`: a finer strategy only adds conjuncts at the end, and more pending calls only add
conjuncts. So a finer domain holds in fewer stores, and so does one with more calls pending.

* `Formula.conjuncts_both`, `Formula.conjuncts_conj` — constructors that drop units keep the
  conjuncts.
* `Class.awaited`            — the conditions that pending calls wait for.
* `Method.Awaits`            — the formula of the leading guard of a method.
* `Profile.domain_of_subset` — domains are antitone in the pending calls.
-/

namespace HybridObjects

namespace Formula

theorem conjuncts_both (f g : Formula) : (f.both g).conjuncts = f.conjuncts ++ g.conjuncts := by
  unfold both
  split <;> simp [conjuncts]

@[simp] theorem conjuncts_not (f : Formula) : (not f).conjuncts = [not f] := rfl

theorem conjuncts_conj (fs : List Formula) : (conj fs).conjuncts = fs.flatMap conjuncts := by
  rw [conj, foldl_flatMap conjuncts_both, conjuncts, List.nil_append]

/-- A negation is one conjunct, whatever it negates. -/
theorem conjuncts_conj_not (fs : List Formula) :
    (conj (fs.map .not)).conjuncts = fs.map .not := by
  rw [conjuncts_conj, List.flatMap_map]
  simp only [conjuncts_not]
  exact List.map_eq_flatMap.symm

end Formula

/-! ## Guards -/

/-- The conditions of the continuous leading guards of the methods that signatures call, in the
order of the signatures. -/
def Class.awaited (c : Class) (sigs : List Signature) : List Expr :=
  sigs.filterMap fun sig =>
    match (c.methodBySig? sig).bind Method.leadingGuard with
    | some (.differential cond) => some cond
    | _ => none

theorem Class.awaited_cons {c : Class} {sig : Signature} {cond : Expr}
    (h : (c.methodBySig? sig).bind Method.leadingGuard = some (.differential cond))
    (sigs : List Signature) : c.awaited (sig :: sigs) = cond :: c.awaited sigs := by
  simp [awaited, h]

theorem Class.awaited_cons_of_forall_ne {c : Class} {sig : Signature}
    (h : ∀ cond, (c.methodBySig? sig).bind Method.leadingGuard ≠ some (.differential cond))
    (sigs : List Signature) : c.awaited (sig :: sigs) = c.awaited sigs := by
  unfold awaited
  rw [List.filterMap_cons]
  split
  · rfl
  · next hsome =>
    split at hsome
    · next hlead => exact absurd hlead (h _)
    · cases hsome

/-- The formulas are those of the expressions, one for one. -/
def Translations (conds : List Expr) (fs : List Formula) : Prop :=
  List.Forall₂ (fun cond f => cond.toFormula = .ok f) conds fs

theorem translations_cons {cond : Expr} {conds : List Expr} {fs : List Formula} :
    Translations (cond :: conds) fs ↔
      ∃ f rest, cond.toFormula = .ok f ∧ Translations conds rest ∧ fs = f :: rest :=
  List.forall₂_cons_left_iff

theorem exists_translations_iff {conds : List Expr} :
    (∃ fs, Translations conds fs) ↔ ∀ cond ∈ conds, ∃ f, cond.toFormula = .ok f := by
  induction conds with
  | nil => simp [Translations]
  | cons cond conds ih =>
    rw [List.forall_mem_cons, ← ih]
    simp only [translations_cons]
    constructor
    · rintro ⟨_, f, fs, hf, hfs, -⟩
      exact ⟨⟨f, hf⟩, fs, hfs⟩
    · rintro ⟨⟨f, hf⟩, fs, hfs⟩
      exact ⟨f :: fs, f, fs, hf, hfs, rfl⟩

/-- The formula is that of the guard a method starts with. -/
def Method.Awaits (m : Method) (f : Formula) : Prop :=
  ∃ guard, m.leadingGuard = some guard ∧ guard.toFormula = .ok f

theorem leadingGuards_eq_ok {methods : List Method} {found : List (Signature × Formula)}
    (h : leadingGuards methods = .ok found) (hall : ∀ m ∈ methods, m.leadingGuard.isSome) :
    found.map Prod.fst = methods.map Method.sig ∧
      List.Forall₂ Method.Awaits methods (found.map Prod.snd) := by
  fun_induction leadingGuards methods generalizing found with
  | case1 =>
    cases h
    simp
  | case2 m methods hnone =>
    have hsome := hall m (by simp)
    rw [hnone] at hsome
    cases hsome
  | case3 | case4 => cases h
  | case5 m methods guard hguard f hf rest hrest ih =>
    cases h
    obtain ⟨hsigs, hguards⟩ := ih hrest fun m' hm' => hall m' (List.mem_cons_of_mem m hm')
    exact ⟨by simp [hsigs], .cons ⟨guard, hguard, hf⟩ hguards⟩

namespace Class

theorem controllers_eq_ok {c : Class} {found : List (Signature × Formula)}
    (h : c.controllers = .ok found) (hc : c.isControllable = true) :
    found.map Prod.fst = c.controllerMethods.map Method.sig ∧
      List.Forall₂ Method.Awaits c.controllerMethods (found.map Prod.snd) := by
  rw [controllers, if_pos hc] at h
  apply leadingGuards_eq_ok h
  intro m hm
  have hcontroller := (List.mem_filter.mp hm).2
  simp only [Method.isController, Bool.and_eq_true] at hcontroller
  exact hcontroller.1.1.1

end Class

namespace Profile

variable {p : Profile} {model : Model} {c : Class} {requested : Strategy}

/-- The excluded formulas are the negated conditions that the calls wait for. -/
theorem excludedGuards_eq_ok_iff {sigs : List Signature} {guards : List Formula} :
    excludedGuards c sigs = .ok guards ↔
      ∃ fs, Translations (c.awaited sigs) fs ∧ guards = fs.map .not := by
  fun_induction excludedGuards c sigs generalizing guards with
  | case1 => simp [Class.awaited, Translations, eq_comm]
  | case2 sig sigs cond hlead e he =>
    simp [Class.awaited_cons hlead, translations_cons, he]
  | case3 sig sigs cond hlead f hf e he ih =>
    rw [Class.awaited_cons hlead]
    simp only [translations_cons, reduceCtorEq, false_iff]
    rintro ⟨_, ⟨_, fs, -, hfs, rfl⟩, -⟩
    have hrest := ih.mpr ⟨fs, hfs, rfl⟩
    rw [he] at hrest
    cases hrest
  | case4 sig sigs cond hlead f hf rest hrest ih =>
    rw [Class.awaited_cons hlead]
    simp only [translations_cons]
    constructor
    · intro h
      cases h
      obtain ⟨fs, hfs, rfl⟩ := ih.mp hrest
      exact ⟨f :: fs, ⟨f, fs, hf, hfs, rfl⟩, rfl⟩
    · rintro ⟨_, ⟨f', fs, hf', hfs, rfl⟩, rfl⟩
      rw [ih.mpr ⟨fs, hfs, rfl⟩] at hrest
      cases hrest
      rw [hf] at hf'
      cases hf'
      rfl
  | case5 sig sigs hnone ih => rw [ih, Class.awaited_cons_of_forall_ne hnone]

/-- Fewer calls are easier to translate. -/
theorem excludedGuards_of_subset {sigs sigs' : List Signature} {guards' : List Formula}
    (hsub : sigs ⊆ sigs') (h : excludedGuards c sigs' = .ok guards') :
    ∃ guards, excludedGuards c sigs = .ok guards := by
  obtain ⟨fs', hfs', -⟩ := excludedGuards_eq_ok_iff.mp h
  have hall := exists_translations_iff.mp ⟨fs', hfs'⟩
  have hsub : c.awaited sigs ⊆ c.awaited sigs' := List.filterMap_subset _ hsub
  obtain ⟨fs, hfs⟩ := exists_translations_iff.mpr fun cond hcond => hall cond (hsub hcond)
  exact ⟨fs.map .not, excludedGuards_eq_ok_iff.mpr ⟨fs, hfs, rfl⟩⟩

/-! ## Domains -/

theorem domain_of_basic (h : p.strategy = .basic) (extra : Formula) (calls : CallSet) :
    p.domain extra calls = .ok .verum := by
  rw [domain, h]

theorem domain_of_uniform (h : p.strategy = .uniform) (extra : Formula) (calls : CallSet) :
    p.domain extra calls = p.uniformDomain extra calls := by
  rw [domain, h]

/-- Control adds one conjunct to the uniform domain. -/
theorem domain_of_controlled (h : p.strategy = .controlled) {extra domain : Formula}
    {calls : CallSet} (hdomain : p.uniformDomain extra calls = .ok domain) :
    p.domain extra calls = .ok (domain.both (.not p.controllerRegion)) := by
  rw [Profile.domain, h]
  simp only [hdomain]

theorem uniformDomain_eq_ok_iff {extra domain : Formula} {calls : CallSet} :
    p.uniformDomain extra calls = .ok domain ↔
      ∃ guards, excludedGuards p.owner calls.members = .ok guards ∧
        domain = (Formula.conj guards).both extra := by
  unfold uniformDomain
  cases excludedGuards p.owner calls.members with
  | error e => simp
  | ok guards => simp [eq_comm]

/-- The conjuncts of a uniform domain: the negated conditions that the calls wait for, then those
of the further condition. -/
theorem conjuncts_uniformDomain {extra domain : Formula} {calls : CallSet}
    (h : p.uniformDomain extra calls = .ok domain) :
    ∃ fs, Translations (p.owner.awaited calls.members) fs ∧
      domain.conjuncts = fs.map .not ++ extra.conjuncts := by
  obtain ⟨_, hguards, rfl⟩ := uniformDomain_eq_ok_iff.mp h
  obtain ⟨fs, hfs, rfl⟩ := excludedGuards_eq_ok_iff.mp hguards
  refine ⟨fs, hfs, ?_⟩
  rw [Formula.conjuncts_both, Formula.conjuncts_conj_not]

theorem Quiet.of_subset {I : Interp} {s : Store} {calls calls' : CallSet}
    (hsub : calls.members ⊆ calls'.members) (h : p.Quiet I calls' s) : p.Quiet I calls s := by
  refine ⟨?_, h.2⟩
  rintro f ⟨sig, hsig, hguard⟩
  exact h.1 f ⟨sig, hsub hsig, hguard⟩

/-- Under every strategy the domain exists for fewer pending calls as well, and it holds wherever
the one for more calls does. -/
theorem domain_of_subset {extra domain' : Formula} {calls calls' : CallSet}
    (hsub : calls.members ⊆ calls'.members) (h : p.domain extra calls' = .ok domain') :
    ∃ domain, p.domain extra calls = .ok domain ∧
      ∀ I s, domain'.Holds I s → domain.Holds I s := by
  have hexists : ∃ domain, p.domain extra calls = .ok domain := by
    rcases domain_eq_ok h with ⟨hstrategy, -⟩ | ⟨guards', hguards', hstrategy⟩
    · exact ⟨_, domain_of_basic hstrategy extra calls⟩
    · obtain ⟨guards, hguards⟩ := excludedGuards_of_subset hsub hguards'
      have huniform : p.uniformDomain extra calls = .ok ((Formula.conj guards).both extra) :=
        uniformDomain_eq_ok_iff.mpr ⟨guards, hguards, rfl⟩
      rcases hstrategy with ⟨hstrategy, -⟩ | ⟨hstrategy, -⟩
      · exact ⟨_, (domain_of_uniform hstrategy extra calls).trans huniform⟩
      · exact ⟨_, domain_of_controlled hstrategy huniform⟩
  obtain ⟨domain, hdomain⟩ := hexists
  refine ⟨domain, hdomain, ?_⟩
  intro I s
  rw [holds_domain_iff h, holds_domain_iff hdomain]
  rintro (hbasic | ⟨hquiet, hextra⟩)
  · exact .inl hbasic
  · exact .inr ⟨hquiet.of_subset hsub, hextra⟩

/-- The domain of a profile of the same class whose strategy is finer than the basic one: the
uniform domain, with one conjunct more under control. -/
theorem domain_of_domain_uniform {q : Profile} (hp : p.strategy = .uniform)
    (howner : q.owner = p.owner) (hq : q.strategy = .uniform ∨ q.strategy = .controlled)
    {extra domain : Formula} {calls : CallSet} (h : p.domain extra calls = .ok domain) :
    ∃ finer, q.domain extra calls = .ok finer ∧ (q.strategy = .uniform → finer = domain) ∧
      (q.strategy = .controlled → finer = domain.both (.not q.controllerRegion)) ∧
      ∀ I s, finer.Holds I s → domain.Holds I s := by
  have huniform : q.uniformDomain extra calls = .ok domain := by
    rw [uniformDomain, howner, ← uniformDomain, ← domain_of_uniform hp, h]
  rcases hq with hq | hq
  · exact ⟨domain, (domain_of_uniform hq extra calls).trans huniform, fun _ => rfl, by simp [hq],
      fun _ _ hholds => hholds⟩
  · refine ⟨_, domain_of_controlled hq huniform, by simp [hq], fun _ => rfl, ?_⟩
    intro I s hholds
    exact (Formula.holds_both.mp hholds).1

/-! ## Strategies -/

/-- What is in effect when control is asked for: control if the class is controllable and has
controllers, with the formulas of their guards, and uniform regions otherwise. -/
theorem IsOf.controlled_cases (h : p.IsOf model c .controlled) :
    (p.strategy = .uniform ∧ (c.isControllable = false ∨ c.controllerMethods = [])) ∨
      (p.strategy = .controlled ∧ c.isControllable = true ∧ c.controllerMethods ≠ [] ∧
        List.Forall₂ Method.Awaits c.controllerMethods p.controllerGuards) := by
  obtain ⟨found, hfound, hcontrollers, hguards, hstrategy⟩ := h.control
  rw [effective] at hstrategy
  cases hc : c.isControllable with
  | false =>
    rw [hc] at hstrategy
    exact .inl ⟨hstrategy, .inl rfl⟩
  | true =>
    obtain ⟨hsigs, hawaits⟩ := Class.controllers_eq_ok hfound hc
    rw [hc, hcontrollers, hsigs, Bool.true_and] at hstrategy
    by_cases hnone : c.controllerMethods = []
    · rw [hnone] at hstrategy
      exact .inl ⟨hstrategy, .inr hnone⟩
    · rw [hguards]
      refine .inr ⟨?_, rfl, hnone, hawaits⟩
      simpa [hnone] using hstrategy

/-- A profile has the requested strategy, unless control was asked for. -/
theorem IsOf.strategy_eq (h : p.IsOf model c requested) (hrequested : requested ≠ .controlled) :
    p.strategy = requested := by
  obtain ⟨_, -, -, -, hstrategy⟩ := h.control
  cases requested with
  | basic | uniform => exact hstrategy
  | controlled => exact absurd rfl hrequested

end Profile

/-- The evolution domains of a class under the three strategies, for pending calls that are among
others. Control gives way to uniform regions if and only if the class is not controllable or has no
controllers. The basic domain is `true`. The uniform domain has as conjuncts the negated conditions
that the calls wait for, in their order, and those of the further condition; under control the
negated disjunction of the guards of all controllers follows. So a finer domain implies a coarser
one, and the domain for more calls the one for fewer. -/
theorem domains_refine {model : Model} {c : Class} {basic uniform controlled : Profile}
    {log₁ log₁' log₂ log₂' log₃ log₃' : Log}
    (hbasic : Profile.of model c .basic log₁ = .ok basic log₁')
    (huniform : Profile.of model c .uniform log₂ = .ok uniform log₂')
    (hcontrolled : Profile.of model c .controlled log₃ = .ok controlled log₃')
    {calls calls' : CallSet} (hsub : ∀ sig ∈ calls, sig ∈ calls') {extra domain' : Formula}
    (hdomain : uniform.domain extra calls' = .ok domain') :
    basic.strategy = .basic ∧ uniform.strategy = .uniform ∧
      (controlled.strategy = .uniform ∧ (c.isControllable = false ∨ c.controllerMethods = []) ∨
        controlled.strategy = .controlled ∧ c.isControllable = true ∧
          c.controllerMethods ≠ []) ∧
      ∃ b u k b' k', basic.domain extra calls = .ok b ∧ uniform.domain extra calls = .ok u ∧
        controlled.domain extra calls = .ok k ∧ basic.domain extra calls' = .ok b' ∧
        controlled.domain extra calls' = .ok k' ∧ b = .verum ∧
        (∃ fs, Translations (c.awaited calls.members) fs ∧
          u.conjuncts = fs.map .not ++ extra.conjuncts) ∧
        (controlled.strategy = .uniform → k = u) ∧
        (controlled.strategy = .controlled →
          ∃ guards, List.Forall₂ Method.Awaits c.controllerMethods guards ∧
            k.conjuncts = u.conjuncts ++ [.not (.disj guards)]) ∧
        ∀ I s, (k.Holds I s → u.Holds I s) ∧ (u.Holds I s → b.Holds I s) ∧
          (b'.Holds I s → b.Holds I s) ∧ (domain'.Holds I s → u.Holds I s) ∧
          (k'.Holds I s → k.Holds I s) := by
  have hb := (Profile.isOf_of hbasic).strategy_eq (by decide)
  have hu := (Profile.isOf_of huniform).strategy_eq (by decide)
  have hcases := (Profile.isOf_of hcontrolled).controlled_cases
  have howner := (Profile.isOf_of huniform).owner_eq
  have hsame : controlled.owner = uniform.owner :=
    (Profile.isOf_of hcontrolled).owner_eq.trans howner.symm
  have hstrategy : controlled.strategy = .uniform ∨ controlled.strategy = .controlled :=
    hcases.imp And.left And.left
  -- existence starts from the one domain known and is carried to fewer calls and to control
  obtain ⟨u, hu_eq, hu_le⟩ := Profile.domain_of_subset hsub hdomain
  obtain ⟨k', hk'_eq, -⟩ := Profile.domain_of_domain_uniform hu hsame hstrategy hdomain
  obtain ⟨k, hk_eq, hk_uniform, hk_controlled, hk_le⟩ :=
    Profile.domain_of_domain_uniform hu hsame hstrategy hu_eq
  obtain ⟨k₀, hk₀_eq, hk_anti⟩ := Profile.domain_of_subset hsub hk'_eq
  obtain rfl : k₀ = k := Except.ok.inj (hk₀_eq.symm.trans hk_eq)
  have hconjuncts :=
    Profile.conjuncts_uniformDomain ((Profile.domain_of_uniform hu extra calls).symm.trans hu_eq)
  rw [howner] at hconjuncts
  refine ⟨hb, hu, hcases.imp_right fun h => ⟨h.1, h.2.1, h.2.2.1⟩, .verum, u, k₀, .verum, k',
    Profile.domain_of_basic hb extra calls, hu_eq, hk_eq, Profile.domain_of_basic hb extra calls',
    hk'_eq, rfl, hconjuncts, hk_uniform, ?_, ?_⟩
  · intro heffect
    have hguards : List.Forall₂ Method.Awaits c.controllerMethods controlled.controllerGuards := by
      rcases hcases with ⟨hother, -⟩ | ⟨-, -, -, hguards⟩
      · rw [heffect] at hother
        cases hother
      · exact hguards
    refine ⟨controlled.controllerGuards, hguards, ?_⟩
    rw [hk_controlled heffect, Formula.conjuncts_both, Profile.controllerRegion,
      Formula.conjuncts_not]
  · intro I s
    have htrue : Formula.verum.Holds I s := by
      rw [Formula.Holds]
      trivial
    exact ⟨hk_le I s, fun _ => htrue, fun _ => htrue, hu_le I s, hk_anti I s⟩

/-! ## A kettle with two controllers -/

/-- The condition that `x` has reached a number. -/
def Expr.reached (text : String) : Expr :=
  .binary .ge (.field "x") (.int text)

/-- A method that calls methods of its own object. -/
def Method.dispatching (name : String) (callees : List Signature) (front : Block) : Method :=
  ⟨⟨name, []⟩, front ++ callees.map fun sig => .eval (.effect (.asyncCall .this none sig [])), []⟩

/-- Waits until a level is reached, empties the kettle, and calls methods. -/
def Method.emptying (name level : String) (callees : List Signature) : Method :=
  .dispatching name callees
    [.await (.differential (.reached level)), .assign (.field "x") (.pure (.int "0"))]

/-- Empties the kettle whenever it is full. -/
def Method.flush : Method :=
  .emptying "flush" "10" [⟨"flush", []⟩]

/-- Empties the kettle whenever it is nearly full. -/
def Method.relieve : Method :=
  .emptying "relieve" "8" [⟨"relieve", []⟩]

/-- Empties the kettle once. -/
def Method.skim : Method :=
  .emptying "skim" "5" []

/-- The tank with two controllers, which `run` starts. -/
def Class.kettle : Class :=
  { Class.tank with
    name := "Kettle"
    methods :=
      [.dispatching "run" [Method.flush.sig, Method.relieve.sig, Method.skim.sig] [], .flush,
        .relieve, .skim] }

def Model.kettle : Model :=
  ⟨[⟨"M", [], [.kettle], none⟩]⟩

def Profile.kettle (strategy : Strategy) : Profile :=
  { Profile.tank with
    model := .kettle
    owner := .kettle
    strategy := strategy
    controllers := [Method.flush.sig, Method.relieve.sig]
    controllerGuards := [.cmp .ge (.var "x") (.num "10"), .cmp .ge (.var "x") (.num "8")] }

/-- The calls pending after the first statement of `run`. -/
def CallSet.flushing : CallSet :=
  .insert .empty Method.flush.sig

/-- Under control the guards of both controllers are excluded, whichever calls are pending; the
guard of the method that is called once is excluded only while its call is pending. -/
theorem domains_refine_kettle : ∃ log₁ log₂ log₃ u k u' k',
    Profile.of .kettle .kettle .basic [] = .ok (.kettle .basic) log₁ ∧
      Profile.of .kettle .kettle .uniform [] = .ok (.kettle .uniform) log₂ ∧
      Profile.of .kettle .kettle .controlled [] = .ok (.kettle .controlled) log₃ ∧
      (Profile.kettle .uniform).domain (.raw "x >= 0") .flushing = .ok u ∧
      (Profile.kettle .controlled).domain (.raw "x >= 0") .flushing = .ok k ∧
      (Profile.kettle .uniform).domain (.raw "x >= 0") (.insert .flushing Method.skim.sig) =
        .ok u' ∧
      (Profile.kettle .controlled).domain (.raw "x >= 0") (.insert .flushing Method.skim.sig) =
        .ok k' ∧
      u'.conjuncts = [.not (.cmp .ge (.var "x") (.num "10")), .not (.cmp .ge (.var "x") (.num "5")),
        .raw "x >= 0"] ∧
      u.conjuncts = [.not (.cmp .ge (.var "x") (.num "10")), .raw "x >= 0"] ∧
      k.conjuncts = u.conjuncts ++
        [.not (.or (.cmp .ge (.var "x") (.num "10")) (.cmp .ge (.var "x") (.num "8")))] ∧
      ∀ I s, (k.Holds I s → u.Holds I s) ∧ (u'.Holds I s → u.Holds I s) ∧
        (k'.Holds I s → k.Holds I s) := by
  have hbasic : ∃ log, Profile.of .kettle .kettle .basic [] = .ok (.kettle .basic) log := ⟨_, rfl⟩
  have huniform : ∃ log, Profile.of .kettle .kettle .uniform [] = .ok (.kettle .uniform) log :=
    ⟨_, rfl⟩
  have hcontrolled : ∃ log,
      Profile.of .kettle .kettle .controlled [] = .ok (.kettle .controlled) log := ⟨_, rfl⟩
  have hdomain : ∃ u', (Profile.kettle .uniform).domain (.raw "x >= 0")
      (.insert .flushing Method.skim.sig) = .ok u' ∧
        u'.conjuncts = [.not (.cmp .ge (.var "x") (.num "10")),
          .not (.cmp .ge (.var "x") (.num "5")), .raw "x >= 0"] := ⟨_, rfl, rfl⟩
  obtain ⟨log₁, hbasic⟩ := hbasic
  obtain ⟨log₂, huniform⟩ := huniform
  obtain ⟨log₃, hcontrolled⟩ := hcontrolled
  obtain ⟨u', hdomain, hconjuncts⟩ := hdomain
  have hsub : ∀ sig ∈ CallSet.flushing, sig ∈ CallSet.flushing.insert Method.skim.sig :=
    fun _ hsig => CallSet.mem_insert.mpr (.inr hsig)
  obtain ⟨-, -, -, b, u, k, b', k', -, hu, hk, -, hk', -, -, -, hfiner, himplies⟩ :=
    domains_refine hbasic huniform hcontrolled hsub hdomain
  obtain ⟨guards, hguards, hk_eq⟩ := hfiner rfl
  -- the method that skims is no controller
  have hboth : guards = [.cmp .ge (.var "x") (.num "10"), .cmp .ge (.var "x") (.num "8")] := by
    change List.Forall₂ Method.Awaits [.flush, .relieve] guards at hguards
    obtain ⟨full, _, ⟨_, hlead, hfull⟩, hrest, rfl⟩ := List.forall₂_cons_left_iff.mp hguards
    obtain ⟨nearly, _, ⟨_, hlead', hnearly⟩, hnil, rfl⟩ := List.forall₂_cons_left_iff.mp hrest
    cases hlead
    cases hfull
    cases hlead'
    cases hnearly
    rw [List.forall₂_nil_left_iff.mp hnil]
  refine ⟨log₁, log₂, log₃, u, k, u', k', hbasic, huniform, hcontrolled, hu, hk, hdomain, hk',
    hconjuncts, ?_, ?_, ?_⟩
  · cases hu
    rfl
  · rw [hk_eq, hboth]
    rfl
  · intro I s
    obtain ⟨h₁, -, -, h₂, h₃⟩ := himplies I s
    exact ⟨h₁, h₂, h₃⟩

end HybridObjects
