import HybridObjects.Proofs.Declarations
import HybridObjects.Proofs.EntryStates
import HybridObjects.Proofs.Unfolding

/-!
# HybridObjects.Proofs.NameClashes

When the names of a model clash in an obligation. Ghost variables, fields and local variables share
one flat space of names there, and so do variables and the derivative copies of others.

`tells_apart_iff`: an obligation tells the variables of the source apart if and only if no field or
local variable has the name of a ghost variable or of the bound that is quantified, no local
variable has the name of a field, and no variable has the name of a derivative copy. Nothing renames
a variable that fails this, and it is silently taken for the other one. The contract flag is only
ever cleared as long as the code does not write a variable of its name.

* `Variable`, `Cast`     — what an obligation speaks of, before it has names.
* `Problem.TellsApart`   — every declared name stands for one variable.
* `Program.OnlyClears`   — a variable is left alone or set to zero.
-/

namespace HybridObjects

/-! ## Variables and their names -/

/-- A variable of the source, or a ghost variable. -/
inductive Variable where
  | ghost (name : String)
  | field (name : String)
  | var (name : String)

/-- The name under which obligations know a variable. -/
def Variable.symbol : Variable → String
  | .ghost name => name
  | .field name => (Place.field name).name
  | .var name => (Place.var name).name

/-- The variables that an obligation speaks of, besides the ghost variables: what it quantifies, the
fields of the class, and the parameters and local variables of the code. -/
structure Cast where
  bound : List String
  fields : List String
  locals : List String

namespace Cast

def Has (cast : Cast) : Variable → Prop
  | .ghost name => name ∈ ghostVars ∨ name ∈ cast.bound
  | .field name => name ∈ cast.fields
  | .var name => name ∈ cast.locals

/-- The names over which the predicates of the obligation range. -/
def parameters (cast : Cast) : List String :=
  ghostVars ++ cast.fields ++ cast.locals

theorem mem_parameters {cast : Cast} {x : String} :
    x ∈ cast.parameters ↔ x ∈ ghostVars ∨ x ∈ cast.fields ∨ x ∈ cast.locals := by
  rw [parameters, List.mem_append, List.mem_append, or_assoc]

/-- No two variables have the same name, and no variable has the name of a derivative copy. -/
structure Apart (cast : Cast) : Prop where
  ghosts : ∀ x, x ∈ ghostVars ∨ x ∈ cast.bound → x ∉ cast.fields ∧ x ∉ cast.locals
  locals : ∀ x ∈ cast.locals, x ∉ cast.fields
  copies : ∀ x ∈ cast.parameters, ∀ y ∈ cast.parameters, x ≠ derivativeName y

theorem Apart.eq_of_symbol {cast : Cast} (h : cast.Apart) {v w : Variable} (hv : cast.Has v)
    (hw : cast.Has w) (hsymbol : v.symbol = w.symbol) : v = w := by
  cases v with
  | ghost x =>
    cases w with
    | ghost y => exact congrArg _ hsymbol
    | field y =>
      obtain rfl : x = y := hsymbol
      exact absurd hw (h.ghosts x hv).1
    | var y =>
      obtain rfl : x = y := hsymbol
      exact absurd hw (h.ghosts x hv).2
  | field x =>
    cases w with
    | ghost y =>
      obtain rfl : x = y := hsymbol
      exact absurd hv (h.ghosts x hw).1
    | field y => exact congrArg _ hsymbol
    | var y =>
      obtain rfl : x = y := hsymbol
      exact absurd hv (h.locals x hw)
  | var x =>
    cases w with
    | ghost y =>
      obtain rfl : x = y := hsymbol
      exact absurd hv (h.ghosts x hw).2
    | field y =>
      obtain rfl : x = y := hsymbol
      exact absurd hw (h.locals x hv)
    | var y => exact congrArg _ hsymbol

end Cast

namespace Problem

/-- The problem declares the variables of a cast, those that it quantifies last. -/
structure Lists (problem : Problem) (cast : Cast) : Prop where
  bound : cast.bound = [] ∨ cast.bound = [zenoVar]
  nodup : problem.parameters.Nodup
  mem_iff : ∀ x, x ∈ problem.parameters ↔ x ∈ cast.parameters
  declared : problem.declared = problem.parameters ++ cast.bound

/-- The names that a problem declares are distinct, so are the formal parameters of its predicates,
and every declared name stands for exactly one variable. -/
structure TellsApart (problem : Problem) (cast : Cast) : Prop where
  declared : problem.declared.Nodup
  formals : (formalNames problem.parameters).Nodup
  stands : ∀ x ∈ problem.declared, ∃! v, cast.Has v ∧ v.symbol = x

end Problem

theorem nodup_formalNames_iff {parameters : List String} (h : parameters.Nodup) :
    (formalNames parameters).Nodup ↔
      ∀ x ∈ parameters, ∀ y ∈ parameters, x ≠ derivativeName y := by
  rw [formalNames, List.nodup_append]
  constructor
  · intro hnodup x hx y hy
    exact hnodup.2.2 x hx _ (List.mem_map_of_mem hy)
  · intro hcopies
    refine ⟨h, h.map derivativeName_injective, fun x hx z hz => ?_⟩
    obtain ⟨y, hy, rfl⟩ := List.mem_map.mp hz
    exact hcopies x hx y hy

namespace Problem.Lists

variable {problem : Problem} {cast : Cast}

theorem mem_declared (h : problem.Lists cast) {x : String} :
    x ∈ problem.declared ↔ ∃ v, cast.Has v ∧ v.symbol = x := by
  rw [h.declared, List.mem_append, h.mem_iff, Cast.mem_parameters]
  constructor
  · rintro ((hx | hx | hx) | hx)
    · exact ⟨.ghost x, .inl hx, rfl⟩
    · exact ⟨.field x, hx, rfl⟩
    · exact ⟨.var x, hx, rfl⟩
    · exact ⟨.ghost x, .inr hx, rfl⟩
  · rintro ⟨v, hv, rfl⟩
    cases v with
    | ghost name => exact hv.imp .inl id
    | field name => exact .inl (.inr (.inl hv))
    | var name => exact .inl (.inr (.inr hv))

/-- Two variables of one name are the same if the problem tells variables apart. -/
theorem eq_of_symbol (h : problem.Lists cast) (hapart : problem.TellsApart cast) {v w : Variable}
    (hv : cast.Has v) (hw : cast.Has w) (hsymbol : v.symbol = w.symbol) : v = w := by
  obtain ⟨u, -, hunique⟩ := hapart.stands v.symbol (h.mem_declared.mpr ⟨v, hv, rfl⟩)
  rw [hunique v ⟨hv, rfl⟩, hunique w ⟨hw, hsymbol.symm⟩]

theorem apart (h : problem.Lists cast) (hapart : problem.TellsApart cast) : cast.Apart where
  ghosts x hx := by
    constructor
    · intro hfield
      cases h.eq_of_symbol hapart (v := .ghost x) (w := .field x) hx hfield rfl
    · intro hlocal
      cases h.eq_of_symbol hapart (v := .ghost x) (w := .var x) hx hlocal rfl
  locals x hx := by
    intro hfield
    cases h.eq_of_symbol hapart (v := .var x) (w := .field x) hx hfield rfl
  copies x hx y hy :=
    (nodup_formalNames_iff h.nodup).mp hapart.formals x ((h.mem_iff x).mpr hx) y
      ((h.mem_iff y).mpr hy)

theorem nodup_declared (h : problem.Lists cast) (hbound : ∀ x ∈ cast.bound, x ∉ cast.fields ∧
    x ∉ cast.locals) : problem.declared.Nodup := by
  rw [h.declared, List.nodup_append]
  refine ⟨h.nodup, ?_, ?_⟩
  · rcases h.bound with hb | hb <;> simp [hb]
  · rintro x hx y hy rfl
    obtain ⟨hfield, hlocal⟩ := hbound x hy
    rcases Cast.mem_parameters.mp ((h.mem_iff x).mp hx) with hghost | hx | hx
    · -- the quantified bound is none of the other ghost variables
      rcases h.bound with hb | hb
      · rw [hb] at hy
        cases hy
      · rw [hb, List.mem_singleton] at hy
        subst hy
        exact absurd hghost (by decide)
    · exact hfield hx
    · exact hlocal hx

theorem tellsApart (h : problem.Lists cast) (hapart : cast.Apart) : problem.TellsApart cast where
  declared := h.nodup_declared fun x hx => hapart.ghosts x (.inr hx)
  formals := (nodup_formalNames_iff h.nodup).mpr fun x hx y hy =>
    hapart.copies x ((h.mem_iff x).mp hx) y ((h.mem_iff y).mp hy)
  stands x hx := by
    obtain ⟨v, hv, rfl⟩ := h.mem_declared.mp hx
    exact ⟨v, ⟨hv, rfl⟩, fun w hw => hapart.eq_of_symbol hw.1 hv hw.2⟩

theorem tellsApart_iff (h : problem.Lists cast) : problem.TellsApart cast ↔ cast.Apart :=
  ⟨h.apart, h.tellsApart⟩

end Problem.Lists

/-! ## The contract flag -/

/-- Evolutions change the variables of their equations only. -/
def Interp.Frames (I : Interp) : Prop :=
  ∀ {ode : Ode} {domain : Store → Prop} {s t : Store} {x : String}, I.flow ode domain s t →
    x ∉ ode.equations.map Prod.fst → t.value x = s.value x

namespace Program

/-- Wherever the program writes a variable, it sets it to zero. -/
def OnlyClears (x : String) : Program → Prop
  | .skip | .test _ => True
  | .havoc y => y ≠ x
  | .assign y value => y = x → value = .num "0"
  | .evolve ode _ => x ∉ ode.equations.map Prod.fst
  | .seq p q | .choice p q => p.OnlyClears x ∧ q.OnlyClears x
  | .group p => p.OnlyClears x

attribute [simp] OnlyClears

variable {x : String}

/-- A variable that is only cleared keeps its value or is zero in the end. -/
theorem OnlyClears.value_eq {I : Interp} (hI : I.Frames) :
    ∀ {p : Program} {s t : Store}, p.OnlyClears x → p.Runs I s t →
      t.value x = s.value x ∨ t.value x = I.num "0"
  | .skip, _, _, _, hrun => .inl (congrArg (Store.value · x) hrun)
  | .test _, _, _, _, hrun => .inl (congrArg (Store.value · x) hrun.1)
  | .havoc y, s, _, h, hrun => by
    obtain ⟨v, rfl⟩ := hrun
    exact .inl (Store.set_value_ne s v (Ne.symm h))
  | .assign y value, s, _, h, hrun => by
    obtain rfl := hrun
    by_cases hy : y = x
    · subst hy
      rw [Store.set_value_same, h rfl]
      exact .inr rfl
    · exact .inl (Store.set_value_ne s _ (Ne.symm hy))
  | .evolve ode domain, _, _, h, hrun => .inl (hI hrun h)
  | .seq p q, _, _, h, hrun => by
    obtain ⟨u, hp, hq⟩ := hrun
    rcases OnlyClears.value_eq hI h.2 hq with hq | hq
    · rw [hq]
      exact OnlyClears.value_eq hI h.1 hp
    · exact .inr hq
  | .choice p q, _, _, h, hrun => by
    rcases hrun with hp | hq
    · exact OnlyClears.value_eq hI h.1 hp
    · exact OnlyClears.value_eq hI h.2 hq
  | .group p, _, _, h, hrun => by
    rw [Runs] at hrun
    exact OnlyClears.value_eq hI (p := p) h hrun

@[simp] theorem onlyClears_andThen (p q : Program) :
    (p.andThen q).OnlyClears x ↔ p.OnlyClears x ∧ q.OnlyClears x := by
  unfold andThen
  split <;> simp

@[simp] theorem onlyClears_branch (p q : Program) :
    (branch p q).OnlyClears x ↔ p.OnlyClears x ∧ q.OnlyClears x := by
  simp [branch]

@[simp] theorem onlyClears_sequence (ps : List Program) :
    (sequence ps).OnlyClears x ↔ ∀ p ∈ ps, p.OnlyClears x := by
  rw [sequence, foldl_iff onlyClears_andThen]
  simp

@[simp] theorem onlyClears_havocAll (vars : List String) :
    (havocAll vars).OnlyClears x ↔ x ∉ vars := by
  rw [havocAll, onlyClears_sequence, List.forall_mem_map]
  constructor
  · intro h hx
    exact h x hx rfl
  · rintro h y hy rfl
    exact h hy

/-- Filling changes tests and domains, which write nothing. -/
theorem OnlyClears.fill (res : Resolution) : ∀ {p : Program}, p.OnlyClears x →
    (p.fill res).OnlyClears x
  | .skip, h | .havoc _, h | .assign .., h => by
    rw [Program.fill]
    exact h
  | .test _, _ => by
    rw [Program.fill]
    trivial
  | .evolve .., h => by
    rw [Program.fill]
    exact h
  | .seq .., h | .choice .., h => by
    rw [Program.fill]
    exact ⟨OnlyClears.fill res h.1, OnlyClears.fill res h.2⟩
  | .group p, h => by
    rw [Program.fill]
    exact OnlyClears.fill res (p := p) h

theorem OnlyClears.resolve {res : Resolution} {p q : Program} (h : p.OnlyClears x)
    (hq : p.resolve res = .ok q) : q.OnlyClears x := by
  obtain ⟨-, rfl⟩ := Program.resolve_eq_ok.mp hq
  exact h.fill res

end Program

/-- No statement of the block assigns or declares the variable. -/
def Block.Spares (b : Block) (x : String) : Prop :=
  ∀ s ∈ b.stmts, s.target? ≠ some x

namespace Scope

variable {scope : Scope} {n : Nat} {calls : CallSet} {lowered : Lowered} {sus : List Suspension}

theorem LowersEffect.onlyClears (hshared : contractVar ∉ scope.shared) {e : Effect}
    (h : LowersEffect scope n calls e lowered sus) :
    lowered.program.OnlyClears contractVar := by
  cases h with
  | call | create => simp [contractCheck]
  | get => simp [resumption, hshared]

theorem LowersAssign.onlyClears (hshared : contractVar ∉ scope.shared) {target : String}
    {value : Rhs} (h : LowersAssign scope n calls target value lowered sus)
    (htarget : target ≠ contractVar) : lowered.program.OnlyClears contractVar := by
  cases h with
  | pure _ => exact fun he => absurd he htarget
  | effect heffect => simp [heffect.onlyClears hshared, htarget]

theorem LowersAtom.onlyClears (hshared : contractVar ∉ scope.shared) {s : Stmt}
    (h : LowersAtom scope n calls s lowered sus) (hs : s.target? ≠ some contractVar) :
    lowered.program.OnlyClears contractVar := by
  have htarget : ∀ x, s.target? = some x → x ≠ contractVar := by
    rintro x hx rfl
    exact hs hx
  cases h with
  | skip | evalPure => trivial
  | assign hassign => exact hassign.onlyClears hshared (htarget _ rfl)
  | declare hassign => exact hassign.onlyClears hshared (htarget _ rfl)
  | declareOnly => exact htarget _ rfl
  | ret _ => exact fun he => absurd he (by decide)
  | evalEffect heffect => exact heffect.onlyClears hshared
  | await _ => simp [resumption, hshared]

/-- Lowered code only clears the contract flag if it does not write a variable of that name, and no
other process can. -/
theorem Lowers.onlyClears (hshared : contractVar ∉ scope.shared) {b : Block} {after : CallSet}
    {ps : List Program} (h : Lowers scope b calls n ps after sus) (hb : b.Spares contractVar) :
    ∀ p ∈ ps, p.OnlyClears contractVar := by
  have hhead : ∀ {s : Stmt} {b : Block}, Block.Spares (s :: b) contractVar →
      (∀ t ∈ s.walk, t.target? ≠ some contractVar) ∧ b.Spares contractVar := by
    intro s b hb
    simpa only [Block.Spares, Block.stmts_cons, List.forall_mem_append] using hb
  have hpart : ∀ {s : Stmt} {b part : Block}, Block.Spares (s :: b) contractVar →
      part ⊆ s.children → part.Spares contractVar :=
    fun hb hsub t ht => (hhead hb).1 t (Stmt.mem_walk_of_children hsub ht)
  induction h with
  | nil => simp
  | atom hatom _ ih =>
    obtain ⟨hs, hrest⟩ := hhead hb
    exact List.forall_mem_cons.mpr
      ⟨hatom.onlyClears hshared (hs _ (Stmt.mem_walk_self _)), ih hrest⟩
  | @cond test _ thenBranch _ elseBranch _ _ _ _ _ _ _ _ _ _ _ _ _ _ _ ih₁ ih₂ ih =>
    have hthen : thenBranch ⊆ (Stmt.cond test thenBranch elseBranch).children := by
      cases elseBranch <;> simp [Stmt.children]
    have helse : elseBranch.getD [] ⊆ (Stmt.cond test thenBranch elseBranch).children := by
      cases elseBranch <;> simp [Stmt.children]
    refine List.forall_mem_cons.mpr ⟨?_, ih (hhead hb).2⟩
    simpa using ⟨ih₁ (hpart hb hthen), ih₂ (hpart hb helse)⟩
  | @block body _ _ _ _ _ _ _ _ _ _ _ ih₁ ih =>
    refine List.forall_mem_cons.mpr ⟨?_, ih (hhead hb).2⟩
    simpa using ih₁ (hpart hb (by simp [Stmt.children]))

theorem Compiles.onlyClears (hshared : contractVar ∉ scope.shared)
    {answer : Suspension → Except Error Formula} {front program : Program} {b : Block}
    (h : scope.Compiles answer front b program calls) (hfront : front.OnlyClears contractVar)
    (hb : b.Spares contractVar) : program.OnlyClears contractVar := by
  obtain ⟨ps, sus, res, hlow, -, hprogram⟩ := h
  refine Program.OnlyClears.resolve ?_ hprogram
  rw [Program.onlyClears_andThen, Program.onlyClears_sequence]
  exact ⟨hfront, hlow.onlyClears hshared hb⟩

end Scope

/-! ## Obligations -/

/-- Whatever the program in the box does, the contract flag is as it was or zero in the end. -/
def Problem.KeepsFlag (problem : Problem) : Prop :=
  ∃ program, problem.statement.boxed? = some program ∧
    ∀ I : Interp, I.Frames → ∀ s t, program.Runs I s t →
      t.value contractVar = s.value contractVar ∨ t.value contractVar = I.num "0"

/-- What a problem about some code does with names: when it tells variables apart, when its
variables are distinct at all, and when the contract flag is safe. -/
structure Problem.Names (problem : Problem) (cast : Cast) (code : Block) : Prop where
  apart : problem.TellsApart cast ↔ cast.Apart
  declared : (∀ x ∈ cast.bound, x ∉ cast.fields ∧ x ∉ cast.locals) → problem.declared.Nodup
  flag : contractVar ∉ cast.fields → code.Spares contractVar → problem.KeepsFlag

theorem Problem.Lists.names {problem : Problem} {cast : Cast} {code : Block} {program : Program}
    (h : problem.Lists cast) (hboxed : problem.statement.boxed? = some program)
    (hclears : contractVar ∉ cast.fields → code.Spares contractVar →
      program.OnlyClears contractVar) : problem.Names cast code where
  apart := h.tellsApart_iff
  declared := h.nodup_declared
  flag hfield hcode := ⟨program, hboxed, fun _ hI _ _ hrun =>
    (hclears hfield hcode).value_eq hI hrun⟩

/-- The fields of a class and the variables of a method. -/
def Class.cast (c : Class) (m : Method) : Cast :=
  ⟨[], c.fieldNames, Block.localNames m.body ++ m.sig.params.map Param.name⟩

/-- The fields of a class and the variables of its initializer. -/
def Class.initCast (c : Class) : Cast :=
  ⟨[], c.fieldNames, Block.localNames (c.init.getD [])⟩

theorem equationsOf_names {className : String} {fields : List PhysicalField}
    {equations : List (String × Term)} (h : equationsOf className fields = .ok equations) :
    equations.map Prod.fst = fields.map PhysicalField.name := by
  fun_induction equationsOf className fields generalizing equations with
  | case1 =>
    cases h
    rfl
  | case2 | case3 => cases h
  | case4 f fields equation hequation equations hequations ih =>
    cases h
    rw [List.map_cons, List.map_cons, ih hequations, (PhysicalField.equation_eq_ok hequation).1]

theorem Class.contractVar_notMem_shared {c : Class} (h : contractVar ∉ c.fieldNames) :
    contractVar ∉ c.sharedVariables := by
  rw [sharedVariables, mem_firstOccurrences_iff, List.mem_append]
  rintro (hfield | hghost)
  · exact h hfield
  · exact absurd hghost (by decide)

theorem Method.spares_afterGuard {m : Method} {x : String} (h : Block.Spares m.body x) :
    Block.Spares m.afterGuard x := by
  cases hguard : m.leadingGuard with
  | none => rwa [Method.afterGuard_eq hguard]
  | some guard =>
    rw [Method.body_eq hguard, Block.Spares, Block.stmts_cons, List.forall_mem_append] at h
    exact h.2

namespace Profile

variable {p : Profile} {model : Model} {c : Class} {requested : Strategy} {o : Obligation}
  {problem : Problem} {log log' : Log}

theorem IsOf.onlyClears_timedEvolution (h : p.IsOf model c requested)
    (hfield : contractVar ∉ c.fieldNames) (domain : Formula) :
    (Program.timedEvolution p.ode domain).OnlyClears contractVar := by
  have hode : contractVar ∉ p.ode.equations.map Prod.fst := by
    rw [equationsOf_names h.equations]
    exact fun hmem => hfield (List.mem_append_right _ hmem)
  rw [Program.timedEvolution, Program.onlyClears_andThen]
  refine ⟨fun hclock => absurd hclock (by decide), ?_⟩
  rw [Program.OnlyClears, Ode.withClock, List.map_append, List.mem_append]
  rintro (hmem | hmem)
  · exact hode hmem
  · exact absurd hmem (by decide)

/-- The compiled code of a class, behind a test. -/
theorem IsOf.onlyClears_of_compiles (h : p.IsOf model c requested)
    (hfield : contractVar ∉ c.fieldNames) {answer : Suspension → Except Error Formula}
    {front program : Program} {b : Block} {calls : CallSet}
    (hcompiles : p.scope.Compiles answer front b program calls)
    (hfront : front.OnlyClears contractVar) (hb : b.Spares contractVar) :
    program.OnlyClears contractVar := by
  refine hcompiles.onlyClears ?_ hfront hb
  rw [scope, h.owner_eq]
  exact Class.contractVar_notMem_shared hfield

theorem IsOf.lists_cast (h : p.IsOf model c requested) (m : Method) {bound : List String}
    (hbound : bound = [] ∨ bound = [zenoVar])
    (hparameters : problem.parameters = p.methodParameters m)
    (hdeclared : problem.declared = p.methodParameters m ++ bound) :
    problem.Lists { c.cast m with bound := bound } where
  bound := hbound
  nodup := by
    rw [hparameters, methodParameters]
    exact nodup_firstOccurrences _
  mem_iff x := by
    rw [hparameters, (h.lists_methodParameters m).mem_iff, Cast.mem_parameters]
    simp [Class.cast]
  declared := by rw [hparameters, hdeclared]

theorem IsOf.names_method (h : p.IsOf model c requested) {m : Method}
    (ho : p.methodObligation m log = .ok o log') (hproblem : o.problem = some problem) :
    problem.Names (c.cast m) m.body := by
  obtain ⟨requires, ensures, entry, program, calls, tactic, -, -, -, hcompiles, hfound⟩ :=
    methodObligation_eq_ok ho hproblem
  obtain ⟨region, -, rfl⟩ := contractProblem_eq_ok hfound
  refine (h.lists_cast m (.inl rfl) rfl (List.append_nil _).symm).names rfl fun hfield hbody => ?_
  exact h.onlyClears_of_compiles hfield hcompiles trivial (Method.spares_afterGuard hbody)

theorem IsOf.names_init (h : p.IsOf model c requested) (ho : p.initObligation log = .ok o log')
    (hproblem : o.problem = some problem) : problem.Names c.initCast (c.init.getD []) := by
  obtain ⟨initial, program, calls, tactic, _, -, hcompiles, hfound, rfl⟩ :=
    initObligation_eq_ok ho
  cases hproblem
  rw [h.owner_eq] at hcompiles hfound
  obtain ⟨region, -, rfl⟩ := contractProblem_eq_ok hfound
  refine Problem.Lists.names ⟨.inl rfl, nodup_firstOccurrences _, fun x => ?_,
    (List.append_nil _).symm⟩ rfl fun hfield hbody => ?_
  · rw [mem_programVariables_iff, Cast.mem_parameters, List.mem_append]
    rfl
  · exact h.onlyClears_of_compiles hfield hcompiles trivial hbody

theorem IsOf.names_zeno (h : p.IsOf model c requested) {m : Method}
    (ho : p.zenoObligation m log = .ok o log') (hproblem : o.problem = some problem) :
    problem.Names { c.cast m with bound := [zenoVar] } m.body := by
  obtain ⟨requires, entry, program, calls, tactic, -, -, hcompiles, rfl⟩ := zenoObligation_eq_ok ho
  cases hproblem
  refine (h.lists_cast m (.inr rfl) rfl rfl).names rfl fun hfield hbody => ?_
  rw [Program.onlyClears_andThen]
  constructor
  · exact h.onlyClears_of_compiles hfield hcompiles trivial (Method.spares_afterGuard hbody)
  · exact h.onlyClears_timedEvolution hfield _

end Profile

/-- When obligations tell the variables of the source apart, and when the contract flag is safe in
them. Nothing else is checked: the obligation of code whose names clash is generated all the
same. -/
theorem tells_apart_iff {model : Model} {c : Class} {requested : Strategy} {p : Profile}
    {log log' : Log} (hprofile : Profile.of model c requested log = .ok p log') :
    (∀ m o log₁ log₂, p.methodObligation m log₁ = .ok o log₂ →
      ∀ problem, o.problem = some problem → problem.Names (c.cast m) m.body) ∧
    (∀ o log₁ log₂, p.initObligation log₁ = .ok o log₂ →
      ∀ problem, o.problem = some problem → problem.Names c.initCast (c.init.getD [])) ∧
    (∀ m o log₁ log₂, p.zenoObligation m log₁ = .ok o log₂ → ∀ problem, o.problem = some problem →
      problem.Names { c.cast m with bound := [zenoVar] } m.body) := by
  have h := Profile.isOf_of hprofile
  exact ⟨fun m o _ _ ho problem => h.names_method ho, fun o _ _ ho problem => h.names_init ho,
    fun m o _ _ ho problem => h.names_zeno ho⟩

/-! ## A cistern that hides a broken contract -/

/-- Sets a level that has to be positive. -/
def Method.fill : Method :=
  ⟨⟨"fill", [⟨"n", "Int"⟩]⟩, [.assign (.field "x") (.pure (.var "n"))],
    [⟨"ABS.DC.HybridSpec", .construct "Requires" [.string "n > 0"]⟩]⟩

/-- Asks for the level 0, and has a local variable with the name of the contract flag. -/
def Method.refill : Method :=
  ⟨⟨"refill", []⟩,
    [.eval (.effect (.asyncCall .this none Method.fill.sig [.int "0"])),
      .declare "contract" "Int" (some (.pure (.int "1")))], []⟩

/-- A class in which the level `x` grows with slope one. -/
def Class.cistern : Class :=
  { name := "Cistern"
    params := []
    fields := []
    physical := some
      { fields := [⟨"x", .int "0", ⟨.derivative (.field "x"), .int "1"⟩⟩]
        annotations := [⟨"ABS.DC.HybridSpec", .construct "ObjInv" [.string "x >= 0"]⟩] }
    init := none
    methods := [.fill, .refill]
    implements := []
    annotations := [] }

def Model.cistern : Model :=
  ⟨[⟨"M", [], [.cistern], none⟩]⟩

def Profile.cistern : Profile :=
  { model := .cistern
    owner := .cistern
    strategy := .basic
    ode := ⟨[("x", .num "1")]⟩
    invariant := .raw "x >= 0"
    precondition := .verum
    controllers := []
    controllerGuards := [] }

/-- What the method does: the check of the call, and the write to the local variable. -/
def Program.refilling : Program :=
  .seq (.test .verum) (.seq (.group (.choice
    (.seq (.test (.raw "0 > 0")) .skip)
    (.seq (.test (.not (.raw "0 > 0"))) (.assign contractVar (.num "0")))))
    (.assign contractVar (.num "1")))

/-- The local variable is taken for the contract flag. So a run of the method ends with the flag set
even though the flag was cleared because the level 0 must not be asked for. -/
theorem tells_apart_iff_cistern : ∃ log log' problem,
    Profile.of .cistern .cistern .basic [] = .ok .cistern log ∧
      Profile.cistern.methodObligation .refill log = .ok ⟨"Cistern", "refill", some problem⟩ log' ∧
      problem.Names (Class.cistern.cast .refill) Method.refill.body ∧
      ¬ problem.TellsApart (Class.cistern.cast .refill) ∧
      problem.statement.boxed? = some .refilling ∧
      ∀ I s, (∃ t, Program.refilling.Runs I s t) ∧
        ∀ t, Program.refilling.Runs I s t → t.value contractVar = I.num "1" := by
  have hprofile : ∃ log, Profile.of .cistern .cistern .basic [] = .ok .cistern log := ⟨_, rfl⟩
  obtain ⟨log, hprofile⟩ := hprofile
  have hobligation : ∃ log' problem, Profile.cistern.methodObligation .refill log =
      .ok ⟨"Cistern", "refill", some problem⟩ log' ∧
        problem.statement.boxed? = some .refilling := ⟨_, _, rfl, rfl⟩
  obtain ⟨log', problem, hobligation, hboxed⟩ := hobligation
  have hnames := (tells_apart_iff hprofile).1 _ _ _ _ hobligation problem rfl
  refine ⟨log, log', problem, hprofile, hobligation, hnames, ?_, hboxed, ?_⟩
  · intro hapart
    exact ((hnames.apart.mp hapart).ghosts contractVar (.inl (by decide))).2 (by decide)
  · intro I s
    constructor
    · by_cases hdemand : I.raw "0 > 0" s
      · exact ⟨_, s, ⟨rfl, trivial⟩, s, .inl ⟨s, ⟨rfl, hdemand⟩, rfl⟩, rfl⟩
      · exact ⟨_, s, ⟨rfl, trivial⟩, _, .inr ⟨s, ⟨rfl, hdemand⟩, rfl⟩, rfl⟩
    · rintro t ⟨_, -, u, -, rfl⟩
      exact Store.set_value_same u contractVar _

end HybridObjects
