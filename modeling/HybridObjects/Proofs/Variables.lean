import HybridObjects.Proofs.ClosedObligations
import HybridObjects.Proofs.MustCalls
import HybridObjects.Proofs.Walks

/-!
# HybridObjects.Proofs.Variables

Which variables occur in formulas and programs, and how choices stand in them. Both are settled by
one condition on trees, `Over`: all variables outside of clause texts are of a given kind, and every
choice stands directly in braces. What the generation builds from trees over some variables is
again over these variables.

* `Formula.Over`, `Program.Over` — the condition, closed under all combinations of trees.
* `Stmt.Mentions`                — the variables of a statement.
* `Scope.Lowers.over`            — lowered blocks.
* `Profile.Over`                 — profiles and regions.
* `Problem.Over`                 — the statements and predicates of all obligations.
-/

namespace HybridObjects

/-! ## Trees over some variables -/

/-- All variables and differential symbols of a term satisfy `V`. -/
def Term.Over (V : String → Prop) : Term → Prop
  | .var name | .primed name => V name
  | .num _ => True
  | .bin _ lhs rhs => lhs.Over V ∧ rhs.Over V
  | .neg arg => arg.Over V

/-- All variables of an equation system satisfy `V`. -/
def Ode.Over (V : String → Prop) (ode : Ode) : Prop :=
  ∀ equation ∈ ode.equations, V equation.1 ∧ equation.2.Over V

mutual

/-- All variables of a formula outside of clause texts satisfy `V`, and its choices stand directly
in braces. -/
def Formula.Over (V : String → Prop) : Formula → Prop
  | .verum | .falsum | .raw _ | .hole _ => True
  | .cmp _ lhs rhs => lhs.Over V ∧ rhs.Over V
  | .not arg => arg.Over V
  | .and lhs rhs | .or lhs rhs | .implies lhs rhs => lhs.Over V ∧ rhs.Over V
  | .box program post => program.Over V false ∧ post.Over V
  | .exist var body => V var ∧ body.Over V
  | .pred _ args => ∀ arg ∈ args, arg.Over V

/-- All variables of a program outside of clause texts satisfy `V`, and its choices stand directly
in braces. The flag tells whether the program does so itself. -/
def Program.Over (V : String → Prop) (braced : Bool) : Program → Prop
  | .skip => True
  | .havoc var => V var
  | .assign var value => V var ∧ value.Over V
  | .test cond => cond.Over V
  | .evolve ode domain => ode.Over V ∧ domain.Over V
  | .seq first second => first.Over V false ∧ second.Over V false
  | .choice left right => braced = true ∧ left.Over V false ∧ right.Over V false
  | .group body => body.Over V true

end

attribute [simp] Term.Over Formula.Over Program.Over

section

variable {V W : String → Prop}

/-! ## Combinations -/

namespace Formula

@[simp] theorem over_both (f g : Formula) : (f.both g).Over V ↔ f.Over V ∧ g.Over V := by
  unfold both
  split <;> simp

@[simp] theorem over_either (f g : Formula) : (f.either g).Over V ↔ f.Over V ∧ g.Over V := by
  unfold either
  split <;> simp

@[simp] theorem over_conj (fs : List Formula) : (conj fs).Over V ↔ ∀ f ∈ fs, f.Over V := by
  rw [conj, foldl_iff over_both]
  simp

@[simp] theorem over_disj (fs : List Formula) : (disj fs).Over V ↔ ∀ f ∈ fs, f.Over V := by
  rw [disj, foldl_iff over_either]
  simp

@[simp] theorem over_varEq (name value : String) : (varEq name value).Over V ↔ V name := by
  simp [varEq]

theorem Verbatim.over {f : Formula} (h : f.Verbatim) : f.Over V := by
  cases h with
  | verum | raw => simp

end Formula

namespace Program

@[simp] theorem over_andThen (p q : Program) :
    (p.andThen q).Over V false ↔ p.Over V false ∧ q.Over V false := by
  unfold andThen
  split <;> simp

@[simp] theorem over_branch (p q : Program) {braced : Bool} :
    (branch p q).Over V braced ↔ p.Over V false ∧ q.Over V false := by
  simp [branch]

@[simp] theorem over_sequence (ps : List Program) :
    (sequence ps).Over V false ↔ ∀ p ∈ ps, p.Over V false := by
  rw [sequence, foldl_iff over_andThen]
  simp

@[simp] theorem over_havocAll (vars : List String) :
    (havocAll vars).Over V false ↔ ∀ x ∈ vars, V x := by
  simp [havocAll]

@[simp] theorem over_timedEvolution (ode : Ode) (domain : Formula) :
    (timedEvolution ode domain).Over V false ↔ V clockVar ∧ ode.Over V ∧ domain.Over V := by
  simp only [timedEvolution, over_andThen, Program.Over, Term.Over, Ode.Over, Ode.withClock,
    List.forall_mem_append, List.forall_mem_singleton]
  tauto

end Program

/-! ## Derivative copies and resolution -/

theorem Term.Over.renamePrimes {vars : List String} (hcopy : ∀ x ∈ vars, V (derivativeName x))
    {t : Term} (h : t.Over V) : (t.renamePrimes vars).Over V := by
  induction t with
  | var | num => exact h
  | primed name =>
    rw [Term.renamePrimes]
    split
    · next hname => exact hcopy name (by simpa using hname)
    · exact h
  | bin op lhs rhs ihl ihr => exact ⟨ihl h.1, ihr h.2⟩
  | neg arg ih => exact ih h

theorem Formula.Over.renamePrimes {vars : List String} (hcopy : ∀ x ∈ vars, V (derivativeName x)) :
    ∀ {f : Formula}, f.Over V → (f.renamePrimes vars).Over V
  | .verum, _ | .falsum, _ | .raw _, _ | .hole _, _ => by simp [Formula.renamePrimes]
  | .box .., h => by
    rw [Formula.renamePrimes]
    exact h
  | .cmp .., h => by
    simp only [Formula.renamePrimes, Formula.Over] at h ⊢
    exact ⟨h.1.renamePrimes hcopy, h.2.renamePrimes hcopy⟩
  | .not _, h => by
    simp only [Formula.renamePrimes, Formula.Over] at h ⊢
    exact Formula.Over.renamePrimes hcopy h
  | .and .., h | .or .., h | .implies .., h => by
    simp only [Formula.renamePrimes, Formula.Over] at h ⊢
    exact ⟨Formula.Over.renamePrimes hcopy h.1, Formula.Over.renamePrimes hcopy h.2⟩
  | .exist .., h => by
    simp only [Formula.renamePrimes, Formula.Over] at h ⊢
    exact ⟨h.1, Formula.Over.renamePrimes hcopy h.2⟩
  | .pred .., h => by
    simp only [Formula.renamePrimes, Formula.Over, List.forall_mem_map] at h ⊢
    exact fun arg harg => (h arg harg).renamePrimes hcopy

/-- The formulas for placeholders are over the variables. -/
def Resolution.Over (V : String → Prop) (res : Resolution) : Prop :=
  ∀ entry ∈ res, entry.2.Over V

theorem Resolution.Over.lookup {res : Resolution} (h : res.Over V) {id : Placeholder} {f : Formula}
    (hf : res.lookup id = some f) : f.Over V := by
  obtain ⟨before, after, rfl, -⟩ := List.lookup_eq_some_iff.mp hf
  exact h (id, f) (by simp)

theorem Resolution.Over.formula {res : Resolution} (h : res.Over V) (id : Placeholder) :
    (res.formula id).Over V := by
  cases hlookup : res.lookup id with
  | none => simp [Resolution.formula, hlookup]
  | some f => simpa [Resolution.formula, hlookup] using h.lookup hlookup

mutual

theorem Formula.Over.fill {res : Resolution} (hres : res.Over V) :
    ∀ {f : Formula}, f.Over V → (f.fill res).Over V
  | .hole id, _ => by
    rw [Formula.fill]
    exact hres.formula id
  | .verum, h | .falsum, h | .raw _, h | .cmp .., h | .pred .., h => by
    rw [Formula.fill]
    exact h
  | .not arg, h => by
    simp only [Formula.fill, Formula.Over] at h ⊢
    exact Formula.Over.fill hres h
  | .and lhs rhs, h | .or lhs rhs, h | .implies lhs rhs, h => by
    simp only [Formula.fill, Formula.Over] at h ⊢
    exact ⟨Formula.Over.fill hres h.1, Formula.Over.fill hres h.2⟩
  | .box program post, h => by
    simp only [Formula.fill, Formula.Over] at h ⊢
    exact ⟨Program.Over.fill hres h.1, Formula.Over.fill hres h.2⟩
  | .exist var body, h => by
    simp only [Formula.fill, Formula.Over] at h ⊢
    exact ⟨h.1, Formula.Over.fill hres h.2⟩

theorem Program.Over.fill {res : Resolution} (hres : res.Over V) :
    ∀ {p : Program} {braced : Bool}, p.Over V braced → (p.fill res).Over V braced
  | .skip, _, h | .havoc _, _, h | .assign .., _, h => by
    rw [Program.fill]
    exact h
  | .test cond, _, h => by
    simp only [Program.fill, Program.Over] at h ⊢
    exact Formula.Over.fill hres h
  | .evolve ode domain, _, h => by
    simp only [Program.fill, Program.Over] at h ⊢
    exact ⟨h.1, Formula.Over.fill hres h.2⟩
  | .seq first second, _, h => by
    simp only [Program.fill, Program.Over] at h ⊢
    exact ⟨Program.Over.fill hres h.1, Program.Over.fill hres h.2⟩
  | .choice left right, _, h => by
    simp only [Program.fill, Program.Over] at h ⊢
    exact ⟨h.1, Program.Over.fill hres h.2.1, Program.Over.fill hres h.2.2⟩
  | .group body, _, h => by
    simp only [Program.fill, Program.Over] at h ⊢
    exact Program.Over.fill hres h

end

theorem Program.Over.resolve {res : Resolution} (hres : res.Over V) {p q : Program} {braced : Bool}
    (h : p.Over V braced) (hq : p.resolve res = .ok q) : q.Over V braced := by
  obtain ⟨-, rfl⟩ := Program.resolve_eq_ok.mp hq
  exact h.fill hres

/-! ## Expressions and statements -/

/-- A field or variable that an expression reads. -/
def Expr.Mentions (e : Expr) (x : String) : Prop :=
  .field x ∈ e.walk ∨ .var x ∈ e.walk

/-- What a statement assigns or declares. -/
def Stmt.target? : Stmt → Option String
  | .assign target _ => some target.name
  | .declare name _ _ => some name
  | _ => none

/-- A field or variable that a statement itself writes or reads. -/
def Stmt.Mentions (s : Stmt) (x : String) : Prop :=
  s.target? = some x ∨ ∃ e ∈ s.exprs, e.Mentions x

/-- All fields and variables of the statements of a block satisfy `V`. -/
def Block.Within (V : String → Prop) (b : Block) : Prop :=
  ∀ s ∈ b.stmts, ∀ x, s.Mentions x → V x

namespace Expr

theorem Mentions.of_child {e c : Expr} {x : String} (hc : c ∈ e.children) (h : c.Mentions x) :
    e.Mentions x :=
  h.imp (mem_walk_of_child hc) (mem_walk_of_child hc)

theorem mentions_field (x : String) : (field x).Mentions x :=
  .inl (mem_walk_self _)

theorem mentions_var (x : String) : (var x).Mentions x :=
  .inr (mem_walk_self _)

theorem Denotes.over {e : Expr} {t : Term} (h : e.Denotes t) (hV : ∀ x, e.Mentions x → V x) :
    t.Over V := by
  induction h with
  | int | float => trivial
  | field name => exact hV name (mentions_field name)
  | var name => exact hV name (mentions_var name)
  | slopeOfField name => exact hV name ((mentions_field name).of_child (by simp [children]))
  | slopeOfVar name => exact hV name ((mentions_var name).of_child (by simp [children]))
  | binary _ _ _ ihl ihr =>
    exact ⟨ihl fun x hx => hV x (hx.of_child (by simp [children])),
      ihr fun x hx => hV x (hx.of_child (by simp [children]))⟩
  | neg _ ih => exact ih fun x hx => hV x (hx.of_child (by simp [children]))

theorem States.over {e : Expr} {f : Formula} (h : e.States f) (hV : ∀ x, e.Mentions x → V x) :
    f.Over V := by
  induction h with
  | verum | falsum => simp
  | cmp _ hlhs hrhs =>
    rw [Formula.Over]
    exact ⟨hlhs.over fun x hx => hV x (hx.of_child (by simp [children])),
      hrhs.over fun x hx => hV x (hx.of_child (by simp [children]))⟩
  | and _ _ ihl ihr | or _ _ ihl ihr =>
    rw [Formula.Over]
    exact ⟨ihl fun x hx => hV x (hx.of_child (by simp [children])),
      ihr fun x hx => hV x (hx.of_child (by simp [children]))⟩
  | not _ ih =>
    rw [Formula.Over]
    exact ih fun x hx => hV x (hx.of_child (by simp [children]))

end Expr

theorem Guard.States.over {g : Guard} {f : Formula} (h : g.States f) (hclock : V clockVar)
    (hV : ∀ e ∈ g.exprs, ∀ x, e.Mentions x → V x) : f.Over V := by
  induction h with
  | cond he | differential he => exact he.over (hV _ (by simp [Guard.exprs]))
  | and _ _ ihl ihr | or _ _ ihl ihr =>
    simp only [Guard.exprs, List.forall_mem_append] at hV
    rw [Formula.Over]
    exact ⟨ihl hV.1, ihr hV.2⟩
  | duration hmin =>
    rw [Formula.Over]
    exact ⟨hclock, hmin.over (hV _ (by simp [Guard.exprs]))⟩
  | claim => simp

namespace Block

theorem Within.mono {b b' : Block} (h : b.Within V) (hsub : ∀ s ∈ b'.stmts, s ∈ b.stmts) :
    b'.Within V :=
  fun s hs => h s (hsub s hs)

theorem Within.head {s : Stmt} {b : Block} (h : Within V (s :: b)) : ∀ x, s.Mentions x → V x :=
  h s (by rw [stmts_cons]; exact List.mem_append_left _ (Stmt.mem_walk_self s))

theorem Within.tail {s : Stmt} {b : Block} (h : Within V (s :: b)) : b.Within V :=
  h.mono fun t ht => by rw [stmts_cons]; exact List.mem_append_right _ ht

/-- A part of the first statement. -/
theorem Within.part {s : Stmt} {b part : Block} (h : Within V (s :: b)) (hpart : part ⊆ s.children) :
    part.Within V :=
  h.mono fun t ht => by
    rw [stmts_cons]
    exact List.mem_append_left _ (Stmt.mem_walk_of_children hpart ht)

end Block

/-! ## Lowered blocks -/

/-- What a scope adds to the variables of its code: the ghost variables, those that other processes
change, and those of the invariant. -/
structure Scope.Over (V : String → Prop) (scope : Scope) : Prop where
  ghosts : ∀ x ∈ ghostVars, V x
  shared : ∀ x ∈ scope.shared, V x
  invariant : scope.invariant.Over V

namespace Scope

variable {scope : Scope} {n : Nat} {calls : CallSet} {lowered : Lowered} {sus : List Suspension}

theorem Over.contractCheck (h : scope.Over V) {pre : Formula} (hpre : pre.Over V) :
    (contractCheck pre).Over V false := by
  have hcontract := h.ghosts contractVar (by decide)
  simp [HybridObjects.contractCheck, hpre, hcontract]

theorem Over.resumption (h : scope.Over V) {guard : Formula} (hguard : guard.Over V)
    (id : Placeholder) : (scope.resumption id guard).Over V false := by
  have hcontract := h.ghosts contractVar (by decide)
  simp only [Scope.resumption, Program.over_branch, Program.over_sequence, List.forall_mem_cons,
    Program.Over, Program.over_havocAll, Formula.over_both, Formula.Over, Term.Over, h.invariant]
  simpa [hcontract, hguard] using h.shared

theorem LowersEffect.over (h : scope.Over V) {e : Effect}
    (he : LowersEffect scope n calls e lowered sus) :
    lowered.program.Over V false ∧ ∀ entry ∈ sus, entry.guard.Over V := by
  cases he with
  | call hfound =>
    exact ⟨h.contractCheck ((Model.answers_callPrecondition ..).ok hfound).over, by simp⟩
  | create hpre =>
    exact ⟨h.contractCheck ((Model.answers_creationPrecondition ..).ok hpre).over, by simp⟩
  | get => exact ⟨h.resumption (by simp) _, by simp⟩

theorem LowersAssign.over (h : scope.Over V) {target : String} {value : Rhs}
    (ha : LowersAssign scope n calls target value lowered sus) (htarget : V target)
    (hV : ∀ e ∈ value.exprs, ∀ x, e.Mentions x → V x) :
    lowered.program.Over V false ∧ ∀ entry ∈ sus, entry.guard.Over V := by
  cases ha with
  | pure hterm =>
    have hterm := (Expr.denotes_of_toTerm hterm).over (hV _ (by simp [Rhs.exprs]))
    simp [htarget, hterm]
  | effect heff =>
    obtain ⟨hprogram, hsus⟩ := heff.over h
    simp only [Program.over_andThen, Program.Over]
    exact ⟨⟨hprogram, htarget⟩, hsus⟩

theorem LowersAtom.over (h : scope.Over V) {s : Stmt}
    (ha : LowersAtom scope n calls s lowered sus) (hV : ∀ x, s.Mentions x → V x) :
    lowered.program.Over V false ∧ ∀ entry ∈ sus, entry.guard.Over V := by
  have hexprs : ∀ e ∈ s.exprs, ∀ x, e.Mentions x → V x := fun e he x hx => hV x (.inr ⟨e, he, hx⟩)
  cases ha with
  | skip | evalPure => simp
  | assign hassign => exact hassign.over h (hV _ (.inl rfl)) hexprs
  | declare hassign => exact hassign.over h (hV _ (.inl rfl)) hexprs
  | declareOnly => simpa using hV _ (.inl rfl)
  | ret hterm =>
    have hterm := (Expr.denotes_of_toTerm hterm).over (hexprs _ (by simp [Stmt.exprs]))
    have hresult := h.ghosts resultVar (by decide)
    simp [hresult, hterm]
  | evalEffect heff => exact heff.over h
  | await hguard =>
    have hguard := (Guard.states_of_toFormula hguard).over (h.ghosts clockVar (by decide)) hexprs
    exact ⟨h.resumption hguard _, by simpa using hguard⟩

/-- The programs of a lowered block and the guards of its suspensions are over its variables and
those that the scope adds. -/
theorem Lowers.over (h : scope.Over V) {b : Block} {after : CallSet} {ps : List Program}
    (hb : Lowers scope b calls n ps after sus) (hV : b.Within V) :
    (∀ p ∈ ps, p.Over V false) ∧ ∀ entry ∈ sus, entry.guard.Over V := by
  induction hb with
  | nil => simp
  | atom hatom _ ih =>
    obtain ⟨hfirst, hsus⟩ := hatom.over h hV.head
    obtain ⟨hrest, hsus'⟩ := ih hV.tail
    exact ⟨List.forall_mem_cons.mpr ⟨hfirst, hrest⟩, List.forall_mem_append.mpr ⟨hsus, hsus'⟩⟩
  | @cond test f thenBranch rest elseBranch _ _ _ _ _ _ _ _ _ _ _ hf _ _ _ ih₁ ih₂ ih =>
    -- the statements of a branch are among those of the block
    have hthen : thenBranch ⊆ (Stmt.cond test thenBranch elseBranch).children := by
      cases elseBranch <;> simp [Stmt.children]
    have helse : elseBranch.getD [] ⊆ (Stmt.cond test thenBranch elseBranch).children := by
      cases elseBranch <;> simp [Stmt.children]
    have htest := (Expr.states_of_toFormula hf).over
      fun x hx => hV.head x (.inr ⟨test, by simp [Stmt.exprs], hx⟩)
    obtain ⟨hps, hsus₁⟩ := ih₁ (hV.part hthen)
    obtain ⟨hqs, hsus₂⟩ := ih₂ (hV.part helse)
    obtain ⟨hrest, hsus'⟩ := ih hV.tail
    refine ⟨List.forall_mem_cons.mpr ⟨?_, hrest⟩, ?_⟩
    · simpa [htest] using ⟨hps, hqs⟩
    · simp only [List.forall_mem_append]
      exact ⟨⟨hsus₁, hsus₂⟩, hsus'⟩
  | @block body rest _ _ _ _ _ _ _ _ _ _ ih₁ ih =>
    have hbody : body ⊆ (Stmt.block body).children := by simp [Stmt.children]
    obtain ⟨hps, hsus⟩ := ih₁ (hV.part hbody)
    obtain ⟨hrest, hsus'⟩ := ih hV.tail
    refine ⟨List.forall_mem_cons.mpr ⟨?_, hrest⟩, List.forall_mem_append.mpr ⟨hsus, hsus'⟩⟩
    simpa using hps

end Scope

/-! ## Compiled code -/

theorem resolveFrom_over {answer : Suspension → Except Error Formula} {n : Nat}
    {sus : List Suspension} {res : Resolution} (h : resolveFrom answer n sus = .ok res)
    (hanswer : ∀ s ∈ sus, ∀ f, answer s = .ok f → f.Over V) : res.Over V := by
  fun_induction resolveFrom answer n sus generalizing res with
  | case1 n =>
    cases h
    exact List.forall_mem_nil _
  | case2 | case3 => cases h
  | case4 n s rest f hf res hres ih =>
    cases h
    rw [List.forall_mem_cons] at hanswer
    exact List.forall_mem_cons.mpr ⟨hanswer.1 f hf, ih hres hanswer.2⟩

/-- Code behind an opening program, its placeholders resolved by formulas over the variables. What
is said about a suspension may depend on the calls that are pending there. -/
theorem Scope.Compiles.over {scope : Scope} (h : scope.Over V)
    {answer : Suspension → Except Error Formula} {front program : Program} {b : Block}
    {calls : CallSet} (hcode : scope.Compiles answer front b program calls)
    (hanswer : ∀ s, s.guard.Over V → (∀ sig ∈ s.calls, b.PendsInside sig) →
      ∀ f, answer s = .ok f → f.Over V)
    (hfront : front.Over V false) (hb : b.Within V) : program.Over V false := by
  obtain ⟨ps, sus, res, hlow, hres, hprogram⟩ := hcode
  obtain ⟨hps, hsus⟩ := hlow.over h hb
  have hover : res.Over V := resolveFrom_over hres fun s hs =>
    hanswer s (hsus s hs) fun sig hsig => hlow.pendsInside hs hsig
  refine Program.Over.resolve hover ?_ hprogram
  rw [Program.over_andThen, Program.over_sequence]
  exact ⟨hfront, hps⟩

theorem Scope.Compiles.pendsOn {scope : Scope} {answer : Suspension → Except Error Formula}
    {front program : Program} {b : Block} {calls : CallSet}
    (h : scope.Compiles answer front b program calls) {sig : Signature} (hsig : sig ∈ calls) :
    PendsOn (b.paths 0) sig := by
  obtain ⟨ps, sus, res, hlow, -, -⟩ := h
  exact hlow.pendsOn hsig

/-! ## Leading guards -/

theorem Method.body_eq {m : Method} {guard : Guard} (h : m.leadingGuard = some guard) :
    m.body = .await guard :: m.afterGuard := by
  have hafter : m.afterGuard = m.body.tail := by rw [Method.afterGuard, h]
  rw [hafter]
  unfold Method.leadingGuard at h
  split at h
  · next hbody =>
    cases h
    rw [hbody, List.tail_cons]
  · next hbody =>
    cases h
    rw [hbody, List.tail_cons]
  · cases h

theorem Method.afterGuard_eq {m : Method} (h : m.leadingGuard = none) : m.afterGuard = m.body := by
  rw [Method.afterGuard, h]

/-- The fields and variables of the leading guards of some methods satisfy `V`. -/
def LeadingWithin (V : String → Prop) (methods : List Method) : Prop :=
  ∀ m ∈ methods, ∀ guard, m.leadingGuard = some guard →
    ∀ e ∈ guard.exprs, ∀ x, e.Mentions x → V x

theorem leadingGuards_over {methods : List Method} {guards : List (Signature × Formula)}
    (h : leadingGuards methods = .ok guards) (hclock : V clockVar)
    (hV : LeadingWithin V methods) : ∀ f ∈ guards.map Prod.snd, f.Over V := by
  fun_induction leadingGuards methods generalizing guards with
  | case1 =>
    cases h
    simp
  | case2 m methods _ ih => exact ih h (List.forall_mem_cons.mp hV).2
  | case3 | case4 => cases h
  | case5 m methods guard hguard f hf rest hrest ih =>
    cases h
    obtain ⟨hm, hmethods⟩ := List.forall_mem_cons.mp hV
    rw [List.map_cons, List.forall_mem_cons]
    exact ⟨(Guard.states_of_toFormula hf).over hclock (hm guard hguard), ih hrest hmethods⟩

/-- The fields and variables of the conditions that some calls wait for satisfy `V`. -/
def Class.AwaitsWithin (V : String → Prop) (pending : Signature → Prop) (c : Class) : Prop :=
  ∀ sig, pending sig → ∀ m cond, c.methodBySig? sig = some m →
    m.leadingGuard = some (.differential cond) → ∀ x, cond.Mentions x → V x

theorem Class.AwaitsWithin.over {c : Class} {pending : Signature → Prop}
    (h : c.AwaitsWithin V pending) {sigs : List Signature} (hsigs : ∀ sig ∈ sigs, pending sig)
    {f : Formula} (hf : c.Guards sigs f) : f.Over V := by
  obtain ⟨sig, hsig, m, cond, hm, hlead, hf⟩ := hf
  exact (Expr.states_of_toFormula hf).over (h sig (hsigs sig hsig) m cond hm hlead)

/-! ## Regions and problems -/

@[simp] theorem over_applyPredicate (parameters : List String) (name : String) :
    (applyPredicate parameters name).Over V ↔ ∀ x ∈ parameters, V x := by
  simp only [applyPredicate, Formula.Over, List.forall_mem_append, List.forall_mem_map, Term.Over,
    and_self]

/-- What a problem declares, the parameters of its predicates, and the variables of its statement
and of its predicates. -/
structure Problem.Over (declared parameters : List String) (V W : String → Prop)
    (problem : Problem) : Prop where
  declared : problem.declared = declared
  parameters : problem.parameters = parameters
  statement : problem.statement.Over V
  predicates : ∀ predicate ∈ problem.predicates, predicate.2.Over W

/-- What a profile adds to the variables of the code of its class, where the given calls may be
pending: those of its scope, of its equations, and of the guards that the strategy in effect
excludes. -/
structure Profile.Over (V : String → Prop) (pending : Signature → Prop) (p : Profile) : Prop where
  scope : p.scope.Over V
  ode : p.ode.Over V
  guards : p.strategy ≠ .basic → p.owner.AwaitsWithin V pending
  control : p.strategy = .controlled → ∀ f ∈ p.controllerGuards, f.Over V

namespace Profile

variable {p : Profile} {pending : Signature → Prop}

theorem Over.excludedGuards (h : p.Over V pending) (hstrategy : p.strategy ≠ .basic)
    {calls : CallSet} (hcalls : ∀ sig ∈ calls, pending sig) {guards : List Formula}
    (hguards : Profile.excludedGuards p.owner calls.members = .ok guards) :
    ∀ g ∈ guards, g.Over V := by
  intro g hg
  obtain ⟨f, hf, rfl⟩ := (mem_excludedGuards_iff hguards).mp hg
  rw [Formula.Over]
  exact (h.guards hstrategy).over hcalls hf

theorem Over.domain (h : p.Over V pending) {extra domain : Formula} {calls : CallSet}
    (hcalls : ∀ sig ∈ calls, pending sig) (hextra : extra.Over V)
    (hdomain : p.domain extra calls = .ok domain) : domain.Over V := by
  rcases domain_eq_ok hdomain with ⟨-, rfl⟩ | ⟨guards, hguards, ⟨hs, rfl⟩ | ⟨hs, rfl⟩⟩
  · simp
  · have hexcluded := h.excludedGuards (by simp [hs]) hcalls hguards
    simpa [hextra] using hexcluded
  · have hexcluded := h.excludedGuards (by simp [hs]) hcalls hguards
    have hcontrol := h.control hs
    simp only [Formula.over_both, Formula.over_conj, Formula.Over, controllerRegion,
      Formula.over_disj]
    exact ⟨⟨hexcluded, hextra⟩, hcontrol⟩

theorem Over.region (h : p.Over V pending) {extra : Formula} {calls : CallSet} {region : Program}
    (hcalls : ∀ sig ∈ calls, pending sig) (hextra : extra.Over V)
    (hregion : p.region extra calls = .ok region) : region.Over V false := by
  obtain ⟨domain, hdomain, rfl⟩ := region_eq_ok hregion
  rw [Program.over_timedEvolution]
  exact ⟨h.scope.ghosts clockVar (by decide), h.ode, h.domain hcalls hextra hdomain⟩

theorem Over.waiting (h : p.Over V pending) {s : Suspension} (hs : s.guard.Over V)
    (hcalls : ∀ sig ∈ s.calls, pending sig) {f : Formula}
    (hf : p.waiting p.invariant s = .ok f) : f.Over V := by
  obtain ⟨domain, hdomain, rfl⟩ := waiting_eq_ok hf
  rw [Formula.Over, Program.over_timedEvolution]
  exact ⟨⟨h.scope.ghosts clockVar (by decide), h.ode, h.domain hcalls hs hdomain⟩,
    h.scope.invariant⟩

/-- Code of the class, whose suspensions are resolved by regions. -/
theorem Over.code (h : p.Over V pending) {front program : Program} {b : Block} {calls : CallSet}
    (hcode : p.scope.Compiles (p.waiting p.invariant) front b program calls)
    (hpending : ∀ sig, b.PendsInside sig → pending sig) (hfront : front.Over V false)
    (hb : b.Within V) : program.Over V false :=
  hcode.over h.scope
    (fun _ hs hcalls _ hf => h.waiting hs (fun sig hsig => hpending sig (hcalls sig hsig)) hf)
    hfront hb

/-- The code of a method behind its leading guard. -/
theorem Over.methodCode (h : p.Over V pending) {m : Method} {entry : Formula} {program : Program}
    {calls : CallSet} (hm : Block.Within V m.body) (hentry : m.entry = .ok entry)
    (hcode : p.scope.Compiles (p.waiting p.invariant) (.test entry) m.afterGuard program calls)
    (hpending : ∀ sig, Block.PendsInside m.afterGuard sig → pending sig) :
    program.Over V false := by
  refine h.code hcode hpending ?_ ?_
  · rw [Program.Over]
    unfold Method.entry at hentry
    split at hentry
    · cases hentry
      simp
    · next guard hguard =>
      rw [Method.body_eq hguard] at hm
      split at hentry
      · next f hf =>
        cases hentry
        refine (Guard.states_of_toFormula hf).over (h.scope.ghosts clockVar (by decide)) ?_
        exact fun e he x hx => hm.head x (.inr ⟨e, he, hx⟩)
      · cases hentry
  · cases hguard : m.leadingGuard with
    | none => rwa [Method.afterGuard_eq hguard]
    | some guard =>
      rw [Method.body_eq hguard] at hm
      exact hm.tail

theorem Over.contractProblem (h : p.Over V pending) {parameters : List String}
    {pre post : Formula} {program : Program} {tail : CallSet} {tactic : String} {problem : Problem}
    (hproblem : p.contractProblem parameters pre post program tail tactic = .ok problem)
    (htail : ∀ sig ∈ tail, pending sig)
    (hparameters : ∀ x ∈ parameters, V x ∧ W (derivativeName x)) (hprogram : program.Over V false)
    (hpre : pre.Over W) (hpost : post.Over W) : problem.Over parameters parameters V W := by
  obtain ⟨region, hregion, rfl⟩ := contractProblem_eq_ok hproblem
  have hafter := h.region htail (by simp) hregion
  have hnames : ∀ x ∈ parameters, V x := fun x hx => (hparameters x hx).1
  have hcopies : ∀ x ∈ parameters, W (derivativeName x) := fun x hx => (hparameters x hx).2
  refine ⟨rfl, rfl, ?_, ?_⟩
  · simp only [Formula.Over, over_applyPredicate, Formula.over_both]
    exact ⟨hnames, hprogram, hnames, hafter, h.scope.invariant⟩
  · simp only [List.forall_mem_cons, List.not_mem_nil, false_implies, implies_true, and_true]
    exact ⟨hpre.renamePrimes hcopies, hpost.renamePrimes hcopies⟩

end Profile

theorem PhysicalField.equation_eq_ok {className : String} {f : PhysicalField}
    {equation : String × Term} (h : f.equation className = .ok equation) :
    equation.1 = f.name ∧ f.ode.rhs.toTerm = .ok equation.2 := by
  revert h
  fun_cases PhysicalField.equation className f with
  | case1 own _ rhs hrhs =>
    intro h
    cases h
    exact ⟨rfl, hrhs⟩
  | case2 | case3 =>
    intro h
    cases h

theorem equationsOf_over {className : String} {fields : List PhysicalField}
    {equations : List (String × Term)} (h : equationsOf className fields = .ok equations)
    (hV : ∀ f ∈ fields, V f.name ∧ ∀ x, f.ode.rhs.Mentions x → V x) : Ode.Over V ⟨equations⟩ := by
  fun_induction equationsOf className fields generalizing equations with
  | case1 =>
    cases h
    exact List.forall_mem_nil _
  | case2 | case3 => cases h
  | case4 f fields equation hequation equations hequations ih =>
    cases h
    obtain ⟨hf, hfields⟩ := List.forall_mem_cons.mp hV
    obtain ⟨hname, hrhs⟩ := PhysicalField.equation_eq_ok hequation
    refine List.forall_mem_cons.mpr ⟨⟨?_, ?_⟩, ih hequations hfields⟩
    · rw [hname]
      exact hf.1
    · exact (Expr.denotes_of_toTerm hrhs).over hf.2

theorem Profile.IsOf.over_controllerGuards {p : Profile} {model : Model} {c : Class}
    {requested : Strategy} (h : p.IsOf model c requested) (hclock : V clockVar)
    (hV : c.isControllable = true → LeadingWithin V c.controllerMethods) :
    ∀ f ∈ p.controllerGuards, f.Over V := by
  obtain ⟨controllers, hcontrollers, -, hguards, -⟩ := h.control
  rw [hguards]
  unfold Class.controllers at hcontrollers
  split at hcontrollers
  · next hc => exact leadingGuards_over hcontrollers hclock (hV hc)
  · cases hcontrollers
    simp

theorem Profile.IsOf.scope_over {p : Profile} {model : Model} {c : Class} {requested : Strategy}
    (h : p.IsOf model c requested) (hghosts : ∀ x ∈ ghostVars, V x)
    (hfields : ∀ x ∈ c.fieldNames, V x) : p.scope.Over V where
  ghosts := hghosts
  shared := by
    intro x hx
    rw [Profile.scope, h.owner_eq, Class.sharedVariables, mem_firstOccurrences_iff,
      List.mem_append] at hx
    rcases hx with hx | hx
    · exact hfields x hx
    · exact hghosts x (List.mem_cons_of_mem _ hx)
  invariant := by
    obtain ⟨physical, -, hinv⟩ := h.invariant
    exact ((answers_clauseFormula _ _).ok hinv).over

/-- The variables that the profile of a class adds to those of its code: ghost variables, fields,
and what equations, the guards of pending calls and those of controllers mention. -/
theorem Profile.IsOf.over {p : Profile} {model : Model} {c : Class} {requested : Strategy}
    {pending : Signature → Prop} (h : p.IsOf model c requested) (hghosts : ∀ x ∈ ghostVars, V x)
    (hfields : ∀ x ∈ c.fieldNames, V x)
    (hode : ∀ f ∈ c.physicalFields, ∀ x, f.ode.rhs.Mentions x → V x)
    (hguards : p.strategy ≠ .basic → c.AwaitsWithin V pending)
    (hcontrol : p.strategy = .controlled → c.isControllable = true →
      LeadingWithin V c.controllerMethods) : p.Over V pending where
  scope := h.scope_over hghosts hfields
  ode := by
    refine equationsOf_over h.equations fun f hf => ⟨hfields f.name ?_, hode f hf⟩
    exact List.mem_append_right _ (List.mem_map_of_mem hf)
  guards := by
    rw [h.owner_eq]
    exact hguards
  control := fun hstrategy => h.over_controllerGuards (hghosts clockVar (by decide))
    (hcontrol hstrategy)

/-! ## Obligations -/

/-- The self-call is pending somewhere where time may pass while an object is initialized: it is a
call of the initializer, or the call of `run` after it. -/
def Class.PendsInitially (c : Class) (sig : Signature) : Prop :=
  Block.Pends (c.init.getD []) sig ∨ ∃ run, c.runMethod? = some run ∧ sig = run.sig

theorem initialValues_over {fields : List (String × Expr)} {equations : List Formula}
    (h : Profile.initialValues fields = .ok equations)
    (hV : ∀ entry ∈ fields, V entry.1 ∧ ∀ x, entry.2.Mentions x → V x) :
    ∀ f ∈ equations, f.Over V := by
  fun_induction Profile.initialValues fields generalizing equations with
  | case1 =>
    cases h
    simp
  | case2 | case3 => cases h
  | case4 name value rest term hterm equations hequations ih =>
    cases h
    obtain ⟨hfirst, hrest⟩ := List.forall_mem_cons.mp hV
    refine List.forall_mem_cons.mpr ⟨?_, ih hequations hrest⟩
    rw [Formula.Over]
    exact ⟨hfirst.1, (Expr.denotes_of_toTerm hterm).over hfirst.2⟩

namespace Profile

variable {p : Profile} {m : Method} {o : Obligation} {problem : Problem} {log log' : Log}

theorem methodPrecondition_over (h : p.scope.Over W) {requires : Formula}
    (hrequires : requires.Over W) : (p.methodPrecondition requires).Over W := by
  have hcontract := h.ghosts contractVar (by decide)
  have hclock := h.ghosts clockVar (by decide)
  have hinv : p.invariant.Over W := h.invariant
  simp [methodPrecondition, hinv, hrequires, hcontract, hclock]

theorem Over.methodObligation (h : p.Over V (Block.Pends m.afterGuard)) (hscope : p.scope.Over W)
    (hm : Block.Within V m.body)
    (hparameters : ∀ x ∈ p.methodParameters m, V x ∧ W (derivativeName x))
    (ho : p.methodObligation m log = .ok o log') (hproblem : o.problem = some problem) :
    problem.Over (p.methodParameters m) (p.methodParameters m) V W := by
  obtain ⟨requires, ensures, entry, program, calls, _, hreq, hens, hentry, hcode, hcontract⟩ :=
    methodObligation_eq_ok ho hproblem
  refine h.contractProblem hcontract (fun sig hsig => .inr (hcode.pendsOn hsig)) hparameters
    (h.methodCode hm hentry hcode fun sig => .inl) ?_ ?_
  · exact methodPrecondition_over hscope ((p.answers_clauseOf m .requires).ok hreq).over
  · have hone := hscope.ghosts contractVar (by decide)
    have hinv : p.invariant.Over W := hscope.invariant
    simp [hone, hinv, ((p.answers_clauseOf m .ensures).ok hens).over]

/-- The calls pending after the initializer are its own and the call of `run`. -/
theorem pendsInitially_of_mem {answer : Suspension → Except Error Formula} {front program : Program}
    {calls : CallSet} (h : p.scope.Compiles answer front (p.owner.init.getD []) program calls)
    {sig : Signature} (hsig : sig ∈ pendingAfterInit p.owner calls) :
    p.owner.PendsInitially sig := by
  unfold pendingAfterInit at hsig
  split at hsig
  · next run hrun =>
    rcases CallSet.mem_insert.mp hsig with rfl | hsig
    · exact .inr ⟨run, hrun, rfl⟩
    · exact .inl (.inr (h.pendsOn hsig))
  · exact .inl (.inr (h.pendsOn hsig))

theorem Over.initObligation (h : p.Over V p.owner.PendsInitially) (hscope : p.scope.Over W)
    (hinit : Block.Within V (p.owner.init.getD [])) {parameters : List String}
    (heq : programVariables (p.owner.fieldNames ++ Block.localNames (p.owner.init.getD [])) =
      parameters)
    (hparameters : ∀ x ∈ parameters, V x ∧ W (derivativeName x))
    (hvalues : ∀ entry ∈ initializedFields p.owner, W entry.1 ∧ ∀ x, entry.2.Mentions x → W x)
    (hpre : p.precondition.Over W) (ho : p.initObligation log = .ok o log')
    (hproblem : o.problem = some problem) : problem.Over parameters parameters V W := by
  obtain ⟨initial, program, calls, _, _, hinitial, hcode, hcontract, rfl⟩ :=
    initObligation_eq_ok ho
  cases hproblem
  rw [heq] at hcontract
  have hone := hscope.ghosts contractVar (by decide)
  refine h.contractProblem hcontract (fun sig => pendsInitially_of_mem hcode) hparameters
    (h.code hcode (fun sig hsig => .inl (.inl hsig)) (by simp) hinit) ?_ ?_
  · rw [Formula.over_conj, List.forall_mem_append, List.forall_mem_cons, Formula.over_varEq,
      List.forall_mem_singleton]
    exact ⟨⟨hone, initialValues_over hinitial hvalues⟩, hpre⟩
  · rw [Formula.over_varEq]
    exact hone

theorem Over.zenoObligation (h : p.Over V (Block.PendsInside m.afterGuard))
    (hscope : p.scope.Over W)
    (hm : Block.Within V m.body)
    (hparameters : ∀ x ∈ p.methodParameters m, V x ∧ W (derivativeName x)) (hzeno : V zenoVar)
    (hcontrol : ∀ f ∈ p.controllerGuards, f.Over V) (ho : p.zenoObligation m log = .ok o log')
    (hproblem : o.problem = some problem) :
    problem.Over (p.methodParameters m ++ [zenoVar]) (p.methodParameters m) V W := by
  obtain ⟨requires, entry, program, calls, _, hreq, hentry, hcode, rfl⟩ := zenoObligation_eq_ok ho
  cases hproblem
  have hprogram := h.methodCode hm hentry hcode fun sig hsig => hsig
  have hclock := h.scope.ghosts clockVar (by decide)
  refine ⟨rfl, rfl, ?_, List.forall_mem_singleton.mpr ?_⟩
  · simp only [Formula.Over, over_applyPredicate, Formula.over_both, Program.over_andThen,
      Program.over_timedEvolution, Term.Over, controllerRegion, Formula.over_disj]
    exact ⟨fun x hx => (hparameters x hx).1, hzeno, ⟨hzeno, trivial⟩,
      ⟨hprogram, hclock, h.ode, hclock, hzeno⟩, hcontrol⟩
  · exact (methodPrecondition_over hscope
      ((p.answers_clauseOf m .requires).ok hreq).over).renamePrimes fun x hx => (hparameters x hx).2

end Profile

theorem Model.over_mainObligation {model : Model} {o : Obligation} {problem : Problem}
    {log log' : Log} (hghosts : ∀ x ∈ ghostVars, V x)
    (hbody : ∀ body, model.mainBlock? = some body → body.Within V)
    (ho : model.mainObligation log = .ok o log') (hproblem : o.problem = some problem) :
    ∃ body, model.mainBlock? = some body ∧
      problem.Over (programVariables body.localNames) [] V W := by
  obtain ⟨body, program, calls, hmain, hcode, rfl⟩ := Model.mainObligation_eq_ok ho
  cases hproblem
  have hscope : model.mainScope.Over V :=
    { ghosts := hghosts
      shared := fun x hx => hghosts x (List.mem_cons_of_mem _ hx)
      invariant := by simp [Model.mainScope] }
  have hprogram := hcode.over hscope (fun _ _ _ f hf => by cases hf; simp) (by simp)
    (hbody body hmain)
  have hcontract := hghosts contractVar (by decide)
  refine ⟨body, hmain, rfl, rfl, ?_, List.forall_mem_nil _⟩
  simp [hcontract, hprogram]

end

end HybridObjects
