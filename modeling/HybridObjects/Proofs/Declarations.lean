import HybridObjects.Proofs.Variables

/-!
# HybridObjects.Proofs.Declarations

Which variables an obligation declares. `declares_or_borrows`: in the obligations of a class whose
code is well scoped, every variable is declared and belongs to the code at hand, to the class or to
the ghost variables, or it is borrowed: a parameter or local variable of some other method that the
leading guard of that method reads. Domains take over the guards of the methods that pending calls
will run, and those of controllers, as they stand, without the arguments of the calls. So a borrowed
variable may not be declared, and where it is, it is confused with a variable of the same name.

* `Block.WellScoped`, `Class.WellScoped` — every use has a declaration.
* `Block.Owns`          — the variables that may occur on account of a block.
* `Class.Lends`         — the variables that the guards of callees and controllers bring in.
* `Problem.Accounts`    — every variable of a problem is declared or brought in.
-/

namespace HybridObjects

/-! ## Scoping -/

/-- Some statement of the block declares the variable. -/
def Block.Declares (b : Block) (x : String) : Prop :=
  ∃ s ∈ b.stmts, ∃ type init, s = .declare x type init

/-- The fields that a block uses or writes are among `fields`; its local variables are among
`params` or declared in it. -/
structure Block.WellScoped (fields params : List String) (b : Block) : Prop where
  reads : ∀ s ∈ b.stmts, ∀ e ∈ s.exprs, ∀ x, .field x ∈ e.walk → x ∈ fields
  writes : ∀ s ∈ b.stmts, ∀ x value, s = .assign (.field x) value → x ∈ fields
  locals : ∀ x ∈ b.localNames, x ∈ params ∨ b.Declares x

/-- The code of a class is well scoped, and its initial values and equations name fields only. -/
structure Class.WellScoped (c : Class) : Prop where
  methods : ∀ m ∈ c.methods, Block.WellScoped c.fieldNames (m.sig.params.map Param.name) m.body
  init : Block.WellScoped c.fieldNames [] (c.init.getD [])
  values : ∀ entry ∈ Profile.initializedFields c, ∀ x, entry.2.Mentions x → x ∈ c.fieldNames
  equations : ∀ f ∈ c.physicalFields, ∀ x, f.ode.rhs.Mentions x → x ∈ c.fieldNames

/-- The variables of a block in a class with the given fields: ghost variables, fields, its
parameters and those that it declares. -/
def Block.Owns (fields params : List String) (b : Block) (x : String) : Prop :=
  x ∈ ghostVars ∨ x ∈ fields ∨ x ∈ params ∨ b.Declares x

/-- A parameter or local variable of a method that its leading guard reads. -/
structure Method.Lends (m : Method) (guard : Guard) (x : String) : Prop where
  leading : m.leadingGuard = some guard
  read : ∃ e ∈ guard.exprs, .var x ∈ e.walk
  own : x ∈ m.sig.params.map Param.name ∨ Block.Declares m.body x

/-- A method that one of the pending calls will run lends the variable: it waits for a condition on
the continuous state first. -/
def Class.CalleeLends (c : Class) (pending : Signature → Prop) (x : String) : Prop :=
  ∃ sig m cond, pending sig ∧ c.methodBySig? sig = some m ∧ m.Lends (.differential cond) x

def Class.ControllerLends (c : Class) (x : String) : Prop :=
  c.isControllable = true ∧ ∃ m ∈ c.controllerMethods, ∃ guard, m.Lends guard x

/-- The variables that evolution domains bring in under a strategy. -/
def Class.Lends (c : Class) (strategy : Strategy) (pending : Signature → Prop) (x : String) :
    Prop :=
  strategy ≠ .basic ∧ c.CalleeLends pending x ∨ strategy = .controlled ∧ c.ControllerLends x

theorem mem_programVariables_iff {names : List String} {x : String} :
    x ∈ programVariables names ↔ x ∈ ghostVars ∨ x ∈ names := by
  rw [programVariables, mem_firstOccurrences_iff, List.mem_append]

namespace Block

variable {fields params : List String} {b : Block}

theorem WellScoped.within (h : b.WellScoped fields params) :
    b.Within fun x => x ∈ fields ∨ x ∈ b.localNames := by
  have hlocal : ∀ s ∈ b.stmts, ∀ x, s.boundName? = some x → x ∈ b.localNames :=
    fun s hs x hx => mem_localNames_iff.mpr ⟨s, hs, .inl hx⟩
  rintro s hs x (htarget | ⟨e, he, hfield | hvar⟩)
  · cases s with
    | assign target value =>
      cases htarget
      cases target with
      | field name => exact .inl (h.writes _ hs name value rfl)
      | var name => exact .inr (hlocal _ hs name rfl)
    | declare name type init =>
      cases htarget
      exact .inr (hlocal _ hs x rfl)
    | _ => cases htarget
  · exact .inl (h.reads s hs e he x hfield)
  · exact .inr (mem_localNames_iff.mpr ⟨s, hs, .inr ⟨e, he, hvar⟩⟩)

/-- A list of variables that is made for a block in a class. -/
structure Lists (fields params : List String) (b : Block) (names : List String) : Prop where
  mem_iff : ∀ x, x ∈ names ↔ x ∈ ghostVars ∨ x ∈ fields ∨ x ∈ b.localNames ∨ x ∈ params

variable {names : List String}

theorem Lists.of_field (h : Lists fields params b names) {x : String} (hx : x ∈ fields) :
    x ∈ names :=
  (h.mem_iff x).mpr (.inr (.inl hx))

theorem Lists.owns (h : Lists fields params b names) (hb : b.WellScoped fields params) :
    ∀ x ∈ names, b.Owns fields params x := by
  intro x hx
  rcases (h.mem_iff x).mp hx with hx | hx | hx | hx
  · exact .inl hx
  · exact .inr (.inl hx)
  · exact .inr (.inr (hb.locals x hx))
  · exact .inr (.inr (.inl hx))

theorem Lists.within (h : Lists fields params b names) (hb : b.WellScoped fields params)
    {V : String → Prop} (hV : ∀ x ∈ names, V x) : b.Within V := by
  intro s hs x hx
  refine hV x ((h.mem_iff x).mpr ?_)
  rcases hb.within s hs x hx with hx | hx
  · exact .inr (.inl hx)
  · exact .inr (.inr (.inl hx))

end Block

namespace Class.WellScoped

variable {c : Class} {m : Method} {guard : Guard} {V : String → Prop}

/-- What the leading guard of a method mentions are fields and variables that the method lends. -/
theorem of_mentions (h : c.WellScoped) (hm : m ∈ c.methods) (hguard : m.leadingGuard = some guard)
    {e : Expr} (he : e ∈ guard.exprs) {x : String} (hx : e.Mentions x) :
    x ∈ c.fieldNames ∨ m.Lends guard x := by
  have hscoped := h.methods m hm
  have hstmt : Stmt.await guard ∈ Block.stmts m.body := by
    rw [Method.body_eq hguard, Block.stmts_cons]
    exact List.mem_append_left _ (Stmt.mem_walk_self _)
  rcases hx with hx | hx
  · exact .inl (hscoped.reads _ hstmt e he x hx)
  · have hlocal := Block.mem_localNames_iff.mpr ⟨_, hstmt, .inr ⟨e, he, hx⟩⟩
    exact .inr ⟨hguard, ⟨e, he, hx⟩, hscoped.locals x hlocal⟩

theorem awaitsWithin (h : c.WellScoped) {pending : Signature → Prop}
    (hfields : ∀ x ∈ c.fieldNames, V x) (hlent : ∀ x, c.CalleeLends pending x → V x) :
    c.AwaitsWithin V pending := by
  intro sig hsig m cond hm hlead x hx
  have hcond : cond ∈ (Guard.differential cond).exprs := by simp [Guard.exprs]
  rcases h.of_mentions (List.mem_of_find?_eq_some hm) hlead hcond hx with hx | hx
  · exact hfields x hx
  · exact hlent x ⟨sig, m, cond, hsig, hm, hx⟩

theorem leadingWithin (h : c.WellScoped) (hc : c.isControllable = true)
    (hfields : ∀ x ∈ c.fieldNames, V x) (hlent : ∀ x, c.ControllerLends x → V x) :
    LeadingWithin V c.controllerMethods := by
  intro m hm guard hguard e he x hx
  rcases h.of_mentions (List.mem_of_mem_filter hm) hguard he hx with hx | hx
  · exact hfields x hx
  · exact hlent x ⟨hc, m, hm, guard, hx⟩

end Class.WellScoped

/-! ## Problems -/

/-- The variable is listed and satisfies `own`, or it satisfies `lent`. -/
def Accounted (names : List String) (own lent : String → Prop) (x : String) : Prop :=
  x ∈ names ∧ own x ∨ lent x

/-- Every variable of a problem is declared and satisfies `own`, or is one that satisfies `lent` in
the statement, and one that is the derivative copy of a parameter in the predicates. -/
structure Problem.Accounts (problem : Problem) (own lent : String → Prop) : Prop where
  statement : problem.statement.Over (Accounted problem.declared own lent)
  predicates : ∀ predicate ∈ problem.predicates, predicate.2.Over
    (Accounted problem.declared own fun x => ∃ y ∈ problem.parameters, x = derivativeName y)

theorem Problem.Over.accounts {problem : Problem} {names parameters : List String}
    {own lent : String → Prop}
    (h : problem.Over names parameters (Accounted names own lent)
      (Accounted names own fun x => ∃ y ∈ parameters, x = derivativeName y)) :
    problem.Accounts own lent := by
  obtain ⟨rfl, rfl, hstatement, hpredicates⟩ := h
  exact ⟨hstatement, hpredicates⟩

theorem Profile.initializedFields_mem {c : Class} {entry : String × Expr}
    (h : entry ∈ initializedFields c) : entry.1 ∈ c.fieldNames := by
  rw [initializedFields, List.mem_append, List.mem_filterMap, List.mem_map] at h
  rw [Class.fieldNames]
  rcases h with ⟨f, hf, hentry⟩ | ⟨f, hf, rfl⟩
  · obtain ⟨_, -, rfl⟩ := Option.map_eq_some_iff.mp hentry
    exact List.mem_append_left _ (List.mem_append_right _ (List.mem_map_of_mem hf))
  · exact List.mem_append_right _ (List.mem_map_of_mem hf)

namespace Profile

variable {p : Profile} {model : Model} {c : Class} {requested : Strategy} {V : String → Prop}
  {pending : Signature → Prop} {o : Obligation} {problem : Problem} {log log' : Log}

/-- The profile of a class is over every list made for its code, and the variables lent. -/
theorem IsOf.over_lists {params : List String} {b : Block} {names : List String}
    (h : p.IsOf model c requested) (hc : c.WellScoped)
    (hnames : b.Lists c.fieldNames params names) (hV : ∀ x ∈ names, V x)
    (hlent : ∀ x, c.Lends p.strategy pending x → V x) : p.Over V pending := by
  have hghosts : ∀ x ∈ ghostVars, V x := fun x hx => hV x ((hnames.mem_iff x).mpr (.inl hx))
  have hfields : ∀ x ∈ c.fieldNames, V x :=
    fun x hx => hV x (hnames.of_field hx)
  refine h.over hghosts hfields (fun f hf x hx => hfields x (hc.equations f hf x hx)) ?_ ?_
  · intro hstrategy
    exact hc.awaitsWithin hfields fun x hx => hlent x (.inl ⟨hstrategy, hx⟩)
  · intro hstrategy hcontrollable
    exact hc.leadingWithin hcontrollable hfields fun x hx => hlent x (.inr ⟨hstrategy, hx⟩)

theorem IsOf.lists_methodParameters (h : p.IsOf model c requested) (m : Method) :
    Block.Lists c.fieldNames (m.sig.params.map Param.name) m.body (p.methodParameters m) := by
  constructor
  intro x
  rw [methodParameters, h.owner_eq, mem_programVariables_iff, List.mem_append, List.mem_append,
    or_assoc]

theorem IsOf.scope_over_lists {params : List String} {b : Block} {names : List String}
    (h : p.IsOf model c requested) (hnames : b.Lists c.fieldNames params names)
    (hV : ∀ x ∈ names, V x) : p.scope.Over V :=
  h.scope_over (fun x hx => hV x ((hnames.mem_iff x).mpr (.inl hx)))
    fun x hx => hV x (hnames.of_field hx)

/-- The code of a class and its profile, over the variables of the code and the variables lent. -/
theorem IsOf.over_code {params : List String} {b : Block} {names : List String}
    (h : p.IsOf model c requested) (hc : c.WellScoped) (hb : b.WellScoped c.fieldNames params)
    (hnames : b.Lists c.fieldNames params names) (pending : Signature → Prop) :
    p.Over (Accounted names (b.Owns c.fieldNames params) (c.Lends p.strategy pending)) pending ∧
      b.Within (Accounted names (b.Owns c.fieldNames params) (c.Lends p.strategy pending)) := by
  have hown := hnames.owns hb
  constructor
  · exact h.over_lists hc hnames (fun x hx => .inl ⟨hx, hown x hx⟩) fun x hx => .inr hx
  · exact hnames.within hb fun x hx => .inl ⟨hx, hown x hx⟩

theorem IsOf.accounts_method (h : p.IsOf model c requested) (hc : c.WellScoped) {m : Method}
    (hm : m ∈ c.methods) (ho : p.methodObligation m log = .ok o log')
    (hproblem : o.problem = some problem) :
    problem.Accounts (Block.Owns c.fieldNames (m.sig.params.map Param.name) m.body)
      (c.Lends p.strategy (Block.Pends m.afterGuard)) := by
  have hlists := h.lists_methodParameters m
  have hown := hlists.owns (hc.methods m hm)
  obtain ⟨hover, hbody⟩ := h.over_code hc (hc.methods m hm) hlists (Block.Pends m.afterGuard)
  exact (hover.methodObligation (h.scope_over_lists hlists fun x hx => .inl ⟨hx, hown x hx⟩) hbody
    (fun x hx => ⟨.inl ⟨hx, hown x hx⟩, .inr ⟨x, hx, rfl⟩⟩) ho hproblem).accounts

theorem IsOf.accounts_init (h : p.IsOf model c requested) (hc : c.WellScoped)
    (ho : p.initObligation log = .ok o log') (hproblem : o.problem = some problem) :
    problem.Accounts (Block.Owns c.fieldNames [] (c.init.getD []))
      (c.Lends p.strategy c.PendsInitially) := by
  obtain rfl := h.owner_eq
  have hlists : Block.Lists p.owner.fieldNames [] (p.owner.init.getD [])
      (programVariables (p.owner.fieldNames ++ Block.localNames (p.owner.init.getD []))) := by
    constructor
    intro x
    rw [mem_programVariables_iff, List.mem_append]
    simp
  have hown := hlists.owns hc.init
  obtain ⟨hover, hbody⟩ := h.over_code hc hc.init hlists p.owner.PendsInitially
  have hfield : ∀ x ∈ p.owner.fieldNames,
      x ∈ _ ∧ Block.Owns p.owner.fieldNames [] (p.owner.init.getD []) x :=
    fun x hx => ⟨hlists.of_field hx, hown x (hlists.of_field hx)⟩
  refine (hover.initObligation (h.scope_over_lists hlists fun x hx => .inl ⟨hx, hown x hx⟩)
    hbody rfl (fun x hx => ⟨.inl ⟨hx, hown x hx⟩, .inr ⟨x, hx, rfl⟩⟩) ?_
    ((answers_clauseFormula _ _).ok h.precondition).over ho hproblem).accounts
  exact fun entry hentry => ⟨.inl (hfield _ (initializedFields_mem hentry)),
    fun x hx => .inl (hfield x (hc.values entry hentry x hx))⟩

/-- The guards of controllers are brought in under every strategy. -/
theorem IsOf.accounts_zeno (h : p.IsOf model c requested) (hc : c.WellScoped) {m : Method}
    (hm : m ∈ c.methods) (ho : p.zenoObligation m log = .ok o log')
    (hproblem : o.problem = some problem) :
    problem.Accounts
      (fun x => x = zenoVar ∨ Block.Owns c.fieldNames (m.sig.params.map Param.name) m.body x)
      (fun x => c.ControllerLends x ∨
        c.Lends p.strategy (Block.PendsInside m.afterGuard) x) := by
  have hlists := h.lists_methodParameters m
  have hown := hlists.owns (hc.methods m hm)
  have hnames : ∀ x ∈ p.methodParameters m, x ∈ p.methodParameters m ++ [zenoVar] ∧
      (x = zenoVar ∨ Block.Owns c.fieldNames (m.sig.params.map Param.name) m.body x) :=
    fun x hx => ⟨List.mem_append_left _ hx, .inr (hown x hx)⟩
  refine Problem.Over.accounts (Over.zenoObligation ?_ ?_ ?_ ?_ ?_ ?_ ho hproblem)
  · exact h.over_lists hc hlists (fun x hx => .inl (hnames x hx)) fun x hx => .inr (.inr hx)
  · exact h.scope_over_lists hlists fun x hx => .inl (hnames x hx)
  · exact hlists.within (hc.methods m hm) fun x hx => .inl (hnames x hx)
  · exact fun x hx => ⟨.inl (hnames x hx), .inr ⟨x, hx, rfl⟩⟩
  · exact .inl ⟨by simp, .inl rfl⟩
  · have hclock : clockVar ∈ p.methodParameters m := (hlists.mem_iff _).mpr (.inl (by decide))
    refine h.over_controllerGuards (.inl (hnames clockVar hclock)) fun hcontrollable => ?_
    exact hc.leadingWithin hcontrollable (fun x hx => .inl (hnames x (hlists.of_field hx)))
      fun x hx => .inr (.inl hx)

end Profile

theorem Model.accounts_main {model : Model} {o : Obligation} {problem : Problem} {log log' : Log}
    (hmain : ∀ body, model.mainBlock? = some body → Block.WellScoped [] [] body)
    (ho : model.mainObligation log = .ok o log') (hproblem : o.problem = some problem) :
    ∃ body, model.mainBlock? = some body ∧
      problem.Accounts (Block.Owns [] [] body) fun _ => False := by
  obtain ⟨body, program, calls, hbody, -⟩ := Model.mainObligation_eq_ok ho
  have hscoped := hmain body hbody
  have hlists : Block.Lists [] [] body (programVariables body.localNames) := by
    constructor
    intro x
    rw [mem_programVariables_iff]
    simp
  have hnames : ∀ x ∈ programVariables body.localNames,
      Accounted (programVariables body.localNames) (Block.Owns [] [] body) (fun _ => False) x :=
    fun x hx => .inl ⟨hx, hlists.owns hscoped x hx⟩
  obtain ⟨body', hbody', hover⟩ := Model.over_mainObligation
    (fun x hx => hnames x ((hlists.mem_iff x).mpr (.inl hx)))
    (fun body' hbody' => by
      rw [hbody] at hbody'
      cases hbody'
      exact hlists.within hscoped hnames) ho hproblem
  rw [hbody] at hbody'
  cases hbody'
  exact ⟨body, hbody, hover.accounts⟩

/-- Every variable of an obligation of well-scoped code is declared in it and a variable of the code
at hand, or it is borrowed: a variable that the leading guard of another method reads. In the
obligations of methods and initializers these are the guards of the methods that pending calls will
run, unless the strategy is basic, and those of controllers under control. In the obligations of
controllers, of which there is one for each, the guards of all controllers occur under every
strategy. The obligation of the main block borrows nothing. -/
theorem declares_or_borrows {model : Model} {c : Class} {requested : Strategy} {p : Profile}
    {log log' : Log} (hprofile : Profile.of model c requested log = .ok p log')
    (hc : c.WellScoped)
    (hmain : ∀ body, model.mainBlock? = some body → Block.WellScoped [] [] body) :
    (∀ m ∈ c.methods, ∀ o log₁ log₂, p.methodObligation m log₁ = .ok o log₂ →
      ∀ problem, o.problem = some problem →
        problem.Accounts (Block.Owns c.fieldNames (m.sig.params.map Param.name) m.body)
          (c.Lends p.strategy (Block.Pends m.afterGuard))) ∧
    (∀ o log₁ log₂, p.initObligation log₁ = .ok o log₂ → ∀ problem, o.problem = some problem →
      problem.Accounts (Block.Owns c.fieldNames [] (c.init.getD []))
        (c.Lends p.strategy c.PendsInitially)) ∧
    (∀ check log₁ log₂, p.zenoCheck log₁ = .ok check log₂ →
      List.Forall₂
        (fun m o => ∀ problem, o.problem = some problem →
          problem.Accounts
            (fun x => x = zenoVar ∨ Block.Owns c.fieldNames (m.sig.params.map Param.name) m.body x)
            (fun x => c.ControllerLends x ∨
              c.Lends p.strategy (Block.PendsInside m.afterGuard) x))
        (c.methods.filter fun m => p.isController m.sig) check.obligations) ∧
    (∀ o log₁ log₂, model.mainObligation log₁ = .ok o log₂ →
      ∀ problem, o.problem = some problem → ∃ body, model.mainBlock? = some body ∧
        problem.Accounts (Block.Owns [] [] body) fun _ => False) := by
  have h := Profile.isOf_of hprofile
  refine ⟨fun m hm o _ _ ho problem => h.accounts_method hc hm ho,
    fun o _ _ ho problem => h.accounts_init hc ho, ?_, ?_⟩
  · intro check _ _ hcheck
    have heach := Profile.zenoCheck_eq_ok hcheck
    rw [h.owner_eq] at heach
    have hmem : ∀ m ∈ c.methods.filter (fun m => p.isController m.sig), m ∈ c.methods :=
      fun m => List.mem_of_mem_filter
    refine ((List.forall₂_and_left _ _).mpr ⟨hmem, heach⟩).imp ?_
    rintro m o ⟨hm, _, _, ho⟩ problem hproblem
    exact h.accounts_zeno hc hm ho hproblem
  · intro o _ _ ho problem hproblem
    exact Model.accounts_main hmain ho hproblem

/-! ## A pump that waits for a given level -/

/-- Waits until the level is `n` and lets the water out. -/
def Method.drain : Method :=
  ⟨⟨"drain", [⟨"n", "Int"⟩]⟩,
    [.await (.differential (.binary .ge (.field "x") (.var "n"))),
      .assign (.field "x") (.pure (.int "0"))], []⟩

/-- Calls for the water to be let out at the level 5. -/
def Method.start : Method :=
  ⟨⟨"start", []⟩, [.eval (.effect (.asyncCall .this none Method.drain.sig [.int "5"]))], []⟩

/-- A class in which the level `x` grows with slope one. -/
def Class.pump : Class :=
  { name := "Pump"
    params := []
    fields := []
    physical := some
      { fields := [⟨"x", .int "0", ⟨.derivative (.field "x"), .int "1"⟩⟩]
        annotations := [⟨"ABS.DC.HybridSpec", .construct "ObjInv" [.string "x >= 0"]⟩] }
    init := none
    methods := [.drain, .start]
    implements := []
    annotations := [] }

def Model.pump : Model :=
  ⟨[⟨"M", [], [.pump], none⟩]⟩

def Profile.pump : Profile :=
  { model := .pump
    owner := .pump
    strategy := .uniform
    ode := ⟨[("x", .num "1")]⟩
    invariant := .raw "x >= 0"
    precondition := .verum
    controllers := []
    controllerGuards := [] }

theorem Class.wellScoped_pump : Class.pump.WellScoped where
  methods := by
    have hdrain : Block.WellScoped ["x"] ["n"] Method.drain.body := by
      have hstmts : Block.stmts Method.drain.body = Method.drain.body := rfl
      have hlocals : Block.localNames Method.drain.body = ["n"] := rfl
      constructor
      · rw [hstmts]
        simp [Method.drain, Stmt.exprs, Guard.exprs, Rhs.exprs, Expr.walk, Expr.walkFrom,
          Expr.size, Expr.children]
      · rw [hstmts]
        simp [Method.drain]
      · rw [hlocals]
        simp
    have hstart : Block.WellScoped ["x"] [] Method.start.body := by
      have hstmts : Block.stmts Method.start.body = Method.start.body := rfl
      have hlocals : Block.localNames Method.start.body = [] := rfl
      constructor
      · rw [hstmts]
        simp [Method.start, Stmt.exprs, Rhs.exprs, Effect.exprs, Expr.walk, Expr.walkFrom,
          Expr.size]
      · rw [hstmts]
        simp [Method.start]
      · rw [hlocals]
        simp
    simpa [Class.pump] using ⟨hdrain, hstart⟩
  init := by
    constructor <;> simp [Class.pump, Block.stmts, Block.localNames, firstOccurrences]
  values := by
    simp [Profile.initializedFields, Class.pump, Class.physicalFields, Expr.Mentions, Expr.walk,
      Expr.walkFrom, Expr.size]
  equations := by
    simp [Class.pump, Class.physicalFields, Expr.Mentions, Expr.walk, Expr.walkFrom, Expr.size]

/-- The call of `drain` is pending after `start`. -/
theorem Block.pends_start : Block.Pends Method.start.afterGuard Method.drain.sig := by
  refine .inr ?_
  have hpaths : Block.paths 0 Method.start.afterGuard =
      {[⟨0, .eval (.effect (.asyncCall .this none Method.drain.sig [.int "5"]))⟩]} := by
    simp [Method.start, Method.afterGuard, Method.leadingGuard, Block.paths_cons, Block.paths_nil,
      Stmt.paths]
  rw [hpaths]
  refine ⟨⟨_, rfl⟩, ?_⟩
  rintro path rfl
  simp [pendingAfter, Stmt.pending, Stmt.isSuspension, Stmt.effect?, Expr.isThis]

theorem Class.lends_pump : Class.pump.Lends .uniform (Block.Pends Method.start.afterGuard) "n" := by
  have hguard : Method.drain.Lends (.differential (.binary .ge (.field "x") (.var "n"))) "n" :=
    { leading := rfl
      read := ⟨_, List.mem_singleton_self _, by
        simp [Expr.walk, Expr.walkFrom, Expr.size, Expr.children]⟩
      own := .inl (by decide) }
  exact .inl ⟨by decide, Method.drain.sig, .drain, _, Block.pends_start, rfl, hguard⟩

/-- The code of the pump is well scoped; but the obligation of `start` speaks of the parameter of
`drain`, which it does not declare. -/
theorem declares_or_borrows_pump : ∃ log log' problem,
    Profile.of .pump .pump .uniform [] = .ok .pump log ∧ Class.pump.WellScoped ∧
      Profile.pump.methodObligation .start log =
        .ok ⟨"Pump", "start", some problem⟩ log' ∧
      problem.Accounts (Block.Owns ["x"] [] Method.start.body)
        (Class.pump.Lends .uniform (Block.Pends Method.start.afterGuard)) ∧
      Class.pump.Lends .uniform (Block.Pends Method.start.afterGuard) "n" ∧
      problem.declared = ["contract", "result", "tv", "x"] ∧
      ¬ problem.statement.Over (· ∈ problem.declared) := by
  have hprofile : ∃ log, Profile.of .pump .pump .uniform [] = .ok .pump log := ⟨_, rfl⟩
  obtain ⟨log, hprofile⟩ := hprofile
  have hobligation : ∃ log' problem,
      Profile.pump.methodObligation .start log = .ok ⟨"Pump", "start", some problem⟩ log' ∧
        problem.declared = ["contract", "result", "tv", "x"] ∧
        ∃ pre program post, problem.statement = .implies pre (.box program (.and post
          (.box (.seq (.assign "tv" (.num "0")) (.evolve ⟨[("x", .num "1"), ("tv", .num "1")]⟩
            (.not (.cmp .ge (.var "x") (.var "n"))))) (.raw "x >= 0")))) :=
    ⟨_, _, rfl, rfl, _, _, _, rfl⟩
  obtain ⟨log', problem, hobligation, hdeclared, pre, program, post, hstatement⟩ := hobligation
  have haccounts := (declares_or_borrows hprofile Class.wellScoped_pump
    (fun body hbody => by cases hbody)).1 .start (by simp [Class.pump]) _ _ _ hobligation _ rfl
  refine ⟨log, log', problem, hprofile, Class.wellScoped_pump, hobligation, haccounts,
    Class.lends_pump, hdeclared, ?_⟩
  rw [hstatement, hdeclared]
  simp

end HybridObjects
