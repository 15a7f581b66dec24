import HybridObjects.Proofs.Translatable

/-!
# HybridObjects.Proofs.Frame

Which variables lowered code may change. `written_exactly`: those that the statements of the block
assign or declare, at any depth; the result slot if it returns; the contract flag if it calls,
creates or waits; and the shared variables if it waits. All other variables keep their values in
every run.

So a block that writes no field itself, waits nowhere and has no local variable with the name of a
field leaves the fields of its class alone, but for a field that has the name of the result slot or
of the contract flag.

* `Program.written`, `Program.Discrete` — what a program assigns or havocs, and whether this is all
  that it changes.
* `Stmt.Writes`                         — what a statement itself writes.
* `Scope.Lowers.mem_written_iff`        — lowered blocks write what their statements write.
-/

namespace HybridObjects

/-! ## Programs -/

namespace Program

/-- The variables that a program assigns or havocs, boxes in its conditions left aside. -/
def written : Program → List String
  | .havoc x | .assign x _ => [x]
  | .seq p q | .choice p q => p.written ++ q.written
  | .group p => p.written
  | .skip | .test _ | .evolve .. => []

/-- The program has no continuous steps. -/
def Discrete : Program → Prop
  | .skip | .havoc _ | .assign .. | .test _ => True
  | .evolve .. => False
  | .seq p q | .choice p q => p.Discrete ∧ q.Discrete
  | .group p => p.Discrete

attribute [simp] written Discrete

theorem collects_written : Collects written where
  skip := rfl
  seq := fun _ _ => rfl

@[simp] theorem written_andThen (p q : Program) :
    (p.andThen q).written = p.written ++ q.written :=
  collects_written.andThen p q

@[simp] theorem written_branch (p q : Program) : (branch p q).written = p.written ++ q.written :=
  rfl

@[simp] theorem written_sequence (ps : List Program) :
    (sequence ps).written = ps.flatMap written :=
  collects_written.sequence ps

@[simp] theorem written_havocAll (vars : List String) : (havocAll vars).written = vars := by
  simp [havocAll, List.flatMap_map]

@[simp] theorem discrete_andThen (p q : Program) :
    (p.andThen q).Discrete ↔ p.Discrete ∧ q.Discrete := by
  unfold andThen
  split <;> simp

@[simp] theorem discrete_branch (p q : Program) :
    (branch p q).Discrete ↔ p.Discrete ∧ q.Discrete := by
  simp [branch]

@[simp] theorem discrete_sequence (ps : List Program) :
    (sequence ps).Discrete ↔ ∀ p ∈ ps, p.Discrete := by
  rw [sequence, foldl_iff discrete_andThen]
  simp

@[simp] theorem discrete_havocAll (vars : List String) : (havocAll vars).Discrete := by
  simp [havocAll]

/-- A run changes nothing but what the program writes. -/
theorem Discrete.value_eq {I : Interp} {x : String} :
    ∀ {p : Program} {s t : Store}, p.Discrete → x ∉ p.written → p.Runs I s t →
      t.value x = s.value x
  | .skip, _, _, _, _, hrun => congrArg (Store.value · x) hrun
  | .test _, _, _, _, _, hrun => congrArg (Store.value · x) hrun.1
  | .havoc y, s, _, _, hx, hrun => by
    obtain ⟨v, rfl⟩ := hrun
    exact Store.set_value_ne s v (by simpa using hx)
  | .assign y value, s, _, _, hx, hrun => by
    obtain rfl := hrun
    exact Store.set_value_ne s _ (by simpa using hx)
  | .seq p q, _, _, hdiscrete, hx, hrun => by
    obtain ⟨u, hp, hq⟩ := hrun
    obtain ⟨hxp, hxq⟩ : x ∉ p.written ∧ x ∉ q.written := by simpa using hx
    rw [Discrete.value_eq hdiscrete.2 hxq hq, Discrete.value_eq hdiscrete.1 hxp hp]
  | .choice p q, _, _, hdiscrete, hx, hrun => by
    obtain ⟨hxp, hxq⟩ : x ∉ p.written ∧ x ∉ q.written := by simpa using hx
    rcases hrun with hp | hq
    · exact Discrete.value_eq hdiscrete.1 hxp hp
    · exact Discrete.value_eq hdiscrete.2 hxq hq
  | .group p, _, _, hdiscrete, hx, hrun => by
    rw [Runs] at hrun
    exact Discrete.value_eq (p := p) hdiscrete hx hrun

end Program

/-! ## Statements -/

namespace Stmt

/-- Whether a statement calls a method without waiting for it, or creates an object. -/
def isChecked (s : Stmt) : Bool :=
  match s.effect? with
  | some (.asyncCall ..) | some (.create ..) => true
  | _ => false

/-- What a statement itself writes, where other processes may change the shared variables. -/
def Writes (shared : List String) (s : Stmt) (x : String) : Prop :=
  s.target? = some x ∨ (x = resultVar ∧ ∃ e, s = .ret e) ∨
    (x = contractVar ∧ (s.isChecked = true ∨ s.isSuspension = true)) ∨
    (x ∈ shared ∧ s.isSuspension = true)

theorem not_writes_cond {shared : List String} {test : Expr} {thenBranch : Block}
    {elseBranch : Option Block} {x : String} :
    ¬ (cond test thenBranch elseBranch).Writes shared x := by
  simp [Writes, target?, isChecked, isSuspension, effect?]

theorem not_writes_block {shared : List String} {body : Block} {x : String} :
    ¬ (block body).Writes shared x := by
  simp [Writes, target?, isChecked, isSuspension, effect?]

end Stmt

namespace Scope

variable {scope : Scope} {n : Nat} {calls : CallSet} {lowered : Lowered} {sus : List Suspension}

theorem mem_written_contractCheck {pre : Formula} {x : String} :
    x ∈ (contractCheck pre).written ↔ x = contractVar := by
  simp [contractCheck]

theorem mem_written_resumption {id : Placeholder} {guard : Formula} {x : String} :
    x ∈ (scope.resumption id guard).written ↔ x = contractVar ∨ x ∈ scope.shared := by
  simp [resumption]
  tauto

theorem LowersEffect.mem_written_iff {e : Effect} (h : LowersEffect scope n calls e lowered sus)
    {x : String} : x ∈ lowered.program.written ↔
      x = contractVar ∨ x ∈ scope.shared ∧ ∃ future, e = .get future := by
  cases h with
  | call | create => simp [mem_written_contractCheck]
  | get => simp [mem_written_resumption]

/-- A statement writes what its program writes. -/
theorem LowersAtom.mem_written_iff {s : Stmt} (h : LowersAtom scope n calls s lowered sus)
    {x : String} : x ∈ lowered.program.written ↔ s.Writes scope.shared x := by
  unfold Stmt.Writes Stmt.isSuspension Stmt.isChecked
  cases h with
  | skip | evalPure => simp [Stmt.target?, Stmt.effect?]
  | assign hassign | declare hassign =>
    cases hassign with
    | pure _ => simp [Stmt.target?, Stmt.effect?, eq_comm]
    | effect heffect =>
      rw [Program.written_andThen, List.mem_append, heffect.mem_written_iff]
      cases heffect <;> simp [Stmt.target?, Stmt.effect?, eq_comm, or_comm]
  | declareOnly => simp [Stmt.target?, Stmt.effect?, eq_comm]
  | ret _ => simp [Stmt.target?, Stmt.effect?]
  | evalEffect heffect =>
    rw [heffect.mem_written_iff]
    cases heffect <;> simp [Stmt.target?, Stmt.effect?]
  | await _ => simp [mem_written_resumption, Stmt.target?]

theorem LowersEffect.discrete {e : Effect} (h : LowersEffect scope n calls e lowered sus) :
    lowered.program.Discrete := by
  cases h <;> simp [contractCheck, resumption]

theorem LowersAtom.discrete {s : Stmt} (h : LowersAtom scope n calls s lowered sus) :
    lowered.program.Discrete := by
  cases h with
  | assign hassign | declare hassign =>
    cases hassign with
    | pure _ => simp
    | effect heffect => simp [heffect.discrete]
  | evalEffect heffect => exact heffect.discrete
  | await _ => simp [resumption]
  | skip | declareOnly | ret _ | evalPure => simp

theorem Lowers.discrete {b : Block} {after : CallSet} {ps : List Program}
    (h : Lowers scope b calls n ps after sus) : ∀ p ∈ ps, p.Discrete := by
  induction h with
  | nil => simp
  | atom hatom _ ih => exact List.forall_mem_cons.mpr ⟨hatom.discrete, ih⟩
  | cond _ _ _ _ ih₁ ih₂ ih => exact List.forall_mem_cons.mpr ⟨by simpa using ⟨ih₁, ih₂⟩, ih⟩
  | block _ _ ih₁ ih => exact List.forall_mem_cons.mpr ⟨by simpa using ih₁, ih⟩

end Scope

theorem Stmt.exists_mem_walk {s : Stmt} {P : Stmt → Prop} :
    (∃ t ∈ s.walk, P t) ↔ P s ∨ ∃ t ∈ Block.stmts s.children, P t := by
  have hwalk : ∀ t, t ∈ s.walk ↔ t = s ∨ t ∈ Block.stmts s.children := by
    intro t
    rw [mem_walk_iff, Block.stmts, List.mem_flatMap]
  simp only [hwalk, or_and_right, exists_or, exists_eq_left]

namespace Block

theorem exists_mem_stmts_cons {s : Stmt} {b : Block} {P : Stmt → Prop} :
    (∃ t ∈ stmts (s :: b), P t) ↔
      P s ∨ (∃ t ∈ stmts s.children, P t) ∨ ∃ t ∈ b.stmts, P t := by
  simp only [stmts_cons, List.mem_append, or_and_right, exists_or, Stmt.exists_mem_walk, or_assoc]

theorem exists_mem_stmts_append {b b' : Block} {P : Stmt → Prop} :
    (∃ t ∈ stmts (b ++ b'), P t) ↔ (∃ t ∈ b.stmts, P t) ∨ ∃ t ∈ b'.stmts, P t := by
  simp only [stmts, List.flatMap_append, List.mem_append, or_and_right, exists_or]

end Block

namespace Scope

/-- The programs of a block write what the statements of the block write, at any depth. -/
theorem Lowers.mem_written_iff {scope : Scope} {n : Nat} {calls after : CallSet} {b : Block}
    {ps : List Program} {sus : List Suspension} (h : Lowers scope b calls n ps after sus)
    {x : String} : x ∈ ps.flatMap Program.written ↔ ∃ s ∈ b.stmts, s.Writes scope.shared x := by
  induction h with
  | nil => simp [Block.stmts]
  | atom hatom _ ih =>
    rw [List.flatMap_cons, List.mem_append, hatom.mem_written_iff, ih, Block.exists_mem_stmts_cons,
      hatom.children_eq]
    simp [Block.stmts]
  | @cond test _ thenBranch _ elseBranch _ _ _ _ _ _ _ _ _ _ _ _ _ _ _ ih₁ ih₂ ih =>
    have hchildren : (Stmt.cond test thenBranch elseBranch).children =
        thenBranch ++ elseBranch.getD [] := by
      cases elseBranch <;> simp [Stmt.children]
    rw [List.flatMap_cons, List.mem_append, ih, Block.exists_mem_stmts_cons, hchildren,
      Block.exists_mem_stmts_append, ← ih₁, ← ih₂]
    simp [Stmt.not_writes_cond]
  | block _ _ ih₁ ih =>
    rw [List.flatMap_cons, List.mem_append, ih, Block.exists_mem_stmts_cons, Stmt.children, ← ih₁]
    simp [Stmt.not_writes_block]

end Scope

/-! ## Blocks -/

namespace Block

variable {b : Block} {shared : List String} {x : String}

/-- The statements of a block write their targets and, as a whole, ghost and shared variables. -/
theorem exists_writes_iff : (∃ s ∈ b.stmts, s.Writes shared x) ↔
    (∃ s ∈ b.stmts, s.target? = some x) ∨ (x = resultVar ∧ ∃ e, Stmt.ret e ∈ b.stmts) ∨
      (x = contractVar ∧ ∃ s ∈ b.stmts, s.isChecked = true ∨ s.isSuspension = true) ∨
      (x ∈ shared ∧ ∃ s ∈ b.stmts, s.isSuspension = true) := by
  simp only [Stmt.Writes, and_or_left, exists_or]
  refine or_congr Iff.rfl (or_congr ?_ (or_congr ?_ ?_))
  · constructor
    · rintro ⟨_, hs, hx, e, rfl⟩
      exact ⟨hx, e, hs⟩
    · rintro ⟨hx, e, hs⟩
      exact ⟨_, hs, hx, e, rfl⟩
  · simp only [and_left_comm, exists_and_left]
  · simp only [and_left_comm, exists_and_left]

/-- The ghost variables that a block writes without waiting: the result slot where it returns, the
contract flag where it calls or creates. -/
def GhostWritten (b : Block) (x : String) : Prop :=
  (x = resultVar ∧ ∃ e, Stmt.ret e ∈ b.stmts) ∨
    (x = contractVar ∧ ∃ s ∈ b.stmts, s.isChecked = true)

/-- No field is assigned, nothing is waited for, and no local variable has the name of a field. -/
structure SparesFields (b : Block) (fields : List String) : Prop where
  writes : b.writesField = false
  waits : ∀ s ∈ b.stmts, s.isSuspension = false
  locals : ∀ s ∈ b.stmts, ∀ x ∈ fields, s.boundName? ≠ some x

theorem SparesFields.target?_ne {fields : List String} (h : b.SparesFields fields) {s : Stmt}
    (hs : s ∈ b.stmts) (hx : x ∈ fields) : s.target? ≠ some x := by
  have hwrites : s.writesField = false := by
    simpa using List.any_eq_false.mp h.writes s hs
  have hlocal := h.locals s hs x hx
  cases s with
  | assign target value =>
    cases target with
    | field name => cases hwrites
    | var name => exact hlocal
  | declare name type init => exact hlocal
  | _ => simp [Stmt.target?]

theorem SparesFields.exists_writes_iff {fields : List String} (h : b.SparesFields fields)
    (hx : x ∈ fields) : (∃ s ∈ b.stmts, s.Writes shared x) ↔ b.GhostWritten x := by
  have htarget : ¬ ∃ s ∈ b.stmts, s.target? = some x := by
    rintro ⟨s, hs, htarget⟩
    exact h.target?_ne hs hx htarget
  have hwaits : ¬ ∃ s ∈ b.stmts, s.isSuspension = true := by
    rintro ⟨s, hs, hwait⟩
    rw [h.waits s hs] at hwait
    cases hwait
  rw [Block.exists_writes_iff]
  simp [htarget, hwaits, and_or_left, exists_or, GhostWritten]

end Block

namespace Scope

variable {scope : Scope} {b : Block} {calls : CallSet} {st st' : LoweringState} {lowered : Lowered}

theorem mem_written_lowerBlock_iff (h : scope.lowerBlock b calls st = .ok lowered st')
    {x : String} :
    x ∈ lowered.program.written ↔ ∃ s ∈ b.stmts, s.Writes scope.shared x := by
  obtain ⟨ps, sus, hlow, hprog, -⟩ := lowers_of_lowerBlock h
  rw [hprog, Program.written_sequence, hlow.mem_written_iff]

theorem discrete_lowerBlock (h : scope.lowerBlock b calls st = .ok lowered st') :
    lowered.program.Discrete := by
  obtain ⟨ps, sus, hlow, hprog, -⟩ := lowers_of_lowerBlock h
  rw [hprog, Program.discrete_sequence]
  exact hlow.discrete

end Scope

/-- What lowered code writes, exactly: what its statements assign or declare, at any depth, the
result slot if it returns, the contract flag if it calls, creates or waits, and the shared variables
if it waits. Nothing else changes in a run.

A block that assigns no field, waits nowhere and binds no local variable with the name of a field
writes a field only if this is a ghost variable that it writes; all other fields of the class keep
their values in every run. -/
theorem written_exactly {scope : Scope} {b : Block} {calls : CallSet} {st st' : LoweringState}
    {lowered : Lowered} (h : scope.lowerBlock b calls st = .ok lowered st') :
    (∀ x, x ∈ lowered.program.written ↔
        (∃ s ∈ b.stmts, s.target? = some x) ∨ (x = resultVar ∧ ∃ e, Stmt.ret e ∈ b.stmts) ∨
          (x = contractVar ∧ ∃ s ∈ b.stmts, s.isChecked = true ∨ s.isSuspension = true) ∨
          (x ∈ scope.shared ∧ ∃ s ∈ b.stmts, s.isSuspension = true)) ∧
      (∀ I s t, lowered.program.Runs I s t →
        ∀ x, x ∉ lowered.program.written → t.value x = s.value x) ∧
      ∀ c : Class, b.SparesFields c.fieldNames → ∀ x ∈ c.fieldNames,
        (x ∈ lowered.program.written ↔ b.GhostWritten x) ∧
          (¬ b.GhostWritten x →
            ∀ I s t, lowered.program.Runs I s t → t.value x = s.value x) := by
  have hframe : ∀ I s t, lowered.program.Runs I s t →
      ∀ x, x ∉ lowered.program.written → t.value x = s.value x :=
    fun I s t hrun x hx => (Scope.discrete_lowerBlock h).value_eq hx hrun
  refine ⟨fun x => ?_, hframe, fun c hspares x hx => ?_⟩
  · rw [Scope.mem_written_lowerBlock_iff h, Block.exists_writes_iff]
  · have hghost : x ∈ lowered.program.written ↔ b.GhostWritten x := by
      rw [Scope.mem_written_lowerBlock_iff h, hspares.exists_writes_iff hx]
    exact ⟨hghost, fun hnot I s t hrun => hframe I s t hrun x fun hmem => hnot (hghost.mp hmem)⟩

/-! ## A gauge whose reading is called like the result slot -/

/-- Returns the reading, increased by one. -/
def Method.peek : Method :=
  ⟨⟨"peek", []⟩, [.ret (.binary .add (.field "result") (.int "1"))], []⟩

def Class.gauge : Class :=
  { name := "Gauge"
    params := []
    fields := [⟨"result", "Int", some (.int "0")⟩, ⟨"limit", "Int", some (.int "9")⟩]
    physical := none
    init := none
    methods := [.peek]
    implements := []
    annotations := [] }

def Scope.gauge : Scope :=
  ⟨⟨[⟨"M", [], [.gauge], none⟩]⟩, some .gauge, .verum, []⟩

/-- The method writes no field, waits nowhere and has no local variables. It keeps the limit, but
its program overwrites the reading, which is no ghost variable. -/
theorem written_exactly_gauge : ∃ lowered st',
    Scope.gauge.lowerBlock Method.peek.body .empty .empty = .ok lowered st' ∧
      Block.SparesFields Method.peek.body Class.gauge.fieldNames ∧
      (∀ x, x ∈ lowered.program.written ↔ x = "result") ∧
      (∀ I s t, lowered.program.Runs I s t → t.value "limit" = s.value "limit") ∧
      ∃ I s t, lowered.program.Runs I s t ∧ t.value "result" ≠ s.value "result" := by
  have hlower : ∃ lowered st', Scope.gauge.lowerBlock Method.peek.body .empty .empty =
      .ok lowered st' ∧ lowered.program = .assign "result" (.bin .add (.var "result") (.num "1")) :=
    ⟨_, _, rfl, rfl⟩
  obtain ⟨lowered, st', h, hprog⟩ := hlower
  have hstmts : Block.stmts Method.peek.body = Method.peek.body := rfl
  have hspares : Block.SparesFields Method.peek.body Class.gauge.fieldNames := by
    refine ⟨rfl, ?_, ?_⟩ <;> rw [hstmts] <;>
      simp [Method.peek, Stmt.isSuspension, Stmt.effect?, Stmt.boundName?]
  have hlimit : ¬ Block.GhostWritten Method.peek.body "limit" := by
    simp [Block.GhostWritten, resultVar, contractVar]
  refine ⟨lowered, st', h, hspares, fun x => ?_,
    ((written_exactly h).2.2 .gauge hspares "limit" (by decide)).2 hlimit, ?_⟩
  · rw [(written_exactly h).1 x, hstmts]
    simp [Method.peek, Stmt.target?, Stmt.isChecked, Stmt.isSuspension, Stmt.effect?, Scope.gauge,
      resultVar]
  · -- from zero, with the literal read as one
    let I : Interp := ⟨fun _ => 1, fun a _ => a, fun _ _ => True, fun _ _ => True, fun _ _ => True,
      fun _ _ _ _ => False⟩
    let s : Store := ⟨fun _ => 0, fun _ => 0⟩
    refine ⟨I, s, s.set "result" (0 + 1), ?_, by simp [s]⟩
    rw [hprog]
    rfl

end HybridObjects
