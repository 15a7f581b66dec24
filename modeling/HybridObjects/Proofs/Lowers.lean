import HybridObjects.Proofs.Outcome
import HybridObjects.Proofs.Paths

/-!
# HybridObjects.Proofs.Lowers

What a successful lowering can return, as a derivation. `Scope.Lowers` follows a block statement by
statement: the programs of its statements, the self-calls pending after it and the suspensions met
in it. All facts about lowered blocks are proved by induction on such derivations.

* `Scope.LowersEffect`, `Scope.LowersAssign`, `Scope.LowersAtom` — one step of the lowering.
* `Scope.Lowers`       — a block; an absent else branch is an empty one.
* `Scope.lowers_of_lowerBlock` — every successful lowering has a derivation.
-/

namespace HybridObjects

namespace Scope

/-! ## Derivations -/

/-- How an effect is lowered when `n` suspensions have been met before it. -/
inductive LowersEffect (scope : Scope) (n : Nat) (calls : CallSet) :
    Effect → Lowered → List Suspension → Prop where
  | call {callee : Expr} {interface : Option String} {method : Signature} {args : List Expr}
      {found : Option Formula} :
      scope.model.callPrecondition scope.owner callee interface method args = .ok found →
      LowersEffect scope n calls (.asyncCall callee interface method args)
        ⟨contractCheck (found.getD .verum),
          if callee.isThis then calls.insert method else calls⟩ []
  | create {className : String} {args : List Expr} {pre : Formula} :
      scope.model.creationPrecondition className args = .ok pre →
      LowersEffect scope n calls (.create className args) ⟨contractCheck pre, calls⟩ []
  | get {future : Expr} :
      LowersEffect scope n calls (.get future) ⟨scope.resumption ⟨n⟩ .verum, .empty⟩
        [⟨.verum, calls, true⟩]

/-- How an assignment to a variable is lowered. -/
inductive LowersAssign (scope : Scope) (n : Nat) (calls : CallSet) (target : String) :
    Rhs → Lowered → List Suspension → Prop where
  | pure {e : Expr} {term : Term} : e.toTerm = .ok term →
      LowersAssign scope n calls target (.pure e) ⟨.assign target term, calls⟩ []
  | effect {e : Effect} {lowered : Lowered} {sus : List Suspension} :
      LowersEffect scope n calls e lowered sus →
      LowersAssign scope n calls target (.effect e)
        ⟨lowered.program.andThen (.havoc target), lowered.calls⟩ sus

/-- How a statement without statements inside is lowered. -/
inductive LowersAtom (scope : Scope) (n : Nat) (calls : CallSet) :
    Stmt → Lowered → List Suspension → Prop where
  | skip : LowersAtom scope n calls .skip ⟨.skip, calls⟩ []
  | assign {target : Place} {value : Rhs} {lowered : Lowered} {sus : List Suspension} :
      LowersAssign scope n calls target.name value lowered sus →
      LowersAtom scope n calls (.assign target value) lowered sus
  | declare {name type : String} {value : Rhs} {lowered : Lowered} {sus : List Suspension} :
      LowersAssign scope n calls name value lowered sus →
      LowersAtom scope n calls (.declare name type (some value)) lowered sus
  | declareOnly {name type : String} :
      LowersAtom scope n calls (.declare name type none) ⟨.havoc name, calls⟩ []
  | ret {e : Expr} {term : Term} : e.toTerm = .ok term →
      LowersAtom scope n calls (.ret e) ⟨.assign resultVar term, calls⟩ []
  | evalPure {e : Expr} : LowersAtom scope n calls (.eval (.pure e)) ⟨.skip, calls⟩ []
  | evalEffect {e : Effect} {lowered : Lowered} {sus : List Suspension} :
      LowersEffect scope n calls e lowered sus →
      LowersAtom scope n calls (.eval (.effect e)) lowered sus
  | await {g : Guard} {guard : Formula} : g.toFormula = .ok guard →
      LowersAtom scope n calls (.await g) ⟨scope.resumption ⟨n⟩ guard, .empty⟩
        [⟨guard, calls, false⟩]

/-- How a block is lowered: from the calls pending before it and the number of suspensions met
before it, to the programs of its statements, the calls pending after it and its suspensions. -/
inductive Lowers (scope : Scope) :
    Block → CallSet → Nat → List Program → CallSet → List Suspension → Prop where
  | nil {calls : CallSet} {n : Nat} : Lowers scope [] calls n [] calls []
  | atom {s : Stmt} {rest : Block} {calls after : CallSet} {n : Nat} {lowered : Lowered}
      {ps : List Program} {sus sus' : List Suspension} :
      LowersAtom scope n calls s lowered sus →
      Lowers scope rest lowered.calls (n + sus.length) ps after sus' →
      Lowers scope (s :: rest) calls n (lowered.program :: ps) after (sus ++ sus')
  | cond {test : Expr} {f : Formula} {thenBranch rest : Block} {elseBranch : Option Block}
      {calls calls₁ calls₂ after : CallSet} {n : Nat} {ps qs rs : List Program}
      {sus₁ sus₂ sus' : List Suspension} :
      test.toFormula = .ok f →
      Lowers scope thenBranch calls n ps calls₁ sus₁ →
      Lowers scope (elseBranch.getD []) calls (n + sus₁.length) qs calls₂ sus₂ →
      Lowers scope rest (calls₁.inter calls₂) (n + (sus₁ ++ sus₂).length) rs after sus' →
      Lowers scope (.cond test thenBranch elseBranch :: rest) calls n
        (.branch (.andThen (.test f) (.sequence ps))
          (.andThen (.test (.not f)) (.sequence qs)) :: rs) after (sus₁ ++ sus₂ ++ sus')
  | block {body rest : Block} {calls calls₁ after : CallSet} {n : Nat} {ps qs : List Program}
      {sus sus' : List Suspension} :
      Lowers scope body calls n ps calls₁ sus →
      Lowers scope rest calls₁ (n + sus.length) qs after sus' →
      Lowers scope (.block body :: rest) calls n (.sequence ps :: qs) after (sus ++ sus')

/-! ## Every successful lowering has a derivation -/

variable {scope : Scope}

theorem suspend_eq_ok {guard : Formula} {calls : CallSet} {blocking : Bool}
    {st st' : LoweringState} {lowered : Lowered}
    (h : scope.suspend guard calls blocking st = .ok lowered st') :
    lowered = ⟨scope.resumption ⟨st.suspensions.length⟩ guard, .empty⟩ ∧
      st'.suspensions = st.suspensions ++ [⟨guard, calls, blocking⟩] := by
  simp only [suspend, bind_eq_ok, pure_eq_ok] at h
  obtain ⟨id, st₁, hmint, _, st₂, hnote, rfl, rfl⟩ := h
  cases hmint
  cases hnote
  exact ⟨rfl, rfl⟩

theorem lowerEffect_eq_ok {e : Effect} {calls : CallSet} {st st' : LoweringState}
    {lowered : Lowered} (h : scope.lowerEffect e calls st = .ok lowered st') :
    ∃ sus, LowersEffect scope st.suspensions.length calls e lowered sus ∧
      st'.suspensions = st.suspensions ++ sus := by
  cases e with
  | asyncCall callee interface method args =>
    obtain ⟨found, _, hlift, h⟩ := bind_eq_ok.mp h
    obtain ⟨hfound, rfl⟩ := Lowering.lift_eq_ok.mp hlift
    cases found with
    | some pre =>
      simp only [bind_eq_ok, pure_eq_ok] at h
      obtain ⟨_, _, ⟨rfl, rfl⟩, rfl, rfl⟩ := h
      exact ⟨[], .call hfound, by simp⟩
    | none =>
      -- the note on the missing precondition changes only the log
      simp only [bind_eq_ok, pure_eq_ok] at h
      obtain ⟨_, _, hnote, _, _, ⟨rfl, rfl⟩, rfl, rfl⟩ := h
      cases hnote
      exact ⟨[], .call hfound, by simp⟩
  | syncCall callee interface method args => exact absurd h throw_ne_ok
  | create className args =>
    simp only [lowerEffect, bind_eq_ok, pure_eq_ok, Lowering.lift_eq_ok] at h
    obtain ⟨pre, _, ⟨hpre, rfl⟩, rfl, rfl⟩ := h
    exact ⟨[], .create hpre, by simp⟩
  | get future =>
    obtain ⟨rfl, hst⟩ := suspend_eq_ok h
    exact ⟨_, .get, hst⟩

theorem lowerAssign_eq_ok {target : String} {value : Rhs} {calls : CallSet}
    {st st' : LoweringState} {lowered : Lowered}
    (h : scope.lowerAssign target value calls st = .ok lowered st') :
    ∃ sus, LowersAssign scope st.suspensions.length calls target value lowered sus ∧
      st'.suspensions = st.suspensions ++ sus := by
  cases value with
  | pure e =>
    simp only [lowerAssign, bind_eq_ok, pure_eq_ok, Lowering.liftExpr_eq_ok] at h
    obtain ⟨term, _, ⟨hterm, rfl⟩, rfl, rfl⟩ := h
    exact ⟨[], .pure hterm, by simp⟩
  | effect e =>
    simp only [lowerAssign, bind_eq_ok, pure_eq_ok] at h
    obtain ⟨inner, _, hinner, rfl, rfl⟩ := h
    obtain ⟨sus, hlow, hst⟩ := lowerEffect_eq_ok hinner
    exact ⟨sus, .effect hlow, hst⟩

/-- A statement is lowered so that its program can stand in front of what follows it. -/
def LowersHead (scope : Scope) (s : Stmt) (calls : CallSet) (st : LoweringState)
    (lowered : Lowered) (st' : LoweringState) : Prop :=
  ∃ sus, st'.suspensions = st.suspensions ++ sus ∧
    ∀ {rest : Block} {ps : List Program} {after : CallSet} {sus' : List Suspension},
      Lowers scope rest lowered.calls (st.suspensions.length + sus.length) ps after sus' →
      Lowers scope (s :: rest) calls st.suspensions.length (lowered.program :: ps) after
        (sus ++ sus')

theorem lowersHead_of_atom {s : Stmt} {calls : CallSet} {st st' : LoweringState}
    {lowered : Lowered}
    (h : ∃ sus, LowersAtom scope st.suspensions.length calls s lowered sus ∧
      st'.suspensions = st.suspensions ++ sus) :
    LowersHead scope s calls st lowered st' := by
  obtain ⟨sus, hatom, hst⟩ := h
  exact ⟨sus, hst, fun hrest => .atom hatom hrest⟩

mutual

theorem lowerStmt_eq_ok : ∀ (s : Stmt) {calls : CallSet} {st st' : LoweringState}
    {lowered : Lowered}, scope.lowerStmt s calls st = .ok lowered st' →
    LowersHead scope s calls st lowered st' := by
  intro s calls st st' lowered h
  match s with
  | .skip =>
    obtain ⟨rfl, rfl⟩ := pure_eq_ok.mp h
    exact lowersHead_of_atom ⟨[], .skip, by simp⟩
  | .assign target value =>
    obtain ⟨sus, hlow, hst⟩ := lowerAssign_eq_ok h
    exact lowersHead_of_atom ⟨sus, .assign hlow, hst⟩
  | .declare name type (some value) =>
    obtain ⟨sus, hlow, hst⟩ := lowerAssign_eq_ok h
    exact lowersHead_of_atom ⟨sus, .declare hlow, hst⟩
  | .declare name type none =>
    obtain ⟨rfl, rfl⟩ := pure_eq_ok.mp h
    exact lowersHead_of_atom ⟨[], .declareOnly, by simp⟩
  | .cond test thenBranch none =>
    simp only [lowerStmt, bind_eq_ok, pure_eq_ok, Lowering.liftExpr_eq_ok] at h
    obtain ⟨f, _, ⟨hf, rfl⟩, thenPart, st₁, hthen, rfl, rfl⟩ := h
    obtain ⟨ps, sus, hps, hprog, hst⟩ := lowerStmts_eq_ok thenBranch hthen
    refine ⟨sus, hst, fun hrest => ?_⟩
    rw [hprog]
    have helse : Lowers scope ((none : Option Block).getD []) calls
        (st.suspensions.length + sus.length) [] calls [] := .nil
    have hcond := Lowers.cond hf hps helse (by simpa using hrest)
    rwa [List.append_nil] at hcond
  | .cond test thenBranch (some elseBranch) =>
    simp only [lowerStmt, bind_eq_ok, pure_eq_ok, Lowering.liftExpr_eq_ok] at h
    obtain ⟨f, _, ⟨hf, rfl⟩, thenPart, st₁, hthen, elsePart, st₂, helse, rfl, rfl⟩ := h
    obtain ⟨ps, sus₁, hps, hprog₁, hst₁⟩ := lowerStmts_eq_ok thenBranch hthen
    obtain ⟨qs, sus₂, hqs, hprog₂, hst₂⟩ := lowerStmts_eq_ok elseBranch helse
    rw [hst₁, List.length_append] at hqs
    refine ⟨sus₁ ++ sus₂, by rw [hst₂, hst₁, List.append_assoc], fun hrest => ?_⟩
    rw [hprog₁, hprog₂]
    exact .cond hf hps hqs hrest
  | .block body =>
    obtain ⟨ps, sus, hps, hprog, hst⟩ := lowerStmts_eq_ok body h
    refine ⟨sus, hst, fun hrest => ?_⟩
    rw [hprog]
    exact .block hps hrest
  | .ret e =>
    simp only [lowerStmt, bind_eq_ok, pure_eq_ok, Lowering.liftExpr_eq_ok] at h
    obtain ⟨term, _, ⟨hterm, rfl⟩, rfl, rfl⟩ := h
    exact lowersHead_of_atom ⟨[], .ret hterm, by simp⟩
  | .eval (.pure e) =>
    obtain ⟨rfl, rfl⟩ := pure_eq_ok.mp h
    exact lowersHead_of_atom ⟨[], .evalPure, by simp⟩
  | .eval (.effect e) =>
    obtain ⟨sus, hlow, hst⟩ := lowerEffect_eq_ok h
    exact lowersHead_of_atom ⟨sus, .evalEffect hlow, hst⟩
  | .await g =>
    obtain ⟨guard, _, hlift, h⟩ := bind_eq_ok.mp h
    obtain ⟨hguard, rfl⟩ := Lowering.liftExpr_eq_ok.mp hlift
    obtain ⟨rfl, hst⟩ := suspend_eq_ok h
    exact lowersHead_of_atom ⟨_, .await hguard, hst⟩
  | .loop test body => exact absurd h throw_ne_ok
  | .cases subject branches => exact absurd h throw_ne_ok
  | .duration min max => exact absurd h throw_ne_ok
  | .assert claim => exact absurd h throw_ne_ok

theorem lowerStmts_eq_ok : ∀ (b : Block) {calls : CallSet} {before : Program}
    {st st' : LoweringState} {lowered : Lowered},
    scope.lowerStmts b calls before st = .ok lowered st' →
    ∃ ps sus, Lowers scope b calls st.suspensions.length ps lowered.calls sus ∧
      lowered.program = ps.foldl .andThen before ∧ st'.suspensions = st.suspensions ++ sus := by
  intro b calls before st st' lowered h
  match b with
  | [] =>
    obtain ⟨rfl, rfl⟩ := pure_eq_ok.mp h
    exact ⟨[], [], .nil, rfl, by simp⟩
  | s :: rest =>
    obtain ⟨first, st₁, hfirst, hrest⟩ := bind_eq_ok.mp h
    obtain ⟨sus, hst₁, hhead⟩ := lowerStmt_eq_ok s hfirst
    obtain ⟨ps, sus', hps, hprog, hst'⟩ := lowerStmts_eq_ok rest hrest
    rw [hst₁, List.length_append] at hps
    exact ⟨first.program :: ps, sus ++ sus', hhead hps, hprog,
      by rw [hst', hst₁, List.append_assoc]⟩

end

/-- A successful lowering of a block has a derivation, and its program is the sequence of the
programs of its statements. -/
theorem lowers_of_lowerBlock {b : Block} {calls : CallSet} {st st' : LoweringState}
    {lowered : Lowered} (h : scope.lowerBlock b calls st = .ok lowered st') :
    ∃ ps sus, Lowers scope b calls st.suspensions.length ps lowered.calls sus ∧
      lowered.program = .sequence ps ∧ st'.suspensions = st.suspensions ++ sus :=
  lowerStmts_eq_ok b h

/-! ## The suspensions recorded are those of the text -/

theorem LowersEffect.length_eq {n : Nat} {calls : CallSet} {e : Effect} {lowered : Lowered}
    {sus : List Suspension} (h : LowersEffect scope n calls e lowered sus) :
    sus.length = e.waits := by
  cases h <;> rfl

theorem LowersAssign.length_eq {n : Nat} {calls : CallSet} {target : String} {value : Rhs}
    {lowered : Lowered} {sus : List Suspension}
    (h : LowersAssign scope n calls target value lowered sus) : sus.length = value.waits := by
  cases h with
  | pure _ => rfl
  | effect heff => exact heff.length_eq

theorem LowersAtom.length_eq {n : Nat} {calls : CallSet} {stmt : Stmt} {lowered : Lowered}
    {sus : List Suspension} (h : LowersAtom scope n calls stmt lowered sus) :
    sus.length = stmt.waits := by
  cases h with
  | skip | declareOnly | ret _ | evalPure | await _ => simp [Stmt.waits, Rhs.waits]
  | assign hassign | declare hassign => rw [hassign.length_eq, Stmt.waits]
  | evalEffect heff => rw [heff.length_eq, Stmt.waits, Rhs.waits]

/-- As many suspensions are recorded as the text has. -/
theorem Lowers.length_eq {b : Block} {calls after : CallSet} {n : Nat} {ps : List Program}
    {sus : List Suspension} (h : Lowers scope b calls n ps after sus) :
    sus.length = b.waits := by
  induction h with
  | nil => rfl
  | atom hatom _ ih => rw [List.length_append, hatom.length_eq, ih, Block.waits_cons]
  | cond _ _ _ _ ih₁ ih₂ ih =>
    rw [List.length_append, List.length_append, ih₁, ih₂, ih, Block.waits_cons, Stmt.waits_cond]
  | block _ _ ih₁ ih =>
    rw [List.length_append, ih₁, ih, Block.waits_cons, Stmt.waits_block]

/-! ## A block with every kind of step -/

/-- Outside of all classes, where other processes may change `x`. -/
def outside : Scope :=
  ⟨⟨[]⟩, none, .verum, ["x"]⟩

end Scope

/-- Calls `tick` on both branches and `stop` on one of them, waits for `x` to be positive, and reads
a future. -/
def Block.patrol : Block :=
  [.cond (.binary .gt (.var "x") (.int "0"))
    [.eval (.effect (.asyncCall .this none ⟨"tick", []⟩ []))]
    (some [.eval (.effect (.asyncCall .this none ⟨"stop", []⟩ [])),
      .eval (.effect (.asyncCall .this none ⟨"tick", []⟩ []))]),
    .await (.differential (.binary .gt (.var "x") (.int "0"))),
    .assign (.field "y") (.effect (.get (.var "f")))]

end HybridObjects
