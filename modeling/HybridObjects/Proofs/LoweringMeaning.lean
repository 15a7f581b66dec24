import HybridObjects.Proofs.Execution
import HybridObjects.Proofs.Fragment
import HybridObjects.Proofs.Lowers

/-!
# HybridObjects.Proofs.LoweringMeaning

The program of a block means what the block does. `runs_lowerBlock_iff`: whenever a block is
lowered, its program leads from one store to another exactly if the block does, whatever number
literals, clause texts and placeholders are read as.

The proof goes up in layers: values of expressions, contract checks, suspensions, effects, single
statements (`Scope.LowersAtom.runs_iff`), and blocks by induction on the derivation of their lowering
(`Scope.Lowers.runs_iff`).
-/

namespace HybridObjects

variable {I : Interp}

/-! ## Expressions -/

theorem BinOp.arith_of_toArith? {op : BinOp} {o : ArithOp} (h : op.toArith? = some o) (a b : ℝ) :
    op.arith I a b = some (o.apply I a b) := by
  cases op <;> cases h <;> rfl

theorem BinOp.compare_of_toCmp? {op : BinOp} {o : CmpOp} (h : op.toCmp? = some o) (a b : ℝ) :
    op.compare a b = some (o.Rel a b) := by
  cases op <;> cases h <;> rfl

theorem Expr.Denotes.value_eq {e : Expr} {t : Term} (h : e.Denotes t) (s : Store) :
    e.value I s = some (t.value I s) := by
  induction h with
  | int | float | field | var | slopeOfField | slopeOfVar => rfl
  | binary ho _ _ ihl ihr =>
    rw [Expr.value, ihl, ihr]
    exact BinOp.arith_of_toArith? ho _ _
  | neg _ ih =>
    rw [Expr.value, ih]
    rfl

theorem Expr.truth_binary_of_toCmp? {op : BinOp} {o : CmpOp} {lhs rhs : Expr} {s : Store}
    {a b : ℝ} (ho : op.toCmp? = some o) (ha : lhs.value I s = some a) (hb : rhs.value I s = some b) :
    (Expr.binary op lhs rhs).truth I s = some (o.Rel a b) := by
  rw [← BinOp.compare_of_toCmp? ho]
  cases op with
  | and => cases ho
  | or => cases ho
  | _ => simp [Expr.truth, ha, hb]

theorem Expr.States.truth_eq {e : Expr} {f : Formula} (h : e.States f) (s : Store) :
    e.truth I s = some (f.Holds I s) := by
  induction h with
  | verum | falsum => simp [Expr.truth, Formula.Holds]
  | cmp ho ha hb =>
    rw [Formula.Holds]
    exact Expr.truth_binary_of_toCmp? ho (ha.value_eq s) (hb.value_eq s)
  | and _ _ ihl ihr | or _ _ ihl ihr =>
    rw [Expr.truth, ihl, ihr, Formula.Holds]
  | not _ ih =>
    rw [Expr.truth, ih, Formula.Holds]
    rfl

theorem Guard.States.truth_eq {g : Guard} {f : Formula} (h : g.States f) (s : Store) :
    g.truth I s = some (f.Holds I s) := by
  induction h with
  | cond h | differential h => exact h.truth_eq s
  | and _ _ ihl ihr | or _ _ ihl ihr =>
    rw [Guard.truth, ihl, ihr, Formula.Holds]
  | duration h =>
    rw [Guard.truth, h.value_eq s, Formula.Holds]
    rfl
  | claim => rw [Guard.truth, Formula.Holds]

theorem Guard.States.isTrue_iff {g : Guard} {f : Formula} (h : g.States f) {s : Store} :
    (∃ p, g.truth I s = some p ∧ p) ↔ f.Holds I s := by
  rw [h.truth_eq s]
  constructor
  · rintro ⟨p, hp, htrue⟩
    cases hp
    exact htrue
  · intro hf
    exact ⟨_, rfl, hf⟩

/-! ## Checks and suspensions -/

theorem runs_contractCheck_iff {pre : Formula} {s t : Store} :
    (contractCheck pre).Runs I s t ↔ Checks I pre s t := by
  rw [contractCheck, Program.runs_branch, Program.runs_test_andThen]
  constructor
  · rintro (⟨u, ⟨rfl, hpre⟩, rfl⟩ | ⟨hpre, rfl⟩)
    · exact .kept hpre
    · exact .broken hpre
  · rintro (hpre | hpre)
    · exact .inl ⟨s, ⟨rfl, hpre⟩, rfl⟩
    · exact .inr ⟨hpre, rfl⟩

namespace Scope

variable {scope : Scope}

theorem runs_resumption_iff {n : Nat} {guard : Formula} {s t : Store} :
    (scope.resumption ⟨n⟩ guard).Runs I s t ↔
      Resumes scope I n (fun u => guard.Holds I u) s t := by
  simp only [resumption, Program.runs_branch, Program.runs_sequence_cons,
    Program.runs_sequence_nil, Program.runs_havocAll, Program.Runs, Formula.Holds,
    Formula.holds_both, Term.value]
  constructor
  · rintro (⟨_, ⟨rfl, hole⟩, w, hw, _, ⟨rfl, hguard, hinv⟩, rfl⟩ |
      ⟨_, ⟨rfl, hole⟩, w, hw, _, hset, _, ⟨rfl, hguard⟩, rfl⟩)
    · exact .sound hole hw hguard hinv
    · -- the flag is cleared after the shared variables have changed
      obtain ⟨hoff, hflag⟩ := Store.agreeOff_cons_set.mp ⟨w, hw, hset⟩
      exact .unsound hole hoff hflag hguard
  · rintro (⟨hole, hoff, hguard, hinv⟩ | ⟨hole, hoff, hflag, hguard⟩)
    · exact .inl ⟨s, ⟨rfl, hole⟩, t, hoff, t, ⟨rfl, hguard, hinv⟩, rfl⟩
    · obtain ⟨w, hw, hset⟩ := Store.agreeOff_cons_set.mpr ⟨hoff, hflag⟩
      exact .inr ⟨s, ⟨rfl, hole⟩, w, hw, t, hset, t, ⟨rfl, hguard⟩, rfl⟩

/-! ## Single statements -/

theorem LowersEffect.runs_iff {n : Nat} {calls : CallSet} {e : Effect} {lowered : Lowered}
    {sus : List Suspension} (h : LowersEffect scope n calls e lowered sus) {s t : Store} :
    lowered.program.Runs I s t ↔ Effect.Acts scope I n e s t := by
  cases h with
  | call hfound =>
    rw [runs_contractCheck_iff]
    constructor
    · intro hcheck
      exact .call hfound hcheck
    · intro hact
      cases hact with
      | call hfound' hcheck =>
        rw [hfound] at hfound'
        cases hfound'
        exact hcheck
  | create hpre =>
    rw [runs_contractCheck_iff]
    constructor
    · intro hcheck
      exact .create hpre hcheck
    · intro hact
      cases hact with
      | create hpre' hcheck =>
        rw [hpre] at hpre'
        cases hpre'
        exact hcheck
  | get =>
    rw [runs_resumption_iff]
    constructor
    · intro hres
      exact .get hres
    · intro hact
      cases hact with
      | get hres => exact hres

theorem LowersAssign.runs_iff {n : Nat} {calls : CallSet} {target : String} {value : Rhs}
    {lowered : Lowered} {sus : List Suspension}
    (h : LowersAssign scope n calls target value lowered sus) {s t : Store} :
    lowered.program.Runs I s t ↔ Rhs.StoredIn scope I n target value s t := by
  cases h with
  | pure hterm =>
    have hval := (Expr.denotes_of_toTerm hterm).value_eq (I := I) s
    constructor
    · rintro rfl
      exact .value hval
    · intro hstore
      cases hstore with
      | value hval' =>
        rw [hval] at hval'
        cases hval'
        rfl
  | effect heff =>
    rw [Program.runs_andThen]
    constructor
    · rintro ⟨u, hu, v, rfl⟩
      exact .result (heff.runs_iff.mp hu)
    · intro hstore
      cases hstore with
      | result hact => exact ⟨_, heff.runs_iff.mpr hact, _, rfl⟩

theorem LowersAtom.runs_iff {n : Nat} {calls : CallSet} {stmt : Stmt} {lowered : Lowered}
    {sus : List Suspension} (h : LowersAtom scope n calls stmt lowered sus) {s t : Store} :
    lowered.program.Runs I s t ↔ Stmt.Acts scope I n stmt s t := by
  cases h with
  | skip =>
    constructor
    · rintro rfl
      exact .skip
    · rintro ⟨⟩
      rfl
  | assign hassign =>
    rw [hassign.runs_iff]
    constructor
    · exact .assign
    · rintro ⟨⟩
      assumption
  | declare hassign =>
    rw [hassign.runs_iff]
    constructor
    · exact .declare
    · rintro ⟨⟩
      assumption
  | declareOnly =>
    constructor
    · rintro ⟨v, rfl⟩
      exact .declareOnly
    · rintro ⟨⟩
      exact ⟨_, rfl⟩
  | ret hterm =>
    have hval := (Expr.denotes_of_toTerm hterm).value_eq (I := I) s
    constructor
    · rintro rfl
      exact .ret hval
    · intro hact
      cases hact with
      | ret hval' =>
        rw [hval] at hval'
        cases hval'
        rfl
  | evalPure =>
    constructor
    · rintro rfl
      exact .evalPure
    · rintro ⟨⟩
      rfl
  | evalEffect heff =>
    rw [heff.runs_iff]
    constructor
    · exact .evalEffect
    · rintro ⟨⟩
      assumption
  | await hguard =>
    have hstates := Guard.states_of_toFormula hguard
    rw [runs_resumption_iff]
    simp only [← hstates.isTrue_iff]
    constructor
    · exact .await
    · rintro ⟨⟩
      assumption

/-! ## Blocks -/

theorem Lowers.runs_iff {b : Block} {calls after : CallSet} {n : Nat} {ps : List Program}
    {sus : List Suspension} (h : Lowers scope b calls n ps after sus) :
    ∀ {s t : Store}, (Program.sequence ps).Runs I s t ↔ Block.Exec scope I n b s t := by
  induction h with
  | nil =>
    intro s t
    constructor
    · rintro rfl
      exact .nil
    · rintro ⟨⟩
      rfl
  | atom hatom _ ih =>
    intro s t
    rw [hatom.length_eq] at ih
    rw [Program.runs_sequence_cons]
    constructor
    · rintro ⟨u, hu, hrest⟩
      exact .atom (hatom.runs_iff.mp hu) (ih.mp hrest)
    · intro hexec
      cases hexec with
      | atom hact hrest => exact ⟨_, hatom.runs_iff.mpr hact, ih.mpr hrest⟩
      | condTrue | condFalse | block => cases hatom
  | cond hf hthen helse _ ih₁ ih₂ ih =>
    intro s t
    have htruth := (Expr.states_of_toFormula hf).truth_eq (I := I) s
    rw [List.length_append, hthen.length_eq, helse.length_eq, ← Stmt.waits_cond] at ih
    rw [hthen.length_eq] at ih₂
    rw [Program.runs_sequence_cons]
    constructor
    · rintro ⟨u, hu, hrest⟩
      rw [Program.runs_branch, Program.runs_test_andThen, Program.runs_test_andThen] at hu
      rcases hu with ⟨hcond, hu⟩ | ⟨hcond, hu⟩
      · exact .condTrue htruth hcond (ih₁.mp hu) (ih.mp hrest)
      · exact .condFalse htruth hcond (ih₂.mp hu) (ih.mp hrest)
    · intro hexec
      cases hexec with
      | atom hact _ => cases hact
      | condTrue htruth' hcond hu hrest =>
        rw [htruth] at htruth'
        cases htruth'
        refine ⟨_, ?_, ih.mpr hrest⟩
        rw [Program.runs_branch, Program.runs_test_andThen]
        exact .inl ⟨hcond, ih₁.mpr hu⟩
      | condFalse htruth' hcond hu hrest =>
        rw [htruth] at htruth'
        cases htruth'
        refine ⟨_, ?_, ih.mpr hrest⟩
        rw [Program.runs_branch, Program.runs_test_andThen, Program.runs_test_andThen]
        exact .inr ⟨hcond, ih₂.mpr hu⟩
  | block hbody _ ih₁ ih =>
    intro s t
    rw [hbody.length_eq, ← Stmt.waits_block] at ih
    rw [Program.runs_sequence_cons]
    constructor
    · rintro ⟨u, hu, hrest⟩
      exact .block (ih₁.mp hu) (ih.mp hrest)
    · intro hexec
      cases hexec with
      | atom hact _ => cases hact
      | block hact hrest => exact ⟨_, ih₁.mpr hact, ih.mpr hrest⟩

end Scope

/-- The program of a block means what the block does: it leads from a store exactly to those stores
to which the block leads, its suspensions being numbered after those met before it. -/
theorem runs_lowerBlock_iff {scope : Scope} {b : Block} {calls : CallSet}
    {st st' : LoweringState} {lowered : Lowered}
    (h : scope.lowerBlock b calls st = .ok lowered st') (I : Interp) (s t : Store) :
    lowered.program.Runs I s t ↔ Block.Exec scope I st.suspensions.length b s t := by
  obtain ⟨ps, sus, hlow, hprog, _⟩ := Scope.lowers_of_lowerBlock h
  rw [hprog]
  exact hlow.runs_iff

/-- The block that calls, branches, waits and reads a future has a program. -/
theorem runs_lowerBlock_iff_patrol : ∃ lowered st',
    Scope.outside.lowerBlock .patrol .empty .empty = .ok lowered st' ∧
      ∀ I s t, lowered.program.Runs I s t ↔ Block.Exec .outside I 0 .patrol s t := by
  have hlower : ∃ lowered st',
      Scope.outside.lowerBlock .patrol .empty .empty = .ok lowered st' := ⟨_, _, rfl⟩
  obtain ⟨lowered, st', h⟩ := hlower
  exact ⟨lowered, st', h, runs_lowerBlock_iff h⟩

end HybridObjects
