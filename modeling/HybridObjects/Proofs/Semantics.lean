import HybridObjects.Logic.Formula
import Mathlib.Data.Real.Basic
import Mathlib.Logic.Function.Basic

/-!
# HybridObjects.Proofs.Semantics

What terms, formulas and hybrid programs mean. A store gives every variable a real value and every
differential symbol a slope; a formula is a predicate on stores and a program a relation between
them.

What the logic leaves open is the business of an interpretation: how number literals are read, what
division gives where it is not defined, what clause texts, placeholders and predicate symbols say,
and which stores a system of equations joins inside a domain.

* `Store`, `Interp`              — states, and readings of the open symbols.
* `Term.value`, `Formula.Holds`, `Program.Runs` — the meaning of the three kinds of tree.
* `holds_both`, `runs_andThen`, `runs_havocAll` — constructors that drop units mean what the plain
  ones mean.
-/

namespace HybridObjects

/-- A state: the values of the variables and the slopes of the differential symbols. -/
@[ext] structure Store where
  value : String → ℝ
  slope : String → ℝ

namespace Store

/-- The store in which a variable has a new value. -/
noncomputable def set (s : Store) (x : String) (v : ℝ) : Store :=
  { s with value := Function.update s.value x v }

@[simp] theorem set_value_same (s : Store) (x : String) (v : ℝ) : (s.set x v).value x = v := by
  simp [set]

@[simp] theorem set_value_ne (s : Store) {x y : String} (v : ℝ) (h : y ≠ x) :
    (s.set x v).value y = s.value y := by
  simp [set, h]

@[simp] theorem set_slope (s : Store) (x : String) (v : ℝ) : (s.set x v).slope = s.slope := rfl

/-- Two stores agree off some variables: nothing else may differ. -/
def AgreeOff (vars : List String) (s t : Store) : Prop :=
  (∀ x, x ∉ vars → t.value x = s.value x) ∧ t.slope = s.slope

theorem agreeOff_nil {s t : Store} : AgreeOff [] s t ↔ t = s := by
  constructor
  · rintro ⟨hv, hs⟩
    ext x
    · exact hv x (by simp)
    · rw [hs]
  · rintro rfl
    exact ⟨fun _ _ => rfl, rfl⟩

/-- To change some variables is to change the first one and then the others. -/
theorem agreeOff_cons {x : String} {vars : List String} {s t : Store} :
    AgreeOff (x :: vars) s t ↔ ∃ v, AgreeOff vars (s.set x v) t := by
  constructor
  · rintro ⟨hv, hs⟩
    -- the middle store takes its value of `x` from the end, which settles `x ∈ vars` as well
    refine ⟨t.value x, fun y hy => ?_, hs⟩
    by_cases hyx : y = x
    · subst hyx; simp
    · rw [set_value_ne _ _ hyx]
      exact hv y (by simp [hyx, hy])
  · rintro ⟨v, hv, hs⟩
    refine ⟨fun y hy => ?_, hs⟩
    obtain ⟨hyx, hy⟩ : y ≠ x ∧ y ∉ vars := by simpa using hy
    rw [hv y hy, set_value_ne _ _ hyx]

/-- A variable that is set last may have changed before. -/
theorem agreeOff_cons_set {x : String} {vars : List String} {v : ℝ} {s t : Store} :
    (∃ u, AgreeOff vars s u ∧ t = u.set x v) ↔ AgreeOff (x :: vars) s t ∧ t.value x = v := by
  constructor
  · rintro ⟨u, ⟨hv, hs⟩, rfl⟩
    refine ⟨⟨fun y hy => ?_, hs⟩, set_value_same _ _ _⟩
    obtain ⟨hyx, hy⟩ : y ≠ x ∧ y ∉ vars := by simpa using hy
    rw [set_value_ne _ _ hyx, hv y hy]
  · rintro ⟨⟨hv, hs⟩, rfl⟩
    refine ⟨t.set x (s.value x), ⟨fun y hy => ?_, hs⟩, ?_⟩
    · by_cases hyx : y = x
      · subst hyx; simp
      · rw [set_value_ne _ _ hyx]
        exact hv y (by simp [hyx, hy])
    · ext y
      · by_cases hyx : y = x
        · subst hyx; simp
        · simp [hyx]
      · rfl

end Store

/-- A reading of the symbols whose meaning the logic does not fix. -/
structure Interp where
  num : String → ℝ
  div : ℝ → ℝ → ℝ
  pred : String → List ℝ → Prop
  raw : String → Store → Prop
  hole : Placeholder → Store → Prop
  /-- The stores joined by an evolution along the equations, given the domain as a predicate. -/
  flow : Ode → (Store → Prop) → Store → Store → Prop

def ArithOp.apply (I : Interp) : ArithOp → ℝ → ℝ → ℝ
  | .add, a, b => a + b
  | .sub, a, b => a - b
  | .mul, a, b => a * b
  | .div, a, b => I.div a b

def CmpOp.Rel : CmpOp → ℝ → ℝ → Prop
  | .lt, a, b => a < b
  | .le, a, b => a ≤ b
  | .gt, a, b => a > b
  | .ge, a, b => a ≥ b
  | .eq, a, b => a = b
  | .ne, a, b => a ≠ b

def Term.value (I : Interp) (s : Store) : Term → ℝ
  | .var x => s.value x
  | .num text => I.num text
  | .primed x => s.slope x
  | .bin op lhs rhs => op.apply I (lhs.value I s) (rhs.value I s)
  | .neg arg => -arg.value I s

mutual

/-- A formula holds in a store. -/
def Formula.Holds (I : Interp) : Formula → Store → Prop
  | .verum, _ => True
  | .falsum, _ => False
  | .cmp op lhs rhs, s => op.Rel (lhs.value I s) (rhs.value I s)
  | .not f, s => ¬ f.Holds I s
  | .and f g, s => f.Holds I s ∧ g.Holds I s
  | .or f g, s => f.Holds I s ∨ g.Holds I s
  | .implies f g, s => f.Holds I s → g.Holds I s
  | .box p f, s => ∀ t, p.Runs I s t → f.Holds I t
  | .exist x f, s => ∃ v, f.Holds I (s.set x v)
  | .pred name args, s => I.pred name (args.map (Term.value I s))
  | .raw text, s => I.raw text s
  | .hole id, s => I.hole id s

/-- A program can lead from one store to another. -/
def Program.Runs (I : Interp) : Program → Store → Store → Prop
  | .skip, s, t => t = s
  | .havoc x, s, t => ∃ v, t = s.set x v
  | .assign x e, s, t => t = s.set x (e.value I s)
  | .test f, s, t => t = s ∧ f.Holds I s
  | .evolve ode domain, s, t => I.flow ode (fun u => domain.Holds I u) s t
  | .seq p q, s, t => ∃ u, p.Runs I s u ∧ q.Runs I u t
  | .choice p q, s, t => p.Runs I s t ∨ q.Runs I s t
  | .group p, s, t => p.Runs I s t

end

namespace Formula

variable {I : Interp} {s : Store}

theorem holds_both {f g : Formula} : (f.both g).Holds I s ↔ f.Holds I s ∧ g.Holds I s := by
  unfold both
  split <;> simp [Holds]

end Formula

namespace Program

variable {I : Interp}

theorem runs_andThen {p q : Program} {s t : Store} :
    (p.andThen q).Runs I s t ↔ ∃ u, p.Runs I s u ∧ q.Runs I u t := by
  unfold andThen
  split <;> simp [Runs]

theorem runs_branch {p q : Program} {s t : Store} :
    (branch p q).Runs I s t ↔ p.Runs I s t ∨ q.Runs I s t :=
  Iff.rfl

theorem runs_test_andThen {f : Formula} {p : Program} {s t : Store} :
    ((test f).andThen p).Runs I s t ↔ f.Holds I s ∧ p.Runs I s t := by
  rw [runs_andThen]
  constructor
  · rintro ⟨u, ⟨rfl, hf⟩, hp⟩
    exact ⟨hf, hp⟩
  · rintro ⟨hf, hp⟩
    exact ⟨s, ⟨rfl, hf⟩, hp⟩

theorem sequence_cons (p : Program) (ps : List Program) :
    sequence (p :: ps) = ps.foldl andThen p := rfl

/-- What stands in front of a sequence runs first. -/
theorem runs_foldl {ps : List Program} :
    ∀ {p : Program} {s t : Store}, (ps.foldl andThen p).Runs I s t ↔
      ∃ u, p.Runs I s u ∧ (sequence ps).Runs I u t := by
  induction ps with
  | nil =>
    intro p s t
    simp [sequence, Runs]
  | cons q ps ih =>
    intro p s t
    rw [sequence_cons]
    simp only [List.foldl_cons, ih, runs_andThen]
    constructor
    · rintro ⟨w, ⟨u, hp, hq⟩, hps⟩
      exact ⟨u, hp, w, hq, hps⟩
    · rintro ⟨u, hp, w, hq, hps⟩
      exact ⟨w, ⟨u, hp, hq⟩, hps⟩

@[simp] theorem runs_sequence_nil {s t : Store} : (sequence []).Runs I s t ↔ t = s :=
  Iff.rfl

theorem runs_sequence_cons {p : Program} {ps : List Program} {s t : Store} :
    (sequence (p :: ps)).Runs I s t ↔ ∃ u, p.Runs I s u ∧ (sequence ps).Runs I u t := by
  rw [sequence_cons]
  exact runs_foldl

/-- To havoc some variables is to change nothing else. -/
theorem runs_havocAll {vars : List String} :
    ∀ {s t : Store}, (havocAll vars).Runs I s t ↔ Store.AgreeOff vars s t := by
  induction vars with
  | nil =>
    intro s t
    exact Store.agreeOff_nil.symm
  | cons x vars ih =>
    intro s t
    have hrest : ∀ u, (sequence (vars.map havoc)).Runs I u t ↔ Store.AgreeOff vars u t := by
      intro u
      exact ih
    rw [havocAll, List.map_cons, runs_sequence_cons, Store.agreeOff_cons]
    simp only [hrest, Runs]
    constructor
    · rintro ⟨u, ⟨v, rfl⟩, hu⟩
      exact ⟨v, hu⟩
    · rintro ⟨v, hu⟩
      exact ⟨_, ⟨v, rfl⟩, hu⟩

end Program
end HybridObjects
