import HybridObjects.Proofs.Fragment
import HybridObjects.Proofs.Lowers
import HybridObjects.Proofs.Resolution

/-!
# HybridObjects.Proofs.Placeholders

Where placeholders are. The formulas of conditions, guards and clauses have none; the program of a
lowered block has those of its own suspensions, each in two tests; and a tree whose placeholders all
have formulas without placeholders resolves into one that has none.

* `Program.resolve_of_covers` — resolution succeeds and leaves nothing.
* `Program.marks`            — the placeholders a program tests for, and those it tests against.
* `Scope.Lowers.owns`        — a lowered block has its own suspensions, each marked both ways.
* `Scope.Lowers.refersTo`    — a lowered block refers to its own suspensions only.
-/

namespace HybridObjects

/-! ## Combinations of formulas and of programs -/

namespace Formula

@[simp] theorem placeholders_both (f g : Formula) :
    (f.both g).placeholders = f.placeholders ++ g.placeholders := by
  unfold both
  split
  · simp
  · simp
  · rw [placeholders]

@[simp] theorem placeholders_either (f g : Formula) :
    (f.either g).placeholders = f.placeholders ++ g.placeholders := by
  unfold either
  split
  · simp
  · simp
  · rw [placeholders]

@[simp] theorem placeholders_conj (fs : List Formula) :
    (conj fs).placeholders = fs.flatMap placeholders := by
  rw [conj, foldl_flatMap placeholders_both, placeholders, List.nil_append]

@[simp] theorem placeholders_disj (fs : List Formula) :
    (disj fs).placeholders = fs.flatMap placeholders := by
  rw [disj, foldl_flatMap placeholders_either, placeholders, List.nil_append]

/-- Respelling derivatives moves no placeholder. -/
theorem placeholders_renamePrimes (vars : List String) :
    ∀ f : Formula, (f.renamePrimes vars).placeholders = f.placeholders
  | .not arg => by simp [renamePrimes, placeholders_renamePrimes vars arg]
  | .and lhs rhs | .or lhs rhs | .implies lhs rhs => by
    simp [renamePrimes, placeholders_renamePrimes vars lhs, placeholders_renamePrimes vars rhs]
  | .exist _ body => by simp [renamePrimes, placeholders_renamePrimes vars body]
  | .verum | .falsum | .cmp .. | .box .. | .pred .. | .raw _ | .hole _ => by
    simp [renamePrimes]

end Formula

namespace Program

/-- Lists that are read off programs part by part, in order. -/
structure Collects {α : Type} (c : Program → List α) : Prop where
  skip : c .skip = []
  seq : ∀ p q, c (.seq p q) = c p ++ c q

namespace Collects

variable {α : Type} {c : Program → List α} (hc : Collects c)

include hc

theorem andThen (p q : Program) : c (p.andThen q) = c p ++ c q := by
  unfold Program.andThen
  split
  · rw [hc.skip, List.nil_append]
  · rw [hc.skip, List.append_nil]
  · rw [hc.seq]

theorem sequence (ps : List Program) : c (.sequence ps) = ps.flatMap c := by
  rw [Program.sequence, foldl_flatMap hc.andThen, hc.skip, List.nil_append]

theorem havocAll (hhavoc : ∀ x, c (.havoc x) = []) (vars : List String) :
    c (.havocAll vars) = [] := by
  rw [Program.havocAll, hc.sequence, List.flatMap_eq_nil_iff]
  intro p hp
  obtain ⟨x, -, rfl⟩ := List.mem_map.mp hp
  exact hhavoc x

end Collects

theorem collects_placeholders : Collects placeholders where
  skip := by rw [placeholders]
  seq := by
    intro p q
    rw [placeholders]

@[simp] theorem placeholders_andThen (p q : Program) :
    (p.andThen q).placeholders = p.placeholders ++ q.placeholders :=
  collects_placeholders.andThen p q

@[simp] theorem placeholders_branch (p q : Program) :
    (branch p q).placeholders = p.placeholders ++ q.placeholders := by
  rw [branch, placeholders, placeholders]

theorem placeholders_sequence (ps : List Program) :
    (sequence ps).placeholders = ps.flatMap placeholders :=
  collects_placeholders.sequence ps

@[simp] theorem placeholders_havocAll (vars : List String) : (havocAll vars).placeholders = [] :=
  collects_placeholders.havocAll (fun x => by rw [placeholders]) vars

@[simp] theorem placeholders_timedEvolution (ode : Ode) (domain : Formula) :
    (timedEvolution ode domain).placeholders = domain.placeholders := by
  rw [timedEvolution, placeholders_andThen]
  simp

end Program

/-! ## Resolution -/

/-- All of the placeholders have formulas, and these have no placeholders. -/
def Resolution.Covers (res : Resolution) (ids : List Placeholder) : Prop :=
  ∀ id ∈ ids, ∃ f : Formula, res.lookup id = some f ∧ f.placeholders = []

theorem Program.resolve_of_covers {res : Resolution} {p : Program} (h : res.Covers p.placeholders) :
    ∃ q, p.resolve res = .ok q ∧ q.placeholders = [] := by
  refine ⟨p.fill res, Program.resolve_eq_ok.mpr ⟨fun id hid => ?_, rfl⟩, ?_⟩
  · obtain ⟨f, hlookup, -⟩ := h id hid
    by_contra hmissing
    rw [← Resolution.lookup_isNone_iff, hlookup] at hmissing
    cases hmissing
  · rw [Program.placeholders_fill, List.flatMap_eq_nil_iff]
    intro id hid
    obtain ⟨f, hlookup, hclosed⟩ := h id hid
    rw [Resolution.formula, hlookup, Option.getD_some, hclosed]

/-! ## Clauses and preconditions -/

theorem Expr.States.placeholders_eq {e : Expr} {f : Formula} (h : e.States f) :
    f.placeholders = [] := by
  induction h with
  | verum | falsum | cmp => rw [Formula.placeholders]
  | and _ _ ihl ihr | or _ _ ihl ihr => rw [Formula.placeholders, ihl, ihr, List.nil_append]
  | not _ ih => rw [Formula.placeholders, ih]

theorem Guard.States.placeholders_eq {g : Guard} {f : Formula} (h : g.States f) :
    f.placeholders = [] := by
  induction h with
  | cond he | differential he => exact he.placeholders_eq
  | and _ _ ihl ihr | or _ _ ihl ihr => rw [Formula.placeholders, ihl, ihr, List.nil_append]
  | duration | claim => rw [Formula.placeholders]

/-- Formulas that clauses stand for: the text of a clause, or `true` where there is no clause. -/
inductive Formula.Verbatim : Formula → Prop where
  | verum : Verbatim .verum
  | raw (text : String) : Verbatim (.raw text)

theorem Formula.Verbatim.placeholders_eq {f : Formula} (h : f.Verbatim) : f.placeholders = [] := by
  cases h with
  | verum | raw => rw [Formula.placeholders]

theorem Annotation.answers_clauseText (clause : Clause) (a : Annotation) :
    Answers (a.clauseText clause) fun _ => True := by
  unfold Annotation.clauseText
  split
  · split
    · split
      · split
        · exact .of_ok trivial
        · exact .of_error (by rintro id ⟨⟩)
      · exact .of_ok trivial
    · exact .of_error (by rintro id ⟨⟩)
  · exact .of_ok trivial

theorem answers_clauseOf (clause : Clause) (combination : Combination)
    (annotations : List Annotation) :
    Answers (clauseOf clause combination annotations) fun _ => True := by
  rw [clauseOf]
  fun_induction clauseFrom clause combination none annotations with
  | case1 before => exact .of_ok trivial
  | case2 before a annotations e he => exact .of_error ((a.answers_clauseText clause).error he)
  | case3 before a annotations _ ih => exact ih
  | case4 before a annotations text _ ih => exact ih

theorem answers_clauseFormula (clause : Clause) (annotations : List Annotation) :
    Answers (clauseFormula clause annotations) fun f => f.Verbatim := by
  unfold clauseFormula
  split
  · next e he => exact .of_error ((answers_clauseOf clause .conjoin annotations).error he)
  · exact .of_ok (.raw _)
  · exact .of_ok .verum

theorem answers_bindArguments (text : String) (sub : Substitution) (formals : List String)
    (args : List Expr) : Answers (bindArguments text sub formals args) fun _ => True := by
  fun_induction bindArguments text sub formals args with
  | case1 sub formal formals arg args term _ ih => exact ih
  | case2 sub formal formals arg args e _ _ => exact .of_error (Error.plain_unsupportedExpr e)
  | case3 sub formal formals arg args e _ _ ih => exact ih
  | case4 => exact .of_ok trivial

theorem answers_instantiate (annotations : List Annotation) (formals : List String)
    (args : List Expr) : Answers (instantiate annotations formals args)
      fun found => (found.getD .verum).Verbatim := by
  unfold instantiate
  split
  · next e he => exact .of_error ((answers_clauseOf .requires .conjoin annotations).error he)
  · exact .of_ok .verum
  · next text _ =>
    split
    · next e he => exact .of_error ((answers_bindArguments text [] formals args).error he)
    · exact .of_ok (.raw _)

namespace Model

variable (m : Model)

theorem answers_declaredPrecondition (c : Class) (method : Signature) (args : List Expr) :
    Answers (m.declaredPrecondition c method args)
      fun found => (found.getD .verum).Verbatim := by
  unfold declaredPrecondition
  split
  · exact answers_instantiate _ _ args
  · exact .of_ok .verum

theorem answers_selfCallPrecondition (c : Class) (method : Signature) (args : List Expr) :
    Answers (m.selfCallPrecondition c method args)
      fun found => (found.getD .verum).Verbatim := by
  have hdeclared := m.answers_declaredPrecondition c method args
  unfold selfCallPrecondition
  split
  · next e he => exact .of_error (hdeclared.error he)
  · next pre hpre => exact .of_ok (hdeclared.ok hpre)
  · split
    · exact answers_instantiate _ _ args
    · exact .of_ok .verum

theorem answers_otherCallPrecondition (interface : Option String) (method : Signature)
    (args : List Expr) : Answers (m.otherCallPrecondition interface method args)
      fun found => (found.getD .verum).Verbatim := by
  unfold otherCallPrecondition
  split
  · exact .of_ok .verum
  · split
    · exact .of_ok .verum
    · exact answers_instantiate _ _ args

/-- The precondition of a call is that of a clause. -/
theorem answers_callPrecondition (c : Option Class) (callee : Expr) (interface : Option String)
    (method : Signature) (args : List Expr) :
    Answers (m.callPrecondition c callee interface method args)
      fun found => (found.getD .verum).Verbatim := by
  unfold callPrecondition
  split
  · split
    · exact m.answers_selfCallPrecondition _ method args
    · exact .of_ok .verum
  · exact m.answers_otherCallPrecondition interface method args

/-- The precondition of a creation is that of a clause. -/
theorem answers_creationPrecondition (className : String) (args : List Expr) :
    Answers (m.creationPrecondition className args) fun pre => pre.Verbatim := by
  have hclass : Answers (m.findClassByName className) fun _ => True := by
    unfold findClassByName
    split
    · exact .of_ok trivial
    · split
      · exact .of_ok trivial
      · exact .of_error (by rintro id ⟨⟩)
  unfold creationPrecondition
  split
  · next e he => exact .of_error (hclass.error he)
  · next c _ =>
    have hinst := answers_instantiate c.annotations (c.params.map Param.name) args
    split
    · next e he => exact .of_error (hinst.error he)
    · next pre hpre => exact .of_ok (hinst.ok hpre)

end Model

/-! ## Marks -/

/-- The placeholder whose formula a test asks for (`true`) or rules out (`false`), if it does no
more than that. -/
def Formula.mark? : Formula → Option (Placeholder × Bool)
  | .hole id => some (id, true)
  | .not (.hole id) => some (id, false)
  | _ => none

@[simp] theorem Formula.mark?_hole (id : Placeholder) : (Formula.hole id).mark? = some (id, true) :=
  rfl

@[simp] theorem Formula.mark?_not_hole (id : Placeholder) :
    (Formula.not (.hole id)).mark? = some (id, false) := rfl

theorem Formula.mark?_of_closed {f : Formula} (h : f.placeholders = []) : f.mark? = none := by
  unfold Formula.mark?
  split
  · simp at h
  · simp at h
  · rfl

theorem Formula.mark?_not_of_closed {f : Formula} (h : f.placeholders = []) :
    (Formula.not f).mark? = none :=
  mark?_of_closed (by rw [placeholders, h])

namespace Program

/-- The marks of the tests of a program, in order. -/
def marks : Program → List (Placeholder × Bool)
  | .test f => f.mark?.toList
  | .seq p q | .choice p q => p.marks ++ q.marks
  | .group p => p.marks
  | .skip | .havoc _ | .assign .. | .evolve .. => []

theorem collects_marks : Collects marks where
  skip := rfl
  seq := fun _ _ => rfl

@[simp] theorem marks_andThen (p q : Program) : (p.andThen q).marks = p.marks ++ q.marks :=
  collects_marks.andThen p q

@[simp] theorem marks_branch (p q : Program) : (branch p q).marks = p.marks ++ q.marks := rfl

theorem marks_sequence (ps : List Program) : (sequence ps).marks = ps.flatMap marks :=
  collects_marks.sequence ps

@[simp] theorem marks_havocAll (vars : List String) : (havocAll vars).marks = [] :=
  collects_marks.havocAll (fun _ => rfl) vars

end Program

/-! ## Lowered blocks -/

/-- The placeholders of a program are those of the suspensions `sus`, numbered from `n` on. Each
stands in two tests, of its formula and of the negation. The guards of the suspensions have none. -/
structure Owns (p : Program) (n : Nat) (sus : List Suspension) : Prop where
  placeholders_eq : p.placeholders = (List.range' n sus.length).flatMap fun i => [⟨i⟩, ⟨i⟩]
  marks_eq : p.marks = (List.range' n sus.length).flatMap fun i => [(⟨i⟩, true), (⟨i⟩, false)]
  guard_closed : ∀ entry ∈ sus, entry.guard.placeholders = []

namespace Owns

variable {p q r : Program} {n : Nat} {sus sus' : List Suspension}

theorem of_closed (h : p.placeholders = []) (hmarks : p.marks = []) : Owns p n [] :=
  ⟨h, hmarks, by simp⟩

/-- Two programs, one lowered after the other, in any composition that keeps what they have. -/
theorem append (hr : r.placeholders = p.placeholders ++ q.placeholders)
    (hmarks : r.marks = p.marks ++ q.marks) (hp : Owns p n sus)
    (hq : Owns q (n + sus.length) sus') : Owns r n (sus ++ sus') where
  placeholders_eq := by
    rw [hr, hp.placeholders_eq, hq.placeholders_eq, ← List.flatMap_append, List.range'_append_1,
      List.length_append]
  marks_eq := by
    rw [hmarks, hp.marks_eq, hq.marks_eq, ← List.flatMap_append, List.range'_append_1,
      List.length_append]
  guard_closed := List.forall_mem_append.mpr ⟨hp.guard_closed, hq.guard_closed⟩

theorem cons {ps : List Program} (hp : Owns p n sus)
    (hps : Owns (.sequence ps) (n + sus.length) sus') :
    Owns (.sequence (p :: ps)) n (sus ++ sus') := by
  refine .append ?_ ?_ hp hps
  · rw [Program.placeholders_sequence, Program.placeholders_sequence, List.flatMap_cons]
  · rw [Program.marks_sequence, Program.marks_sequence, List.flatMap_cons]

theorem branch {f : Formula} (hf : f.placeholders = []) (hp : Owns p n sus)
    (hq : Owns q (n + sus.length) sus') :
    Owns (.branch (.andThen (.test f) p) (.andThen (.test (.not f)) q)) n (sus ++ sus') := by
  refine .append ?_ ?_ hp hq
  · rw [Program.placeholders_branch, Program.placeholders_andThen, Program.placeholders_andThen]
    simp [hf]
  · rw [Program.marks_branch, Program.marks_andThen, Program.marks_andThen]
    simp [Program.marks, Formula.mark?_of_closed hf, Formula.mark?_not_of_closed hf]

end Owns

theorem owns_contractCheck {pre : Formula} (h : pre.placeholders = []) (n : Nat) :
    Owns (contractCheck pre) n [] := by
  refine .of_closed ?_ ?_
  · rw [contractCheck, Program.placeholders_branch, Program.placeholders_andThen]
    simp [h]
  · rw [contractCheck, Program.marks_branch, Program.marks_andThen]
    simp [Program.marks, Formula.mark?_of_closed h, Formula.mark?_not_of_closed h]

namespace Scope

variable {scope : Scope} {n : Nat} {calls : CallSet} {lowered : Lowered} {sus : List Suspension}

/-- A suspension tests its placeholder on one branch and the negation on the other. -/
theorem owns_resumption (hinv : scope.invariant.placeholders = []) {guard : Formula}
    (hguard : guard.placeholders = []) (blocking : Bool) :
    Owns (scope.resumption ⟨n⟩ guard) n [⟨guard, calls, blocking⟩] where
  placeholders_eq := by
    rw [resumption, Program.placeholders_branch, Program.placeholders_sequence,
      Program.placeholders_sequence]
    simp [hguard, hinv]
  marks_eq := by
    have hboth : (guard.both scope.invariant).placeholders = [] := by simp [hguard, hinv]
    rw [resumption, Program.marks_branch, Program.marks_sequence, Program.marks_sequence]
    simp [Program.marks, Formula.mark?_of_closed hguard, Formula.mark?_of_closed hboth]
  guard_closed := by
    intro entry hentry
    rw [List.mem_singleton.mp hentry]
    exact hguard

theorem LowersEffect.owns (hinv : scope.invariant.placeholders = []) {e : Effect}
    (h : LowersEffect scope n calls e lowered sus) : Owns lowered.program n sus := by
  cases h with
  | call hfound =>
    have hclause := (Model.answers_callPrecondition ..).ok hfound
    exact owns_contractCheck hclause.placeholders_eq n
  | create hpre =>
    have hclause := (Model.answers_creationPrecondition ..).ok hpre
    exact owns_contractCheck hclause.placeholders_eq n
  | get => exact owns_resumption hinv (by rw [Formula.placeholders]) true

theorem LowersAssign.owns (hinv : scope.invariant.placeholders = []) {target : String}
    {value : Rhs} (h : LowersAssign scope n calls target value lowered sus) :
    Owns lowered.program n sus := by
  cases h with
  | pure _ => exact .of_closed (by rw [Program.placeholders]) rfl
  | effect heff =>
    obtain ⟨hplaceholders, hmarks, hguards⟩ := heff.owns hinv
    refine ⟨?_, ?_, hguards⟩
    · rw [Program.placeholders_andThen, Program.placeholders, List.append_nil, hplaceholders]
    · rw [Program.marks_andThen, Program.marks, List.append_nil, hmarks]

theorem LowersAtom.owns (hinv : scope.invariant.placeholders = []) {s : Stmt}
    (h : LowersAtom scope n calls s lowered sus) : Owns lowered.program n sus := by
  cases h with
  | skip | declareOnly | ret _ | evalPure => exact .of_closed (by rw [Program.placeholders]) rfl
  | assign hassign | declare hassign => exact hassign.owns hinv
  | evalEffect heff => exact heff.owns hinv
  | await hguard =>
    exact owns_resumption hinv (Guard.states_of_toFormula hguard).placeholders_eq false

/-- The program of a lowered block has the suspensions of the block, in nested branches too. -/
theorem Lowers.owns (hinv : scope.invariant.placeholders = []) {b : Block} {after : CallSet}
    {ps : List Program} (h : Lowers scope b calls n ps after sus) : Owns (.sequence ps) n sus := by
  induction h with
  | nil => exact .of_closed (by rw [Program.placeholders_sequence, List.flatMap_nil]) rfl
  | atom hatom _ ih => exact (hatom.owns hinv).cons ih
  | cond hf _ _ _ ih₁ ih₂ ih =>
    -- the else branch is numbered after the then branch, as the two are lowered
    exact (ih₁.branch (Expr.states_of_toFormula hf).placeholders_eq ih₂).cons ih
  | block _ _ ih₁ ih => exact ih₁.cons ih

end Scope

/-! ## References -/

/-- All placeholders of a program belong to suspensions numbered below the end of `sus`, and the
guards of these have no placeholders. -/
structure RefersTo (p : Program) (n : Nat) (sus : List Suspension) : Prop where
  index_lt : ∀ id ∈ p.placeholders, id.index < n + sus.length
  guard_closed : ∀ entry ∈ sus, entry.guard.placeholders = []

theorem RefersTo.congr {p q : Program} {n : Nat} {sus : List Suspension}
    (hq : q.placeholders = p.placeholders) (hp : RefersTo p n sus) : RefersTo q n sus where
  index_lt := by
    rw [hq]
    exact hp.index_lt
  guard_closed := hp.guard_closed

theorem Scope.Lowers.refersTo {scope : Scope} (hinv : scope.invariant.placeholders = [])
    {b : Block} {n : Nat} {calls after : CallSet} {ps : List Program} {sus : List Suspension}
    (h : Lowers scope b calls n ps after sus) : RefersTo (.sequence ps) n sus where
  index_lt := by
    intro id hid
    rw [(h.owns hinv).placeholders_eq, List.mem_flatMap] at hid
    obtain ⟨i, hi, hid⟩ := hid
    rw [List.mem_pair, or_self] at hid
    rw [hid]
    exact (List.mem_range'_1.mp hi).2
  guard_closed := (h.owns hinv).guard_closed

end HybridObjects
