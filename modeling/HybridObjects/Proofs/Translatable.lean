import HybridObjects.Proofs.Variables

/-!
# HybridObjects.Proofs.Translatable

Which code reaches the prover. Loops, case distinctions, durations, assertions and synchronous calls
have no program, so lowering refuses them wherever they stand.

`lowerable_or_left_out`: a method with a problem contains none of them at any depth. A method
without a problem was left out before it was lowered: it writes no field, calls nothing and creates
nothing, so it contains no synchronous call either. What else it contains was not looked at.
-/

namespace HybridObjects

/-! ## Statements at any depth -/

/-- The statement stands in the block, directly or inside of other statements. -/
inductive Stmt.StandsIn (s : Stmt) : Block → Prop where
  | here {b : Block} : s ∈ b → StandsIn s b
  | inside {t : Stmt} {b : Block} : t ∈ b → StandsIn s t.children → StandsIn s b

namespace Stmt

variable {s t : Stmt} {b b' : Block}

theorem not_standsIn_nil : ¬ s.StandsIn [] := by
  intro h
  cases h with
  | here h | inside h _ => cases h

theorem standsIn_append : s.StandsIn (b ++ b') ↔ s.StandsIn b ∨ s.StandsIn b' := by
  constructor
  · intro h
    cases h with
    | here h => exact (List.mem_append.mp h).imp .here .here
    | inside h hs => exact (List.mem_append.mp h).imp (.inside · hs) (.inside · hs)
  · rintro ((h | ⟨h, hs⟩) | (h | ⟨h, hs⟩))
    · exact .here (List.mem_append_left _ h)
    · exact .inside (List.mem_append_left _ h) hs
    · exact .here (List.mem_append_right _ h)
    · exact .inside (List.mem_append_right _ h) hs

theorem standsIn_cons : s.StandsIn (t :: b) ↔ s = t ∨ s.StandsIn t.children ∨ s.StandsIn b := by
  constructor
  · intro h
    cases h with
    | here h =>
      rcases List.mem_cons.mp h with h | h
      · exact .inl h
      · exact .inr (.inr (.here h))
    | inside h hs =>
      rcases List.mem_cons.mp h with rfl | h
      · exact .inr (.inl hs)
      · exact .inr (.inr (.inside h hs))
  · rintro (rfl | h | h)
    · exact .here List.mem_cons_self
    · exact .inside List.mem_cons_self h
    · exact (standsIn_append (b := [t])).mpr (.inr h)

theorem standsIn_of_mem_walk {s t : Stmt} (h : t ∈ s.walk) : t = s ∨ t.StandsIn s.children := by
  rcases mem_walk_iff.mp h with rfl | ⟨c, hc, ht⟩
  · exact .inl rfl
  · have hlt := isWalk.size_lt_of_mem_children hc
    rcases standsIn_of_mem_walk ht with rfl | ht
    · exact .inr (.here hc)
    · exact .inr (.inside hc ht)
termination_by s.size

end Stmt

/-- The walk of a block meets the statements that stand in it, and no others. -/
theorem Block.mem_stmts_iff {b : Block} {s : Stmt} : s ∈ b.stmts ↔ s.StandsIn b := by
  constructor
  · intro h
    obtain ⟨t, ht, hs⟩ := List.mem_flatMap.mp h
    rcases Stmt.standsIn_of_mem_walk hs with rfl | hs
    · exact .here ht
    · exact .inside ht hs
  · intro h
    induction h with
    | here h => exact List.mem_flatMap.mpr ⟨s, h, Stmt.mem_walk_self s⟩
    | inside ht _ ih =>
      exact List.mem_flatMap.mpr ⟨_, ht, Stmt.mem_walk_of_children (List.Subset.refl _) ih⟩

/-! ## What lowering accepts -/

/-- The statement has a program, as far as that does not depend on the statements inside it. -/
def Stmt.isLowerable (s : Stmt) : Bool :=
  match s with
  | .loop .. | .cases .. | .duration .. | .assert _ => false
  | _ => !s.isSyncCall

namespace Scope

variable {scope : Scope} {n : Nat} {calls : CallSet} {lowered : Lowered} {sus : List Suspension}

theorem LowersAtom.isLowerable {s : Stmt} (h : LowersAtom scope n calls s lowered sus) :
    s.isLowerable = true := by
  cases h with
  | skip | declareOnly | ret _ | evalPure | await _ => rfl
  | assign hassign | declare hassign =>
    cases hassign with
    | pure _ => rfl
    | effect heffect => cases heffect <;> rfl
  | evalEffect heffect => cases heffect <;> rfl

theorem LowersAtom.children_eq {s : Stmt} (h : LowersAtom scope n calls s lowered sus) :
    s.children = [] := by
  cases h <;> rfl

/-- All statements of a block that is lowered have programs, those inside of others included. -/
theorem Lowers.isLowerable {b : Block} {after : CallSet} {ps : List Program} {s : Stmt}
    (h : Lowers scope b calls n ps after sus) (hs : s.StandsIn b) : s.isLowerable = true := by
  induction h with
  | nil => exact absurd hs Stmt.not_standsIn_nil
  | atom hatom _ ih =>
    rcases Stmt.standsIn_cons.mp hs with rfl | hs | hs
    · exact hatom.isLowerable
    · rw [hatom.children_eq] at hs
      exact absurd hs Stmt.not_standsIn_nil
    · exact ih hs
  | @cond _ _ _ _ elseBranch _ _ _ _ _ _ _ _ _ _ _ _ _ _ _ ih₁ ih₂ ih =>
    rcases Stmt.standsIn_cons.mp hs with rfl | hs | hs
    · rfl
    · cases elseBranch with
      | none => exact ih₁ hs
      | some elseBranch => exact (Stmt.standsIn_append.mp hs).elim ih₁ ih₂
    · exact ih hs
  | block _ _ ih₁ ih =>
    rcases Stmt.standsIn_cons.mp hs with rfl | hs | hs
    · rfl
    · exact ih₁ hs
    · exact ih hs

end Scope

/-! ## Methods -/

namespace Profile

variable {p : Profile} {m : Method} {o : Obligation} {log log' : Log}

/-- The statements of a method are its leading guard, if it has one, and those after it. -/
theorem standsIn_body {s : Stmt} (h : s.StandsIn m.body) :
    (∃ guard, s = .await guard) ∨ s.StandsIn m.afterGuard := by
  cases hlead : m.leadingGuard with
  | none => exact .inr (by rwa [Method.afterGuard_eq hlead])
  | some guard =>
    rw [Method.body_eq hlead] at h
    rcases Stmt.standsIn_cons.mp h with rfl | h | h
    · exact .inl ⟨guard, rfl⟩
    · exact absurd h Stmt.not_standsIn_nil
    · exact .inr h

/-- A method with a problem was lowered as a whole. -/
theorem isLowerable_of_methodObligation {problem : Problem} {s : Stmt}
    (h : p.methodObligation m log = .ok o log') (hproblem : o.problem = some problem)
    (hs : s.StandsIn m.body) : s.isLowerable = true := by
  obtain ⟨_, _, _, _, _, _, -, -, -, ⟨_, _, _, hlow, -, -⟩, -⟩ := methodObligation_eq_ok h hproblem
  rcases standsIn_body hs with ⟨guard, rfl⟩ | hs
  · rfl
  · exact hlow.isLowerable hs

/-- A method without a problem satisfies the conditions for being left out. -/
theorem isTrivial_of_methodObligation (h : p.methodObligation m log = .ok o log')
    (hnone : o.problem = none) : ∃ ensures, isTrivial m.body ensures = true := by
  obtain ⟨ensures, -, ⟨htrivial, -⟩ | ⟨_, _, _, _, _, _, -, -, -, -, rfl⟩⟩ :=
    methodObligation_cases h
  · exact ⟨ensures, htrivial⟩
  · cases hnone

/-- What is left out writes no field, calls nothing and creates nothing, at any depth. -/
theorem isTrivial_standsIn {b : Block} {ensures : Formula} {s : Stmt}
    (h : isTrivial b ensures = true) (hs : s.StandsIn b) :
    s.writesField = false ∧ s.call? = none ∧ s.creation? = none := by
  simp only [isTrivial, Bool.and_eq_true, Bool.not_eq_true', List.isEmpty_iff] at h
  obtain ⟨⟨⟨hwrites, hcalls⟩, hcreations⟩, -⟩ := h
  have hmem := Block.mem_stmts_iff.mpr hs
  refine ⟨?_, ?_, ?_⟩
  · simpa using List.any_eq_false.mp hwrites s hmem
  · exact List.filterMap_eq_nil_iff.mp hcalls s hmem
  · exact List.filterMap_eq_nil_iff.mp hcreations s hmem

end Profile

theorem Stmt.isSyncCall_of_call? {s : Stmt} (h : s.call? = none) : s.isSyncCall = false := by
  unfold isSyncCall
  split
  · next heffect => simp [call?, heffect] at h
  · rfl

/-- The obligation of a method speaks about lowerable code, or about none. If it has a problem,
every statement of the method has a program, at any depth; so none is a loop, a case distinction, a
duration, an assertion or a synchronous call. If it has none, no statement calls, writes a field or
creates an object. -/
theorem lowerable_or_left_out {p : Profile} {m : Method} {o : Obligation} {log log' : Log}
    (h : p.methodObligation m log = .ok o log') :
    (o.problem.isSome = true → ∀ s : Stmt, s.StandsIn m.body → s.isLowerable = true) ∧
      (o.problem = none → ∀ s : Stmt, s.StandsIn m.body → s.isSyncCall = false ∧
        s.writesField = false ∧ s.call? = none ∧ s.creation? = none) := by
  constructor
  · intro hsome s hs
    obtain ⟨problem, hproblem⟩ := Option.isSome_iff_exists.mp hsome
    exact Profile.isLowerable_of_methodObligation h hproblem hs
  · intro hnone s hs
    obtain ⟨ensures, htrivial⟩ := Profile.isTrivial_of_methodObligation h hnone
    obtain ⟨hwrites, hcall, hcreation⟩ := Profile.isTrivial_standsIn htrivial hs
    exact ⟨Stmt.isSyncCall_of_call? hcall, hwrites, hcall, hcreation⟩

/-! ## A meter that counts on its own -/

/-- Sets the meter back if it runs. -/
def Method.rewind : Method :=
  ⟨⟨"rewind", []⟩,
    [.cond (.binary .gt (.field "x") (.int "0")) [.assign (.field "x") (.pure (.int "0"))] none],
    []⟩

/-- Counts to ten in a local variable. -/
def Method.count : Method :=
  ⟨⟨"count", []⟩,
    [.declare "i" "Int" (some (.pure (.int "0"))),
      .loop (.binary .lt (.var "i") (.int "10"))
        [.assign (.var "i") (.pure (.binary .add (.var "i") (.int "1")))]], []⟩

/-- A class in which `x` grows with slope one. -/
def Class.meter : Class :=
  { name := "Meter"
    params := []
    fields := []
    physical := some
      { fields := [⟨"x", .int "0", ⟨.derivative (.field "x"), .int "1"⟩⟩]
        annotations := [⟨"ABS.DC.HybridSpec", .construct "ObjInv" [.string "x >= 0"]⟩] }
    init := none
    methods := [.rewind, .count]
    implements := []
    annotations := [] }

def Model.meter : Model :=
  ⟨[⟨"M", [], [.meter], none⟩]⟩

def Profile.meter : Profile :=
  { model := .meter
    owner := .meter
    strategy := .basic
    ode := ⟨[("x", .num "1")]⟩
    invariant := .raw "x >= 0"
    precondition := .verum
    controllers := []
    controllerGuards := [] }

/-- The method that sets the meter back has a problem, and the one that counts has none. -/
theorem lowerable_or_left_out_meter : ∃ log log₁ log₂ problem,
    Profile.of .meter .meter .basic [] = .ok .meter log ∧
      Profile.meter.methodObligation .rewind log = .ok ⟨"Meter", "rewind", some problem⟩ log₁ ∧
      (∀ s : Stmt, s.StandsIn Method.rewind.body → s.isLowerable = true) ∧
      Profile.meter.methodObligation .count log = .ok ⟨"Meter", "count", none⟩ log₂ ∧
      ∀ s : Stmt, s.StandsIn Method.count.body → s.isSyncCall = false ∧
        s.writesField = false ∧ s.call? = none ∧ s.creation? = none := by
  have hprofile : ∃ log, Profile.of .meter .meter .basic [] = .ok .meter log := ⟨_, rfl⟩
  obtain ⟨log, hprofile⟩ := hprofile
  have hrewind : ∃ log₁ problem, Profile.meter.methodObligation .rewind log =
      .ok ⟨"Meter", "rewind", some problem⟩ log₁ := ⟨_, _, rfl⟩
  have hcount : ∃ log₂, Profile.meter.methodObligation .count log =
      .ok ⟨"Meter", "count", none⟩ log₂ := ⟨_, rfl⟩
  obtain ⟨log₁, problem, hrewind⟩ := hrewind
  obtain ⟨log₂, hcount⟩ := hcount
  exact ⟨log, log₁, log₂, problem, hprofile, hrewind, (lowerable_or_left_out hrewind).1 rfl, hcount,
    (lowerable_or_left_out hcount).2 rfl⟩

/-- The method that counts is left out, and so counts as proved, although it contains a loop. -/
theorem left_out_with_loop : ∃ log log',
    Profile.of .meter .meter .basic [] = .ok .meter log ∧ Method.count ∈ Class.meter.methods ∧
      Profile.meter.methodObligation .count log = .ok ⟨"Meter", "count", none⟩ log' ∧
      ∃ test body, Stmt.StandsIn (.loop test body) Method.count.body :=
  ⟨_, _, rfl, by simp [Class.meter], rfl, _, _, .here (List.mem_cons_of_mem _ List.mem_cons_self)⟩

end HybridObjects
