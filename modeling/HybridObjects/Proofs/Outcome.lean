import HybridObjects.Dynamics.Profile

/-!
# HybridObjects.Proofs.Outcome

How computations end. A computation settles on a property if every value it returns has the
property and it never fails for want of a formula for a placeholder.

* `Answers` — for computations that write nothing down.
* `Settles` — for computations that carry a state, with one rule for each way to build them.
-/

namespace HybridObjects

/-! ## Computations that write nothing down -/

theorem except_bind_eq_ok {ε α β : Type} {x : Except ε α} {f : α → Except ε β} {b : β} :
    (x >>= f) = .ok b ↔ ∃ a, x = .ok a ∧ f a = .ok b := by
  cases x with
  | error e =>
    constructor
    · intro h
      cases h
    · rintro ⟨a, h, -⟩
      cases h
  | ok a =>
    constructor
    · intro h
      exact ⟨a, rfl, h⟩
    · rintro ⟨a, h, hb⟩
      cases h
      exact hb

/-! ## Computations that carry a state -/

section Computations

variable {ε σ α β : Type} {x : EStateM ε σ α} {f : α → EStateM ε σ β} {st st' : σ}

theorem bind_eq_ok {b : β} :
    (x >>= f) st = .ok b st' ↔ ∃ a st₁, x st = .ok a st₁ ∧ f a st₁ = .ok b st' := by
  change EStateM.bind x f st = .ok b st' ↔ _
  unfold EStateM.bind
  cases x st with
  | error e st₁ => simp
  | ok a st₁ =>
    constructor
    · intro h
      exact ⟨a, st₁, rfl, h⟩
    · rintro ⟨_, _, hx, h⟩
      cases hx
      exact h

theorem pure_eq_ok {a b : α} :
    (pure a : EStateM ε σ α) st = .ok b st' ↔ a = b ∧ st = st' := by
  change EStateM.Result.ok a st = .ok b st' ↔ _
  simp

theorem throw_ne_ok {e : ε} {a : α} : (throw e : EStateM ε σ α) st ≠ .ok a st' := by
  change EStateM.Result.error e st ≠ .ok a st'
  simp

theorem bind_eq_error {e : ε} :
    (x >>= f) st = .error e st' ↔
      x st = .error e st' ∨ ∃ a st₁, x st = .ok a st₁ ∧ f a st₁ = .error e st' := by
  change EStateM.bind x f st = .error e st' ↔ _
  unfold EStateM.bind
  cases x st with
  | error e₁ st₁ => simp
  | ok a st₁ =>
    constructor
    · intro h
      exact .inr ⟨a, st₁, rfl, h⟩
    · rintro (hx | ⟨_, _, hx, h⟩)
      · cases hx
      · cases hx
        exact h

end Computations

namespace Lowering

variable {α : Type} {st st' : LoweringState} {a : α}

theorem lift_eq_ok {x : Except Error α} : lift x st = .ok a st' ↔ x = .ok a ∧ st = st' := by
  cases x with
  | ok b => simp [lift, pure_eq_ok]
  | error e => simp [lift, throw_ne_ok]

theorem liftExpr_eq_ok {x : Except Expr α} :
    liftExpr x st = .ok a st' ↔ x = .ok a ∧ st = st' := by
  cases x with
  | ok b => simp [liftExpr, pure_eq_ok]
  | error e => simp [liftExpr, throw_ne_ok]

end Lowering

theorem Logged.lift_eq_ok {α : Type} {x : Except Error α} {log log' : Log} {a : α} :
    Logged.lift x log = .ok a log' ↔ x = .ok a ∧ log = log' := by
  cases x with
  | ok b => simp [lift, pure_eq_ok]
  | error e => simp [lift, throw_ne_ok]

/-! ## Outcomes -/

/-- Any error but a placeholder without a formula. -/
def Error.Plain (e : Error) : Prop :=
  ∀ id, e ≠ .unresolved id

/-- The value, if there is one, satisfies `P`, and an error does not come from a placeholder. -/
structure Answers {α : Type} (x : Except Error α) (P : α → Prop) : Prop where
  ok : ∀ {a}, x = .ok a → P a
  error : ∀ {e}, x = .error e → e.Plain

/-- From any state, a value satisfies `P`, and an error does not come from a placeholder. -/
structure Settles {σ α : Type} (x : EStateM Error σ α) (P : α → Prop) : Prop where
  ok : ∀ {st a st'}, x st = .ok a st' → P a
  error : ∀ {st e st'}, x st = .error e st' → e.Plain

namespace Answers

variable {α : Type} {P Q : α → Prop}

theorem of_ok {a : α} (h : P a) : Answers (.ok a) P where
  ok := by
    intro b hb
    cases hb
    exact h
  error := by
    intro e he
    cases he

theorem of_error {e : Error} (h : e.Plain) : Answers (.error e) P where
  ok := by
    intro a ha
    cases ha
  error := by
    intro e' he
    cases he
    exact h

theorem imp {x : Except Error α} (h : Answers x P) (hPQ : ∀ a, P a → Q a) : Answers x Q :=
  ⟨fun hx => hPQ _ (h.ok hx), h.error⟩

end Answers

namespace Settles

variable {σ α β : Type} {P : α → Prop} {Q : β → Prop}

theorem pure {a : α} (h : P a) : Settles (Pure.pure a : EStateM Error σ α) P where
  ok := by
    intro st b st' hb
    obtain ⟨rfl, -⟩ := pure_eq_ok.mp hb
    exact h
  error := by
    intro st e st' he
    cases he

theorem throw {e : Error} (h : e.Plain) :
    Settles (MonadExcept.throw e : EStateM Error σ α) P where
  ok := by
    intro st a st' ha
    exact absurd ha throw_ne_ok
  error := by
    intro st e' st' he
    cases he
    exact h

theorem bind {x : EStateM Error σ α} {f : α → EStateM Error σ β} (hx : Settles x P)
    (hf : ∀ a, P a → Settles (f a) Q) : Settles (x >>= f) Q where
  ok := by
    intro st b st' hb
    obtain ⟨a, st₁, ha, hb⟩ := bind_eq_ok.mp hb
    exact (hf a (hx.ok ha)).ok hb
  error := by
    intro st e st' he
    rcases bind_eq_error.mp he with he | ⟨a, st₁, ha, he⟩
    · exact hx.error he
    · exact (hf a (hx.ok ha)).error he

/-- A computation that may be put in front of any other. -/
theorem before {x : EStateM Error σ α} {y : EStateM Error σ β} (hx : Settles x fun _ => True)
    (hy : Settles y Q) : Settles (x >>= fun _ => y) Q :=
  bind hx fun _ _ => hy

end Settles

theorem Logged.settles_note (level : Level) (component : Component) (text : String) :
    Settles (Logged.note level component text) fun _ => True where
  ok := fun _ => trivial
  error := by
    intro st e st' he
    cases he

theorem Lowering.settles_note (text : String) :
    Settles (Lowering.note text) fun _ => True where
  ok := fun _ => trivial
  error := by
    intro st e st' he
    cases he

theorem Logged.settles_lift {α : Type} {P : α → Prop} {x : Except Error α} (h : Answers x P) :
    Settles (Logged.lift x) P := by
  cases x with
  | ok a => exact .pure (h.ok rfl)
  | error e => exact .throw (h.error rfl)

theorem Error.plain_unsupportedExpr (e : Expr) : (Error.unsupportedExpr e).Plain := by
  rintro id ⟨⟩

end HybridObjects
