import HybridObjects.Obligation.Progress
import HybridObjects.Proofs.LoweringSteps

/-!
# HybridObjects.Proofs.Silence

Generation is silent. Profiles and obligations are made by computations that write to the log but do
not read it, and whose entries are never those of the prover. So the same profile and the same
obligation come out however often they are made and whatever has happened in between.

* `Ends`            — two computations end alike.
* `Silent`          — a computation does not depend on the log and keeps the prover's entries, with
  one rule for each way to build it.
* `Profile.silent_of`, `Profile.silent_methodObligation`, `Profile.silent_initObligation`,
  `Profile.silent_zenoCheck`, `Model.silent_mainObligation`.
-/

namespace HybridObjects

/-- The entries of the prover in a log. -/
def ofProver (log : Log) : Log :=
  log.filter fun entry => entry.component = .prover

theorem ofProver_append_of_ne {log : Log} {entry : LogEntry} (h : entry.component ≠ .prover) :
    ofProver (log ++ [entry]) = ofProver log := by
  simp [ofProver, h]

/-! ## Endings -/

/-- Two computations end alike: with values related by `V` or with the same error, in states related
by `R`. -/
inductive Ends {ε σ α : Type} (V : α → α → Prop) (R : σ → σ → Prop) :
    EStateM.Result ε σ α → EStateM.Result ε σ α → Prop where
  | ok {a b : α} {s t : σ} : V a b → R s t → Ends V R (.ok a s) (.ok b t)
  | error {e : ε} {s t : σ} : R s t → Ends V R (.error e s) (.error e t)

namespace Ends

variable {ε σ α β : Type} {V : α → α → Prop} {W : β → β → Prop} {R Q : σ → σ → Prop}
  {x y : EStateM ε σ α} {f g : α → EStateM ε σ β} {s t : σ}

theorem exists_ok {a : α} {r : EStateM.Result ε σ α} (h : Ends V R (.ok a s) r) :
    ∃ b t, r = .ok b t ∧ V a b ∧ R s t := by
  cases h with
  | ok hab hst => exact ⟨_, _, rfl, hab, hst⟩

/-- Computations that go on alike from all related values and states end alike, if those before them
do. -/
theorem bind (h : Ends V R (x s) (y t))
    (hf : ∀ {a b s t}, V a b → R s t → Ends W Q (f a s) (g b t)) (hRQ : ∀ {s t}, R s t → Q s t) :
    Ends W Q ((x >>= f) s) ((y >>= g) t) := by
  change Ends W Q (EStateM.bind x f s) (EStateM.bind y g t)
  unfold EStateM.bind
  generalize x s = r at h ⊢
  generalize y t = q at h ⊢
  cases h with
  | ok hab hst => exact hf hab hst
  | error hst => exact .error (hRQ hst)

theorem imp {r q : EStateM.Result ε σ α} (h : Ends V R r q) (hRQ : ∀ {s t}, R s t → Q s t) :
    Ends V Q r q := by
  cases h with
  | ok hab hst => exact .ok hab (hRQ hst)
  | error hst => exact .error (hRQ hst)

end Ends

/-! ## Silent computations -/

/-- What a computation comes to depends on nothing but `view`, and no entry of the prover is added
to `log`. -/
structure Silent {σ τ α : Type} (view : σ → τ) (log : σ → Log) (x : EStateM Error σ α) :
    Prop where
  ends : ∀ {s t : σ}, view s = view t → Ends Eq
    (fun s' t' => view s' = view t' ∧ ofProver (log s') = ofProver (log s) ∧
      ofProver (log t') = ofProver (log t)) (x s) (x t)

namespace Silent

variable {σ τ α β : Type} {view : σ → τ} {log : σ → Log}

theorem pure (a : α) : Silent view log (Pure.pure a : EStateM Error σ α) :=
  ⟨fun h => .ok rfl ⟨h, rfl, rfl⟩⟩

theorem throw (e : Error) : Silent view log (MonadExcept.throw e : EStateM Error σ α) :=
  ⟨fun h => .error ⟨h, rfl, rfl⟩⟩

theorem bind {x : EStateM Error σ α} {f : α → EStateM Error σ β} (hx : Silent view log x)
    (hf : ∀ a, Silent view log (f a)) : Silent view log (x >>= f) := by
  constructor
  intro s t hst
  refine Ends.bind (hx.ends hst) ?_ fun h => h
  rintro a _ s' t' rfl ⟨hview, hs, ht⟩
  refine ((hf a).ends hview).imp ?_
  rintro s'' t'' ⟨hview', hs', ht'⟩
  exact ⟨hview', hs'.trans hs, ht'.trans ht⟩

end Silent

namespace Lowering

/-- A lowering depends on the suspensions met so far, but not on the log. -/
abbrev Silent {α : Type} (x : Lowering α) : Prop :=
  HybridObjects.Silent LoweringState.suspensions LoweringState.log x

theorem silent_mint (suspension : Suspension) : Silent (mint suspension) := by
  constructor
  intro s t hst
  unfold mint
  rw [hst]
  exact .ok rfl ⟨rfl, rfl, rfl⟩

theorem silent_note (text : String) : Silent (note text) := by
  constructor
  intro s t hst
  exact .ok rfl ⟨hst, ofProver_append_of_ne (by simp), ofProver_append_of_ne (by simp)⟩

theorem inherited_silent : Inherited Silent where
  pure := .pure
  throw := fun _ => .throw _
  bind := .bind
  mint := silent_mint
  note := silent_note

end Lowering

namespace Logged

/-- A computation that writes to the log but does not read it. -/
abbrev Silent {α : Type} (x : Logged α) : Prop :=
  HybridObjects.Silent (fun _ : Log => ()) id x

theorem silent_note (level : Level) {component : Component} (text : String)
    (h : component ≠ .prover) : Silent (note level component text) := by
  constructor
  intro s t hst
  exact .ok rfl ⟨rfl, ofProver_append_of_ne h, ofProver_append_of_ne h⟩

theorem silent_noteIf {α : Type} {P : Prop} [Decidable P] {x : Logged α} (level : Level)
    {component : Component} (text : String) (h : component ≠ .prover) (hx : Silent x) :
    Silent (if P then note level component text >>= fun _ => x else x) := by
  split
  · exact .bind (silent_note level text h) fun _ => hx
  · exact hx

theorem silent_lift {α : Type} (x : Except Error α) : Silent (lift x) := by
  cases x with
  | ok a => exact .pure a
  | error e => exact .throw e

end Logged

/-! ## Lowering -/

namespace Scope

variable (scope : Scope)

/-- Lowering starts without suspensions, so nothing but the block counts. -/
theorem silent_lower (b : Block) : Logged.Silent (scope.lower b) := by
  constructor
  intro log log' _
  have hlower := (Lowering.inherited_silent.lowerStmts scope b .empty .skip).ends (s := ⟨[], log⟩)
    (t := ⟨[], log'⟩) rfl
  unfold lower lowerBlock
  generalize scope.lowerStmts b .empty .skip ⟨[], log⟩ = r at hlower ⊢
  generalize scope.lowerStmts b .empty .skip ⟨[], log'⟩ = q at hlower ⊢
  cases hlower with
  | ok hlowered hstate =>
    obtain ⟨hsuspensions, hlog, hlog'⟩ := hstate
    exact .ok (by rw [hlowered, hsuspensions]) ⟨rfl, hlog, hlog'⟩
  | error hstate => exact .error ⟨rfl, hstate.2⟩

end Scope

/-! ## Profiles and obligations -/

namespace Profile

theorem silent_of (model : Model) (c : Class) (requested : Strategy) :
    Logged.Silent (Profile.of model c requested) := by
  have hanalysis : Component.analysis ≠ .prover := by decide
  unfold Profile.of
  cases c.physical with
  | none => exact .throw _
  | some physical =>
    refine .bind (Logged.silent_lift _) fun equations => .bind (Logged.silent_lift _)
      fun invariant => .bind (Logged.silent_lift _) fun precondition =>
        .bind (Logged.silent_note _ _ hanalysis) fun _ => .bind (Logged.silent_lift _)
          fun controllers => ?_
    dsimp only
    split
    · exact .bind (Logged.silent_note _ _ hanalysis) fun _ =>
        Logged.silent_noteIf _ _ hanalysis (.pure _)
    · exact Logged.silent_noteIf _ _ hanalysis (.pure _)

variable (p : Profile)

theorem silent_methodProgram (m : Method) : Logged.Silent (p.methodProgram m) :=
  .bind (p.scope.silent_lower _) fun _ => .bind (Logged.silent_lift _) fun _ =>
    .bind (Logged.silent_lift _) fun _ => .bind (Logged.silent_lift _) fun _ => .pure _

theorem silent_methodObligation (m : Method) : Logged.Silent (p.methodObligation m) := by
  refine .bind (Logged.silent_lift _) fun ensures => ?_
  split
  · exact .bind (Logged.silent_note _ _ (by decide)) fun _ => .pure _
  · exact .bind (Logged.silent_lift _) fun _ => .bind (p.silent_methodProgram m) fun _ =>
      .bind (Logged.silent_note _ _ (by decide)) fun _ => .bind (Logged.silent_lift _) fun _ =>
        .bind (Logged.silent_lift _) fun _ => .pure _

theorem silent_initObligation : Logged.Silent p.initObligation :=
  .bind (Logged.silent_lift _) fun _ => .bind (p.scope.silent_lower _) fun _ =>
    .bind (Logged.silent_lift _) fun _ => .bind (Logged.silent_lift _) fun _ =>
      .bind (Logged.silent_lift _) fun _ => .bind (Logged.silent_lift _) fun _ => .pure _

theorem silent_zenoObligation (m : Method) : Logged.Silent (p.zenoObligation m) :=
  .bind (Logged.silent_lift _) fun _ => .bind (p.silent_methodProgram m) fun _ =>
    .bind (Logged.silent_lift _) fun _ => .pure _

theorem silent_checkMethods (methods : List Method) : Logged.Silent (p.checkMethods methods) := by
  induction methods with
  | nil => exact .pure _
  | cons m methods ih =>
    unfold checkMethods
    split
    · exact .bind (p.silent_zenoObligation m) fun _ => .bind ih fun _ => .pure _
    · split
      · exact .bind (Logged.silent_note _ _ (by decide)) fun _ => .bind ih fun _ => .pure _
      · exact ih

theorem silent_zenoCheck : Logged.Silent p.zenoCheck := by
  unfold zenoCheck
  split
  · exact .bind (Logged.silent_note _ _ (by decide)) fun _ => .pure _
  · exact p.silent_checkMethods _

end Profile

theorem Model.silent_mainObligation (m : Model) : Logged.Silent m.mainObligation := by
  unfold Model.mainObligation
  cases m.mainBlock? with
  | none => exact .throw _
  | some body =>
    exact .bind (Scope.silent_lower _ _) fun _ => .bind (Logged.silent_lift _) fun _ =>
      .bind (Logged.silent_lift _) fun _ => .pure _

end HybridObjects
