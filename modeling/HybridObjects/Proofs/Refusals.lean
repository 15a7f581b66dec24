import HybridObjects.Proofs.Offences
import HybridObjects.Proofs.Translatable

/-!
# HybridObjects.Proofs.Refusals

Which blocks are lowered, and why the others are not.

`refused_at_first`: a block is lowered exactly if every statement in it is supported, at any depth.
If it is refused, then because of the first statement in source order that is not supported, and
only the statements before that one have minted placeholders.

* `Block.inOrder`     — the statements of a block in source order.
* `Stmt.awaited?`     — what a process waits for at a statement.
* `Scope.Traverses`   — a computation that lowers statements one after the other, up to the first
  that offends; `Scope.traverses_lowerStmts` says that lowering is one.
-/

namespace HybridObjects

/-! ## Source order -/

mutual

/-- A statement and the statements inside it, in source order. -/
def Stmt.inOrder : Stmt → List Stmt
  | .cond test thenBranch none => .cond test thenBranch none :: Block.inOrder thenBranch
  | .cond test thenBranch (some elseBranch) =>
    .cond test thenBranch (some elseBranch) ::
      (Block.inOrder thenBranch ++ Block.inOrder elseBranch)
  | .loop test body => .loop test body :: Block.inOrder body
  | .cases subject branches => .cases subject branches :: Block.branchesInOrder branches
  | .block body => .block body :: Block.inOrder body
  | s => [s]

/-- The statements of a block in source order, those inside others included. -/
def Block.inOrder : List Stmt → List Stmt
  | [] => []
  | s :: rest => s.inOrder ++ Block.inOrder rest

def Block.branchesInOrder : List (String × List Stmt) → List Stmt
  | [] => []
  | (_, body) :: branches => Block.inOrder body ++ Block.branchesInOrder branches

end

attribute [simp] Stmt.inOrder Block.inOrder Block.branchesInOrder

mutual

theorem Stmt.mem_inOrder_iff {s : Stmt} :
    ∀ t : Stmt, s ∈ t.inOrder ↔ s = t ∨ s.StandsIn t.children := by
  intro t
  match t with
  | .cond test body none | .loop test body | .block body =>
    simp [Stmt.children, Block.mem_inOrder_iff body]
  | .cond test thenBranch (some elseBranch) =>
    simp [Stmt.children, Stmt.standsIn_append, Block.mem_inOrder_iff thenBranch,
      Block.mem_inOrder_iff elseBranch]
  | .cases subject branches => simp [Stmt.children, Block.mem_branchesInOrder_iff branches]
  | .skip | .assign .. | .declare .. | .ret _ | .eval _ | .await _ | .duration .. | .assert _ =>
    simp [Stmt.children, Stmt.not_standsIn_nil]

/-- The statements in source order are those that stand in the block. -/
theorem Block.mem_inOrder_iff {s : Stmt} : ∀ b : Block, s ∈ Block.inOrder b ↔ s.StandsIn b := by
  intro b
  match b with
  | [] => simp [Stmt.not_standsIn_nil]
  | t :: rest =>
    simp only [Block.inOrder, List.mem_append, Stmt.mem_inOrder_iff t, Block.mem_inOrder_iff rest,
      Stmt.standsIn_cons, or_assoc]

theorem Block.mem_branchesInOrder_iff {s : Stmt} : ∀ branches : List (String × List Stmt),
    s ∈ Block.branchesInOrder branches ↔ s.StandsIn (Stmt.branchStmts branches) := by
  intro branches
  match branches with
  | [] => simp [Stmt.branchStmts, Stmt.not_standsIn_nil]
  | (_, body) :: branches =>
    have hrest := Block.mem_branchesInOrder_iff (s := s) branches
    rw [Stmt.branchStmts] at hrest ⊢
    rw [List.flatMap_cons, Stmt.standsIn_append, ← hrest, ← Block.mem_inOrder_iff body,
      Block.branchesInOrder, List.mem_append]

end

/-! ## Traversals -/

def Rhs.awaited? : Rhs → Option Formula
  | .effect (.get _) => some .verum
  | _ => none

/-- What a process waits for at a statement, if it gives up control there. -/
def Stmt.awaited? : Stmt → Option Formula
  | .await guard => guard.toFormula.toOption
  | .assign _ value | .declare _ _ (some value) | .eval value => value.awaited?
  | _ => none

/-- From the first state to the second, one placeholder has been minted for each of the statements
at which a process gives up control, in their order. -/
def Minted (ss : List Stmt) (st st' : LoweringState) : Prop :=
  ∃ minted, st'.suspensions = st.suspensions ++ minted ∧
    minted.map Suspension.guard = ss.filterMap Stmt.awaited?

namespace Minted

variable {ss ts : List Stmt} {s : Stmt} {st st₁ st' : LoweringState}

theorem refl (st : LoweringState) : Minted [] st st :=
  ⟨[], by simp, rfl⟩

theorem nothing (h : s.awaited? = none) (st : LoweringState) : Minted [s] st st :=
  ⟨[], by simp, by simp [h]⟩

theorem append (h₁ : Minted ss st st₁) (h₂ : Minted ts st₁ st') : Minted (ss ++ ts) st st' := by
  obtain ⟨minted₁, hst₁, hguards₁⟩ := h₁
  obtain ⟨minted₂, hst₂, hguards₂⟩ := h₂
  refine ⟨minted₁ ++ minted₂, ?_, ?_⟩
  · rw [hst₂, hst₁, List.append_assoc]
  · rw [List.map_append, hguards₁, hguards₂, List.filterMap_append]

end Minted

/-- The computation lowers the statements one after the other. If none offends, it succeeds and
mints their placeholders; if one does, it fails there for the reason that this one gives. -/
structure Scope.Traverses (scope : Scope) {α : Type} (x : Lowering α) (ss : List Stmt) : Prop where
  ok : (∀ s ∈ ss, scope.offence? s = none) → ∀ st, ∃ a st', x st = .ok a st' ∧ Minted ss st st'
  error : ∀ {before s after err}, ss = before ++ s :: after →
    (∀ t ∈ before, scope.offence? t = none) → scope.offence? s = some err →
    ∀ st, ∃ st', x st = .error err st' ∧ Minted before st st'

namespace Scope.Traverses

variable {scope : Scope} {α β : Type} {x : Lowering α} {f : α → Lowering β} {s : Stmt}
  {ss ts : List Stmt}

/-- A computation that succeeds goes past a statement that does not offend. -/
theorem of_ok (h : scope.offence? s = none)
    (hx : ∀ st, ∃ a st', x st = .ok a st' ∧ Minted [s] st st') : scope.Traverses x [s] where
  ok := fun _ => hx
  error := by
    intro before s' after err hsplit hbefore hs'
    rcases List.singleton_eq_append_iff.mp hsplit with ⟨rfl, hcons⟩ | ⟨-, hnil⟩
    · cases hcons
      rw [h] at hs'
      cases hs'
    · cases hnil

theorem throw {err : Error} (h : scope.offence? s = some err) (rest : List Stmt) :
    scope.Traverses (MonadExcept.throw err : Lowering α) (s :: rest) where
  ok := by
    intro hnone
    have hs := hnone s List.mem_cons_self
    rw [h] at hs
    cases hs
  error := by
    intro before s' after err' hsplit hbefore hs' st
    cases before with
    | nil =>
      cases hsplit
      rw [h] at hs'
      cases hs'
      exact ⟨st, rfl, .refl st⟩
    | cons first before =>
      cases hsplit
      have hfirst := hbefore s List.mem_cons_self
      rw [h] at hfirst
      cases hfirst

theorem nil (h : ∀ st, ∃ a st', x st = .ok a st' ∧ Minted [] st st') : scope.Traverses x [] where
  ok := fun _ => h
  error := by
    intro before s after err hsplit
    simp at hsplit

theorem pure (a : α) : scope.Traverses (Pure.pure a : Lowering α) [] :=
  nil fun st => ⟨a, st, rfl, .refl st⟩

theorem note (text : String) : scope.Traverses (Lowering.note text) [] :=
  nil fun _ => ⟨(), _, rfl, [], by simp, rfl⟩

theorem bind (hx : scope.Traverses x ss) (hf : ∀ a, scope.Traverses (f a) ts) :
    scope.Traverses (x >>= f) (ss ++ ts) where
  ok := by
    intro hnone st
    obtain ⟨hss, hts⟩ := List.forall_mem_append.mp hnone
    obtain ⟨a, st₁, ha, hminted₁⟩ := hx.ok hss st
    obtain ⟨b, st', hb, hminted₂⟩ := (hf a).ok hts st₁
    exact ⟨b, st', bind_eq_ok.mpr ⟨a, st₁, ha, hb⟩, hminted₁.append hminted₂⟩
  error := by
    intro before s after err hsplit hbefore hs st
    -- the offending statement is one of the second computation, or one of the first
    have hsecond : ∀ mid, before = ss ++ mid → ts = mid ++ s :: after →
        ∃ st', (x >>= f) st = .error err st' ∧ Minted before st st' := by
      rintro mid rfl hts
      obtain ⟨hss, hmid⟩ := List.forall_mem_append.mp hbefore
      obtain ⟨a, st₁, ha, hminted₁⟩ := hx.ok hss st
      obtain ⟨st', herr, hminted₂⟩ := (hf a).error hts hmid hs st₁
      exact ⟨st', bind_eq_error.mpr (.inr ⟨a, st₁, ha, herr⟩), hminted₁.append hminted₂⟩
    rcases List.append_eq_append_iff.mp hsplit with ⟨mid, hss, hts⟩ | ⟨mid, hss, hmid⟩
    · exact hsecond mid hss hts
    · cases mid with
      | nil => exact hsecond [] (by simpa using hss.symm) hmid.symm
      | cons first mid =>
        cases hmid
        obtain ⟨st', herr, hminted⟩ := hx.error hss hbefore hs st
        exact ⟨st', bind_eq_error.mpr (.inl herr), hminted⟩

theorem cons (hx : scope.Traverses x [s]) (hf : ∀ a, scope.Traverses (f a) ts) :
    scope.Traverses (x >>= f) (s :: ts) :=
  bind hx hf

theorem andThen (hx : scope.Traverses x ss) (hf : ∀ a, scope.Traverses (f a) []) :
    scope.Traverses (x >>= f) ss := by
  simpa using bind hx hf

/-- A statement that neither offends nor waits needs nothing done. -/
theorem silent (h : scope.offence? s = none) (hs : s.awaited? = none)
    (hx : scope.Traverses x ts) : scope.Traverses x (s :: ts) :=
  cons (of_ok (x := Pure.pure ()) h fun st => ⟨(), st, rfl, .nothing hs st⟩) fun _ => hx

theorem lift {y : Except Error α} (h : errorOf? y = scope.offence? s) (hs : s.awaited? = none) :
    scope.Traverses (Lowering.lift y) [s] := by
  cases y with
  | ok a => exact silent h.symm hs (pure a)
  | error e => exact throw h.symm []

theorem liftExpr {y : Except Expr α}
    (h : (refusal y).map Error.unsupportedExpr = scope.offence? s) (hs : s.awaited? = none) :
    scope.Traverses (Lowering.liftExpr y) [s] := by
  cases y with
  | ok a => exact silent h.symm hs (pure a)
  | error e => exact throw h.symm []

theorem suspend {guard : Formula} (h : scope.offence? s = none) (hs : s.awaited? = some guard)
    (calls : CallSet) (blocking : Bool) :
    scope.Traverses (scope.suspend guard calls blocking) [s] :=
  of_ok h fun _ => ⟨_, _, rfl, [⟨guard, calls, blocking⟩], rfl, by simp [hs]⟩

end Scope.Traverses

namespace Scope

variable {scope : Scope} {s : Stmt}

theorem traverses_lowerEffect {e : Effect} (h : scope.offence? s = scope.effectOffence? e)
    (hs : s.awaited? = (Rhs.effect e).awaited?) (calls : CallSet) :
    scope.Traverses (scope.lowerEffect e calls) [s] := by
  cases e with
  | asyncCall callee interface method args =>
    refine .andThen (.lift (by rw [h, errorOf?_callPrecondition]) hs) fun found => ?_
    cases found with
    | some pre => exact .pure _
    | none => exact .andThen (.note _) fun _ => .pure _
  | syncCall callee interface method args => exact .throw h []
  | create className args =>
    exact .andThen (.lift (by rw [h, errorOf?_creationPrecondition]) hs) fun _ => .pure _
  | get future => exact .suspend h hs calls true

theorem traverses_lowerAssign {value : Rhs} (h : scope.offence? s = scope.rhsOffence? value)
    (hs : s.awaited? = value.awaited?) (target : String) (calls : CallSet) :
    scope.Traverses (scope.lowerAssign target value calls) [s] := by
  cases value with
  | pure e =>
    exact .andThen (.liftExpr (by rw [h, rhsOffence?, e.firstOffence_value]) hs) fun _ => .pure _
  | effect e => exact .andThen (traverses_lowerEffect h hs calls) fun _ => .pure _

theorem traverses_await (guard : Guard) (calls : CallSet) :
    scope.Traverses (scope.lowerStmt (.await guard) calls) [.await guard] := by
  have hoffence : scope.offence? (.await guard) =
      (refusal guard.toFormula).map .unsupportedExpr := by
    rw [offence?, guard.firstOffence_visits]
  rw [lowerStmt]
  cases hguard : guard.toFormula with
  | error e =>
    rw [hguard] at hoffence
    exact .throw hoffence []
  | ok f =>
    rw [hguard] at hoffence
    exact .suspend hoffence (by simp [Stmt.awaited?, hguard, Except.toOption]) calls false

mutual

theorem traverses_lowerStmt : ∀ (s : Stmt) (calls : CallSet),
    scope.Traverses (scope.lowerStmt s calls) s.inOrder := by
  intro s calls
  match s with
  | .skip | .declare name type none | .eval (.pure e) => exact .silent rfl rfl (.pure _)
  | .assign target value => exact traverses_lowerAssign rfl rfl target.name calls
  | .declare name type (some value) => exact traverses_lowerAssign rfl rfl name calls
  | .cond test thenBranch none =>
    exact .cons (.liftExpr (by rw [offence?, test.firstOffence_truth]) rfl) fun _ =>
      .andThen (traverses_lowerStmts thenBranch calls .skip) fun _ => .pure _
  | .cond test thenBranch (some elseBranch) =>
    exact .cons (.liftExpr (by rw [offence?, test.firstOffence_truth]) rfl) fun _ =>
      .bind (traverses_lowerStmts thenBranch calls .skip) fun _ =>
        .andThen (traverses_lowerStmts elseBranch calls .skip) fun _ => .pure _
  | .block body => exact .silent rfl rfl (traverses_lowerStmts body calls .skip)
  | .ret value =>
    exact .andThen (.liftExpr (by rw [offence?, value.firstOffence_value]) rfl) fun _ => .pure _
  | .eval (.effect e) => exact traverses_lowerEffect rfl rfl calls
  | .await guard => exact traverses_await guard calls
  | .loop .. | .cases .. | .duration .. | .assert _ => exact .throw rfl _

theorem traverses_lowerStmts : ∀ (b : Block) (calls : CallSet) (before : Program),
    scope.Traverses (scope.lowerStmts b calls before) (Block.inOrder b) := by
  intro b calls before
  match b with
  | [] => exact .pure _
  | s :: rest =>
    exact .bind (traverses_lowerStmt s calls) fun _ => traverses_lowerStmts rest _ _

end

end Scope

/-! ## Blocks -/

/-- If statements are not all supported, there is a first one that is not. -/
theorem Scope.exists_first_offence {scope : Scope} {ss : List Stmt}
    (h : ¬ ∀ s ∈ ss, scope.offence? s = none) :
    ∃ before s after err, ss = before ++ s :: after ∧ (∀ t ∈ before, scope.offence? t = none) ∧
      scope.offence? s = some err := by
  induction ss with
  | nil => simp at h
  | cons s ss ih =>
    cases hs : scope.offence? s with
    | some err => exact ⟨[], s, ss, err, rfl, by simp, hs⟩
    | none =>
      obtain ⟨before, s', after, err, rfl, hbefore, hs'⟩ := ih fun hss =>
        h (List.forall_mem_cons.mpr ⟨hs, hss⟩)
      exact ⟨s :: before, s', after, err, rfl, List.forall_mem_cons.mpr ⟨hs, hbefore⟩, hs'⟩

/-- A block is lowered if and only if all statements in it are supported, at any depth. If it is
refused, the statements before some statement in source order are supported, this one is not, the
error is what it gives as reason, and the placeholders that were minted are those of the statements
before it. -/
theorem refused_at_first (scope : Scope) (b : Block) (calls : CallSet) (st : LoweringState) :
    ((∃ lowered st', scope.lowerBlock b calls st = .ok lowered st') ↔
        ∀ s : Stmt, s.StandsIn b → scope.Supports s) ∧
      ∀ err st', scope.lowerBlock b calls st = .error err st' →
        ∃ before s after, Block.inOrder b = before ++ s :: after ∧
          (∀ t ∈ before, scope.Supports t) ∧ ¬ scope.Supports s ∧ scope.offence? s = some err ∧
          ∃ minted, st'.suspensions = st.suspensions ++ minted ∧
            minted.map Suspension.guard = before.filterMap Stmt.awaited? := by
  have htraverses : scope.Traverses (scope.lowerBlock b calls) (Block.inOrder b) :=
    Scope.traverses_lowerStmts b calls .skip
  have hsupported : (∀ s : Stmt, s.StandsIn b → scope.Supports s) ↔
      ∀ s ∈ Block.inOrder b, scope.offence? s = none := by
    simp only [Block.mem_inOrder_iff, Scope.offence?_eq_none_iff]
  rw [hsupported]
  by_cases hnone : ∀ s ∈ Block.inOrder b, scope.offence? s = none
  · obtain ⟨lowered, st₁, hok, -⟩ := htraverses.ok hnone st
    refine ⟨⟨fun _ => hnone, fun _ => ⟨lowered, st₁, hok⟩⟩, ?_⟩
    intro err st' herr
    rw [hok] at herr
    cases herr
  · obtain ⟨before, s, after, err, hsplit, hbefore, hs⟩ := Scope.exists_first_offence hnone
    obtain ⟨st₁, hfails, hminted⟩ := htraverses.error hsplit hbefore hs st
    refine ⟨⟨?_, fun h => absurd h hnone⟩, ?_⟩
    · rintro ⟨lowered, st', hok⟩
      rw [hfails] at hok
      cases hok
    · intro err' st' herr
      rw [hfails] at herr
      cases herr
      refine ⟨before, s, after, hsplit, ?_, ?_, hs, hminted⟩
      · exact fun t ht => Scope.offence?_eq_none_iff.mp (hbefore t ht)
      · rw [← Scope.offence?_eq_none_iff, hs]
        exact Option.some_ne_none err

/-! ## A shutdown -/

/-- Waits in both branches and then assigns a text, which is no term; after that, it would wait
again. -/
def Block.shutdown : Block :=
  [.cond (.binary .gt (.field "x") (.int "0"))
      [.await (.differential (.binary .ge (.field "x") (.int "9")))]
      (some [.declare "y" "Int" (some (.effect (.get (.var "f")))),
        .block [.assign (.field "x") (.pure (.string "off"))]]),
    .await (.duration (.int "1")),
    .loop (.binary .lt (.field "x") (.int "9")) [.skip]]

def Scope.bare : Scope :=
  ⟨⟨[]⟩, none, .verum, []⟩

/-- The text is refused and not the loop. Two placeholders have been minted then, one in each
branch. -/
theorem refused_at_first_shutdown : ∃ st',
    Scope.bare.lowerBlock .shutdown .empty .empty =
        .error (.unsupportedExpr (.string "off")) st' ∧
      st'.suspensions.length = 2 ∧
      (¬ ∀ s : Stmt, s.StandsIn Block.shutdown → Scope.bare.Supports s) ∧
      ∃ before s after, Block.inOrder Block.shutdown = before ++ s :: after ∧
        (∀ t ∈ before, Scope.bare.Supports t) ∧ ¬ Scope.bare.Supports s ∧
        Scope.bare.offence? s = some (.unsupportedExpr (.string "off")) ∧
        ∃ minted, st'.suspensions = minted ∧
          minted.map Suspension.guard = before.filterMap Stmt.awaited? := by
  have hfails : ∃ st', Scope.bare.lowerBlock .shutdown .empty .empty =
      .error (.unsupportedExpr (.string "off")) st' ∧ st'.suspensions.length = 2 := ⟨_, rfl, rfl⟩
  obtain ⟨st', hfails, hlength⟩ := hfails
  obtain ⟨hlowered, hrefused⟩ := refused_at_first .bare .shutdown .empty .empty
  refine ⟨st', hfails, hlength, ?_, hrefused _ st' hfails⟩
  intro hsupported
  obtain ⟨lowered, st₁, hok⟩ := hlowered.mpr hsupported
  rw [hfails] at hok
  cases hok

end HybridObjects
