import HybridObjects.Proofs.LoweringSteps

/-!
# HybridObjects.Proofs.Minting

Each suspension has a placeholder of its own. However many statements and blocks are lowered one
after the other in one scope, and whether or not they succeed, placeholders are numbered in the
order of their suspensions, and no entry is changed once it is made. A lowering that succeeds
returns a program with the placeholders it has minted and no others: each is tested once, and its
negation is tested once.

* `LoweringState.ledger`   — the placeholders minted so far with their suspensions.
* `Scope.serve`, `Scope.after` — one lowering, and the state after a series of them.
* `Scope.ledger_prefix_after` — entries stay what they are.
* `minted_in_order`        — what a series of lowerings mints, and what each of them returns.
-/

namespace HybridObjects

/-! ## Entries -/

/-- Suspensions with their placeholders, numbered from `n` on. -/
def numbered (n : Nat) (sus : List Suspension) : List (Placeholder × Suspension) :=
  (sus.zipIdx n).map fun (entry, i) => (⟨i⟩, entry)

theorem numbered_append (n : Nat) (sus sus' : List Suspension) :
    numbered n (sus ++ sus') = numbered n sus ++ numbered (n + sus.length) sus' := by
  simp [numbered, List.zipIdx_append]

theorem numbered_cons (n : Nat) (entry : Suspension) (sus : List Suspension) :
    numbered n (entry :: sus) = (⟨n⟩, entry) :: numbered (n + 1) sus := by
  simp [numbered, List.zipIdx_cons]

@[simp] theorem length_numbered (n : Nat) (sus : List Suspension) :
    (numbered n sus).length = sus.length := by
  simp [numbered]

theorem map_fst_numbered (n : Nat) (sus : List Suspension) :
    (numbered n sus).map Prod.fst = (List.range' n sus.length).map Placeholder.mk := by
  induction sus generalizing n with
  | nil => rfl
  | cons entry sus ih =>
    rw [numbered_cons, List.map_cons, ih, List.length_cons, List.range'_succ, List.map_cons]

/-- What is read off the numbers of suspensions can be read off their placeholders. -/
theorem flatMap_numbered {α : Type} (g : Placeholder → List α) (n : Nat) (sus : List Suspension) :
    (numbered n sus).flatMap (fun entry => g entry.1) =
      (List.range' n sus.length).flatMap fun i => g ⟨i⟩ := by
  calc (numbered n sus).flatMap (fun entry => g entry.1)
      = ((numbered n sus).map Prod.fst).flatMap g := by rw [List.flatMap_map]
    _ = (List.range' n sus.length).flatMap fun i => g ⟨i⟩ := by
      rw [map_fst_numbered, List.flatMap_map]

/-- Formulas are found for the placeholders of suspensions, in their order. -/
theorem keys_of_resolveFrom {answer : Suspension → Except Error Formula} {n : Nat}
    {sus : List Suspension} {res : Resolution} (h : resolveFrom answer n sus = .ok res) :
    res.keys = (numbered n sus).map Prod.fst := by
  induction sus generalizing n res with
  | nil =>
    cases h
    rfl
  | cons entry sus ih =>
    unfold resolveFrom at h
    split at h
    · cases h
    · split at h
      · cases h
      · next found hfound =>
        cases h
        rw [numbered_cons, List.map_cons, ← ih hfound]
        rfl

/-- The placeholders minted so far with their suspensions. -/
def LoweringState.ledger (st : LoweringState) : List (Placeholder × Suspension) :=
  numbered 0 st.suspensions

theorem LoweringState.ledger_of_append {st st' : LoweringState} {sus : List Suspension}
    (h : st'.suspensions = st.suspensions ++ sus) :
    st'.ledger = st.ledger ++ numbered st.suspensions.length sus := by
  rw [ledger, h, numbered_append, Nat.zero_add, ledger]

/-! ## Growth -/

/-- The state a lowering leaves, also when it fails. -/
def Lowering.final {α : Type} (x : Lowering α) (st : LoweringState) : LoweringState :=
  match x st with
  | .ok _ st' | .error _ st' => st'

/-- The entries made before a lowering stay what they are. -/
def Lowering.Grows {α : Type} (x : Lowering α) : Prop :=
  ∀ st, st.ledger <+: (x.final st).ledger

namespace Lowering

theorem final_of_eq_ok {α : Type} {x : Lowering α} {st st' : LoweringState} {a : α}
    (h : x st = .ok a st') : x.final st = st' := by
  rw [final, h]

/-- A minted placeholder gets the entry of its suspension, behind all the others. -/
theorem ledger_mint (entry : Suspension) (st : LoweringState) :
    ((mint entry).final st).ledger = st.ledger ++ [(⟨st.suspensions.length⟩, entry)] := by
  have hentry : ((mint entry).final st).suspensions = st.suspensions ++ [entry] := rfl
  rw [LoweringState.ledger_of_append hentry]
  rfl

theorem grows_bind {α β : Type} {x : Lowering α} {f : α → Lowering β} (hx : Grows x)
    (hf : ∀ a, Grows (f a)) : Grows (x >>= f) := by
  intro st
  have hfirst := hx st
  unfold final at hfirst ⊢
  change st.ledger <+: (match EStateM.bind x f st with | .ok _ st' | .error _ st' => st').ledger
  unfold EStateM.bind
  generalize x st = r at hfirst ⊢
  cases r with
  | error e st₁ => exact hfirst
  | ok a st₁ => exact hfirst.trans (hf a st₁)

theorem inherited_grows : Inherited Grows where
  pure := fun _ _ => List.prefix_refl _
  throw := fun _ _ => List.prefix_refl _
  bind := grows_bind
  mint := by
    intro entry st
    rw [ledger_mint]
    exact List.prefix_append _ _
  note := fun _ _ => List.prefix_refl _

end Lowering

/-! ## Series of lowerings -/

/-- A statement or a block to be lowered after the given calls. -/
inductive Request where
  | stmt (s : Stmt) (calls : CallSet)
  | block (b : Block) (calls : CallSet)

/-- What is lowered. -/
def Request.code : Request → Block
  | .stmt s _ => [s]
  | .block b _ => b

namespace Scope

def serve (scope : Scope) : Request → Lowering Lowered
  | .stmt s calls => scope.lowerStmt s calls
  | .block b calls => scope.lowerBlock b calls

/-- The state after a series of requests, those that fail included. -/
def after (scope : Scope) (requests : List Request) : LoweringState :=
  requests.foldl (fun st request => (scope.serve request).final st) .empty

variable {scope : Scope}

theorem grows_serve (scope : Scope) (request : Request) : (scope.serve request).Grows := by
  cases request with
  | stmt s calls => exact Lowering.inherited_grows.lowerStmt scope s calls
  | block b calls => exact Lowering.inherited_grows.lowerStmts scope b calls .skip

theorem after_append (scope : Scope) (earlier : List Request) (request : Request) :
    scope.after (earlier ++ [request]) = (scope.serve request).final (scope.after earlier) := by
  rw [after, List.foldl_append, List.foldl_cons, List.foldl_nil, after]

/-- No request changes an entry that an earlier one has made. -/
theorem ledger_prefix_after (scope : Scope) (earlier later : List Request) :
    (scope.after earlier).ledger <+: (scope.after (earlier ++ later)).ledger := by
  induction later generalizing earlier with
  | nil => rw [List.append_nil]
  | cons request later ih =>
    rw [List.append_cons]
    refine List.IsPrefix.trans ?_ (ih (earlier ++ [request]))
    rw [after_append]
    exact grows_serve scope request _

/-- A request that succeeds mints as many placeholders as its code has suspensions, and they are the
placeholders of its program. -/
theorem serve_eq_ok (hinv : scope.invariant.placeholders = []) {request : Request}
    {st st' : LoweringState} {lowered : Lowered} (h : scope.serve request st = .ok lowered st') :
    ∃ sus, st'.suspensions = st.suspensions ++ sus ∧ sus.length = request.code.waits ∧
      Owns lowered.program st.suspensions.length sus := by
  cases request with
  | stmt s calls =>
    obtain ⟨sus, hst, hhead⟩ := lowerStmt_eq_ok s h
    have hlowers := hhead .nil
    rw [List.append_nil] at hlowers
    exact ⟨sus, hst, hlowers.length_eq, hlowers.owns hinv⟩
  | block b calls =>
    obtain ⟨ps, sus, hlowers, hprogram, hst⟩ := lowers_of_lowerBlock h
    rw [hprogram]
    exact ⟨sus, hst, hlowers.length_eq, hlowers.owns hinv⟩

end Scope

/-- Each suspension has one fresh placeholder, used exactly twice. After any series of requests, the
placeholders minted are numbered from 0 on, formulas are found for exactly these, and later requests
keep their entries. A request that succeeds next mints one placeholder for each await and each read
of a future in its code; its program has these placeholders and no others, each in one test of it
and in one test of its negation. -/
theorem minted_in_order (scope : Scope) (hinv : scope.invariant.placeholders = [])
    (earlier : List Request) :
    ((scope.after earlier).ledger.map Prod.fst =
      (List.range (scope.after earlier).ledger.length).map Placeholder.mk) ∧
    (∀ answer res, resolveAll answer (scope.after earlier).suspensions = .ok res →
      res.keys = (scope.after earlier).ledger.map Prod.fst) ∧
    (∀ later, (scope.after earlier).ledger <+: (scope.after (earlier ++ later)).ledger) ∧
    ∀ request lowered st', scope.serve request (scope.after earlier) = .ok lowered st' →
      st' = scope.after (earlier ++ [request]) ∧
      ∃ minted, st'.ledger = (scope.after earlier).ledger ++ minted ∧
        minted.length = request.code.waits ∧
        lowered.program.placeholders = minted.flatMap (fun entry => [entry.1, entry.1]) ∧
        lowered.program.marks =
          minted.flatMap fun entry => [(entry.1, true), (entry.1, false)] := by
  refine ⟨?_, fun answer res h => keys_of_resolveFrom h, scope.ledger_prefix_after earlier, ?_⟩
  · rw [LoweringState.ledger, map_fst_numbered, length_numbered, List.range_eq_range']
  intro request lowered st' h
  obtain ⟨sus, hst, hlength, howns⟩ := Scope.serve_eq_ok hinv h
  refine ⟨?_, numbered _ sus, LoweringState.ledger_of_append hst, ?_, ?_, ?_⟩
  · rw [Scope.after_append, Lowering.final_of_eq_ok h]
  · rw [length_numbered, hlength]
  · rw [howns.placeholders_eq, flatMap_numbered fun id => [id, id]]
  · rw [howns.marks_eq, flatMap_numbered fun id => [(id, true), (id, false)]]

/-- Waits for `x` to be positive and goes on with a loop, which has no program. -/
def Block.interrupted : Block :=
  [.await (.differential (.binary .gt (.var "x") (.int "0"))), .loop (.var "x") []]

/-- The placeholder of a request that fails stays, and the next request has those after it. -/
theorem minted_in_order_patrol :
    (Scope.outside.after [.block .interrupted .empty]).ledger.map Prod.fst = [⟨0⟩] ∧
    ∃ lowered st', Scope.outside.serve (.block .patrol .empty)
        (Scope.outside.after [.block .interrupted .empty]) = .ok lowered st' ∧
      lowered.program.placeholders = [⟨1⟩, ⟨1⟩, ⟨2⟩, ⟨2⟩] ∧
      lowered.program.marks = [(⟨1⟩, true), (⟨1⟩, false), (⟨2⟩, true), (⟨2⟩, false)] := by
  have hinv : Scope.outside.invariant.placeholders = [] := by
    rw [Scope.outside, Formula.placeholders]
  obtain ⟨hids, -, -, hserve⟩ := minted_in_order _ hinv [.block .interrupted .empty]
  refine ⟨hids, _, _, rfl, ?_⟩
  obtain ⟨-, minted, hledger, -, hplaceholders, hmarks⟩ := hserve (.block .patrol .empty) _ _ rfl
  have hminted : _ = minted := (List.cons.inj hledger).2
  rw [hplaceholders, hmarks, ← hminted]
  exact ⟨rfl, rfl⟩

end HybridObjects
