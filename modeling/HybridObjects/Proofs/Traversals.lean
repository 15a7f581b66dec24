import HybridObjects.Proofs.Walks

/-!
# HybridObjects.Proofs.Traversals

Walks as traversals of trees. An iterator takes the node on top of its stack, yields it, and puts
the children of this node on the stack. `walks_visit_once` says what comes of that: the iterator
ends, it yields what a recursion on the tree lists, it visits every place of the tree once, and so
the queries about a block and its local variables are what the structure of the block says.

* `Yields`, `YieldsEach` — the runs of an iterator; `IsWalk.yields_iff` says that walks are their
  results.
* `nodeAt`, `nodeIn`     — the node in a place of a tree, by the numbers of the children on the way.
* `VisitsOnce`           — a list has the nodes of all places, each of them once.
* `Stmt.collect`, `Expr.parts` — recursion on statements and expressions, the last child first.
* `Stmt.Evaluates`       — the expressions that stand in a statement itself.
-/

namespace HybridObjects

section

variable {α : Type}

/-! ## Iterators -/

/-- From this stack the iterator yields these nodes, and then its stack is empty. -/
inductive Yields (children : α → List α) : List α → List α → Prop where
  | done : Yields children [] []
  | next {a : α} {stack out : List α} :
      Yields children ((children a).reverse ++ stack) out → Yields children (a :: stack) (a :: out)

/-- One iterator after the other, each with a single node on its stack, yield these nodes. -/
inductive YieldsEach (children : α → List α) : List α → List α → Prop where
  | nil : YieldsEach children [] []
  | cons {a : α} {roots out out' : List α} : Yields children [a] out →
      YieldsEach children roots out' → YieldsEach children (a :: roots) (out ++ out')

namespace IsWalk

variable {children : α → List α} {size : α → Nat} {walkFrom : Nat → List α → List α}

/-- Every step takes a node off the stack for good, so the sizes on the stack bound the steps. -/
theorem yields_walkFrom (h : IsWalk children size walkFrom) {n : Nat} :
    ∀ {stack : List α}, (stack.map size).sum ≤ n → Yields children stack (walkFrom n stack) := by
  induction n with
  | zero =>
    intro stack hn
    cases stack with
    | nil =>
      rw [h.nil]
      exact .done
    | cons a stack =>
      have hsize := h.size_eq a
      simp only [List.map_cons, List.sum_cons] at hn
      omega
  | succ n ih =>
    intro stack hn
    cases stack with
    | nil =>
      rw [h.nil]
      exact .done
    | cons a stack =>
      have hsum := h.sum_reverse_append a stack
      simp only [List.map_cons, List.sum_cons] at hn
      rw [h.cons]
      exact .next (ih (by omega))

/-- An iterator ends, and what it has yielded then are the walks from the nodes on its stack. -/
theorem yields_iff (h : IsWalk children size walkFrom) {stack out : List α} :
    Yields children stack out ↔ out = stack.flatMap fun a => walkFrom (size a) [a] := by
  constructor
  · intro hyields
    induction hyields with
    | done => rfl
    | @next a stack out _ ih =>
      rw [ih, List.flatMap_cons, h.walk_eq a, List.flatMap_append, List.cons_append]
  · rintro rfl
    have hyields : Yields children stack (walkFrom (stack.map size).sum stack) :=
      h.yields_walkFrom (Nat.le_refl _)
    rwa [h.walkFrom_eq (Nat.le_refl _)] at hyields

theorem yields_singleton_iff (h : IsWalk children size walkFrom) {a : α} {out : List α} :
    Yields children [a] out ↔ out = walkFrom (size a) [a] := by
  rw [h.yields_iff, List.flatMap_cons, List.flatMap_nil, List.append_nil]

theorem yieldsEach_iff (h : IsWalk children size walkFrom) {roots out : List α} :
    YieldsEach children roots out ↔ out = roots.flatMap fun a => walkFrom (size a) [a] := by
  constructor
  · intro hyields
    induction hyields with
    | nil => rfl
    | cons hroot _ ih => rw [h.yields_singleton_iff.mp hroot, ih, List.flatMap_cons]
  · rintro rfl
    induction roots with
    | nil => exact .nil
    | cons a roots ih => exact .cons (h.yields_singleton_iff.mpr rfl) ih

end IsWalk

/-! ## Places -/

/-- The node in a place of a tree: a place is the list of the numbers of the children on the way. -/
def nodeAt (children : α → List α) : List Nat → α → Option α
  | [], a => some a
  | i :: place, a => (children a)[i]?.bind (nodeAt children place)

/-- The node in a place of some trees: the first number is that of the tree. -/
def nodeIn (children : α → List α) (roots : List α) : List Nat → Option α
  | [] => none
  | i :: place => roots[i]?.bind (nodeAt children place)

/-- The list goes through all places in which there is a node, each of them once. -/
def VisitsOnce (at? : List Nat → Option α) (out : List α) : Prop :=
  ∃ places : List (List Nat), places.Nodup ∧ (∀ place, place ∈ places ↔ (at? place).isSome = true) ∧
    places.map at? = out.map some

/-- The place with its first number one higher. -/
def shift : List Nat → List Nat
  | [] => []
  | i :: place => (i + 1) :: place

theorem shift_injective : Function.Injective shift := by
  intro p q h
  cases p <;> cases q <;> simp_all [shift]

theorem nodeIn_cons_shift (children : α → List α) (a : α) (roots : List α) (place : List Nat) :
    nodeIn children (a :: roots) (shift place) = nodeIn children roots place := by
  cases place <;> simp [shift, nodeIn]

namespace VisitsOnce

variable {children : α → List α} {a : α} {roots out out' : List α} {at? : List Nat → Option α}

theorem mem_iff (h : VisitsOnce at? out) {b : α} : b ∈ out ↔ ∃ place, at? place = some b := by
  obtain ⟨places, -, hplaces, hmap⟩ := h
  have hmem : b ∈ out ↔ some b ∈ places.map at? := by simp [hmap]
  rw [hmem, List.mem_map]
  constructor
  · rintro ⟨place, -, hplace⟩
    exact ⟨place, hplace⟩
  · rintro ⟨place, hplace⟩
    exact ⟨place, (hplaces place).mpr (by simp [hplace]), hplace⟩

theorem swap (h : VisitsOnce at? (out ++ out')) : VisitsOnce at? (out' ++ out) := by
  obtain ⟨places, hnodup, hplaces, hmap⟩ := h
  rw [List.map_append] at hmap
  obtain ⟨first, second, rfl, hfirst, hsecond⟩ := List.map_eq_append_iff.mp hmap
  refine ⟨second ++ first, ?_, ?_, ?_⟩
  · exact List.perm_append_comm.nodup_iff.mp hnodup
  · intro place
    rw [← hplaces, List.mem_append, List.mem_append, or_comm]
  · rw [List.map_append, List.map_append, hfirst, hsecond]

theorem nil : VisitsOnce (nodeIn children []) [] := by
  refine ⟨[], List.nodup_nil, fun place => ?_, rfl⟩
  cases place <;> simp [nodeIn]

/-- The places of some trees are those of the first one and those of the others. -/
theorem cons (ha : VisitsOnce (nodeAt children · a) out)
    (hroots : VisitsOnce (nodeIn children roots) out') :
    VisitsOnce (nodeIn children (a :: roots)) (out ++ out') := by
  obtain ⟨first, hfirst, hfirst_mem, hfirst_map⟩ := ha
  obtain ⟨later, hlater, hlater_mem, hlater_map⟩ := hroots
  refine ⟨first.map (0 :: ·) ++ later.map shift, ?_, ?_, ?_⟩
  · refine List.nodup_append.mpr ⟨hfirst.map List.cons_injective, hlater.map shift_injective, ?_⟩
    intro p hp q hq heq
    obtain ⟨place, -, rfl⟩ := List.mem_map.mp hp
    obtain ⟨place', -, rfl⟩ := List.mem_map.mp hq
    cases place' <;> simp [shift] at heq
  · intro place
    rw [List.mem_append, List.mem_map, List.mem_map]
    constructor
    · rintro (⟨p, hp, rfl⟩ | ⟨p, hp, rfl⟩)
      · exact (hfirst_mem p).mp hp
      · rw [nodeIn_cons_shift]
        exact (hlater_mem p).mp hp
    · intro hsome
      match place with
      | [] => cases hsome
      | 0 :: p => exact .inl ⟨p, (hfirst_mem p).mpr hsome, rfl⟩
      | (i + 1) :: p =>
        refine .inr ⟨i :: p, (hlater_mem _).mpr ?_, rfl⟩
        rwa [← nodeIn_cons_shift children a]
  · rw [List.map_append, List.map_append, ← hfirst_map, ← hlater_map, List.map_map, List.map_map]
    congr 1
    exact List.map_congr_left fun p _ => nodeIn_cons_shift children a roots p

/-- The places of a tree are its root and those of its children. -/
theorem node (h : VisitsOnce (nodeIn children (children a)) out) :
    VisitsOnce (nodeAt children · a) (a :: out) := by
  obtain ⟨places, hnodup, hplaces, hmap⟩ := h
  have hroot : [] ∉ places := by
    intro hmem
    cases (hplaces []).mp hmem
  refine ⟨[] :: places, List.nodup_cons.mpr ⟨hroot, hnodup⟩, fun place => ?_, ?_⟩
  · rw [List.mem_cons]
    cases place with
    | nil => simp [nodeAt]
    | cons i place => simp [hplaces, nodeIn, nodeAt]
  · rw [List.map_cons, List.map_cons, ← hmap]
    congr 1
    refine List.map_congr_left fun p hp => ?_
    cases p with
    | nil => exact absurd hp hroot
    | cons i place => rfl

/-- Trees that are visited once each are visited once together, in this order and in the other. -/
theorem flatMap {visit : α → List α}
    (h : ∀ a ∈ roots, VisitsOnce (nodeAt children · a) (visit a)) :
    VisitsOnce (nodeIn children roots) (roots.flatMap visit) ∧
      VisitsOnce (nodeIn children roots) (roots.reverse.flatMap visit) := by
  induction roots with
  | nil => exact ⟨nil, nil⟩
  | cons a roots ih =>
    rw [List.forall_mem_cons] at h
    obtain ⟨ha, hroots⟩ := h
    obtain ⟨hforward, hbackward⟩ := ih hroots
    constructor
    · rw [List.flatMap_cons]
      exact cons ha hforward
    · rw [List.reverse_cons, List.flatMap_append, List.flatMap_cons, List.flatMap_nil,
        List.append_nil]
      exact (cons ha hbackward).swap

end VisitsOnce

theorem IsWalk.visitsOnce {children : α → List α} {size : α → Nat}
    {walkFrom : Nat → List α → List α} (h : IsWalk children size walkFrom) (a : α) :
    VisitsOnce (nodeAt children · a) (walkFrom (size a) [a]) := by
  rw [h.walk_eq]
  refine .node (VisitsOnce.flatMap fun b hb => ?_).2
  have hlt := h.size_lt_of_mem_children hb
  exact h.visitsOnce b
termination_by size a

end

/-! ## Recursion on trees -/

namespace Expr

mutual

/-- An expression and all expressions inside it, each before those inside it, the last child of an
expression before the others. -/
def parts : Expr → List Expr
  | .binary op lhs rhs => .binary op lhs rhs :: (rhs.parts ++ lhs.parts)
  | .unary op arg => .unary op arg :: arg.parts
  | .derivative arg => .derivative arg :: arg.parts
  | .construct name args => .construct name args :: partsOfAll args
  | .apply name args => .apply name args :: partsOfAll args
  | e => [e]

def partsOfAll : List Expr → List Expr
  | [] => []
  | e :: es => partsOfAll es ++ e.parts

end

attribute [simp] parts partsOfAll

theorem walk_eq (e : Expr) : e.walk = e :: e.children.reverse.flatMap walk :=
  isWalk.walk_eq e

mutual

theorem walk_eq_parts : ∀ e : Expr, e.walk = e.parts := by
  intro e
  rw [walk_eq]
  match e with
  | .binary _ lhs rhs => simp [children, walk_eq_parts lhs, walk_eq_parts rhs]
  | .unary _ arg | .derivative arg => simp [children, walk_eq_parts arg]
  | .construct _ args | .apply _ args => simp [children, flatMap_walk_eq_partsOfAll args]
  | .int _ | .float _ | .string _ | .field _ | .var _ | .this => simp [children]

theorem flatMap_walk_eq_partsOfAll : ∀ es : List Expr, es.reverse.flatMap walk = partsOfAll es := by
  intro es
  match es with
  | [] => rfl
  | e :: es => simp [walk_eq_parts e, flatMap_walk_eq_partsOfAll es]

end

/-- The expression in a place inside an expression. -/
def at? (e : Expr) (place : List Nat) : Option Expr :=
  nodeAt children place e

theorem visitsOnce (e : Expr) : VisitsOnce e.at? e.walk :=
  isWalk.visitsOnce e

end Expr

namespace Stmt

section

variable {β : Type} (own : Stmt → List β)

mutual

/-- What each statement contributes on its own, the contribution of a statement before those of the
statements inside it, and the last statement inside it before the others. -/
def collect : Stmt → List β
  | .cond test thenBranch none => own (.cond test thenBranch none) ++ collectAll thenBranch
  | .cond test thenBranch (some elseBranch) =>
    own (.cond test thenBranch (some elseBranch)) ++
      (collectAll elseBranch ++ collectAll thenBranch)
  | .loop test body => own (.loop test body) ++ collectAll body
  | .cases subject branches => own (.cases subject branches) ++ collectBranches branches
  | .block body => own (.block body) ++ collectAll body
  | s => own s

def collectAll : List Stmt → List β
  | [] => []
  | s :: rest => collectAll rest ++ s.collect

def collectBranches : List (String × List Stmt) → List β
  | [] => []
  | (_, body) :: branches => collectBranches branches ++ collectAll body

end

attribute [simp] collect collectAll collectBranches

theorem walk_eq (s : Stmt) : s.walk = s :: s.children.reverse.flatMap walk :=
  isWalk.walk_eq s

mutual

theorem flatMap_walk_eq_collect : ∀ s : Stmt, s.walk.flatMap own = s.collect own := by
  intro s
  rw [walk_eq, List.flatMap_cons, List.flatMap_assoc]
  match s with
  | .cond _ body none | .loop _ body | .block body =>
    simp [children, flatMap_walk_eq_collectAll body]
  | .cond _ thenBranch (some elseBranch) =>
    simp [children, flatMap_walk_eq_collectAll thenBranch, flatMap_walk_eq_collectAll elseBranch]
  | .cases _ branches => simp [children, flatMap_walk_eq_collectBranches branches]
  | .skip | .assign .. | .declare .. | .ret _ | .eval _ | .await _ | .duration .. | .assert _ =>
    simp [children]

theorem flatMap_walk_eq_collectAll : ∀ b : List Stmt,
    b.reverse.flatMap (fun s => s.walk.flatMap own) = collectAll own b := by
  intro b
  match b with
  | [] => rfl
  | s :: rest => simp [flatMap_walk_eq_collect s, flatMap_walk_eq_collectAll rest]

theorem flatMap_walk_eq_collectBranches : ∀ branches : List (String × List Stmt),
    (branchStmts branches).reverse.flatMap (fun s => s.walk.flatMap own) =
      collectBranches own branches := by
  intro branches
  match branches with
  | [] => rfl
  | (_, body) :: branches =>
    have hrest := flatMap_walk_eq_collectBranches branches
    rw [branchStmts] at hrest ⊢
    rw [List.flatMap_cons, List.reverse_append, List.flatMap_append, hrest,
      flatMap_walk_eq_collectAll body, collectBranches]

end

end

end Stmt

namespace Block

/-- The statement in a place of a block. -/
def at? (b : Block) (place : List Nat) : Option Stmt :=
  nodeIn Stmt.children b place

/-- What the statements of a block contribute, in the order of the block. -/
def collect {β : Type} (own : Stmt → List β) (b : Block) : List β :=
  b.flatMap (Stmt.collect own)

theorem flatMap_stmts {β : Type} (own : Stmt → List β) (b : Block) :
    b.stmts.flatMap own = b.collect own := by
  rw [stmts, List.flatMap_assoc, collect]
  exact List.flatMap_congr fun s _ => s.flatMap_walk_eq_collect own

theorem visitsOnce (b : Block) : VisitsOnce b.at? b.stmts :=
  (VisitsOnce.flatMap fun s _ => Stmt.isWalk.visitsOnce s).1

end Block

/-! ## Queries -/

namespace Effect

/-- The signature that an effect calls. -/
def called? : Effect → Option Signature
  | .asyncCall _ _ method _ | .syncCall _ _ method _ => some method
  | .create .. | .get _ => none

/-- The signature that an effect calls on `this`. -/
def calledOnThis? : Effect → Option Signature
  | .asyncCall .this _ method _ | .syncCall .this _ method _ => some method
  | _ => none

/-- The class of which an effect creates an object. -/
def created? : Effect → Option String
  | .create className _ => some className
  | _ => none

end Effect

namespace Block

variable (b : Block)

/-- The effects in a block. -/
def effects : List Effect :=
  b.collect fun s =>
    match s with
    | .assign _ (.effect e) | .declare _ _ (some (.effect e)) | .eval (.effect e) => [e]
    | _ => []

/-- The fields that a block assigns. -/
def fieldWrites : List String :=
  b.collect fun s =>
    match s with
    | .assign (.field name) _ => [name]
    | _ => []

/-- The least and the greatest time that the statements of a block let pass. -/
def durations : List (Expr × Expr) :=
  b.collect fun s =>
    match s with
    | .duration min max => [(min, max)]
    | _ => []

theorem effects_eq : b.effects = b.stmts.filterMap Stmt.effect? := by
  rw [effects, ← flatMap_stmts, List.filterMap_eq_flatMap_toList]
  refine List.flatMap_congr fun s _ => ?_
  unfold Stmt.effect?
  split <;> simp

/-- A query that looks at the effect of a statement alone is a query about effects. -/
theorem filterMap_stmts {β : Type} {query : Stmt → Option β} {pick : Effect → Option β}
    (h : ∀ s, query s = s.effect?.bind pick) :
    b.stmts.filterMap query = b.effects.filterMap pick := by
  rw [effects_eq, List.filterMap_filterMap]
  exact congrArg (b.stmts.filterMap ·) (funext h)

theorem calls_eq : b.calls = b.effects.filterMap Effect.called? := by
  refine b.filterMap_stmts fun s => ?_
  unfold Stmt.call?
  cases s.effect? with
  | none => rfl
  | some e => cases e <;> rfl

theorem selfCalls_eq : b.selfCalls = b.effects.filterMap Effect.calledOnThis? := by
  refine b.filterMap_stmts fun s => ?_
  unfold Stmt.selfCall?
  cases s.effect? with
  | none => rfl
  | some e =>
    cases e with
    | asyncCall callee _ _ _ | syncCall callee _ _ _ => cases callee <;> rfl
    | create | get => rfl

theorem creations_eq : b.creations = b.effects.filterMap Effect.created? := by
  refine b.filterMap_stmts fun s => ?_
  unfold Stmt.creation?
  cases s.effect? with
  | none => rfl
  | some e => cases e <;> rfl

theorem containsGet_iff : b.containsGet = true ↔ ∃ future, .get future ∈ b.effects := by
  simp only [containsGet, List.any_eq_true, Stmt.isGet_iff, effects_eq, List.mem_filterMap]
  constructor
  · rintro ⟨s, hs, future, heffect⟩
    exact ⟨future, s, hs, heffect⟩
  · rintro ⟨future, s, hs, heffect⟩
    exact ⟨s, hs, future, heffect⟩

theorem containsSyncCall_iff : b.containsSyncCall = true ↔
    ∃ callee interface method args, .syncCall callee interface method args ∈ b.effects := by
  simp only [containsSyncCall, List.any_eq_true, Stmt.isSyncCall_iff, effects_eq,
    List.mem_filterMap]
  constructor
  · rintro ⟨s, hs, callee, interface, method, args, heffect⟩
    exact ⟨callee, interface, method, args, s, hs, heffect⟩
  · rintro ⟨callee, interface, method, args, s, hs, heffect⟩
    exact ⟨s, hs, callee, interface, method, args, heffect⟩

/-- A test that holds of the statements that contribute something. -/
theorem any_stmts_iff_collect {β : Type} {own : Stmt → List β} {test : Stmt → Bool}
    (h : ∀ s, test s = true ↔ own s ≠ []) : b.stmts.any test = true ↔ b.collect own ≠ [] := by
  rw [← flatMap_stmts, List.any_eq_true]
  simp [List.flatMap_eq_nil_iff, h]

theorem writesField_iff : b.writesField = true ↔ b.fieldWrites ≠ [] := by
  refine b.any_stmts_iff_collect fun s => ?_
  unfold Stmt.writesField
  split <;> simp

theorem containsDuration_iff : b.containsDuration = true ↔ b.durations ≠ [] := by
  refine b.any_stmts_iff_collect fun s => ?_
  unfold Stmt.isDuration
  split <;> simp

end Block

/-! ## Local variables -/

/-- The expression is the callee, an argument or the future of an effect. -/
inductive Effect.Evaluates : Effect → Expr → Prop where
  | asyncCallee {callee : Expr} {interface : Option String} {method : Signature}
      {args : List Expr} : Evaluates (.asyncCall callee interface method args) callee
  | asyncArg {callee e : Expr} {interface : Option String} {method : Signature}
      {args : List Expr} : e ∈ args → Evaluates (.asyncCall callee interface method args) e
  | syncCallee {callee : Expr} {interface : Option String} {method : Signature}
      {args : List Expr} : Evaluates (.syncCall callee interface method args) callee
  | syncArg {callee e : Expr} {interface : Option String} {method : Signature}
      {args : List Expr} : e ∈ args → Evaluates (.syncCall callee interface method args) e
  | createArg {className : String} {args : List Expr} {e : Expr} :
      e ∈ args → Evaluates (.create className args) e
  | future {e : Expr} : Evaluates (.get e) e

/-- The expression is the value, or stands in the effect. -/
inductive Rhs.Evaluates : Rhs → Expr → Prop where
  | value {e : Expr} : Evaluates (.pure e) e
  | effect {action : Effect} {e : Expr} : action.Evaluates e → Evaluates (.effect action) e

/-- The expression is one of those that a guard is made of. -/
inductive Guard.Evaluates : Guard → Expr → Prop where
  | cond {e : Expr} : Evaluates (.cond e) e
  | differential {e : Expr} : Evaluates (.differential e) e
  | duration {e : Expr} : Evaluates (.duration e) e
  | claim {e : Expr} : Evaluates (.claim e) e
  | andLeft {lhs rhs : Guard} {e : Expr} : lhs.Evaluates e → Evaluates (.and lhs rhs) e
  | andRight {lhs rhs : Guard} {e : Expr} : rhs.Evaluates e → Evaluates (.and lhs rhs) e
  | orLeft {lhs rhs : Guard} {e : Expr} : lhs.Evaluates e → Evaluates (.or lhs rhs) e
  | orRight {lhs rhs : Guard} {e : Expr} : rhs.Evaluates e → Evaluates (.or lhs rhs) e

/-- The expression stands in the statement itself, not only in a statement inside it. -/
inductive Stmt.Evaluates : Stmt → Expr → Prop where
  | assigned {target : Place} {value : Rhs} {e : Expr} :
      value.Evaluates e → Evaluates (.assign target value) e
  | initial {name type : String} {value : Rhs} {e : Expr} :
      value.Evaluates e → Evaluates (.declare name type (some value)) e
  | alone {value : Rhs} {e : Expr} : value.Evaluates e → Evaluates (.eval value) e
  | test {e : Expr} {thenBranch : List Stmt} {elseBranch : Option (List Stmt)} :
      Evaluates (.cond e thenBranch elseBranch) e
  | loopTest {e : Expr} {body : List Stmt} : Evaluates (.loop e body) e
  | subject {e : Expr} {branches : List (String × List Stmt)} : Evaluates (.cases e branches) e
  | returned {e : Expr} : Evaluates (.ret e) e
  | asserted {e : Expr} : Evaluates (.assert e) e
  | awaited {guard : Guard} {e : Expr} : guard.Evaluates e → Evaluates (.await guard) e
  | shortest {e max : Expr} : Evaluates (.duration e max) e
  | longest {min e : Expr} : Evaluates (.duration min e) e

theorem Effect.mem_exprs_iff {action : Effect} {e : Expr} :
    e ∈ action.exprs ↔ action.Evaluates e := by
  constructor
  · intro h
    cases action with
    | asyncCall callee interface method args =>
      rcases List.mem_cons.mp h with rfl | h
      · exact .asyncCallee
      · exact .asyncArg h
    | syncCall callee interface method args =>
      rcases List.mem_cons.mp h with rfl | h
      · exact .syncCallee
      · exact .syncArg h
    | create className args => exact .createArg h
    | get future =>
      obtain rfl := List.mem_singleton.mp h
      exact .future
  · intro h
    cases h <;> simp_all [exprs]

theorem Rhs.mem_exprs_iff {value : Rhs} {e : Expr} : e ∈ value.exprs ↔ value.Evaluates e := by
  constructor
  · intro h
    cases value with
    | pure value =>
      obtain rfl := List.mem_singleton.mp h
      exact .value
    | effect action => exact .effect (Effect.mem_exprs_iff.mp h)
  · intro h
    cases h with
    | value => exact List.mem_singleton.mpr rfl
    | effect h => exact Effect.mem_exprs_iff.mpr h

theorem Guard.mem_exprs_iff {guard : Guard} {e : Expr} : e ∈ guard.exprs ↔ guard.Evaluates e := by
  constructor
  · intro h
    induction guard with
    | cond value | differential value | duration value | claim value =>
      obtain rfl := List.mem_singleton.mp h
      constructor
    | and lhs rhs ihl ihr =>
      rcases List.mem_append.mp h with h | h
      · exact .andLeft (ihl h)
      · exact .andRight (ihr h)
    | or lhs rhs ihl ihr =>
      rcases List.mem_append.mp h with h | h
      · exact .orLeft (ihl h)
      · exact .orRight (ihr h)
  · intro h
    induction h <;> simp_all [exprs]

theorem Stmt.mem_exprs_iff {s : Stmt} {e : Expr} : e ∈ s.exprs ↔ s.Evaluates e := by
  constructor
  · intro h
    match s with
    | .assign _ value => exact .assigned (Rhs.mem_exprs_iff.mp h)
    | .declare _ _ (some value) => exact .initial (Rhs.mem_exprs_iff.mp h)
    | .eval value => exact .alone (Rhs.mem_exprs_iff.mp h)
    | .await guard => exact .awaited (Guard.mem_exprs_iff.mp h)
    | .duration min max =>
      have hor : e = min ∨ e = max := by simpa [exprs] using h
      rcases hor with rfl | rfl
      · exact .shortest
      · exact .longest
    | .cond .. | .loop .. | .cases .. | .ret _ | .assert _ =>
      obtain rfl := List.mem_singleton.mp h
      constructor
    | .skip | .declare _ _ none | .block _ => cases h
  · intro h
    cases h with
    | assigned h | initial h | alone h => exact Rhs.mem_exprs_iff.mpr h
    | awaited h => exact Guard.mem_exprs_iff.mpr h
    | _ => simp [exprs]

theorem Stmt.boundName?_eq_some_iff {s : Stmt} {x : String} : s.boundName? = some x ↔
    (∃ type init, s = .declare x type init) ∨ ∃ value, s = .assign (.var x) value := by
  unfold boundName?
  split <;> simp_all

/-- The variable is bound by the statement, or used in an expression that stands in it. -/
theorem Stmt.boundName?_or_used_iff {s : Stmt} {x : String} :
    (s.boundName? = some x ∨ ∃ e ∈ s.exprs, Expr.var x ∈ e.walk) ↔
      (∃ type init, s = .declare x type init) ∨ (∃ value, s = .assign (.var x) value) ∨
        ∃ e, s.Evaluates e ∧ ∃ part, e.at? part = some (.var x) := by
  have hwalk : ∀ e : Expr, .var x ∈ e.walk ↔ ∃ part, e.at? part = some (.var x) :=
    fun e => (Expr.visitsOnce e).mem_iff
  simp only [boundName?_eq_some_iff, mem_exprs_iff, hwalk, or_assoc]

/-- Iterators over blocks and expressions end. They yield what recursion on the tree lists, each
node before those inside it and the last child first, and every node of the tree exactly once. So
the queries about a block agree with recursion on its statements, and its local variables are,
without repetition, those that it declares, assigns or uses at any depth. -/
theorem walks_visit_once :
    (∀ b : Block,
      (∀ out, YieldsEach Stmt.children b out ↔ out = b.stmts) ∧
      b.stmts = b.collect (fun s => [s]) ∧ VisitsOnce b.at? b.stmts ∧
      (b.writesField = true ↔ b.fieldWrites ≠ []) ∧
      b.calls = b.effects.filterMap Effect.called? ∧
      b.selfCalls = b.effects.filterMap Effect.calledOnThis? ∧
      b.creations = b.effects.filterMap Effect.created? ∧
      (b.containsGet = true ↔ ∃ future, .get future ∈ b.effects) ∧
      (b.containsSyncCall = true ↔
        ∃ callee interface method args, .syncCall callee interface method args ∈ b.effects) ∧
      (b.containsDuration = true ↔ b.durations ≠ []) ∧
      b.localNames.Nodup ∧
      ∀ x, x ∈ b.localNames ↔ ∃ place s, b.at? place = some s ∧
        ((∃ type init, s = .declare x type init) ∨ (∃ value, s = .assign (.var x) value) ∨
          ∃ e, s.Evaluates e ∧ ∃ part, e.at? part = some (.var x))) ∧
    ∀ e : Expr, (∀ out, Yields Expr.children [e] out ↔ out = e.walk) ∧ e.walk = e.parts ∧
      VisitsOnce e.at? e.walk := by
  refine ⟨fun b => ⟨fun out => Stmt.isWalk.yieldsEach_iff, ?_, b.visitsOnce, b.writesField_iff,
    b.calls_eq, b.selfCalls_eq, b.creations_eq, b.containsGet_iff, b.containsSyncCall_iff,
    b.containsDuration_iff, nodup_firstOccurrences _, fun x => ?_⟩,
    fun e => ⟨fun out => Expr.isWalk.yields_singleton_iff, e.walk_eq_parts, e.visitsOnce⟩⟩
  · rw [← Block.flatMap_stmts, List.flatMap_singleton']
  · simp only [Block.mem_localNames_iff, b.visitsOnce.mem_iff, Stmt.boundName?_or_used_iff]
    constructor
    · rintro ⟨s, ⟨place, hplace⟩, hs⟩
      exact ⟨place, s, hplace, hs⟩
    · rintro ⟨place, s, hplace, hs⟩
      exact ⟨s, ⟨place, hplace⟩, hs⟩

end HybridObjects
