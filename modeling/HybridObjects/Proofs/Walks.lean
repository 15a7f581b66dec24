import HybridObjects.Model.Walk
import Mathlib.Algebra.BigOperators.Group.List.Basic
import Mathlib.Algebra.GroupWithZero.Nat
import Mathlib.Algebra.Order.BigOperators.Group.List
import Mathlib.Algebra.Order.Group.Nat
import Mathlib.Data.List.Nodup

/-!
# HybridObjects.Proofs.Walks

What walks meet. A walk runs out of its bound exactly when its stack is empty, so it meets the node
and then all that its children meet, the last child first; and the local variables of a block are
those of the statements met.

* `IsWalk.walkFrom_eq`   — a walk from a stack is the walks from its nodes.
* `Stmt.mem_walk_iff`, `Expr.mem_walk_iff` — nodes met by a walk.
* `Stmt.isGet_iff`, `Stmt.call?_eq_some_iff` and others — what a statement does itself.
* `Block.mem_localNames_iff` — the local variables of a block.
-/

namespace HybridObjects

/-! ## Walks over trees -/

/-- A bounded walk with a stack over trees of a given size. -/
structure IsWalk {α : Type} (children : α → List α) (size : α → Nat)
    (walkFrom : Nat → List α → List α) : Prop where
  size_eq : ∀ a, size a = ((children a).map size).sum + 1
  nil : ∀ n, walkFrom n [] = []
  cons : ∀ n a stack,
    walkFrom (n + 1) (a :: stack) = a :: walkFrom n ((children a).reverse ++ stack)

namespace IsWalk

variable {α : Type} {children : α → List α} {size : α → Nat} {walkFrom : Nat → List α → List α}

theorem sum_reverse_append (h : IsWalk children size walkFrom) (a : α) (stack : List α) :
    (((children a).reverse ++ stack).map size).sum + 1 = size a + (stack.map size).sum := by
  rw [h.size_eq a, List.map_append, List.sum_append, List.map_reverse, List.sum_reverse]
  omega

theorem size_lt_of_mem_children (h : IsWalk children size walkFrom) {a b : α}
    (hb : b ∈ children a) : size b < size a := by
  have hle : size b ≤ ((children a).map size).sum := List.le_sum_of_mem (List.mem_map_of_mem hb)
  have hsize := h.size_eq a
  omega

/-- If the bound admits all nodes below the stack, the nodes on it are walked one after the
other. -/
theorem walkFrom_eq (h : IsWalk children size walkFrom) {n : Nat} :
    ∀ {stack : List α}, (stack.map size).sum ≤ n →
      walkFrom n stack = stack.flatMap fun a => walkFrom (size a) [a] := by
  induction n using Nat.strongRecOn with
  | ind n ih =>
    intro stack hn
    cases stack with
    | nil => rw [h.nil, List.flatMap_nil]
    | cons a stack =>
      have hsum := h.sum_reverse_append a stack
      have hchildren := h.sum_reverse_append a []
      rw [List.map_cons, List.sum_cons] at hn
      rw [List.map_nil, List.sum_nil] at hchildren
      obtain ⟨n, rfl⟩ : ∃ k, n = k + 1 := ⟨n - 1, by omega⟩
      obtain ⟨k, hk⟩ : ∃ k, size a = k + 1 := ⟨size a - 1, by omega⟩
      -- the children of `a` are walked alike with the bound `n` and with that of `a` alone
      rw [List.flatMap_cons, h.cons, ih n (by omega) (by omega), hk, h.cons,
        ih k (by omega) (by omega), List.append_nil, List.flatMap_append, List.cons_append]

theorem walk_eq (h : IsWalk children size walkFrom) (a : α) :
    walkFrom (size a) [a] =
      a :: (children a).reverse.flatMap fun b => walkFrom (size b) [b] := by
  have hsum := h.sum_reverse_append a []
  rw [List.map_nil, List.sum_nil] at hsum
  obtain ⟨k, hk⟩ : ∃ k, size a = k + 1 := ⟨size a - 1, by omega⟩
  rw [hk, h.cons, h.walkFrom_eq (by omega), List.append_nil]

theorem mem_walk_iff (h : IsWalk children size walkFrom) {a b : α} :
    b ∈ walkFrom (size a) [a] ↔ b = a ∨ ∃ c ∈ children a, b ∈ walkFrom (size c) [c] := by
  rw [h.walk_eq, List.mem_cons, List.mem_flatMap]
  simp only [List.mem_reverse]

end IsWalk

/-! ## Expressions -/

namespace Expr

theorem sizes_eq (es : List Expr) : sizes es = (es.map size).sum := by
  induction es with
  | nil => rfl
  | cons e es ih => rw [sizes, ih, List.map_cons, List.sum_cons]

theorem isWalk : IsWalk children size walkFrom where
  size_eq := by
    intro e
    cases e <;> simp [size, children, sizes_eq]
  nil := by
    intro n
    cases n <;> rfl
  cons _ _ _ := rfl

theorem mem_walk_iff {e e' : Expr} : e' ∈ e.walk ↔ e' = e ∨ ∃ c ∈ e.children, e' ∈ c.walk :=
  isWalk.mem_walk_iff

theorem mem_walk_self (e : Expr) : e ∈ e.walk :=
  mem_walk_iff.mpr (.inl rfl)

theorem mem_walk_of_child {e c e' : Expr} (hc : c ∈ e.children) (h : e' ∈ c.walk) : e' ∈ e.walk :=
  mem_walk_iff.mpr (.inr ⟨c, hc, h⟩)

end Expr

/-! ## Statements -/

namespace Stmt

theorem sizes_eq (b : List Stmt) : sizes b = (b.map size).sum := by
  induction b with
  | nil => rw [sizes, List.map_nil, List.sum_nil]
  | cons s b ih => rw [sizes, ih, List.map_cons, List.sum_cons]

theorem branchSizes_eq (branches : List (String × List Stmt)) :
    branchSizes branches = ((branchStmts branches).map size).sum := by
  induction branches with
  | nil => rw [branchSizes, branchStmts, List.flatMap_nil, List.map_nil, List.sum_nil]
  | cons branch branches ih =>
    rw [branchSizes, ih, branchStmts, branchStmts, List.flatMap_cons, List.map_append,
      List.sum_append, sizes_eq]

theorem isWalk : IsWalk children size walkFrom where
  size_eq := by
    intro s
    cases s with
    | cond test thenBranch elseBranch =>
      cases elseBranch <;> simp [size, children, sizes_eq]
    | cases subject branches => rw [size, children, branchSizes_eq]
    | _ => simp [size, children, sizes_eq]
  nil := by
    intro n
    cases n <;> rfl
  cons _ _ _ := rfl

theorem mem_walk_iff {s t : Stmt} : t ∈ s.walk ↔ t = s ∨ ∃ c ∈ s.children, t ∈ c.walk :=
  isWalk.mem_walk_iff

theorem mem_walk_self (s : Stmt) : s ∈ s.walk :=
  mem_walk_iff.mpr (.inl rfl)

/-- The statements of a part of a statement are statements of it. -/
theorem mem_walk_of_children {s t : Stmt} {b : Block} (hb : b ⊆ s.children) (h : t ∈ b.stmts) :
    t ∈ s.walk := by
  obtain ⟨c, hc, ht⟩ := List.mem_flatMap.mp h
  exact mem_walk_iff.mpr (.inr ⟨c, hb hc, ht⟩)

/-! ### What a statement does -/

section

variable {s : Stmt}

theorem isGet_iff : s.isGet = true ↔ ∃ future, s.effect? = some (.get future) := by
  unfold isGet
  split <;> simp_all

theorem isSyncCall_iff : s.isSyncCall = true ↔
    ∃ callee interface called args, s.effect? = some (.syncCall callee interface called args) := by
  unfold isSyncCall
  split <;> simp_all

theorem isDuration_iff : s.isDuration = true ↔ ∃ min max, s = .duration min max := by
  unfold isDuration
  split <;> simp_all

theorem isSuspension_iff : s.isSuspension = true ↔
    (∃ g, s = .await g) ∨ ∃ future, s.effect? = some (.get future) := by
  unfold isSuspension
  split
  · simp
  · split <;> simp_all

theorem writesField_iff : s.writesField = true ↔ ∃ x value, s = .assign (.field x) value := by
  unfold writesField
  split <;> simp_all

theorem creation?_eq_some_iff {className : String} :
    s.creation? = some className ↔ ∃ args, s.effect? = some (.create className args) := by
  unfold creation?
  split <;> simp_all

theorem call?_eq_some_iff {sig : Signature} : s.call? = some sig ↔
    ∃ callee interface args, s.effect? = some (.asyncCall callee interface sig args) ∨
      s.effect? = some (.syncCall callee interface sig args) := by
  unfold call?
  split <;> simp_all

theorem selfCall?_eq_some_iff {sig : Signature} : s.selfCall? = some sig ↔
    ∃ interface args, s.effect? = some (.asyncCall .this interface sig args) ∨
      s.effect? = some (.syncCall .this interface sig args) := by
  unfold selfCall?
  split <;> simp_all

end

end Stmt

/-! ## Local variables -/

theorem mem_firstOccurrences_iff {names : List String} {x : String} :
    x ∈ firstOccurrences names ↔ x ∈ names := by
  suffices hfold : ∀ seen : List String, x ∈ names.foldl
      (fun seen name => if seen.contains name then seen else seen ++ [name]) seen ↔
        x ∈ seen ∨ x ∈ names by
    rw [firstOccurrences, hfold]
    simp
  induction names with
  | nil => simp
  | cons name names ih =>
    intro seen
    rw [List.foldl_cons, ih, List.mem_cons]
    split
    · next hseen =>
      constructor
      · tauto
      · rintro (h | rfl | h)
        · exact .inl h
        · exact .inl (by simpa using hseen)
        · exact .inr h
    · rw [List.mem_append, List.mem_singleton, or_assoc]

theorem nodup_firstOccurrences (names : List String) : (firstOccurrences names).Nodup := by
  suffices hfold : ∀ seen : List String, seen.Nodup → (names.foldl
      (fun seen name => if seen.contains name then seen else seen ++ [name]) seen).Nodup from
    hfold [] List.nodup_nil
  induction names with
  | nil => exact fun seen hseen => hseen
  | cons name names ih =>
    intro seen hseen
    rw [List.foldl_cons]
    split
    · exact ih seen hseen
    · next hname =>
      refine ih _ (List.nodup_append.mpr ⟨hseen, List.nodup_singleton name, ?_⟩)
      rintro x hx y hy rfl
      rw [List.mem_singleton] at hy
      subst hy
      simp [hx] at hname

namespace Block

theorem stmts_cons (s : Stmt) (b : Block) : stmts (s :: b) = s.walk ++ stmts b :=
  List.flatMap_cons

/-- The local variables of a block are those that its statements bind or use. -/
theorem mem_localNames_iff {b : Block} {x : String} :
    x ∈ b.localNames ↔ ∃ s ∈ b.stmts,
      s.boundName? = some x ∨ ∃ e ∈ s.exprs, Expr.var x ∈ e.walk := by
  rw [localNames, mem_firstOccurrences_iff, List.mem_flatMap]
  refine exists_congr fun s => and_congr_right fun _ => ?_
  rw [Stmt.names, List.mem_append, Option.mem_toList, List.mem_filterMap]
  refine or_congr Iff.rfl ⟨?_, ?_⟩
  · rintro ⟨e, he, hx⟩
    obtain ⟨e', he', hwalk⟩ := List.mem_flatMap.mp he
    split at hx
    · cases hx
      exact ⟨e', he', hwalk⟩
    · cases hx
  · rintro ⟨e', he', hwalk⟩
    exact ⟨.var x, List.mem_flatMap.mpr ⟨e', he', hwalk⟩, rfl⟩

end Block
end HybridObjects
