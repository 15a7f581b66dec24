import HybridObjects.Model.CallSet
import HybridObjects.Model.Walk
import Mathlib.Computability.Language

/-!
# HybridObjects.Proofs.Paths

The text of a block: its suspensions, numbered from left to right, and its paths. A path takes one
branch of every conditional and lists the atomic statements it meets; the paths of a block form a
language over such points.

* `Stmt.waits`, `Block.waits` — how many suspensions a text has.
* `Block.paths`               — the paths of a block.
* `Block.reaching`            — the beginnings of paths that end in front of a suspension.
* `pendingAfter`              — the self-calls that are pending after a path.
* `Block.Pends`               — the self-calls that are pending where time may pass.
-/

namespace HybridObjects

/-! ## Suspensions -/

def Effect.waits : Effect → Nat
  | .get _ => 1
  | .asyncCall .. | .syncCall .. | .create .. => 0

def Rhs.waits : Rhs → Nat
  | .pure _ => 0
  | .effect e => e.waits

mutual

/-- The number of suspensions in a statement, at any depth. -/
def Stmt.waits : Stmt → Nat
  | .assign _ value => value.waits
  | .declare _ _ (some value) => value.waits
  | .cond _ thenBranch none => waitsIn thenBranch
  | .cond _ thenBranch (some elseBranch) => waitsIn thenBranch + waitsIn elseBranch
  | .loop _ body => waitsIn body
  | .cases _ branches => waitsInBranches branches
  | .block body => waitsIn body
  | .eval value => value.waits
  | .await _ => 1
  | .skip | .declare _ _ none | .ret _ | .duration .. | .assert _ => 0

def Stmt.waitsIn : List Stmt → Nat
  | [] => 0
  | s :: rest => s.waits + waitsIn rest

def Stmt.waitsInBranches : List (String × List Stmt) → Nat
  | [] => 0
  | (_, body) :: branches => waitsIn body + waitsInBranches branches

end

/-- The number of suspensions in a block. -/
def Block.waits (b : Block) : Nat :=
  Stmt.waitsIn b

theorem Block.waits_cons (s : Stmt) (rest : Block) :
    Block.waits (s :: rest) = s.waits + Block.waits rest := by
  simp [Block.waits, Stmt.waitsIn]

theorem Stmt.waits_cond (test : Expr) (thenBranch : Block) (elseBranch : Option Block) :
    (Stmt.cond test thenBranch elseBranch).waits =
      Block.waits thenBranch + Block.waits (elseBranch.getD []) := by
  cases elseBranch <;> simp [Block.waits, Stmt.waits, Stmt.waitsIn]

theorem Stmt.waits_block (body : Block) : (Stmt.block body).waits = Block.waits body := by
  simp [Block.waits, Stmt.waits]

/-! ## Paths -/

/-- An atomic statement on a path, with the number of suspensions that stand before it in the text.
If it is a suspension, this is its own number. -/
structure Point where
  number : Nat
  stmt : Stmt

mutual

/-- The paths through a statement, its suspensions being numbered from `n` on. Loops and case
distinctions have none. -/
def Stmt.paths (n : Nat) : Stmt → Language Point
  | .cond _ thenBranch none => pathsIn n thenBranch + 1
  | .cond _ thenBranch (some elseBranch) =>
    pathsIn n thenBranch + pathsIn (n + waitsIn thenBranch) elseBranch
  | .block body => pathsIn n body
  | .loop .. | .cases .. => 0
  | s => {[⟨n, s⟩]}

def Stmt.pathsIn (n : Nat) : List Stmt → Language Point
  | [] => 1
  | s :: rest => s.paths n * pathsIn (n + s.waits) rest

end

/-- The paths through a block, its suspensions being numbered from `n` on. -/
def Block.paths (n : Nat) (b : Block) : Language Point :=
  Stmt.pathsIn n b

theorem Block.paths_nil (n : Nat) : Block.paths n [] = 1 := by
  simp [Block.paths, Stmt.pathsIn]

theorem Block.paths_cons (n : Nat) (s : Stmt) (rest : Block) :
    Block.paths n (s :: rest) = s.paths n * Block.paths (n + s.waits) rest := by
  simp [Block.paths, Stmt.pathsIn]

theorem Stmt.paths_cond (n : Nat) (test : Expr) (thenBranch : Block) (elseBranch : Option Block) :
    (Stmt.cond test thenBranch elseBranch).paths n =
      Block.paths n thenBranch + Block.paths (n + thenBranch.waits) (elseBranch.getD []) := by
  cases elseBranch <;> simp [Block.paths, Block.waits, Stmt.paths, Stmt.pathsIn]

theorem Stmt.paths_block (n : Nat) (body : Block) :
    (Stmt.block body).paths n = Block.paths n body := by
  simp [Block.paths, Stmt.paths]

/-- The beginnings of the words of a language that end in front of suspension `k`. -/
def reaching (k : Nat) (paths : Language Point) : Language Point :=
  {before | ∃ point after, before ++ point :: after ∈ paths ∧ point.number = k ∧
    point.stmt.isSuspension = true}

/-- The paths through a block up to suspension `k`. -/
def Block.reaching (n k : Nat) (b : Block) : Language Point :=
  HybridObjects.reaching k (b.paths n)

/-! ## Pending calls -/

/-- The members of a call set. -/
def CallSet.toSet (calls : CallSet) : Set Signature :=
  {sig | sig ∈ calls}

theorem CallSet.toSet_empty : CallSet.empty.toSet = ∅ := by
  ext sig
  exact List.mem_nil_iff sig

theorem CallSet.toSet_insert (calls : CallSet) (sig : Signature) :
    (calls.insert sig).toSet = Insert.insert sig calls.toSet := by
  ext x
  exact CallSet.mem_insert

theorem CallSet.toSet_inter (a b : CallSet) : (a.inter b).toSet = a.toSet ∩ b.toSet := by
  ext x
  exact CallSet.mem_inter

/-- The self-calls pending after an atomic statement: a suspension lets all of them run, and an
asynchronous call on `this` adds one. -/
def Stmt.pending (s : Stmt) (calls : Set Signature) : Set Signature :=
  if s.isSuspension then ∅
  else
    match s.effect? with
    | some (.asyncCall callee _ method _) => if callee.isThis then insert method calls else calls
    | _ => calls

/-- The self-calls pending after a path. -/
def pendingAfter (path : List Point) (calls : Set Signature) : Set Signature :=
  path.foldl (fun calls point => point.stmt.pending calls) calls

/-- The self-call is pending after all of some paths, of which there is at least one. -/
def PendsOn (paths : Language Point) (sig : Signature) : Prop :=
  (∃ path, path ∈ paths) ∧ ∀ path ∈ paths, sig ∈ pendingAfter path ∅

namespace Block

/-- The self-call is pending at some suspension of the block, on whichever path it is reached. -/
def PendsInside (b : Block) (sig : Signature) : Prop :=
  ∃ k, PendsOn (b.reaching 0 k) sig

/-- The self-call is pending in some place where time may pass: at a suspension of the block, or
after it. -/
def Pends (b : Block) (sig : Signature) : Prop :=
  b.PendsInside sig ∨ PendsOn (b.paths 0) sig

end Block

end HybridObjects
