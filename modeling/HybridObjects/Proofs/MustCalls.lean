import HybridObjects.Proofs.Lowers
import HybridObjects.Proofs.Paths
import Mathlib.Data.Set.Finite.Basic

/-!
# HybridObjects.Proofs.MustCalls

The self-calls that a lowering takes to be pending are exactly those pending on every path.
`calls_lowerBlock_eq`: the calls after a block are the intersection over its paths, and the calls
recorded with a suspension are the intersection over the beginnings of paths that reach it.

A block is lowered in one pass that intersects where branches meet, while it has exponentially many
paths. The two agree since what a path does to a set of calls commutes with intersections
(`pendingAfter_meet`): a path adds calls and may drop all that were there before, nothing else.

* `Exact`                 — a set of paths, and the calls and suspensions recorded for it.
* `Exact.mul`, `Exact.add` — sequences and branches keep them exact.
* `Scope.Lowers.exact`    — every lowered block is exact, by induction on its derivation.
-/

namespace HybridObjects

/-! ## What paths do to sets of calls -/

theorem CallSet.exists_notMem (calls : CallSet) : ∃ sig, sig ∉ calls := by
  have hinjective : Function.Injective fun cs : List Char => (⟨String.ofList cs, []⟩ : Signature) :=
    fun _ _ h => String.ofList_injective (Signature.mk.inj h).1
  have hinfinite : Infinite Signature := .of_injective _ hinjective
  exact (List.finite_toSet calls.members).exists_notMem

section Transfer

variable {sig : Signature} {calls : Set Signature} {L M : Language Point}

theorem pendingAfter_append (path rest : List Point) :
    pendingAfter (path ++ rest) calls = pendingAfter rest (pendingAfter path calls) := by
  rw [pendingAfter, List.foldl_append]
  rfl

theorem Stmt.mem_pending {s : Stmt} :
    sig ∈ s.pending calls ↔ sig ∈ s.pending ∅ ∨ sig ∈ calls ∧ s.isSuspension = false := by
  unfold Stmt.pending
  cases s.isSuspension with
  | true => simp
  | false =>
    simp only [Bool.false_eq_true, if_false, and_true]
    split
    · split <;> simp
    · simp

/-- A path adds calls of its own and keeps those before it unless it suspends. -/
theorem mem_pendingAfter {path : List Point} :
    sig ∈ pendingAfter path calls ↔ sig ∈ pendingAfter path ∅ ∨
      sig ∈ calls ∧ ∀ point ∈ path, point.stmt.isSuspension = false := by
  induction path generalizing calls with
  | nil => simp [pendingAfter]
  | cons point path ih =>
    have hcons : ∀ set : Set Signature, pendingAfter (point :: path) set =
        pendingAfter path (point.stmt.pending set) := fun _ => rfl
    rw [hcons, hcons, ih, @ih (point.stmt.pending ∅), Stmt.mem_pending]
    simp only [List.forall_mem_cons]
    tauto

theorem mem_meet {paths : Language Point} :
    sig ∈ ⋂ path ∈ paths, pendingAfter path calls ↔
      ∀ path ∈ paths, sig ∈ pendingAfter path calls :=
  Set.mem_iInter₂

/-- What a path does commutes with intersections that are not empty. -/
theorem pendingAfter_meet (h : ∃ path, path ∈ L) (rest : List Point) :
    pendingAfter rest (⋂ path ∈ L, pendingAfter path calls) =
      ⋂ path ∈ L, pendingAfter (path ++ rest) calls := by
  ext sig
  obtain ⟨path₀, h₀⟩ := h
  simp only [Set.mem_iInter, pendingAfter_append]
  constructor
  · intro hsig path hpath
    rw [mem_pendingAfter] at hsig ⊢
    rcases hsig with hsig | ⟨hsig, hkeep⟩
    · exact .inl hsig
    · exact .inr ⟨mem_meet.mp hsig path hpath, hkeep⟩
  · intro hsig
    rw [mem_pendingAfter]
    by_cases hown : sig ∈ pendingAfter rest ∅
    · exact .inl hown
    · -- not added by `rest`, so it was there on every path
      have hall : ∀ path ∈ L, sig ∈ pendingAfter path calls ∧
          ∀ point ∈ rest, point.stmt.isSuspension = false := by
        intro path hpath
        have hpath := hsig path hpath
        rw [mem_pendingAfter] at hpath
        exact hpath.resolve_left hown
      exact .inr ⟨mem_meet.mpr fun path hpath => (hall path hpath).1, (hall path₀ h₀).2⟩

theorem meet_mul (h : ∃ path, path ∈ L) :
    ⋂ path ∈ L * M, pendingAfter path calls =
      ⋂ rest ∈ M, pendingAfter rest (⋂ path ∈ L, pendingAfter path calls) := by
  ext sig
  rw [mem_meet, mem_meet]
  constructor
  · intro hsig rest hrest
    rw [pendingAfter_meet h, Set.mem_iInter₂]
    intro path hpath
    exact hsig _ (Language.append_mem_mul hpath hrest)
  · intro hsig word hword
    obtain ⟨path, hpath, rest, hrest, rfl⟩ := Language.mem_mul.mp hword
    have hrest := hsig rest hrest
    rw [pendingAfter_meet h, Set.mem_iInter₂] at hrest
    exact hrest path hpath

theorem meet_add :
    ⋂ path ∈ L + M, pendingAfter path calls =
      (⋂ path ∈ L, pendingAfter path calls) ∩ ⋂ path ∈ M, pendingAfter path calls := by
  ext sig
  rw [Set.mem_inter_iff, mem_meet, mem_meet, mem_meet]
  constructor
  · intro hsig
    exact ⟨fun path hpath => hsig path (.inl hpath), fun path hpath => hsig path (.inr hpath)⟩
  · rintro ⟨hL, hM⟩ path (hpath | hpath)
    · exact hL path hpath
    · exact hM path hpath

theorem meet_singleton {point : Point} :
    ⋂ path ∈ ({[point]} : Language Point), pendingAfter path calls =
      point.stmt.pending calls := by
  ext sig
  rw [mem_meet]
  exact ⟨fun hsig => hsig _ rfl, fun hsig path hpath => hpath ▸ hsig⟩

end Transfer

/-! ## Beginnings of paths -/

section Reaching

variable {k : Nat} {L M : Language Point}

/-- No path of a language meets suspension `k`. -/
def Absent (k : Nat) (L : Language Point) : Prop :=
  ∀ path ∈ L, ∀ point ∈ path, point.stmt.isSuspension = true → point.number ≠ k

theorem reaching_eq_zero (h : Absent k L) : reaching k L = 0 := by
  ext before
  refine iff_of_false ?_ (Language.notMem_zero before)
  rintro ⟨point, after, hpath, hk, hsus⟩
  exact h _ hpath point (by simp) hsus hk

theorem reaching_add : reaching k (L + M) = reaching k L + reaching k M := by
  ext before
  constructor
  · rintro ⟨point, after, hpath | hpath, hpoint⟩
    · exact .inl ⟨point, after, hpath, hpoint⟩
    · exact .inr ⟨point, after, hpath, hpoint⟩
  · rintro (⟨point, after, hpath, hpoint⟩ | ⟨point, after, hpath, hpoint⟩)
    · exact ⟨point, after, .inl hpath, hpoint⟩
    · exact ⟨point, after, .inr hpath, hpoint⟩

/-- A suspension of a product is met in its first or in its second part. -/
theorem mem_reaching_mul {before : List Point} :
    before ∈ reaching k (L * M) ↔
      before ∈ reaching k L ∧ (∃ rest, rest ∈ M) ∨ before ∈ L * reaching k M := by
  constructor
  · rintro ⟨point, after, hpath, hpoint⟩
    obtain ⟨path, hL, rest, hM, heq⟩ := Language.mem_mul.mp hpath
    -- the suspension lies behind the seam, or before it, or is the first point after it
    rcases List.append_eq_append_iff.mp heq with ⟨mid, rfl, rfl⟩ | ⟨mid, rfl, hmid⟩
    · exact .inr (Language.append_mem_mul hL ⟨point, after, hM, hpoint⟩)
    · cases mid with
      | nil =>
        rw [List.nil_append] at hmid
        rw [← hmid] at hM
        have hnil : [] ∈ reaching k M := ⟨point, after, hM, hpoint⟩
        exact .inr (by simpa using Language.append_mem_mul hL hnil)
      | cons first mid =>
        obtain ⟨rfl, -⟩ := List.cons.inj hmid
        exact .inl ⟨⟨point, mid, hL, hpoint⟩, rest, hM⟩
  · rintro (⟨⟨point, after, hL, hpoint⟩, rest, hM⟩ | hbefore)
    · exact ⟨point, after ++ rest, by simpa using Language.append_mem_mul hL hM, hpoint⟩
    · obtain ⟨path, hL, before, ⟨point, after, hM, hpoint⟩, rfl⟩ := Language.mem_mul.mp hbefore
      exact ⟨point, after, by simpa using Language.append_mem_mul hL hM, hpoint⟩

theorem reaching_mul_left (hM : ∃ rest, rest ∈ M) (h : Absent k M) :
    reaching k (L * M) = reaching k L := by
  ext before
  rw [mem_reaching_mul, reaching_eq_zero h, mul_zero]
  simp [hM, Language.notMem_zero]

theorem reaching_mul_right (h : Absent k L) : reaching k (L * M) = L * reaching k M := by
  ext before
  rw [mem_reaching_mul, reaching_eq_zero h]
  simp [Language.notMem_zero]

end Reaching

/-! ## Exact records -/

/-- The suspension is the one that a statement makes: an `await` waits for its guard, a read of a
future for nothing that the state tells. -/
def Suspension.Records (entry : Suspension) : Stmt → Prop
  | .await g => g.toFormula = .ok entry.guard ∧ entry.blockingRead = false
  | _ => entry.guard = .verum ∧ entry.blockingRead = true

/-- A point finds its own suspension, numbered from `n` on. -/
def Point.RecordedIn (point : Point) (n : Nat) (sus : List Suspension) : Prop :=
  ∃ i entry, point.number = n + i ∧ sus[i]? = some entry ∧ entry.Records point.stmt

/-- What is recorded for a set of paths is exact: every suspension on a path is recorded under its
number, and the calls recorded are the meets over paths and over beginnings of paths. -/
structure Exact (paths : Language Point) (n : Nat) (calls after : Set Signature)
    (sus : List Suspension) : Prop where
  inhabited : ∃ path, path ∈ paths
  recorded : ∀ path ∈ paths, ∀ point ∈ path, point.stmt.isSuspension = true →
    point.RecordedIn n sus
  after_eq : after = ⋂ path ∈ paths, pendingAfter path calls
  entry_eq : ∀ i entry, sus[i]? = some entry →
    entry.calls.toSet = ⋂ path ∈ reaching (n + i) paths, pendingAfter path calls

section Records

variable {point : Point} {n : Nat} {sus sus' : List Suspension}

theorem Point.RecordedIn.append_right (h : point.RecordedIn n sus) :
    point.RecordedIn n (sus ++ sus') := by
  obtain ⟨i, entry, hnum, hget, hrec⟩ := h
  obtain ⟨hi, -⟩ := List.getElem?_eq_some_iff.mp hget
  exact ⟨i, entry, hnum, by rwa [List.getElem?_append_left hi], hrec⟩

theorem Point.RecordedIn.append_left (h : point.RecordedIn (n + sus.length) sus') :
    point.RecordedIn n (sus ++ sus') := by
  obtain ⟨i, entry, hnum, hget, hrec⟩ := h
  refine ⟨sus.length + i, entry, by omega, ?_, hrec⟩
  rwa [List.getElem?_append_right (by omega), Nat.add_sub_cancel_left]

theorem Point.RecordedIn.number_bounds (h : point.RecordedIn n sus) :
    n ≤ point.number ∧ point.number < n + sus.length := by
  obtain ⟨i, entry, hnum, hget, -⟩ := h
  obtain ⟨hi, -⟩ := List.getElem?_eq_some_iff.mp hget
  omega

end Records

namespace Exact

variable {L M : Language Point} {n : Nat} {calls mid after after' : Set Signature}
  {sus sus' : List Suspension}

theorem absent_of_lt (h : Exact L n calls after sus) {k : Nat} (hk : k < n) : Absent k L := by
  intro path hpath point hpoint hsus
  have hbounds := (h.recorded path hpath point hpoint hsus).number_bounds
  omega

theorem absent_of_le (h : Exact L n calls after sus) {k : Nat} (hk : n + sus.length ≤ k) :
    Absent k L := by
  intro path hpath point hpoint hsus
  have hbounds := (h.recorded path hpath point hpoint hsus).number_bounds
  omega

theorem one : Exact 1 n calls calls [] where
  inhabited := ⟨[], Language.nil_mem_one⟩
  recorded := by
    intro path hpath point hpoint
    rw [Language.mem_one] at hpath
    rw [hpath] at hpoint
    cases hpoint
  after_eq := by
    ext sig
    simp [Language.mem_one, pendingAfter]
  entry_eq := by
    intro i entry hget
    cases hget

/-- The records of a sequence: the second part starts with the calls pending after the first. -/
theorem mul (hL : Exact L n calls mid sus) (hM : Exact M (n + sus.length) mid after sus') :
    Exact (L * M) n calls after (sus ++ sus') where
  inhabited := by
    obtain ⟨path, hpath⟩ := hL.inhabited
    obtain ⟨rest, hrest⟩ := hM.inhabited
    exact ⟨path ++ rest, Language.append_mem_mul hpath hrest⟩
  recorded := by
    intro word hword point hpoint hsus
    obtain ⟨path, hpath, rest, hrest, rfl⟩ := Language.mem_mul.mp hword
    rcases List.mem_append.mp hpoint with hpoint | hpoint
    · exact (hL.recorded path hpath point hpoint hsus).append_right
    · exact (hM.recorded rest hrest point hpoint hsus).append_left
  after_eq := by rw [meet_mul hL.inhabited, ← hL.after_eq, hM.after_eq]
  entry_eq := by
    intro i entry hget
    by_cases hi : i < sus.length
    · rw [List.getElem?_append_left hi] at hget
      rw [hL.entry_eq i entry hget,
        reaching_mul_left hM.inhabited (hM.absent_of_lt (by omega))]
    · rw [List.getElem?_append_right (by omega)] at hget
      have hnum : n + sus.length + (i - sus.length) = n + i := by omega
      rw [hM.entry_eq _ entry hget, hnum, reaching_mul_right (hL.absent_of_le (by omega)),
        meet_mul hL.inhabited, ← hL.after_eq]

/-- The records of two branches: both start with the same calls, and only the calls pending after
both are certain. -/
theorem add (hL : Exact L n calls after sus) (hM : Exact M (n + sus.length) calls after' sus') :
    Exact (L + M) n calls (after ∩ after') (sus ++ sus') where
  inhabited := by
    obtain ⟨path, hpath⟩ := hL.inhabited
    exact ⟨path, .inl hpath⟩
  recorded := by
    rintro path (hpath | hpath) point hpoint hsus
    · exact (hL.recorded path hpath point hpoint hsus).append_right
    · exact (hM.recorded path hpath point hpoint hsus).append_left
  after_eq := by rw [meet_add, ← hL.after_eq, ← hM.after_eq]
  entry_eq := by
    intro i entry hget
    rw [reaching_add]
    by_cases hi : i < sus.length
    · rw [List.getElem?_append_left hi] at hget
      rw [hL.entry_eq i entry hget, reaching_eq_zero (hM.absent_of_lt (by omega)), add_zero]
    · rw [List.getElem?_append_right (by omega)] at hget
      have hnum : n + sus.length + (i - sus.length) = n + i := by omega
      rw [hM.entry_eq _ entry hget, hnum, reaching_eq_zero (hL.absent_of_le (by omega)), zero_add]

theorem plain {s : Stmt} (h : s.isSuspension = false) (hafter : s.pending calls = after) :
    Exact {[⟨n, s⟩]} n calls after [] where
  inhabited := ⟨_, rfl⟩
  recorded := by
    rintro path rfl point hpoint hsus
    rw [List.mem_singleton.mp hpoint] at hsus
    exact absurd (h.symm.trans hsus) Bool.false_ne_true
  after_eq := by rw [meet_singleton, hafter]
  entry_eq := by
    intro i entry hget
    cases hget

theorem reaching_singleton {s : Stmt} (h : s.isSuspension = true) :
    reaching n {[⟨n, s⟩]} = 1 := by
  ext before
  rw [Language.mem_one]
  constructor
  · rintro ⟨point, rest, hpath, -⟩
    have hlength := congrArg List.length (Set.mem_singleton_iff.mp hpath)
    rw [List.length_append, List.length_cons, List.length_singleton] at hlength
    exact List.length_eq_zero_iff.mp (by omega)
  · rintro rfl
    exact ⟨⟨n, s⟩, [], rfl, rfl, h⟩

theorem suspension {s : Stmt} {entry : Suspension} (h : s.isSuspension = true)
    (hcalls : entry.calls.toSet = calls) (hrec : entry.Records s) :
    Exact {[⟨n, s⟩]} n calls ∅ [entry] where
  inhabited := ⟨_, rfl⟩
  recorded := by
    rintro path rfl point hpoint -
    rw [List.mem_singleton.mp hpoint]
    exact ⟨0, entry, rfl, rfl, hrec⟩
  after_eq := by rw [meet_singleton, Stmt.pending, if_pos h]
  entry_eq := by
    intro i entry' hget
    obtain ⟨hi, hentry⟩ := List.getElem?_eq_some_iff.mp hget
    rw [List.length_singleton, Nat.lt_one_iff] at hi
    subst hi
    rw [← hentry, Nat.add_zero, reaching_singleton h, ← (one (n := n)).after_eq]
    exact hcalls

end Exact

namespace Scope

variable {scope : Scope} {n : Nat} {calls : CallSet} {lowered : Lowered} {sus : List Suspension}

theorem LowersEffect.exact {e : Effect} (h : LowersEffect scope n calls e lowered sus) {s : Stmt}
    (he : s.effect? = some e) :
    Exact {[⟨n, s⟩]} n calls.toSet lowered.calls.toSet sus := by
  have hawait : ∀ g, s ≠ .await g := by
    rintro g rfl
    cases he
  cases h with
  | @call callee _ method _ _ _ =>
    have hsus : s.isSuspension = false := by simp [Stmt.isSuspension, he]
    refine .plain hsus ?_
    cases hthis : callee.isThis with
    | true => simp [Stmt.pending, hsus, he, hthis, CallSet.toSet_insert]
    | false => simp [Stmt.pending, hsus, he, hthis]
  | create _ =>
    have hsus : s.isSuspension = false := by simp [Stmt.isSuspension, he]
    exact .plain hsus (by simp [Stmt.pending, hsus, he])
  | get =>
    have hsus : s.isSuspension = true := by simp [Stmt.isSuspension, he]
    rw [CallSet.toSet_empty]
    refine .suspension hsus rfl ?_
    unfold Suspension.Records
    split
    · exact absurd rfl (hawait _)
    · exact ⟨rfl, rfl⟩

theorem exact_of_effect?_eq_none {s : Stmt} (he : s.effect? = none)
    (hsus : s.isSuspension = false) : Exact {[⟨n, s⟩]} n calls.toSet calls.toSet [] :=
  .plain hsus (by simp [Stmt.pending, hsus, he])

theorem LowersAtom.exact {s : Stmt} (h : LowersAtom scope n calls s lowered sus) :
    Exact {[⟨n, s⟩]} n calls.toSet lowered.calls.toSet sus := by
  cases h with
  | skip | declareOnly | ret _ | evalPure => exact exact_of_effect?_eq_none rfl rfl
  | assign hassign | declare hassign =>
    cases hassign with
    | pure _ => exact exact_of_effect?_eq_none rfl rfl
    | effect heff => exact heff.exact rfl
  | evalEffect heff => exact heff.exact rfl
  | await hguard =>
    rw [CallSet.toSet_empty]
    exact .suspension rfl rfl ⟨hguard, rfl⟩

theorem LowersAtom.paths_eq {s : Stmt} (h : LowersAtom scope n calls s lowered sus) :
    s.paths n = {[⟨n, s⟩]} := by
  cases h <;> rw [Stmt.paths] <;> intros <;> contradiction

/-- What is recorded for a lowered block is exact. -/
theorem Lowers.exact {b : Block} {after : CallSet} {ps : List Program}
    (h : Lowers scope b calls n ps after sus) :
    Exact (b.paths n) n calls.toSet after.toSet sus := by
  induction h with
  | nil =>
    rw [Block.paths_nil]
    exact .one
  | atom hatom _ ih =>
    rw [Block.paths_cons, hatom.paths_eq, ← hatom.length_eq]
    exact hatom.exact.mul ih
  | cond _ hthen helse _ ih₁ ih₂ ih =>
    rw [CallSet.toSet_inter] at ih
    rw [Block.paths_cons, Stmt.paths_cond, Stmt.waits_cond, ← hthen.length_eq,
      ← helse.length_eq, ← List.length_append]
    exact (ih₁.add ih₂).mul ih
  | block hbody _ ih₁ ih =>
    rw [Block.paths_cons, Stmt.paths_block, Stmt.waits_block, ← hbody.length_eq]
    exact ih₁.mul ih

/-- The calls recorded with a suspension are pending there. -/
theorem Lowers.pendsInside {b : Block} {after : CallSet} {ps : List Program}
    (h : Lowers scope b .empty 0 ps after sus) {entry : Suspension} (hentry : entry ∈ sus)
    {sig : Signature} (hsig : sig ∈ entry.calls) : b.PendsInside sig := by
  obtain ⟨i, hget⟩ := List.mem_iff_getElem?.mp hentry
  have hcalls := h.exact.entry_eq i entry hget
  rw [Nat.zero_add, CallSet.toSet_empty] at hcalls
  have hiff : ∀ x, x ∈ entry.calls ↔
      ∀ path ∈ reaching i (b.paths 0), x ∈ pendingAfter path ∅ := by
    intro x
    rw [← mem_meet, ← hcalls]
    exact Iff.rfl
  refine ⟨i, ?_, (hiff sig).mp hsig⟩
  -- if no path led here, every call would be pending
  by_contra hnone
  obtain ⟨x, hx⟩ := entry.calls.exists_notMem
  exact hx ((hiff x).mpr fun path hpath => absurd ⟨path, hpath⟩ hnone)

/-- The calls after a lowered block are pending after it. -/
theorem Lowers.pendsOn {b : Block} {after : CallSet} {ps : List Program}
    (h : Lowers scope b .empty 0 ps after sus) {sig : Signature} (hsig : sig ∈ after) :
    PendsOn (b.paths 0) sig := by
  have hafter := h.exact.after_eq
  rw [CallSet.toSet_empty] at hafter
  have hmem : sig ∈ after.toSet := hsig
  rw [hafter, mem_meet] at hmem
  exact ⟨h.exact.inhabited, hmem⟩

end Scope

/-- The calls after a lowered block are those pending after all of its paths, and the calls recorded
with each of its suspensions are those pending after all beginnings of paths that reach it. -/
theorem calls_lowerBlock_eq {scope : Scope} {b : Block} {calls : CallSet}
    {st st' : LoweringState} {lowered : Lowered}
    (h : scope.lowerBlock b calls st = .ok lowered st') :
    lowered.calls.toSet =
        ⋂ path ∈ b.paths st.suspensions.length, pendingAfter path calls.toSet ∧
      ∃ sus, st'.suspensions = st.suspensions ++ sus ∧ sus.length = b.waits ∧
        (∀ path ∈ b.paths st.suspensions.length, ∀ point ∈ path,
          point.stmt.isSuspension = true → point.RecordedIn st.suspensions.length sus) ∧
        ∀ i entry, sus[i]? = some entry → entry.calls.toSet =
          ⋂ path ∈ b.reaching st.suspensions.length (st.suspensions.length + i),
            pendingAfter path calls.toSet := by
  obtain ⟨ps, sus, hlow, -, hst⟩ := Scope.lowers_of_lowerBlock h
  have hexact := hlow.exact
  exact ⟨hexact.after_eq, sus, hst, hlow.length_eq, hexact.recorded, hexact.entry_eq⟩

/-- Of the two calls, only the one made on both branches is recorded with the first suspension, and
none is pending in the end. -/
theorem calls_lowerBlock_eq_patrol : ∃ lowered st',
    Scope.outside.lowerBlock .patrol .empty .empty = .ok lowered st' ∧
      ∅ = ⋂ path ∈ Block.paths 0 .patrol, pendingAfter path CallSet.empty.toSet ∧
      {⟨"tick", []⟩} =
        ⋂ path ∈ Block.reaching 0 0 .patrol, pendingAfter path CallSet.empty.toSet := by
  refine ⟨_, _, rfl, ?_⟩
  obtain ⟨hafter, sus, hst, -, -, hentry⟩ := calls_lowerBlock_eq
    (rfl : Scope.outside.lowerBlock .patrol .empty .empty = .ok _ _)
  have hfirst := hentry 0 _ (congrArg (·[0]?) hst.symm)
  have htick : CallSet.toSet ⟨[⟨"tick", []⟩], by simp⟩ = {⟨"tick", []⟩} := by
    ext sig
    exact List.mem_singleton
  exact ⟨CallSet.toSet_empty.symm.trans hafter, htick.symm.trans hfirst⟩

end HybridObjects
