import HybridObjects.Model.Syntax
import HybridObjects.Text.CodeOrder

/-!
# HybridObjects.Model.CallSet

Sets of signatures: the methods that a process has certainly called on its own object since it
last gave up control. Signatures are ordered by name, then by the names and types of their
parameters, and a set lists its members in this order without repetition.
-/

namespace HybridObjects

namespace Signature

/-- The texts by which signatures are ordered, most significant first. -/
def key (sig : Signature) : List (List Char) :=
  sig.name.toList :: sig.params.flatMap fun p => [p.name.toList, p.type.toList]

/-- The order of keys: by texts, and those by the codes of their characters. -/
def keyBefore : List (List Char) → List (List Char) → Bool :=
  Text.before (Text.before Text.codeBefore)

theorem orderTest_keyBefore : Text.OrderTest keyBefore :=
  Text.orderTest_codeBefore.list.list

instance : LT Signature := ⟨fun a b => keyBefore a.key b.key = true⟩

instance : DecidableLT Signature := fun a b =>
  inferInstanceAs (Decidable (keyBefore a.key b.key = true))

private theorem params_eq_of_flatMap_eq : ∀ {ps qs : List Param},
    (ps.flatMap fun p => [p.name.toList, p.type.toList]) =
      (qs.flatMap fun p => [p.name.toList, p.type.toList]) → ps = qs
  | [], [], _ => rfl
  | [], _ :: _, h => by simp at h
  | _ :: _, [], h => by simp at h
  | p :: ps, q :: qs, h => by
    simp only [List.flatMap_cons, List.cons_append, List.nil_append, List.cons.injEq] at h
    obtain ⟨hn, ht, hr⟩ := h
    have hp : p = q := by
      cases p; cases q
      exact Param.mk.injEq .. ▸ ⟨String.toList_inj.mp hn, String.toList_inj.mp ht⟩
    rw [hp, params_eq_of_flatMap_eq hr]

theorem key_injective {a b : Signature} (h : a.key = b.key) : a = b := by
  cases a; cases b
  simp only [key, List.cons.injEq] at h
  obtain ⟨hn, hp⟩ := h
  have hn := String.toList_inj.mp hn
  subst hn
  rw [params_eq_of_flatMap_eq hp]

theorem lt_trans {a b c : Signature} (hab : a < b) (hbc : b < c) : a < c :=
  orderTest_keyBefore.trans hab hbc

theorem lt_of_not_lt_of_ne {a b : Signature} (h : ¬ a < b) (hne : a ≠ b) : b < a :=
  orderTest_keyBefore.total (Bool.eq_false_iff.mpr h) fun he => hne (key_injective he)

end Signature

/-- A set of signatures. -/
structure CallSet where
  members : List Signature
  sorted : members.Pairwise (· < ·)

namespace CallSet

def empty : CallSet :=
  ⟨[], .nil⟩

/-- The ordered list with a signature put into its place. -/
def insertInto (sig : Signature) : List Signature → List Signature
  | [] => [sig]
  | s :: rest =>
    if sig < s then sig :: s :: rest
    else if sig = s then s :: rest
    else s :: insertInto sig rest

theorem mem_insertInto {sig x : Signature} {l : List Signature} :
    x ∈ insertInto sig l ↔ x = sig ∨ x ∈ l := by
  induction l with
  | nil => simp [insertInto]
  | cons s rest ih =>
    unfold insertInto
    split
    · simp
    · split
      · rename_i h; subst h; simp
      · simp only [List.mem_cons, ih]
        constructor
        · rintro (h | h | h) <;> simp [h]
        · rintro (h | h | h) <;> simp [h]

theorem sorted_insertInto {sig : Signature} {l : List Signature}
    (h : l.Pairwise (· < ·)) : (insertInto sig l).Pairwise (· < ·) := by
  induction l with
  | nil => simp [insertInto]
  | cons s rest ih =>
    have hs := List.pairwise_cons.mp h
    unfold insertInto
    split
    · rename_i hlt
      refine List.pairwise_cons.mpr ⟨fun x hx => ?_, h⟩
      rcases List.mem_cons.mp hx with rfl | hx
      · exact hlt
      · exact Signature.lt_trans hlt (hs.1 x hx)
    · split
      · exact h
      · rename_i hlt hne
        refine List.pairwise_cons.mpr ⟨fun x hx => ?_, ih hs.2⟩
        rcases mem_insertInto.mp hx with rfl | hx
        · exact Signature.lt_of_not_lt_of_ne hlt hne
        · exact hs.1 x hx

/-- The set with a further member. -/
def insert (set : CallSet) (sig : Signature) : CallSet :=
  ⟨insertInto sig set.members, sorted_insertInto set.sorted⟩

/-- The set of the signatures of a list. -/
def ofList (sigs : List Signature) : CallSet :=
  sigs.foldl insert empty

/-- The signatures that are in both sets. -/
def inter (a b : CallSet) : CallSet :=
  ⟨a.members.filter fun sig => b.members.contains sig, a.sorted.filter _⟩

instance : Membership Signature CallSet := ⟨fun set sig => sig ∈ set.members⟩

theorem mem_insert {set : CallSet} {sig x : Signature} :
    x ∈ set.insert sig ↔ x = sig ∨ x ∈ set :=
  mem_insertInto

theorem mem_inter {a b : CallSet} {x : Signature} : x ∈ a.inter b ↔ x ∈ a ∧ x ∈ b := by
  show x ∈ a.members.filter _ ↔ x ∈ a.members ∧ x ∈ b.members
  simp

end CallSet
end HybridObjects
