/-!
# HybridObjects.Text.CodeOrder

The order of texts by the codes of their characters, and the order of lists that goes with an order
of their items: the first difference decides, and a list stands before its extensions.

* `before`             — whether one list stands before another.
* `OrderTest.list` — `before` is a strict total order if the order of the items is one.
-/

namespace HybridObjects
namespace Text

/-- A strict total order, given by its test. -/
structure OrderTest {α : Type} (lt : α → α → Bool) : Prop where
  irrefl : ∀ a, lt a a = false
  trans : ∀ {a b c}, lt a b = true → lt b c = true → lt a c = true
  total : ∀ {a b}, lt a b = false → a ≠ b → lt b a = true

/-- Whether a list stands before another one in the order of the first difference. -/
def before {α : Type} [DecidableEq α] (lt : α → α → Bool) : List α → List α → Bool
  | _, [] => false
  | [], _ :: _ => true
  | a :: as, b :: bs => lt a b || (a == b && before lt as bs)

section

variable {α : Type} [DecidableEq α] {lt : α → α → Bool}

theorem before_cons {a b : α} {as bs : List α} :
    before lt (a :: as) (b :: bs) = true ↔ lt a b = true ∨ a = b ∧ before lt as bs = true := by
  simp [before]

theorem before_irrefl (h : OrderTest lt) : ∀ as : List α, before lt as as = false
  | [] => rfl
  | a :: as => by simp [before, h.irrefl a, before_irrefl h as]

theorem before_trans (h : OrderTest lt) : ∀ {as bs cs : List α},
    before lt as bs = true → before lt bs cs = true → before lt as cs = true
  | _, [], _, hab, _ => by simp [before] at hab
  | _, _ :: _, [], _, hbc => by simp [before] at hbc
  | [], _ :: _, _ :: _, _, _ => rfl
  | a :: as, b :: bs, c :: cs, hab, hbc => by
    rw [before_cons] at hab hbc ⊢
    rcases hab with hab | ⟨rfl, hab⟩
    · rcases hbc with hbc | ⟨rfl, _⟩
      · exact .inl (h.trans hab hbc)
      · exact .inl hab
    · rcases hbc with hbc | ⟨rfl, hbc⟩
      · exact .inl hbc
      · exact .inr ⟨rfl, before_trans h hab hbc⟩

theorem before_total (h : OrderTest lt) : ∀ {as bs : List α},
    before lt as bs = false → as ≠ bs → before lt bs as = true
  | [], [], _, hne => absurd rfl hne
  | [], _ :: _, hab, _ => by simp [before] at hab
  | _ :: _, [], _, _ => rfl
  | a :: as, b :: bs, hab, hne => by
    have hab : ¬ (lt a b = true ∨ a = b ∧ before lt as bs = true) := by
      rw [← before_cons, hab]; simp
    have hlt : lt a b = false := by simpa using fun hlt => hab (.inl hlt)
    rw [before_cons]
    by_cases he : a = b
    · subst he
      have hrest : before lt as bs = false := by simpa using fun hrest => hab (.inr ⟨rfl, hrest⟩)
      exact .inr ⟨rfl, before_total h hrest fun hs => hne (by rw [hs])⟩
    · exact .inl (h.total hlt he)

theorem OrderTest.list (h : OrderTest lt) : OrderTest (before lt) where
  irrefl := before_irrefl h
  trans := before_trans h
  total := before_total h

end

/-- The order of characters by their codes. -/
def codeBefore (a b : Char) : Bool :=
  decide (a.toNat < b.toNat)

theorem orderTest_codeBefore : OrderTest codeBefore where
  irrefl a := by simp [codeBefore]
  trans {a b c} hab hbc := by
    simp only [codeBefore, decide_eq_true_eq] at hab hbc ⊢
    omega
  total {a b} hab hne := by
    simp only [codeBefore, decide_eq_false_iff_not, decide_eq_true_eq] at hab ⊢
    have hcode : a.toNat ≠ b.toNat := fun h => hne (Char.toNat_inj.mp h)
    omega

end Text
end HybridObjects
