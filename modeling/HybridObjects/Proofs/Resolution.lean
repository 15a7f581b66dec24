import HybridObjects.Logic.Resolution
import HybridObjects.Proofs.Semantics

/-!
# HybridObjects.Proofs.Resolution

Resolution as substitution. `fill` puts formulas in the places of placeholders and leaves alone
those that have none; it cannot fail. `resolve` fails at the first placeholder without a formula and
otherwise fills the tree. What is known of `resolve` is therefore known of `fill` and of the list of
placeholders.

* `Formula.resolve_eq`, `Program.resolve_eq` — resolution is filling, unless a formula is missing.
* `Formula.placeholders_fill` — the placeholders left are those of the formulas put in.
* `Formula.holds_fill`        — filling is reading placeholders as their formulas.
-/

namespace HybridObjects

attribute [simp] Formula.placeholders Program.placeholders

/-! ## Filling -/

namespace Resolution

/-- The placeholders that have a formula. -/
def keys (res : Resolution) : List Placeholder :=
  res.map Prod.fst

/-- The formula for a placeholder; one without a formula stays. -/
def formula (res : Resolution) (id : Placeholder) : Formula :=
  (res.lookup id).getD (.hole id)

/-- A value, unless one of the placeholders has no formula: then the first such. -/
def unlessMissing {α : Type} (res : Resolution) (ids : List Placeholder) (a : α) :
    Except Placeholder α :=
  match ids.find? fun id => (res.lookup id).isNone with
  | some id => .error id
  | none => .ok a

end Resolution

mutual

def Formula.fill (res : Resolution) : Formula → Formula
  | .hole id => res.formula id
  | .not arg => .not (arg.fill res)
  | .and lhs rhs => .and (lhs.fill res) (rhs.fill res)
  | .or lhs rhs => .or (lhs.fill res) (rhs.fill res)
  | .implies lhs rhs => .implies (lhs.fill res) (rhs.fill res)
  | .box program post => .box (program.fill res) (post.fill res)
  | .exist var body => .exist var (body.fill res)
  | .verum => .verum
  | .falsum => .falsum
  | .cmp op lhs rhs => .cmp op lhs rhs
  | .pred name args => .pred name args
  | .raw text => .raw text

def Program.fill (res : Resolution) : Program → Program
  | .test cond => .test (cond.fill res)
  | .evolve ode domain => .evolve ode (domain.fill res)
  | .seq p q => .seq (p.fill res) (q.fill res)
  | .choice p q => .choice (p.fill res) (q.fill res)
  | .group p => .group (p.fill res)
  | .skip => .skip
  | .havoc var => .havoc var
  | .assign var value => .assign var value

end

attribute [simp] Formula.fill Program.fill

namespace Resolution

variable {α β : Type} {res : Resolution}

theorem lookup_isNone_iff {id : Placeholder} : (res.lookup id).isNone = true ↔ id ∉ res.keys := by
  rw [Option.isNone_iff_eq_none, List.lookup_eq_none_iff, keys, List.mem_map]
  constructor
  · rintro h ⟨entry, hentry, rfl⟩
    have hne := h entry hentry
    simp at hne
  · intro h entry hentry
    rw [bne_iff_ne]
    rintro rfl
    exact h ⟨entry, hentry, rfl⟩

theorem unlessMissing_eq_ok {ids : List Placeholder} {a b : α} :
    res.unlessMissing ids a = .ok b ↔ (∀ id ∈ ids, id ∈ res.keys) ∧ b = a := by
  have hnone : (ids.find? fun id => (res.lookup id).isNone) = none ↔ ∀ id ∈ ids, id ∈ res.keys := by
    simp only [List.find?_eq_none, lookup_isNone_iff, not_not]
  unfold unlessMissing
  cases hfind : ids.find? fun id => (res.lookup id).isNone with
  | some id =>
    rw [hfind] at hnone
    simp [← hnone]
  | none =>
    rw [hfind] at hnone
    simp [← hnone, eq_comm]

/-- The error is the first placeholder without a formula. -/
theorem unlessMissing_eq_error {ids : List Placeholder} {a : α} {id : Placeholder} :
    res.unlessMissing ids a = .error id ↔ ∃ before after, ids = before ++ id :: after ∧
      id ∉ res.keys ∧ ∀ x ∈ before, x ∈ res.keys := by
  have hsome : (ids.find? fun id => (res.lookup id).isNone) = some id ↔
      ∃ before after, ids = before ++ id :: after ∧ id ∉ res.keys ∧ ∀ x ∈ before, x ∈ res.keys := by
    simp only [List.find?_eq_some_iff_append, lookup_isNone_iff, Bool.not_eq_true',
      Bool.eq_false_iff, ne_eq, not_not]
    constructor
    · rintro ⟨hid, before, after, rfl, hbefore⟩
      exact ⟨before, after, rfl, hid, hbefore⟩
    · rintro ⟨before, after, rfl, hid, hbefore⟩
      exact ⟨hid, before, after, rfl, hbefore⟩
  rw [← hsome]
  unfold unlessMissing
  cases ids.find? fun id => (res.lookup id).isNone <;> simp

theorem unlessMissing_map (ids : List Placeholder) (a : α) (g : α → β) :
    (res.unlessMissing ids a >>= fun a => pure (g a)) = res.unlessMissing ids (g a) := by
  unfold unlessMissing
  split <;> rfl

/-- Of two parts, the first is looked through first. -/
theorem unlessMissing_bind {ids ids' : List Placeholder} {a : α} {b : β}
    {g : α → Except Placeholder β} (hg : g a = res.unlessMissing ids' b) :
    (res.unlessMissing ids a >>= g) = res.unlessMissing (ids ++ ids') b := by
  unfold unlessMissing at hg ⊢
  rw [List.find?_append]
  cases ids.find? fun id => (res.lookup id).isNone with
  | some id => rfl
  | none => exact hg

end Resolution

open Resolution (unlessMissing_map unlessMissing_bind)

mutual

theorem Formula.resolve_eq (res : Resolution) :
    ∀ f : Formula, f.resolve res = res.unlessMissing f.placeholders (f.fill res)
  | .hole id => by
    cases hlookup : res.lookup id <;>
      simp [Formula.resolve, Resolution.unlessMissing, Resolution.formula, hlookup]
  | .not arg => by
    rw [Formula.resolve, Formula.resolve_eq res arg, unlessMissing_map]
    simp
  | .and lhs rhs | .or lhs rhs | .implies lhs rhs => by
    rw [Formula.resolve, Formula.resolve_eq res lhs, Formula.resolve_eq res rhs]
    simp only [unlessMissing_map]
    exact unlessMissing_bind rfl
  | .box program post => by
    rw [Formula.resolve, Program.resolve_eq res program, Formula.resolve_eq res post]
    simp only [unlessMissing_map]
    exact unlessMissing_bind rfl
  | .exist var body => by
    rw [Formula.resolve, Formula.resolve_eq res body, unlessMissing_map]
    simp
  | .verum | .falsum | .cmp .. | .pred .. | .raw _ => by
    rw [Formula.resolve]
    rfl

theorem Program.resolve_eq (res : Resolution) :
    ∀ p : Program, p.resolve res = res.unlessMissing p.placeholders (p.fill res)
  | .test cond => by
    rw [Program.resolve, Formula.resolve_eq res cond, unlessMissing_map]
    simp
  | .evolve ode domain => by
    rw [Program.resolve, Formula.resolve_eq res domain, unlessMissing_map]
    simp
  | .seq p q | .choice p q => by
    rw [Program.resolve, Program.resolve_eq res p, Program.resolve_eq res q]
    simp only [unlessMissing_map]
    exact unlessMissing_bind rfl
  | .group p => by
    rw [Program.resolve, Program.resolve_eq res p, unlessMissing_map]
    simp
  | .skip | .havoc _ | .assign .. => by
    rw [Program.resolve]
    rfl

end

theorem Formula.resolve_eq_ok {res : Resolution} {f g : Formula} :
    f.resolve res = .ok g ↔ (∀ id ∈ f.placeholders, id ∈ res.keys) ∧ g = f.fill res := by
  rw [Formula.resolve_eq, Resolution.unlessMissing_eq_ok]

theorem Program.resolve_eq_ok {res : Resolution} {p q : Program} :
    p.resolve res = .ok q ↔ (∀ id ∈ p.placeholders, id ∈ res.keys) ∧ q = p.fill res := by
  rw [Program.resolve_eq, Resolution.unlessMissing_eq_ok]

/-! ## Placeholders of what is filled -/

mutual

theorem Formula.placeholders_fill (res : Resolution) : ∀ f : Formula,
    (f.fill res).placeholders = f.placeholders.flatMap fun id => (res.formula id).placeholders
  | .hole id => by simp
  | .not arg => by simp [Formula.placeholders_fill res arg]
  | .and lhs rhs | .or lhs rhs | .implies lhs rhs => by
    simp [Formula.placeholders_fill res lhs, Formula.placeholders_fill res rhs]
  | .box program post => by
    simp [Program.placeholders_fill res program, Formula.placeholders_fill res post]
  | .exist _ body => by simp [Formula.placeholders_fill res body]
  | .verum | .falsum | .cmp .. | .pred .. | .raw _ => by simp

theorem Program.placeholders_fill (res : Resolution) : ∀ p : Program,
    (p.fill res).placeholders = p.placeholders.flatMap fun id => (res.formula id).placeholders
  | .test cond => by simp [Formula.placeholders_fill res cond]
  | .evolve _ domain => by simp [Formula.placeholders_fill res domain]
  | .seq p q | .choice p q => by
    simp [Program.placeholders_fill res p, Program.placeholders_fill res q]
  | .group p => by simp [Program.placeholders_fill res p]
  | .skip | .havoc _ | .assign .. => by simp

end

mutual

theorem Formula.fill_of_closed (res : Resolution) :
    ∀ {f : Formula}, f.placeholders = [] → f.fill res = f
  | .hole id, h => by simp at h
  | .not arg, h => by
    simp only [Formula.placeholders] at h
    simp [Formula.fill_of_closed res h]
  | .and lhs rhs, h | .or lhs rhs, h | .implies lhs rhs, h => by
    simp only [Formula.placeholders, List.append_eq_nil_iff] at h
    simp [Formula.fill_of_closed res h.1, Formula.fill_of_closed res h.2]
  | .box program post, h => by
    simp only [Formula.placeholders, List.append_eq_nil_iff] at h
    simp [Program.fill_of_closed res h.1, Formula.fill_of_closed res h.2]
  | .exist _ body, h => by
    simp only [Formula.placeholders] at h
    simp [Formula.fill_of_closed res h]
  | .verum, _ | .falsum, _ | .cmp .., _ | .pred .., _ | .raw _, _ => by simp

theorem Program.fill_of_closed (res : Resolution) :
    ∀ {p : Program}, p.placeholders = [] → p.fill res = p
  | .test cond, h => by
    simp only [Program.placeholders] at h
    simp [Formula.fill_of_closed res h]
  | .evolve _ domain, h => by
    simp only [Program.placeholders] at h
    simp [Formula.fill_of_closed res h]
  | .seq p q, h | .choice p q, h => by
    simp only [Program.placeholders, List.append_eq_nil_iff] at h
    simp [Program.fill_of_closed res h.1, Program.fill_of_closed res h.2]
  | .group p, h => by
    simp only [Program.placeholders] at h
    simp [Program.fill_of_closed res h]
  | .skip, _ | .havoc _, _ | .assign .., _ => by simp

end

/-! ## Meaning of what is filled -/

/-- The interpretation that reads every placeholder as its formula. -/
def Interp.filling (I : Interp) (res : Resolution) : Interp :=
  { I with hole := fun id s => (res.formula id).Holds I s }

theorem Term.value_filling (I : Interp) (res : Resolution) (s : Store) (t : Term) :
    t.value (I.filling res) s = t.value I s := by
  induction t with
  | var | num | primed => rfl
  | bin op lhs rhs ihl ihr =>
    rw [Term.value, Term.value, ihl, ihr]
    cases op <;> rfl
  | neg arg ih => rw [Term.value, Term.value, ih]

mutual

theorem Formula.holds_fill (I : Interp) (res : Resolution) : ∀ (f : Formula) (s : Store),
    (f.fill res).Holds I s ↔ f.Holds (I.filling res) s
  | .hole id, s => by simp [Formula.Holds, Interp.filling]
  | .not arg, s => by simp [Formula.Holds, Formula.holds_fill I res arg]
  | .and lhs rhs, s | .or lhs rhs, s | .implies lhs rhs, s => by
    simp [Formula.Holds, Formula.holds_fill I res lhs, Formula.holds_fill I res rhs]
  | .box program post, s => by
    simp [Formula.Holds, Program.runs_fill I res program, Formula.holds_fill I res post]
  | .exist _ body, s => by simp [Formula.Holds, Formula.holds_fill I res body]
  | .cmp op lhs rhs, s => by simp [Formula.Holds, Term.value_filling]
  | .pred name args, s => by
    have hvalues : args.map (Term.value (I.filling res) s) = args.map (Term.value I s) :=
      List.map_congr_left fun t _ => Term.value_filling I res s t
    simp only [Formula.fill, Formula.Holds, hvalues]
    rfl
  | .verum, _ | .falsum, _ | .raw _, _ => by simp [Formula.Holds, Interp.filling]

theorem Program.runs_fill (I : Interp) (res : Resolution) : ∀ (p : Program) (s t : Store),
    (p.fill res).Runs I s t ↔ p.Runs (I.filling res) s t
  | .test cond, s, t => by simp [Program.Runs, Formula.holds_fill I res cond]
  | .evolve ode domain, s, t => by
    -- the domain is the same predicate on stores, so the same stores are joined
    have hdomain : (fun u => (domain.fill res).Holds I u) =
        fun u => domain.Holds (I.filling res) u :=
      funext fun u => propext (Formula.holds_fill I res domain u)
    simp only [Program.fill, Program.Runs, hdomain]
    rfl
  | .seq p q, s, t | .choice p q, s, t => by
    simp [Program.Runs, Program.runs_fill I res p, Program.runs_fill I res q]
  | .group p, s, t => by simp [Program.Runs, Program.runs_fill I res p]
  | .assign var value, s, t => by simp [Program.Runs, Term.value_filling]
  | .skip, s, t | .havoc _, s, t => by simp [Program.Runs]

end

/-- Resolution is exact. It succeeds if every placeholder of the tree has a formula, and otherwise
the error is the first one without. The placeholders of the result are those of the formulas put in,
occurrence by occurrence; a tree without placeholders stays as it is; and the result says what the
tree says if placeholders are read as their formulas. -/
theorem resolve_exact (res : Resolution) :
    (∀ f : Formula,
      ((∃ g, f.resolve res = .ok g) ↔ ∀ id ∈ f.placeholders, id ∈ res.keys) ∧
      (∀ id, f.resolve res = .error id ↔ ∃ before after, f.placeholders = before ++ id :: after ∧
        id ∉ res.keys ∧ ∀ x ∈ before, x ∈ res.keys) ∧
      ∀ g, f.resolve res = .ok g →
        g.placeholders = f.placeholders.flatMap (fun id => (res.formula id).placeholders) ∧
        (f.placeholders = [] → g = f) ∧
        ∀ I s, g.Holds I s ↔ f.Holds (I.filling res) s) ∧
    ∀ p : Program,
      ((∃ q, p.resolve res = .ok q) ↔ ∀ id ∈ p.placeholders, id ∈ res.keys) ∧
      (∀ id, p.resolve res = .error id ↔ ∃ before after, p.placeholders = before ++ id :: after ∧
        id ∉ res.keys ∧ ∀ x ∈ before, x ∈ res.keys) ∧
      ∀ q, p.resolve res = .ok q →
        q.placeholders = p.placeholders.flatMap (fun id => (res.formula id).placeholders) ∧
        (p.placeholders = [] → q = p) ∧
        ∀ I s t, q.Runs I s t ↔ p.Runs (I.filling res) s t := by
  refine ⟨fun f => ⟨?_, ?_, ?_⟩, fun p => ⟨?_, ?_, ?_⟩⟩
  · simp [Formula.resolve_eq_ok]
  · intro id
    rw [Formula.resolve_eq, Resolution.unlessMissing_eq_error]
  · intro g hg
    obtain ⟨-, rfl⟩ := Formula.resolve_eq_ok.mp hg
    exact ⟨Formula.placeholders_fill res f, Formula.fill_of_closed res,
      fun I => Formula.holds_fill I res f⟩
  · simp [Program.resolve_eq_ok]
  · intro id
    rw [Program.resolve_eq, Resolution.unlessMissing_eq_error]
  · intro q hq
    obtain ⟨-, rfl⟩ := Program.resolve_eq_ok.mp hq
    exact ⟨Program.placeholders_fill res p, Program.fill_of_closed res,
      fun I => Program.runs_fill I res p⟩

/-- A formula that is put in keeps its own placeholder, in a test as in a box, and the first of two
missing formulas is the error. -/
theorem resolve_exact_nested :
    let res : Resolution :=
      [(⟨0⟩, .cmp .ge (.var "x") (.num "0")), (⟨1⟩, .or (.hole ⟨0⟩) (.raw "y < 1"))]
    let p : Program := .seq (.test (.not (.hole ⟨1⟩))) (.evolve ⟨[("x", .var "v")]⟩ (.hole ⟨0⟩))
    let q : Program := .seq (.test (.not (.or (.hole ⟨0⟩) (.raw "y < 1"))))
      (.evolve ⟨[("x", .var "v")]⟩ (.cmp .ge (.var "x") (.num "0")))
    let f : Formula := .implies (.hole ⟨1⟩) (.box p (.hole ⟨0⟩))
    let g : Formula :=
      .implies (.or (.hole ⟨0⟩) (.raw "y < 1")) (.box q (.cmp .ge (.var "x") (.num "0")))
    f.resolve res = .ok g ∧ g.placeholders = [⟨0⟩, ⟨0⟩] ∧
      (∀ I s, g.Holds I s ↔ f.Holds (I.filling res) s) ∧
      p.resolve res = .ok q ∧ q.placeholders = [⟨0⟩] ∧
      (∀ I s t, q.Runs I s t ↔ p.Runs (I.filling res) s t) ∧
      (Program.choice p (.test (.and (.hole ⟨3⟩) (.hole ⟨2⟩)))).resolve res = .error ⟨3⟩ := by
  intro res p q f g
  obtain ⟨hformula, hprogram⟩ := resolve_exact res
  have hf : f.resolve res = .ok g := rfl
  have hp : p.resolve res = .ok q := rfl
  obtain ⟨hleft, -, hsays⟩ := (hformula f).2.2 g hf
  obtain ⟨hleft', -, hsays'⟩ := (hprogram p).2.2 q hp
  refine ⟨hf, hleft.trans rfl, hsays, hp, hleft'.trans rfl, hsays', ?_⟩
  exact ((hprogram _).2.1 ⟨3⟩).mpr ⟨[⟨1⟩, ⟨0⟩], [⟨2⟩], rfl, by decide, by decide⟩

end HybridObjects
