import HybridObjects.Proofs.ClauseText
import HybridObjects.Proofs.Placeholders
import Mathlib.Data.Nat.Find

/-!
# HybridObjects.Proofs.ArgumentUse

Which arguments an instantiated precondition depends on. `instantiate_by_mentioned`: only those
whose parameters the clause text mentions. One of them that is no term makes the instantiation fail,
the first one with its error; if there is none, the same text comes out whatever stands in the other
places, or if nothing stands there.

* `RefusedAt`, `FirstRefused` — the arguments that make an instantiation fail.
* `AgreeWhere`                — two argument lists with the same arguments for mentioned parameters.
* `argumentTexts`             — the texts for the parameters, the last one of a parameter first.
-/

namespace HybridObjects

/-- The argument in a place is no term, because of `e`, and the text mentions its parameter. -/
def RefusedAt (text : String) (formals : List String) (args : List Expr) (i : Nat) (e : Expr) :
    Prop :=
  ∃ formal arg, formals[i]? = some formal ∧ args[i]? = some arg ∧ mentions text formal = true ∧
    arg.toTerm = .error e

/-- The first argument that is refused is refused because of `e`. -/
def FirstRefused (text : String) (formals : List String) (args : List Expr) (e : Expr) : Prop :=
  ∃ i, RefusedAt text formals args i e ∧ ∀ j < i, ∀ e', ¬ RefusedAt text formals args j e'

/-- In the places of the parameters that the text mentions stand the same arguments, or none. -/
def AgreeWhere (text : String) (formals : List String) (args args' : List Expr) : Prop :=
  ∀ (i : Nat) (formal : String), formals[i]? = some formal → mentions text formal = true →
    args[i]? = args'[i]?

/-- The texts of the arguments that are terms, for their parameters. -/
def argumentTexts : List String → List Expr → Substitution
  | formal :: formals, arg :: args =>
    argumentTexts formals args ++
      match arg.toTerm with
      | .ok term => [(formal, term.text)]
      | .error _ => []
  | _, _ => []

section

variable {text formal : String} {formals : List String} {arg : Expr} {args args' : List Expr}

/-! ## Refusals -/

theorem refusedAt_zero {e : Expr} :
    RefusedAt text (formal :: formals) (arg :: args) 0 e ↔
      mentions text formal = true ∧ arg.toTerm = .error e := by
  simp [RefusedAt]

theorem refusedAt_succ {i : Nat} {e : Expr} :
    RefusedAt text (formal :: formals) (arg :: args) (i + 1) e ↔
      RefusedAt text formals args i e := by
  simp [RefusedAt]

theorem exists_firstRefused {i : Nat} {e : Expr} (h : RefusedAt text formals args i e) :
    ∃ e', FirstRefused text formals args e' := by
  classical
  have hsome : ∃ i e, RefusedAt text formals args i e := ⟨i, e, h⟩
  obtain ⟨e', he'⟩ := Nat.find_spec hsome
  exact ⟨e', Nat.find hsome, he', fun j hj e'' hj' => Nat.find_min hsome hj ⟨e'', hj'⟩⟩

/-- Where the first argument is not refused, the first refusal is one of those after it. -/
theorem firstRefused_cons (h : ∀ e, ¬ RefusedAt text (formal :: formals) (arg :: args) 0 e)
    {e : Expr} : FirstRefused text (formal :: formals) (arg :: args) e ↔
      FirstRefused text formals args e := by
  constructor
  · rintro ⟨i, hi, hfirst⟩
    cases i with
    | zero => exact absurd hi (h e)
    | succ i =>
      refine ⟨i, refusedAt_succ.mp hi, fun j hj e' hj' => ?_⟩
      exact hfirst (j + 1) (by omega) e' (refusedAt_succ.mpr hj')
  · rintro ⟨i, hi, hfirst⟩
    refine ⟨i + 1, refusedAt_succ.mpr hi, fun j hj e' hj' => ?_⟩
    cases j with
    | zero => exact h e' hj'
    | succ j => exact hfirst j (by omega) e' (refusedAt_succ.mp hj')

/-- Arguments are bound up to the first one that is refused. -/
theorem bindArguments_eq_error_iff {sub : Substitution} {err : Error} :
    bindArguments text sub formals args = .error err ↔
      ∃ e, err = .unsupportedExpr e ∧ FirstRefused text formals args e := by
  fun_induction bindArguments text sub formals args with
  | case1 sub formal formals arg args term hterm ih =>
    rw [ih]
    refine exists_congr fun e => and_congr_right fun _ => (firstRefused_cons fun e he => ?_).symm
    rw [(refusedAt_zero.mp he).2] at hterm
    cases hterm
  | case2 sub formal formals arg args e he hmention =>
    have hzero : RefusedAt text (formal :: formals) (arg :: args) 0 e :=
      refusedAt_zero.mpr ⟨hmention, he⟩
    constructor
    · rintro ⟨⟩
      exact ⟨e, rfl, 0, hzero, fun j hj => absurd hj (by omega)⟩
    · rintro ⟨e', rfl, i, hi, hfirst⟩
      cases i with
      | zero =>
        rw [(refusedAt_zero.mp hi).2] at he
        cases he
        rfl
      | succ i => exact absurd hzero (hfirst 0 (by omega) e)
  | case3 sub formal formals arg args e he hmention ih =>
    rw [ih]
    refine exists_congr fun e => and_congr_right fun _ => (firstRefused_cons fun e he => ?_).symm
    exact hmention (refusedAt_zero.mp he).1
  | case4 formals sub args hnot =>
    constructor
    · intro h
      cases h
    · rintro ⟨e, -, i, ⟨formal, arg, hformal, harg, -⟩, -⟩
      cases formals with
      | nil => cases hformal
      | cons formal formals =>
        cases args with
        | nil => cases harg
        | cons arg args => exact (hnot formal formals arg args rfl rfl).elim

/-! ## Texts for parameters -/

theorem lookup_bindArguments {sub bound : Substitution}
    (h : bindArguments text sub formals args = .ok bound) (x : String) :
    bound.lookup x = (argumentTexts formals args ++ sub).lookup x := by
  fun_induction bindArguments text sub formals args with
  | case1 sub formal formals arg args term hterm ih =>
    rw [ih h, argumentTexts, hterm, List.append_assoc]
    simp only [List.lookup_append, Substitution.lookup_insert, List.cons_append, List.nil_append,
      lookup_entry_cons]
  | case2 => cases h
  | case3 sub formal formals arg args e he _ ih => rw [ih h, argumentTexts, he, List.append_nil]
  | case4 formals sub args hnot =>
    cases h
    rw [argumentTexts.eq_2 _ _ hnot, List.nil_append]

theorem substitute_bound {bound : Substitution}
    (h : bindArguments text [] formals args = .ok bound) :
    substitute bound text = substitute (argumentTexts formals args) text := by
  refine substitute_congr fun x _ => ?_
  rw [Substitution.apply, Substitution.apply, lookup_bindArguments h, List.append_nil]

/-! ## Two lists of arguments -/

theorem AgreeWhere.refusedAt_iff (h : AgreeWhere text formals args args') {i : Nat} {e : Expr} :
    RefusedAt text formals args i e ↔ RefusedAt text formals args' i e := by
  refine exists_congr fun formal => exists_congr fun arg => and_congr_right fun hformal => ?_
  constructor
  · rintro ⟨harg, hmention, he⟩
    exact ⟨by rw [← h i formal hformal hmention, harg], hmention, he⟩
  · rintro ⟨harg, hmention, he⟩
    exact ⟨by rw [h i formal hformal hmention, harg], hmention, he⟩

/-- The entry of one argument, if there is an argument and it is a term. -/
def argumentText (formal : String) (arg : Option Expr) : Substitution :=
  match arg.map Expr.toTerm with
  | some (.ok term) => [(formal, term.text)]
  | _ => []

theorem lookup_argumentText_of_ne {x : String} (h : x ≠ formal) (arg : Option Expr) :
    (argumentText formal arg).lookup x = none := by
  unfold argumentText
  split
  · rw [lookup_entry_cons, if_neg h, List.lookup_nil]
  · rfl

/-- What stands in the first place is the last to be looked up. -/
theorem argumentTexts_cons (formal : String) (formals : List String) (args : List Expr) :
    argumentTexts (formal :: formals) args =
      argumentTexts formals args.tail ++ argumentText formal args[0]? := by
  cases args with
  | nil => cases formals <;> rfl
  | cons arg args =>
    rw [argumentTexts, List.tail_cons]
    cases harg : arg.toTerm <;> simp [argumentText, harg]

theorem AgreeWhere.lookup_eq (h : AgreeWhere text formals args args') {x : String}
    (hx : mentions text x = true) :
    (argumentTexts formals args).lookup x = (argumentTexts formals args').lookup x := by
  induction formals generalizing args args' with
  | nil => rfl
  | cons formal formals ih =>
    have htail : AgreeWhere text formals args.tail args'.tail := by
      intro i name hname hmention
      rw [List.getElem?_tail, List.getElem?_tail]
      exact h (i + 1) name hname hmention
    rw [argumentTexts_cons, argumentTexts_cons, List.lookup_append, List.lookup_append, ih htail]
    congr 1
    -- the arguments in the first place may differ only if the text does not mention their parameter
    by_cases hformal : x = formal
    · subst hformal
      rw [h 0 x rfl hx]
    · rw [lookup_argumentText_of_ne hformal, lookup_argumentText_of_ne hformal]

theorem AgreeWhere.substitute_eq (h : AgreeWhere text formals args args') :
    substitute (argumentTexts formals args) text =
      substitute (argumentTexts formals args') text := by
  refine substitute_congr fun x hx => ?_
  rw [Substitution.apply, Substitution.apply, String.ofList_toList, h.lookup_eq hx]

end

/-! ## Preconditions -/

section

variable {annotations : List Annotation} {text : String} {formals : List String} {args : List Expr}

theorem instantiate_eq_error_iff (h : clauseOf .requires .conjoin annotations = .ok (some text))
    {err : Error} : instantiate annotations formals args = .error err ↔
      ∃ e, err = .unsupportedExpr e ∧ FirstRefused text formals args e := by
  have hbind : bindArguments text [] formals args = .error err ↔
      ∃ e, err = .unsupportedExpr e ∧ FirstRefused text formals args e :=
    bindArguments_eq_error_iff
  rw [← hbind]
  cases hbound : bindArguments text [] formals args <;> simp [instantiate, h, hbound]

theorem instantiate_of_not_refused
    (h : clauseOf .requires .conjoin annotations = .ok (some text))
    (hrefused : ∀ i e, ¬ RefusedAt text formals args i e) :
    instantiate annotations formals args =
      .ok (some (.raw (substitute (argumentTexts formals args) text))) := by
  cases hbound : bindArguments text [] formals args with
  | error err =>
    obtain ⟨e, -, i, hi, -⟩ := bindArguments_eq_error_iff.mp hbound
    exact absurd hi (hrefused i e)
  | ok bound => simp [instantiate, h, hbound, substitute_bound hbound]

end

/-- A precondition depends only on the arguments whose parameters its text mentions. Instantiation
fails exactly if one of these is no term, with the error of the first one; otherwise the texts of
the arguments stand for the parameters, and every list with the same arguments in those places gives
the same text. If the text mentions no parameter, it stays as it is. -/
theorem instantiate_by_mentioned {annotations : List Annotation} {text : String}
    (h : clauseOf .requires .conjoin annotations = .ok (some text)) (formals : List String)
    (args : List Expr) :
    ((∃ err, instantiate annotations formals args = .error err) ↔
        ∃ i e, RefusedAt text formals args i e) ∧
      (∀ i e, RefusedAt text formals args i e →
        (∀ j < i, ∀ e', ¬ RefusedAt text formals args j e') →
        instantiate annotations formals args = .error (.unsupportedExpr e)) ∧
      ((∀ i e, ¬ RefusedAt text formals args i e) →
        ∀ args', AgreeWhere text formals args args' →
          instantiate annotations formals args' =
            .ok (some (.raw (substitute (argumentTexts formals args) text)))) ∧
      ((∀ formal ∈ formals, mentions text formal = false) →
        instantiate annotations formals args = .ok (some (.raw text))) := by
  have hsame : (∀ i e, ¬ RefusedAt text formals args i e) →
      ∀ args', AgreeWhere text formals args args' → instantiate annotations formals args' =
        .ok (some (.raw (substitute (argumentTexts formals args) text))) := by
    intro hrefused args' hagree
    rw [hagree.substitute_eq]
    exact instantiate_of_not_refused h fun i e he => hrefused i e (hagree.refusedAt_iff.mpr he)
  refine ⟨⟨?_, ?_⟩, ?_, hsame, ?_⟩
  · rintro ⟨err, herr⟩
    obtain ⟨e, -, i, hi, -⟩ := (instantiate_eq_error_iff h).mp herr
    exact ⟨i, e, hi⟩
  · rintro ⟨i, e, hi⟩
    obtain ⟨e', he'⟩ := exists_firstRefused hi
    exact ⟨_, (instantiate_eq_error_iff h).mpr ⟨e', rfl, he'⟩⟩
  · intro i e hi hfirst
    exact (instantiate_eq_error_iff h).mpr ⟨e, rfl, i, hi, hfirst⟩
  · intro hnone
    -- the arguments are as good as none
    have hplaces : ∀ (i : Nat) formal, formals[i]? = some formal →
        ¬ mentions text formal = true := by
      intro i formal hformal
      simp [hnone formal (List.mem_of_getElem? hformal)]
    have hagree : AgreeWhere text formals [] args :=
      fun i formal hformal hmention => absurd hmention (hplaces i formal hformal)
    have hempty : argumentTexts formals [] = [] := by cases formals <;> rfl
    have hrefused : ∀ i e, ¬ RefusedAt text formals args i e := by
      rintro i e ⟨formal, arg, hformal, -, hmention, -⟩
      exact hplaces i formal hformal hmention
    rw [instantiate_of_not_refused h hrefused, ← hagree.substitute_eq, hempty, substitute_nil]

/-! ## A valve with two bounds -/

/-- Mentions `low` and `high`, but of `flow` only the derivative. -/
def Annotation.bounds : Annotation :=
  ⟨"ABS.DC.HybridSpec", .construct "Requires" [.string "low < high & flow' > low"]⟩

/-- Without an argument for `flow` the same text comes out as with one that is no term; `this` for
`high` is refused. -/
theorem instantiate_by_mentioned_bounds :
    instantiate [.bounds] ["low", "high", "flow"] [.int "1", .var "k"] =
        .ok (some (.raw (substitute (argumentTexts ["low", "high", "flow"]
          [.int "1", .var "k", .string "off"]) "low < high & flow' > low"))) ∧
      instantiate [.bounds] ["low", "high", "flow"] [.int "1", .this, .string "off"] =
        .error (.unsupportedExpr .this) ∧
      instantiate [.bounds] ["flow"] [.this] = .ok (some (.raw "low < high & flow' > low")) := by
  have hclause : clauseOf .requires .conjoin [.bounds] =
      .ok (some "low < high & flow' > low") := by rfl
  have hhigh : mentions "low < high & flow' > low" "high" = true := by decide +kernel
  have hflow : mentions "low < high & flow' > low" "flow" = false := by decide +kernel
  refine ⟨?_, ?_, ?_⟩
  · refine (instantiate_by_mentioned hclause _ _).2.2.1 ?_ _ ?_
    · rintro (_ | _ | _ | i) e ⟨formal, arg, hformal, harg, hmention, he⟩ <;>
        simp at hformal harg <;> subst hformal harg
      · cases he
      · cases he
      · rw [hflow] at hmention
        cases hmention
    · rintro (_ | _ | _ | i) formal hformal hmention <;> simp at hformal ⊢
      subst hformal
      rw [hflow] at hmention
      cases hmention
  · refine (instantiate_by_mentioned hclause _ _).2.1 1 .this
      ⟨"high", .this, rfl, rfl, hhigh, rfl⟩ ?_
    rintro (_ | j) hj e ⟨formal, arg, hformal, harg, hmention, he⟩
    · cases harg
      cases he
    · omega
  · refine (instantiate_by_mentioned hclause _ _).2.2.2 ?_
    simpa using hflow

end HybridObjects
