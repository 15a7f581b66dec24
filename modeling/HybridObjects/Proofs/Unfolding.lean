import HybridObjects.Obligation.Problem
import HybridObjects.Proofs.ClauseText
import HybridObjects.Proofs.Spelling

/-!
# HybridObjects.Proofs.Unfolding

Predicate definitions and their applications. A definition spells the derivatives of its parameters
as variables, and an application has the differential symbols in their places.

`unfold_definePredicate`: to put the arguments of an application in the place of the formal
parameters of the definition gives back the formula that was defined.

* `Term.replace`, `Formula.replace` — terms for variables, in trees and in clause texts.
* `Parts`, `Formula.Has`            — conditions on what formulas are made of.
* `pieces_renamePrimes`             — the pieces of a text whose derivatives are spelled out.
* `Actuals.Restores`                — replacements that undo the spelling.
-/

namespace HybridObjects

open Text (Piece isIdent pieces unpieces PrimesStop)

/-! ## Replacing variables -/

/-- Terms for variables; the first entry of a name counts. -/
abbrev Actuals := List (String × Term)

namespace Actuals

/-- The texts that stand for the variables in clause text. -/
def texts (sub : Actuals) : Substitution :=
  sub.map fun entry => (entry.1, entry.2.text)

/-- The replacements inside the scope of a variable. -/
def without (sub : Actuals) (x : String) : Actuals :=
  sub.filter fun entry => entry.1 != x

end Actuals

/-- The term with terms for its variables. Differential symbols stay. -/
def Term.replace (sub : Actuals) : Term → Term
  | .var name => (sub.lookup name).getD (.var name)
  | .num text => .num text
  | .primed name => .primed name
  | .bin op lhs rhs => .bin op (lhs.replace sub) (rhs.replace sub)
  | .neg arg => .neg (arg.replace sub)

/-- The formula with terms for its variables, in clause text with their texts. Boxes are left alone:
the variables in them belong to their programs. -/
def Formula.replace : Actuals → Formula → Formula
  | _, .verum => .verum
  | _, .falsum => .falsum
  | sub, .cmp op lhs rhs => .cmp op (lhs.replace sub) (rhs.replace sub)
  | sub, .not arg => .not (arg.replace sub)
  | sub, .and lhs rhs => .and (lhs.replace sub) (rhs.replace sub)
  | sub, .or lhs rhs => .or (lhs.replace sub) (rhs.replace sub)
  | sub, .implies lhs rhs => .implies (lhs.replace sub) (rhs.replace sub)
  | _, .box program post => .box program post
  | sub, .exist var body => .exist var (body.replace (sub.without var))
  | sub, .pred name args => .pred name (args.map (·.replace sub))
  | sub, .raw text => .raw (substitute sub.texts text)
  | _, .hole id => .hole id

/-! ## Parts of formulas -/

/-- Conditions on the variables of a formula, on the variables of its differential symbols, and on
its clause texts. -/
structure Parts where
  var : String → Prop
  slope : String → Prop
  text : String → Prop

def Term.Has (P : Parts) : Term → Prop
  | .var name => P.var name
  | .num _ => True
  | .primed name => P.slope name
  | .bin _ lhs rhs => lhs.Has P ∧ rhs.Has P
  | .neg arg => arg.Has P

/-- The formula has no box and its parts satisfy the conditions, bound variables included. -/
def Formula.Has (P : Parts) : Formula → Prop
  | .verum | .falsum | .hole _ => True
  | .cmp _ lhs rhs => lhs.Has P ∧ rhs.Has P
  | .not arg => arg.Has P
  | .and lhs rhs | .or lhs rhs | .implies lhs rhs => lhs.Has P ∧ rhs.Has P
  | .box .. => False
  | .exist var body => P.var var ∧ body.Has P
  | .pred _ args => ∀ arg ∈ args, arg.Has P
  | .raw text => P.text text

namespace Parts

/-- No variable and no identifier of a clause text is the derivative name of a parameter, and in
clause texts no primed identifier runs into what follows it. -/
def fresh (parameters : List String) : Parts where
  var x := x ∉ parameters.map derivativeName
  slope _ := True
  text t := (∀ x ∈ parameters, mentions t (derivativeName x) = false) ∧
    PrimesStop (pieces t.toList)

/-- No parameter is differentiated, neither in a term nor in a clause text. -/
def unprimed (parameters : List String) : Parts where
  var _ := True
  slope x := x ∉ parameters
  text t := ∀ x ∈ parameters, mentions t (x ++ "'") = false

end Parts

section

variable {vars : List String} {P Q : Parts}

theorem Term.Has.renamePrimes (hvar : ∀ x, P.var x → Q.var x)
    (hslope : ∀ x, P.slope x → if x ∈ vars then Q.var (derivativeName x) else Q.slope x)
    {t : Term} (h : t.Has P) : (t.renamePrimes vars).Has Q := by
  induction t with
  | var name => exact hvar name h
  | num => trivial
  | primed name =>
    have hname := hslope name h
    by_cases hmem : name ∈ vars <;> simpa [Term.renamePrimes, hmem, Term.Has] using hname
  | bin op lhs rhs ihl ihr => exact ⟨ihl h.1, ihr h.2⟩
  | neg arg ih => exact ih h

theorem Formula.Has.renamePrimes (hvar : ∀ x, P.var x → Q.var x)
    (hslope : ∀ x, P.slope x → if x ∈ vars then Q.var (derivativeName x) else Q.slope x)
    (htext : ∀ t, P.text t → Q.text (HybridObjects.renamePrimes vars t)) :
    ∀ {f : Formula}, f.Has P → (f.renamePrimes vars).Has Q
  | .verum, _ | .falsum, _ | .hole _, _ => by simp [Formula.renamePrimes, Formula.Has]
  | .cmp .., h => ⟨h.1.renamePrimes hvar hslope, h.2.renamePrimes hvar hslope⟩
  | .not _, h => by
    simp only [Formula.renamePrimes, Formula.Has] at h ⊢
    exact Formula.Has.renamePrimes hvar hslope htext h
  | .and .., h | .or .., h | .implies .., h => by
    simp only [Formula.renamePrimes, Formula.Has] at h ⊢
    exact ⟨Formula.Has.renamePrimes hvar hslope htext h.1,
      Formula.Has.renamePrimes hvar hslope htext h.2⟩
  | .exist var _, h => by
    simp only [Formula.renamePrimes, Formula.Has] at h ⊢
    exact ⟨hvar var h.1, Formula.Has.renamePrimes hvar hslope htext h.2⟩
  | .pred .., h => by
    simp only [Formula.renamePrimes, Formula.Has, List.forall_mem_map] at h ⊢
    exact fun arg harg => (h arg harg).renamePrimes hvar hslope
  | .raw text, h => by
    simp only [Formula.renamePrimes, Formula.Has] at h ⊢
    exact htext text h

end

/-! ## Spelled-out derivatives in clause text -/

/-- A piece with the derivative of a variable spelled out. -/
def Text.Piece.renamePrime (vars : List String) : Piece → Piece
  | .ident name true =>
    if String.ofList name ∈ vars then .ident (derivativeName (String.ofList name)).toList false
    else .ident name true
  | p => p

section

variable {vars : List String} {text : String}

theorem isIdent_derivativeName {name : List Char} (h : isIdent name = true) :
    isIdent (derivativeName (String.ofList name)).toList = true := by
  rw [derivativeName, String.toList_append, String.toList_ofList]
  exact Text.isIdent_append h (by decide)

/-- Where no prime runs into what follows it, the pieces stay apart without it. -/
theorem pieces_renamePrimes (h : PrimesStop (pieces text.toList)) :
    pieces (renamePrimes vars text).toList =
      (pieces text.toList).map (Piece.renamePrime vars) := by
  refine Text.pieces_eq_iff.mpr ⟨?_, ?_⟩
  · refine (Text.cut_pieces text.toList).map (fun _ => rfl) fun name primed hmem => ?_
    have hident := Text.isIdent_of_mem_pieces hmem
    cases primed with
    | false => exact ⟨name, false, rfl, hident, by simp⟩
    | true =>
      by_cases hvar : String.ofList name ∈ vars
      · exact ⟨_, false, by simp [Piece.renamePrime, hvar], isIdent_derivativeName hident,
          fun _ _ => h⟩
      · exact ⟨name, true, by simp [Piece.renamePrime, hvar], hident, by simp⟩
  · rw [renamePrimes, String.toList_ofList, unpieces, List.flatMap_map]
    refine List.flatMap_congr fun p _ => ?_
    cases p with
    | other c => rfl
    | ident name primed =>
      cases primed with
      | false => rfl
      | true =>
        by_cases hvar : String.ofList name ∈ vars <;>
          simp [Piece.renamePrime, hvar, Piece.text]

/-- Once they are spelled out, derivatives of the variables no longer occur as such. -/
theorem mentions_renamePrimes (h : PrimesStop (pieces text.toList)) {x : String} (hx : x ∈ vars) :
    mentions (renamePrimes vars text) (x ++ "'") = false := by
  rw [Bool.eq_false_iff]
  intro hmention
  obtain ⟨ident, primed, hmem, hname⟩ := mentions_iff.mp hmention
  have htext : (Piece.ident ident primed).text = (Piece.ident x.toList true).text := by
    rw [← String.toList_ofList (l := (Piece.ident ident primed).text), hname]
    simp [Piece.text]
  have hident := Text.isIdent_of_mem_pieces hmem
  cases primed with
  | false => exact Text.primed_ne_of_isIdent hident x.toList htext.symm
  | true =>
    -- the piece is primed in the text itself, so its name is none of the variables
    obtain rfl : ident = x.toList := List.append_cancel_right htext
    rw [pieces_renamePrimes h] at hmem
    obtain ⟨p, -, hp⟩ := List.mem_map.mp hmem
    cases p with
    | other c => cases hp
    | ident name primed =>
      cases primed with
      | false => cases hp
      | true =>
        by_cases hvar : String.ofList name ∈ vars
        · simp [Piece.renamePrime, hvar] at hp
        · simp only [Piece.renamePrime, if_neg hvar, Piece.ident.injEq, and_true] at hp
          rw [hp, String.ofList_toList] at hvar
          exact hvar hx

end

/-! ## Undoing the spelling -/

theorem newline_notMem_of_isIdent {x : String} (h : isIdent x.toList = true) :
    '\n' ∉ x.toList := by
  intro hmem
  have hchar := List.all_eq_true.mp (Text.all_isIdentChar_of_isIdent h) _ hmem
  exact absurd hchar (by decide)

theorem Term.text_var {x : String} (h : isIdent x.toList = true) : (Term.var x).text = x := by
  have hwritten := (Writer.IsAt.empty.write (newline_notMem_of_isIdent h)).text
  exact String.toList_inj.mp hwritten

theorem Term.toList_text_primed {x : String} (h : isIdent x.toList = true) :
    (Term.primed x).text.toList = (Piece.ident x.toList true).text := by
  have hname := Writer.IsAt.empty.write (newline_notMem_of_isIdent h)
  have hwritten := (hname.write (by decide : '\n' ∉ "'".toList)).text
  have htext : (Term.primed x).text =
      (((Writer.empty .singleLine).write x).write "'").text := rfl
  rw [htext, hwritten]
  rfl

namespace Actuals

variable {vars : List String} {sub : Actuals}

/-- The derivative copies of the variables are replaced by differential symbols, and other variables
by themselves if at all. -/
structure Restores (vars : List String) (sub : Actuals) : Prop where
  derivative : ∀ x ∈ vars, sub.lookup (derivativeName x) = some (.primed x)
  other : ∀ x, x ∉ vars.map derivativeName → ∀ t, sub.lookup x = some t →
    t = .var x ∧ isIdent x.toList = true

theorem Restores.without (h : sub.Restores vars) {x : String} (hx : x ∉ vars.map derivativeName) :
    (sub.without x).Restores vars where
  derivative y hy := by
    have hne : derivativeName y ≠ x := fun he => hx (he ▸ List.mem_map_of_mem hy)
    rw [Actuals.without, lookup_filter_ne, if_neg hne, h.derivative y hy]
  other y hy t ht := by
    rw [Actuals.without, lookup_filter_ne] at ht
    split at ht
    · cases ht
    · exact h.other y hy t ht

theorem lookup_texts (sub : Actuals) (x : String) :
    sub.texts.lookup x = (sub.lookup x).map Term.text :=
  lookup_map_value Term.text sub x

theorem Restores.apply_derivative (h : sub.Restores vars) {name : List Char}
    (hmem : String.ofList name ∈ vars) (hident : isIdent name = true) :
    sub.texts.apply (derivativeName (String.ofList name)).toList =
      (Piece.ident name true).text := by
  have hlookup : sub.texts.lookup (derivativeName (String.ofList name)) =
      some (Term.primed (String.ofList name)).text := by
    rw [lookup_texts, h.derivative _ hmem, Option.map_some]
  have hname : isIdent (String.ofList name).toList = true := by rwa [String.toList_ofList]
  rw [Substitution.apply_of_lookup (by rwa [String.ofList_toList]), Term.toList_text_primed hname,
    String.toList_ofList, Text.asOperand_ident hident]

theorem Restores.apply_other (h : sub.Restores vars) {token : List Char}
    (hother : String.ofList token ∉ vars.map derivativeName) : sub.texts.apply token = token := by
  cases hlookup : sub.lookup (String.ofList token) with
  | none =>
    apply Substitution.apply_of_lookup_none
    rw [lookup_texts, hlookup, Option.map_none]
  | some t =>
    obtain ⟨rfl, hident⟩ := h.other _ hother t hlookup
    have htext : sub.texts.lookup (String.ofList token) = some (String.ofList token) := by
      rw [lookup_texts, hlookup, Option.map_some, Term.text_var hident]
    rw [Substitution.apply_of_lookup htext, Text.asOperand_of_isIdent hident,
      String.toList_ofList]

end Actuals

section

variable {vars : List String} {sub : Actuals}

theorem substitute_renamePrimes (hsub : sub.Restores vars) {text : String}
    (h : (Parts.fresh vars).text text) : substitute sub.texts (renamePrimes vars text) = text := by
  obtain ⟨hfresh, hprimes⟩ := h
  have hother : ∀ ident primed, .ident ident primed ∈ pieces text.toList →
      String.ofList (Piece.ident ident primed).text ∉ vars.map derivativeName := by
    intro ident primed hmem hname
    obtain ⟨x, hx, hname⟩ := List.mem_map.mp hname
    have hmention := mentions_iff.mpr ⟨ident, primed, hmem, hname.symm⟩
    rw [hfresh x hx] at hmention
    cases hmention
  have hback : Text.mapIdents sub.texts.apply (renamePrimes vars text).toList =
      unpieces (pieces text.toList) := by
    rw [Text.mapIdents, pieces_renamePrimes hprimes, List.flatMap_map]
    refine List.flatMap_congr fun p hp => ?_
    cases p with
    | other c => rfl
    | ident name primed =>
      cases primed with
      | false => exact hsub.apply_other (hother name false hp)
      | true =>
        by_cases hvar : String.ofList name ∈ vars
        · simp only [Piece.renamePrime, if_pos hvar]
          exact hsub.apply_derivative hvar (Text.isIdent_of_mem_pieces hp)
        · simp only [Piece.renamePrime, if_neg hvar]
          exact hsub.apply_other (hother name true hp)
  rw [substitute, hback, Text.unpieces_pieces, String.ofList_toList]

theorem Term.replace_renamePrimes (hsub : sub.Restores vars) {t : Term}
    (h : t.Has (.fresh vars)) : (t.renamePrimes vars).replace sub = t := by
  induction t with
  | var name =>
    rw [Term.renamePrimes, Term.replace]
    cases hlookup : sub.lookup name with
    | none => rfl
    | some t => exact (hsub.other name h t hlookup).1
  | num => rfl
  | primed name =>
    by_cases hname : name ∈ vars
    · simp [Term.renamePrimes, hname, Term.replace, hsub.derivative name hname]
    · simp [Term.renamePrimes, hname, Term.replace]
  | bin op lhs rhs ihl ihr => rw [Term.renamePrimes, Term.replace, ihl h.1, ihr h.2]
  | neg arg ih => rw [Term.renamePrimes, Term.replace, ih h]

theorem Formula.replace_renamePrimes : ∀ {sub : Actuals}, sub.Restores vars →
    ∀ {f : Formula}, f.Has (.fresh vars) → (f.renamePrimes vars).replace sub = f
  | _, _, .verum, _ | _, _, .falsum, _ | _, _, .hole _, _ => by
    simp [Formula.renamePrimes, Formula.replace]
  | _, hsub, .cmp .., h => by
    simp only [Formula.renamePrimes, Formula.replace, Term.replace_renamePrimes hsub h.1,
      Term.replace_renamePrimes hsub h.2]
  | _, hsub, .not _, h => by
    simp only [Formula.Has] at h
    simp only [Formula.renamePrimes, Formula.replace, replace_renamePrimes hsub h]
  | _, hsub, .and .., h | _, hsub, .or .., h | _, hsub, .implies .., h => by
    simp only [Formula.Has] at h
    simp only [Formula.renamePrimes, Formula.replace, replace_renamePrimes hsub h.1,
      replace_renamePrimes hsub h.2]
  | _, _, .box .., h => by simp [Formula.Has] at h
  | _, hsub, .exist .., h => by
    simp only [Formula.Has] at h
    -- the bound variable is no derivative copy, so these are still replaced inside
    simp only [Formula.renamePrimes, Formula.replace, replace_renamePrimes (hsub.without h.1) h.2]
  | _, hsub, .pred _ args, h => by
    simp only [Formula.Has] at h
    rw [Formula.renamePrimes, Formula.replace, List.map_map]
    congr 1
    refine (List.map_congr_left fun t ht => ?_).trans (List.map_id' args)
    exact Term.replace_renamePrimes hsub (h t ht)
  | _, hsub, .raw _, h => by
    simp only [Formula.Has] at h
    simp only [Formula.renamePrimes, Formula.replace, substitute_renamePrimes hsub h]

end

/-! ## Definitions and applications -/

/-- The formal parameters of a predicate: the parameters and their derivative copies. -/
def formalNames (parameters : List String) : List String :=
  parameters ++ parameters.map derivativeName

theorem derivativeName_injective : Function.Injective derivativeName := by
  intro x y h
  have hchars := congrArg String.toList h
  simp only [derivativeName, String.toList_append, List.append_cancel_right_eq] at hchars
  exact String.toList_inj.mp hchars

namespace Actuals

/-- Differential symbols for the derivative copies of variables. -/
def derivatives (vars : List String) : Actuals :=
  vars.map fun x => (derivativeName x, .primed x)

theorem lookup_derivatives {vars : List String} {x : String} (h : x ∈ vars) :
    (derivatives vars).lookup (derivativeName x) = some (.primed x) := by
  induction vars with
  | nil => cases h
  | cons y vars ih =>
    have hcons : derivatives (y :: vars) = (derivativeName y, .primed y) :: derivatives vars := rfl
    rw [hcons, lookup_entry_cons]
    by_cases hxy : x = y
    · rw [if_pos (congrArg derivativeName hxy), hxy]
    · rw [if_neg fun he => hxy (derivativeName_injective he)]
      exact ih ((List.mem_cons.mp h).resolve_left hxy)

/-- Replacements that start with the derivative copies of the variables, in any order, and then
replace variables by themselves. -/
theorem restores_derivatives_append {vars order : List String} (horder : ∀ x, x ∈ order ↔ x ∈ vars)
    {rest : Actuals} (hrest : ∀ x t, (x, t) ∈ rest → t = .var x ∧ isIdent x.toList = true) :
    Restores vars (derivatives order ++ rest) where
  derivative x hx := by
    rw [List.lookup_append, lookup_derivatives ((horder x).mpr hx), Option.some_or]
  other x hx t ht := by
    have hnone : (derivatives order).lookup x = none := by
      cases hlookup : (derivatives order).lookup x with
      | none => rfl
      | some found =>
        obtain ⟨y, hy, he⟩ := List.mem_map.mp (mem_of_lookup hlookup)
        cases he
        exact absurd (List.mem_map_of_mem ((horder y).mp hy)) hx
    rw [List.lookup_append, hnone, Option.none_or] at ht
    exact hrest x t (mem_of_lookup ht)

end Actuals

theorem Problem.signature_eq (p : Problem) :
    p.signature = ", ".intercalate ((formalNames p.parameters).map ("Real " ++ ·)) := by
  rw [Problem.signature, formalNames, List.map_append, List.map_map]
  rfl

/-- The formal parameters and the arguments of an application, side by side. -/
theorem zip_formalNames (parameters : List String) :
    (formalNames parameters).zip (parameters.map Term.var ++ parameters.map Term.primed) =
      parameters.map (fun x => (x, .var x)) ++ Actuals.derivatives parameters := by
  have hsame : parameters.zip (parameters.map Term.var) = parameters.map fun x => (x, .var x) := by
    simpa using List.zip_map' (l := parameters) (f := id) (g := Term.var)
  rw [formalNames, List.zip_append (by simp), hsame, List.zip_map', Actuals.derivatives]

/-- A predicate definition can be unfolded. If a formula has no box and does not use the names of
the derivative copies of the parameters, differential symbols for these copies in the body of its
definition give it back, and so do the arguments of the application for the formal parameters that
the text declares, in the same order; of two formal parameters with one name the later one counts.
In the body itself no parameter is differentiated. -/
theorem unfold_definePredicate {parameters : List String}
    (hparameters : ∀ x ∈ parameters, isIdent x.toList = true) {body : Formula}
    (hbody : body.Has (.fresh parameters)) (name : String) :
    (definePredicate name body parameters).2.replace (Actuals.derivatives parameters) = body ∧
      (∃ actuals, applyPredicate parameters name = .pred name actuals ∧
        (formalNames parameters).length = actuals.length ∧
        (formalNames parameters).zip actuals =
          parameters.map (fun x => (x, .var x)) ++ Actuals.derivatives parameters ∧
        (definePredicate name body parameters).2.replace
          ((formalNames parameters).zip actuals).reverse = body) ∧
      (∀ problem : Problem, problem.parameters = parameters →
        problem.signature = ", ".intercalate ((formalNames parameters).map ("Real " ++ ·))) ∧
      (definePredicate name body parameters).2.Has (.unprimed parameters) := by
  refine ⟨?_, ⟨_, rfl, by simp [formalNames], zip_formalNames parameters, ?_⟩, ?_, ?_⟩
  · have hrestores : Actuals.Restores parameters (Actuals.derivatives parameters ++ []) :=
      Actuals.restores_derivatives_append (fun _ => Iff.rfl) fun _ _ hentry => by cases hentry
    rw [List.append_nil] at hrestores
    exact Formula.replace_renamePrimes hrestores hbody
  · rw [zip_formalNames, List.reverse_append, Actuals.derivatives, ← List.map_reverse]
    refine Formula.replace_renamePrimes ?_ hbody
    refine Actuals.restores_derivatives_append (fun _ => List.mem_reverse) fun x t hentry => ?_
    obtain ⟨y, hy, he⟩ := List.mem_map.mp (List.mem_reverse.mp hentry)
    cases he
    exact ⟨rfl, hparameters x hy⟩
  · rintro problem rfl
    exact problem.signature_eq
  · refine Formula.Has.renamePrimes (fun _ _ => trivial) ?_ ?_ hbody
    · intro x _
      by_cases hx : x ∈ parameters <;> simp [Parts.unprimed, hx]
    · rintro text ⟨-, hprimes⟩ x hx
      exact mentions_renamePrimes hprimes hx

/-- Names that begin with one another are kept apart, derivatives of other variables stay, and a
bound parameter does not matter. -/
theorem unfold_definePredicate_prefixes :
    let body : Formula := .and (.raw "x1' <= x' + xs'*2 & y' > x")
      (.exist "x" (.cmp .ge (.primed "x") (.bin .add (.var "x1") (.primed "z"))))
    let defined : Formula := .and (.raw "x1der <= xder + xs'*2 & y' > x")
      (.exist "x" (.cmp .ge (.var "xder") (.bin .add (.var "x1") (.primed "z"))))
    definePredicate "post" body ["x", "x1"] = ("post", defined) ∧
      defined.replace [("xder", .primed "x"), ("x1der", .primed "x1")] = body ∧
      defined.replace ((formalNames ["x", "x1"]).zip
        [.var "x", .var "x1", .primed "x", .primed "x1"]).reverse = body ∧
      defined.Has (.unprimed ["x", "x1"]) := by
  intro body defined
  have hdefined : definePredicate "post" body ["x", "x1"] = ("post", defined) := rfl
  have hparameters : ∀ x ∈ ["x", "x1"], isIdent x.toList = true := by decide
  have htext : (Parts.fresh ["x", "x1"]).text "x1' <= x' + xs'*2 & y' > x" :=
    ⟨by decide +kernel, by decide +kernel⟩
  have hnames : "x" ∉ ["xder", "x1der"] ∧ "x1" ∉ ["xder", "x1der"] := by decide
  have hbody : body.Has (.fresh ["x", "x1"]) :=
    ⟨htext, hnames.1, trivial, hnames.2, trivial⟩
  obtain ⟨hderivatives, ⟨actuals, hactuals, -, -, happlied⟩, -, hunprimed⟩ :=
    unfold_definePredicate hparameters hbody "post"
  cases hactuals
  rw [hdefined] at hderivatives happlied hunprimed
  exact ⟨hdefined, hderivatives, happlied, hunprimed⟩

end HybridObjects
