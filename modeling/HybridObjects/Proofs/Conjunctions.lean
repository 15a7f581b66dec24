import HybridObjects.Model.Spec
import HybridObjects.Proofs.ClauseText

/-!
# HybridObjects.Proofs.Conjunctions

Clauses of one kind put together. `conjoined_clauses`: the clause of some annotations is the
conjunction of the texts of that kind in their order, whatever else stands between them, and to
substitute in it is to substitute in each of the texts. There is none exactly if an annotation is
malformed.

* `Annotation.IsClause`, `Annotation.IsForeign`, `Annotation.IsMalformed` — what an annotation may
  be to someone who looks for clauses of one kind.
* `Clause.TextsOf`        — the texts of one kind among some annotations.
* `conjunction`           — texts in parentheses, conjoined from the left.
* `substitute_conjoined`  — the parentheses keep the identifiers of conjoined texts apart.
-/

namespace HybridObjects

/-! ## Annotations -/

namespace Annotation

/-- The annotation is a specification, by the last part of its type. -/
def IsSpecification (a : Annotation) : Prop :=
  ∃ qualifier, a.type = qualifier ++ "HybridSpec"

/-- The annotation is a clause of the kind, with this text. -/
def IsClause (clause : Clause) (text : String) (a : Annotation) : Prop :=
  a.IsSpecification ∧ a.value = .construct clause.label [.string text]

/-- The annotation is something else: no specification, or one of another kind. -/
def IsForeign (clause : Clause) (a : Annotation) : Prop :=
  ¬ a.IsSpecification ∨ ∃ name args, a.value = .construct name args ∧ name ≠ clause.label

/-- The annotation is a specification and no constructor, or one of the kind that is not applied to
one text. -/
def IsMalformed (clause : Clause) (a : Annotation) : Prop :=
  a.IsSpecification ∧ ((∀ name args, a.value ≠ .construct name args) ∨
    ∃ args, a.value = .construct clause.label args ∧ ∀ text, args ≠ [.string text])

/-- The annotation with `f` applied to its text, if it is a clause of the kind. -/
def rewrite (clause : Clause) (f : String → String) (a : Annotation) : Annotation :=
  match a.value with
  | .construct name [.string text] =>
    if a.isSpec = true ∧ name = clause.label then ⟨a.type, .construct name [.string (f text)]⟩
    else a
  | _ => a

variable {clause : Clause} {a : Annotation} {text : String}

theorem isSpec_iff : a.isSpec = true ↔ a.IsSpecification := by
  rw [isSpec, List.isSuffixOf_iff_suffix]
  constructor
  · rintro ⟨qualifier, htype⟩
    refine ⟨String.ofList qualifier, String.toList_inj.mp ?_⟩
    rw [String.toList_append, String.toList_ofList, htype]
  · rintro ⟨qualifier, htype⟩
    exact ⟨qualifier.toList, by rw [htype, String.toList_append]⟩

theorem clauseText_of_isClause (h : a.IsClause clause text) :
    a.clauseText clause = .ok (some text) := by
  obtain ⟨hspec, hvalue⟩ := h
  simp [clauseText, isSpec_iff.mpr hspec, hvalue]

theorem clauseText_of_isForeign (h : a.IsForeign clause) : a.clauseText clause = .ok none := by
  rw [clauseText]
  by_cases hspec : a.isSpec = true
  · rcases h with hnot | ⟨name, args, hvalue, hname⟩
    · exact absurd (isSpec_iff.mp hspec) hnot
    · simp [hspec, hvalue, hname]
  · rw [if_neg hspec]

theorem exists_clauseText_error (h : a.IsMalformed clause) :
    ∃ e, a.clauseText clause = .error e := by
  obtain ⟨hspec, hvalue⟩ := h
  rw [clauseText, if_pos (isSpec_iff.mpr hspec)]
  rcases hvalue with hvalue | ⟨args, hvalue, hargs⟩
  · split
    · next name args heq => exact absurd heq (hvalue name args)
    · exact ⟨_, rfl⟩
  · rw [hvalue]
    dsimp only
    rw [if_pos rfl]
    split
    · next text => exact absurd rfl (hargs text)
    · exact ⟨_, rfl⟩

/-- Every annotation is a clause of the kind, something else or malformed. -/
theorem isClause_or_isForeign_or_isMalformed (clause : Clause) (a : Annotation) :
    (∃ text, a.IsClause clause text) ∨ a.IsForeign clause ∨ a.IsMalformed clause := by
  by_cases hspec : a.IsSpecification
  · by_cases hconstruct : ∃ name args, a.value = .construct name args
    · obtain ⟨name, args, hvalue⟩ := hconstruct
      by_cases hname : name = clause.label
      · subst hname
        by_cases htext : ∃ text, args = [.string text]
        · obtain ⟨text, rfl⟩ := htext
          exact .inl ⟨text, hspec, hvalue⟩
        · exact .inr (.inr ⟨hspec, .inr ⟨args, hvalue, not_exists.mp htext⟩⟩)
      · exact .inr (.inl (.inr ⟨name, args, hvalue, hname⟩))
    · simp only [not_exists] at hconstruct
      exact .inr (.inr ⟨hspec, .inl hconstruct⟩)
  · exact .inr (.inl (.inl hspec))

variable (f : String → String)

theorem isClause_rewrite (h : a.IsClause clause text) :
    (a.rewrite clause f).IsClause clause (f text) := by
  obtain ⟨hspec, hvalue⟩ := h
  have hrewrite : a.rewrite clause f = ⟨a.type, .construct clause.label [.string (f text)]⟩ := by
    simp [rewrite, hvalue, isSpec_iff.mpr hspec]
  rw [hrewrite]
  exact ⟨hspec, rfl⟩

theorem rewrite_eq_self (h : ∀ text, ¬ a.IsClause clause text) : a.rewrite clause f = a := by
  unfold rewrite
  split
  · next name text hvalue =>
    rw [if_neg]
    rintro ⟨hspec, rfl⟩
    exact h text ⟨isSpec_iff.mp hspec, hvalue⟩
  · rfl

/-- What is found in a rewritten annotation is what was found in it, rewritten. -/
theorem clauseText_rewrite :
    (a.rewrite clause f).clauseText clause = (a.clauseText clause).map (Option.map f) := by
  by_cases hclause : ∃ text, a.IsClause clause text
  · obtain ⟨text, h⟩ := hclause
    rw [clauseText_of_isClause (isClause_rewrite f h), clauseText_of_isClause h]
    rfl
  · rw [rewrite_eq_self f (not_exists.mp hclause)]
    rcases isClause_or_isForeign_or_isMalformed clause a with h | h | h
    · exact absurd h hclause
    · rw [clauseText_of_isForeign h]
      rfl
    · obtain ⟨e, he⟩ := exists_clauseText_error h
      rw [he]
      rfl

end Annotation

/-! ## Texts of one kind -/

/-- These are the texts of the clauses of the kind, in order, and all other annotations are
something else. -/
inductive Clause.TextsOf (clause : Clause) : List Annotation → List String → Prop where
  | nil : TextsOf clause [] []
  | cons {a : Annotation} {annotations : List Annotation} {text : String} {texts : List String} :
      a.IsClause clause text → TextsOf clause annotations texts →
      TextsOf clause (a :: annotations) (text :: texts)
  | skip {a : Annotation} {annotations : List Annotation} {texts : List String} :
      a.IsForeign clause → TextsOf clause annotations texts →
      TextsOf clause (a :: annotations) texts

/-- The texts conjoined from the left, each in parentheses unless it is the only one. -/
def conjunction : List String → Option String
  | [] => none
  | text :: texts =>
    some (texts.foldl (fun before text => "(" ++ before ++ ") & (" ++ text ++ ")") text)

section

variable {clause : Clause} {combination : Combination} {before : Option String}
  {annotations : List Annotation} {texts : List String}

theorem Clause.exists_textsOf (h : ∀ a ∈ annotations, ¬ a.IsMalformed clause) :
    ∃ texts, clause.TextsOf annotations texts := by
  induction annotations with
  | nil => exact ⟨[], .nil⟩
  | cons a annotations ih =>
    rw [List.forall_mem_cons] at h
    obtain ⟨ha, hannotations⟩ := h
    obtain ⟨texts, htexts⟩ := ih hannotations
    rcases a.isClause_or_isForeign_or_isMalformed clause with ⟨text, hclause⟩ | hforeign | hbad
    · exact ⟨text :: texts, .cons hclause htexts⟩
    · exact ⟨texts, .skip hforeign htexts⟩
    · exact absurd hbad ha

theorem Clause.TextsOf.clauseFrom_eq (h : clause.TextsOf annotations texts)
    (before : Option String) :
    clauseFrom clause combination before annotations =
      .ok (texts.foldl (fun before text => some (combination.combine before text)) before) := by
  induction h generalizing before with
  | nil => rfl
  | cons hclause _ ih =>
    rw [clauseFrom, Annotation.clauseText_of_isClause hclause]
    exact ih _
  | skip hforeign _ ih =>
    rw [clauseFrom, Annotation.clauseText_of_isForeign hforeign]
    exact ih _

theorem foldl_conjoin (text : String) (texts : List String) :
    texts.foldl (fun before text => some (Combination.conjoin.combine before text)) (some text) =
      conjunction (text :: texts) := by
  induction texts generalizing text with
  | nil => rfl
  | cons next texts ih => exact ih _

theorem Clause.TextsOf.clauseOf_eq (h : clause.TextsOf annotations texts) :
    clauseOf clause .conjoin annotations = .ok (conjunction texts) := by
  rw [clauseOf, h.clauseFrom_eq]
  cases texts with
  | nil => rfl
  | cons text texts => exact congrArg Except.ok (foldl_conjoin text texts)

/-- A clause is found unless an annotation is malformed. -/
theorem clauseFrom_eq_error_iff :
    (∃ e, clauseFrom clause combination before annotations = .error e) ↔
      ∃ a ∈ annotations, a.IsMalformed clause := by
  constructor
  · rintro ⟨e, he⟩
    by_contra hnone
    have hproper : ∀ a ∈ annotations, ¬ a.IsMalformed clause :=
      fun a ha hbad => hnone ⟨a, ha, hbad⟩
    obtain ⟨texts, htexts⟩ := Clause.exists_textsOf hproper
    rw [htexts.clauseFrom_eq] at he
    cases he
  · rintro ⟨a, ha, hbad⟩
    induction annotations generalizing before with
    | nil => cases ha
    | cons first annotations ih =>
      rw [clauseFrom]
      cases hfirst : first.clauseText clause with
      | error e => exact ⟨e, rfl⟩
      | ok found =>
        rcases List.mem_cons.mp ha with rfl | ha
        · obtain ⟨e, he⟩ := Annotation.exists_clauseText_error hbad
          rw [he] at hfirst
          cases hfirst
        · cases found with
          | none => exact ih ha
          | some text => exact ih ha

end

/-! ## Substitution -/

/-- Parentheses and the sign between them separate texts, so each is rewritten on its own. -/
theorem substitute_conjoined (sub : Substitution) (before text : String) :
    substitute sub ("(" ++ before ++ ") & (" ++ text ++ ")") =
      "(" ++ substitute sub before ++ ") & (" ++ substitute sub text ++ ")" := by
  have hopen : ['('].all Text.separates = true := by decide
  have hbetween : [')', ' ', '&', ' ', '('].all Text.separates = true := by decide
  have hclose : [')'].all Text.separates = true := by decide
  have hempty : Text.mapIdents sub.apply [] = [] := rfl
  have htext : ("(" ++ before ++ ") & (" ++ text ++ ")").toList =
      [] ++ ['('] ++ (before.toList ++ [')', ' ', '&', ' ', '('] ++
        (text.toList ++ [')'] ++ [])) := by
    simp
  apply String.toList_inj.mp
  rw [substitute, String.toList_ofList, htext, Text.mapIdents_separated _ hopen (by simp),
    Text.mapIdents_separated _ hbetween (by simp), Text.mapIdents_separated _ hclose (by simp),
    hempty]
  simp [substitute]

theorem substitute_combine (sub : Substitution) (before : Option String) (text : String) :
    substitute sub (Combination.conjoin.combine before text) =
      Combination.conjoin.combine (before.map (substitute sub)) (substitute sub text) := by
  cases before with
  | none => rfl
  | some before => exact substitute_conjoined sub before text

/-- To substitute in each text and to conjoin is to conjoin and to substitute. -/
theorem clauseFrom_rewrite (clause : Clause) (sub : Substitution) (before : Option String)
    (annotations : List Annotation) :
    clauseFrom clause .conjoin (before.map (substitute sub))
        (annotations.map fun a => a.rewrite clause (substitute sub)) =
      (clauseFrom clause .conjoin before annotations).map (Option.map (substitute sub)) := by
  induction annotations generalizing before with
  | nil => rfl
  | cons a annotations ih =>
    rw [List.map_cons, clauseFrom, clauseFrom, Annotation.clauseText_rewrite]
    cases a.clauseText clause with
    | error e => rfl
    | ok found =>
      cases found with
      | none => exact ih before
      | some text =>
        have hrest := ih (some (Combination.conjoin.combine before text))
        rw [Option.map_some, substitute_combine] at hrest
        exact hrest

/-- If all specifications are constructors applied to one text, the clause of a kind is the
conjunction of the texts of this kind in their order, and would be so with anything else between
them. A substitution in the clause is the clause of the annotations with the substitution in each
text. In general there is a clause, or none, unless a specification is no constructor or one of the
kind is not applied to one text. -/
theorem conjoined_clauses (clause : Clause) {annotations : List Annotation}
    (hspecs : ∀ a ∈ annotations, a.IsSpecification →
      ∃ name text, a.value = .construct name [.string text]) :
    (∃ texts, clause.TextsOf annotations texts ∧
      ∀ annotations', clause.TextsOf annotations' texts →
        clauseOf clause .conjoin annotations' = .ok (conjunction texts)) ∧
      (∀ sub : Substitution,
        clauseOf clause .conjoin (annotations.map fun a => a.rewrite clause (substitute sub)) =
          (clauseOf clause .conjoin annotations).map (Option.map (substitute sub))) ∧
      ∀ (combination : Combination) (annotations' : List Annotation),
        (∃ e, clauseOf clause combination annotations' = .error e) ↔
          ∃ a ∈ annotations', a.IsMalformed clause := by
  have hproper : ∀ a ∈ annotations, ¬ a.IsMalformed clause := by
    rintro a ha ⟨hspec, hbad⟩
    obtain ⟨name, text, hvalue⟩ := hspecs a ha hspec
    rcases hbad with hbad | ⟨args, hargs, hbad⟩
    · exact hbad _ _ hvalue
    · rw [hvalue] at hargs
      cases hargs
      exact hbad text rfl
  obtain ⟨texts, htexts⟩ := Clause.exists_textsOf hproper
  refine ⟨⟨texts, htexts, fun annotations' h => h.clauseOf_eq⟩, fun sub => ?_,
    fun combination annotations' => clauseFrom_eq_error_iff⟩
  exact clauseFrom_rewrite clause sub none annotations

/-- The annotations of a method that fills a tank up to a level, before a deadline. -/
def fillingAnnotations : List Annotation :=
  [⟨"ABS.DC.HybridSpec", .construct "Requires" [.string "x < level"]⟩,
    ⟨"ABS.StdLib.Deadline", .int "3"⟩,
    ⟨"HybridSpec", .construct "Requires" [.string "level >= x0"]⟩,
    ⟨"HybridSpec", .construct "Tactic" [.string "master"]⟩,
    ⟨"HybridSpec", .construct "Requires" [.string "level' = 0 & 0 < level"]⟩]

/-- The three preconditions of the method are conjoined, and the argument of a call takes the place
of the level in each of them. With a specification that is no constructor there is no clause. -/
theorem conjoined_clauses_filling :
    clauseOf .requires .conjoin fillingAnnotations =
        .ok (some "((x < level) & (level >= x0)) & (level' = 0 & 0 < level)") ∧
      clauseOf .requires .conjoin
          (fillingAnnotations.map fun a => a.rewrite .requires (substitute [("level", "n + 1")])) =
        .ok (some "((x < (n + 1)) & ((n + 1) >= x0)) & (level' = 0 & 0 < (n + 1))") ∧
      ∃ e, clauseOf .requires .last (fillingAnnotations ++ [⟨"HybridSpec", .this⟩]) = .error e := by
  have hspecs : ∀ a ∈ fillingAnnotations, a.IsSpecification →
      ∃ name text, a.value = .construct name [.string text] := by
    intro a ha hspec
    simp only [fillingAnnotations, List.mem_cons, List.not_mem_nil, or_false] at ha
    rcases ha with rfl | rfl | rfl | rfl | rfl
    · exact ⟨_, _, rfl⟩
    · have htype := Annotation.isSpec_iff.mpr hspec
      exact absurd htype (by decide)
    · exact ⟨_, _, rfl⟩
    · exact ⟨_, _, rfl⟩
    · exact ⟨_, _, rfl⟩
  have hclause : clauseOf .requires .conjoin fillingAnnotations =
      .ok (some "((x < level) & (level >= x0)) & (level' = 0 & 0 < level)") := by rfl
  have htext : substitute [("level", "n + 1")]
      "((x < level) & (level >= x0)) & (level' = 0 & 0 < level)" =
        "((x < (n + 1)) & ((n + 1) >= x0)) & (level' = 0 & 0 < (n + 1))" := by decide +kernel
  obtain ⟨-, hrewrite, hfails⟩ := conjoined_clauses .requires hspecs
  refine ⟨hclause, ?_, ?_⟩
  · rw [hrewrite, hclause, Except.map, Option.map_some, htext]
  · refine (hfails .last _).mpr ⟨⟨"HybridSpec", .this⟩, by simp, ⟨"", rfl⟩, .inl ?_⟩
    intro name args hvalue
    cases hvalue

end HybridObjects
