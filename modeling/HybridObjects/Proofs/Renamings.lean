import HybridObjects.Proofs.ClauseText

/-!
# HybridObjects.Proofs.Renamings

Substitutions one after the other. `substitutions_compose`: to rename identifiers in a text and then
to substitute in it is one substitution in the text; a renaming that confuses no names is undone by
its inverse; and a substitution copies a text character by character, except for the identifiers
that it replaces.

* `Text.TokenBetween`    — an identifier stands between two parts of a text, said of its
  surroundings alone.
* `Substitution.Rewrites` — a text is copied but for the replaced identifiers.
* `Substitution.rewrites_iff` — the text that comes of a substitution is the one copy of this kind.
* `Substitution.inverse` — what undoes a renaming.
-/

namespace HybridObjects

namespace Text

/-! ## Identifiers in their surroundings -/

def endsInWord (cs : List Char) : Bool :=
  cs.getLast?.any isWordChar

/-- Between these two parts of a text stands an identifier, with its prime if it has one. No word
character stands in front of it, and it does not go on behind. -/
def TokenBetween (before token after : List Char) : Prop :=
  endsInWord before = false ∧ ∃ name primed, isIdent name = true ∧
    token = (Piece.ident name primed).text ∧
    (primed = false → HeadIs (fun c => isIdentChar c = false ∧ c ≠ '\'') after)

/-- The text has this identifier somewhere. -/
def HasToken (cs token : List Char) : Prop :=
  ∃ before after, cs = before ++ token ++ after ∧ TokenBetween before token after

theorem HasToken.subset {cs token : List Char} (h : HasToken cs token) : token ⊆ cs := by
  obtain ⟨before, after, rfl, -⟩ := h
  intro c hc
  simp [hc]

theorem isWordChar_of_isIdentChar {c : Char} (h : isIdentChar c = true) : isWordChar c = true := by
  rw [isIdentChar] at h
  rw [isWordChar, h, Bool.true_or]

@[simp] theorem endsInWord_concat (cs : List Char) (c : Char) :
    endsInWord (cs ++ [c]) = isWordChar c := by
  simp [endsInWord]

theorem endsInWord_append_run {run : List Char} (hrun : run.all isIdentChar = true)
    (hne : run ≠ []) (cs : List Char) : endsInWord (cs ++ run) = true := by
  have hlast : isIdentChar (run.getLast hne) = true :=
    List.all_eq_true.mp hrun _ (List.getLast_mem hne)
  rw [← List.dropLast_append_getLast hne, ← List.append_assoc, endsInWord_concat]
  exact isWordChar_of_isIdentChar hlast

/-- The pieces of a text that starts with an identifier. -/
theorem pieces_token {name after : List Char} {primed : Bool} (hname : isIdent name = true)
    (hends : primed = false → HeadIs (fun c => isIdentChar c = false ∧ c ≠ '\'') after) :
    pieces ((Piece.ident name primed).text ++ after) = .ident name primed :: pieces after := by
  refine pieces_eq_iff.mpr ⟨⟨rfl, hname, fun hfalse => ?_, cut_pieces after⟩, by simp⟩
  rw [Stops, unpieces_pieces]
  exact hends hfalse

namespace TokenBetween

variable {before token token' after after' : List Char}

theorem exists_cons (h : TokenBetween before token after) :
    ∃ c cs, token = c :: cs ∧ isIdentStart c = true := by
  obtain ⟨-, name, primed, hname, rfl, -⟩ := h
  obtain ⟨c, cs, rfl, hc, -⟩ := exists_of_isIdent hname
  cases primed with
  | false => exact ⟨c, cs, rfl, hc⟩
  | true => exact ⟨c, cs ++ ['\''], rfl, hc⟩

/-- At most one identifier starts in a place. -/
theorem unique (h : TokenBetween before token after) (h' : TokenBetween before token' after')
    (heq : token ++ after = token' ++ after') : token = token' ∧ after = after' := by
  obtain ⟨-, name, primed, hname, rfl, hends⟩ := h
  obtain ⟨-, name', primed', hname', rfl, hends'⟩ := h'
  have hpieces : Piece.ident name primed :: pieces after = .ident name' primed' :: pieces after' := by
    rw [← pieces_token hname hends, ← pieces_token hname' hends', heq]
  obtain ⟨hpiece, -⟩ := List.cons.inj hpieces
  rw [hpiece] at heq ⊢
  exact ⟨rfl, List.append_cancel_left heq⟩

end TokenBetween

/-! ### Pieces in their surroundings -/

/-- Behind an identifier the pieces are cut alike whether its last character counts or not. -/
theorem Cut.behind {before : List Char} {p : Piece} {ps : List Piece}
    (h : Cut (endsInWord before) (p :: ps)) : Cut (endsInWord (before ++ p.text)) ps := by
  cases p with
  | other c =>
    rw [Piece.text, endsInWord_concat]
    exact h.2
  | ident name primed =>
    obtain ⟨-, hname, hstop, hps⟩ := h
    cases primed with
    | true =>
      have hprime : isWordChar '\'' = false := by decide
      rw [Piece.text, ← List.append_assoc, endsInWord_concat, hprime]
      exact hps
    | false =>
      -- what ends the identifier starts none, so the flag does not matter
      rcases (hstop rfl).cases hps with rfl | ⟨c, qs, rfl, hc, -⟩
      · trivial
      · exact cut_other (isIdentStart_eq_false hc) hps.2 _

theorem Cut.tokenBetween {before name : List Char} {primed : Bool} {ps qs : List Piece}
    (h : Cut (endsInWord before) (ps ++ .ident name primed :: qs)) :
    TokenBetween (before ++ unpieces ps) (Piece.ident name primed).text (unpieces qs) := by
  induction ps generalizing before with
  | nil =>
    obtain ⟨hbefore, hname, hstop, -⟩ := h
    rw [unpieces_nil, List.append_nil]
    exact ⟨hbefore, name, primed, hname, rfl, hstop⟩
  | cons p ps ih =>
    have hlater := ih (Cut.behind h)
    rwa [List.append_assoc] at hlater

theorem hasToken_of_mem_pieces {cs name : List Char} {primed : Bool}
    (h : .ident name primed ∈ pieces cs) : HasToken cs (Piece.ident name primed).text := by
  obtain ⟨ps, qs, hsplit⟩ := List.mem_iff_append.mp h
  have hcut : Cut (endsInWord []) (ps ++ .ident name primed :: qs) := hsplit ▸ cut_pieces cs
  refine ⟨unpieces ps, unpieces qs, ?_, hcut.tokenBetween⟩
  have htext := unpieces_pieces cs
  rw [hsplit, unpieces, List.flatMap_append, List.flatMap_cons] at htext
  rw [← htext, List.append_assoc]
  rfl

/-- What stands for a piece in a text whose identifiers are replaced. -/
def Piece.replaced (f : List Char → List Char) : Piece → List Char
  | .ident name primed => f (Piece.ident name primed).text
  | .other c => [c]

theorem mapIdents_eq_flatMap (f : List Char → List Char) (cs : List Char) :
    mapIdents f cs = (pieces cs).flatMap (Piece.replaced f) := by
  refine List.flatMap_congr fun p _ => ?_
  cases p <;> rfl

end Text

open Text (Piece isIdent isIdentChar isIdentStart pieces unpieces Cut endsInWord TokenBetween
  HasToken)

theorem hasToken_of_mentions {text x : String} (h : mentions text x = true) :
    HasToken text.toList x.toList := by
  obtain ⟨name, primed, hmem, rfl⟩ := mentions_iff.mp h
  rw [String.toList_ofList]
  exact Text.hasToken_of_mem_pieces hmem

namespace Substitution

/-! ## Copying a text -/

/-- Behind the first text the second one is copied into the third: an identifier with a replacement
is replaced, and any character at which no such identifier starts stays as it is. -/
inductive Rewrites (sub : Substitution) : List Char → List Char → List Char → Prop where
  | done {before : List Char} : Rewrites sub before [] []
  | replace {before cs token after out : List Char} {text : String} :
      cs = token ++ after → TokenBetween before token after →
      sub.lookup (String.ofList token) = some text → Rewrites sub (before ++ token) after out →
      Rewrites sub before cs (Text.asOperand text.toList ++ out)
  | keep {before cs out : List Char} {c : Char} :
      (∀ token after, c :: cs = token ++ after → TokenBetween before token after →
        sub.lookup (String.ofList token) = none) →
      Rewrites sub (before ++ [c]) cs out → Rewrites sub before (c :: cs) (c :: out)

variable {sub : Substitution}

namespace Rewrites

variable {before cs out out' : List Char}

theorem unique (h : sub.Rewrites before cs out) (h' : sub.Rewrites before cs out') :
    out = out' := by
  induction h generalizing out' with
  | done =>
    cases h' with
    | done => rfl
    | replace hsplit htoken _ _ =>
      obtain ⟨c, cs, rfl, -⟩ := htoken.exists_cons
      cases hsplit
  | replace hsplit htoken hlookup _ ih =>
    cases h' with
    | done =>
      obtain ⟨c, cs, rfl, -⟩ := htoken.exists_cons
      cases hsplit
    | replace hsplit' htoken' hlookup' hrest =>
      obtain ⟨rfl, rfl⟩ := htoken.unique htoken' (hsplit ▸ hsplit')
      rw [hlookup] at hlookup'
      cases hlookup'
      rw [ih hrest]
    | keep hnone _ =>
      rw [hnone _ _ hsplit htoken] at hlookup
      cases hlookup
  | keep hnone _ ih =>
    cases h' with
    | replace hsplit htoken hlookup _ =>
      rw [hnone _ _ hsplit htoken] at hlookup
      cases hlookup
    | keep _ hrest => rw [ih hrest]

/-- Inside a word no identifier starts. -/
theorem keep_behind_word {c : Char} (hbefore : endsInWord before = true)
    (h : sub.Rewrites (before ++ [c]) cs out) : sub.Rewrites before (c :: cs) (c :: out) := by
  refine .keep (fun token after _ htoken => ?_) h
  have hfalse := htoken.1
  rw [hbefore] at hfalse
  cases hfalse

theorem keep_run {run : List Char} (hrun : run.all isIdentChar = true)
    (hbefore : endsInWord before = true) (h : sub.Rewrites (before ++ run) cs out) :
    sub.Rewrites before (run ++ cs) (run ++ out) := by
  induction run generalizing before with
  | nil => simpa using h
  | cons c run ih =>
    simp only [List.all_cons, Bool.and_eq_true] at hrun
    refine keep_behind_word hbefore (ih hrun.2 ?_ (by simpa using h))
    rw [Text.endsInWord_concat]
    exact Text.isWordChar_of_isIdentChar hrun.1

/-- An identifier without a replacement is kept. -/
theorem keep_token {name : List Char} {primed : Bool}
    (htoken : TokenBetween before (Piece.ident name primed).text cs) (hname : isIdent name = true)
    (hlookup : sub.lookup (String.ofList (Piece.ident name primed).text) = none)
    (h : sub.Rewrites (before ++ (Piece.ident name primed).text) cs out) :
    sub.Rewrites before ((Piece.ident name primed).text ++ cs)
      ((Piece.ident name primed).text ++ out) := by
  obtain ⟨c, rest, rfl, hc, hrest⟩ := Text.exists_of_isIdent hname
  have hword : endsInWord (before ++ [c]) = true := by
    rw [Text.endsInWord_concat]
    exact Text.isWordChar_of_isIdentChar (isIdentChar_of_isIdentStart hc)
  -- the characters behind the first one stand inside a word, the prime included
  have htail : ∃ tail, (Piece.ident (c :: rest) primed).text = c :: tail ∧
      sub.Rewrites (before ++ [c]) (tail ++ cs) (tail ++ out) := by
    cases primed with
    | false => exact ⟨rest, rfl, keep_run hrest hword (by simpa [Piece.text] using h)⟩
    | true =>
      have hlast : endsInWord (before ++ [c] ++ rest) = true := by
        have hall := Text.all_isIdentChar_of_isIdent hname
        have hrun := Text.endsInWord_append_run hall (List.cons_ne_nil c rest) before
        simpa using hrun
      have hprime : sub.Rewrites (before ++ [c] ++ rest) ('\'' :: cs) ('\'' :: out) :=
        keep_behind_word hlast (by simpa [Piece.text] using h)
      have hrun := keep_run hrest hword hprime
      exact ⟨rest ++ ['\''], by simp [Piece.text], by simpa using hrun⟩
  obtain ⟨tail, htext, htail⟩ := htail
  rw [htext] at htoken hlookup ⊢
  refine .keep (fun token after hsplit htoken' => ?_) htail
  rw [← (htoken.unique htoken' hsplit).1]
  exact hlookup

theorem unpieces {ps : List Piece} (h : Cut (endsInWord before) ps) :
    sub.Rewrites before (unpieces ps) (ps.flatMap (Piece.replaced sub.apply)) := by
  induction ps generalizing before with
  | nil => exact .done
  | cons p ps ih =>
    have hrest := ih h.behind
    cases p with
    | other c =>
      refine .keep (fun token after hsplit htoken => ?_) hrest
      -- an identifier that started here would start inside a word
      obtain ⟨d, ds, rfl, hd⟩ := htoken.exists_cons
      obtain ⟨rfl, -⟩ := List.cons.inj hsplit
      have hword := h.1 hd
      rw [htoken.1] at hword
      cases hword
    | ident name primed =>
      have htoken : TokenBetween before (Piece.ident name primed).text (Text.unpieces ps) :=
        ⟨h.1, name, primed, h.2.1, rfl, h.2.2.1⟩
      rw [Text.unpieces_cons, List.flatMap_cons, Piece.replaced]
      cases hlookup : sub.lookup (String.ofList (Piece.ident name primed).text) with
      | some text =>
        rw [apply_of_lookup hlookup]
        exact .replace rfl htoken hlookup hrest
      | none =>
        rw [apply_of_lookup_none hlookup]
        exact keep_token htoken h.2.1 hlookup hrest

end Rewrites

/-- A substitution copies a text but for the identifiers that it replaces. -/
theorem rewrites_iff {text : String} {out : List Char} :
    sub.Rewrites [] text.toList out ↔ out = (substitute sub text).toList := by
  have hcut : Cut (endsInWord []) (pieces text.toList) := Text.cut_pieces text.toList
  have hcopy : sub.Rewrites [] text.toList (substitute sub text).toList := by
    have hrewrites : sub.Rewrites [] (unpieces (pieces text.toList)) _ := Rewrites.unpieces hcut
    rw [Text.unpieces_pieces, ← Text.mapIdents_eq_flatMap] at hrewrites
    rwa [substitute, String.toList_ofList]
  constructor
  · intro h
    exact h.unique hcopy
  · intro h
    rw [h]
    exact hcopy

/-! ## The inverse of a renaming -/

/-- The names that a renaming introduces, by the names that it replaces. -/
def inverse (ren : Substitution) : Substitution :=
  (ren.filter fun entry => ren.lookup entry.1 == some entry.2).map Prod.swap

/-- No two names have the same replacement. -/
def IsInjective (ren : Substitution) : Prop :=
  ∀ x x' y, ren.lookup x = some y → ren.lookup x' = some y → x = x'

variable {ren : Substitution}

theorem lookup_of_lookup_inverse {x y : String} (h : ren.inverse.lookup y = some x) :
    ren.lookup x = some y := by
  obtain ⟨⟨x', y'⟩, hentry, heq⟩ := List.mem_map.mp (mem_of_lookup h)
  cases heq
  simpa using (List.mem_filter.mp hentry).2

theorem IsInjective.lookup_inverse_iff (h : ren.IsInjective) {x y : String} :
    ren.inverse.lookup y = some x ↔ ren.lookup x = some y := by
  constructor
  · exact lookup_of_lookup_inverse
  · intro hxy
    have hmem : (y, x) ∈ ren.inverse := by
      refine List.mem_map.mpr ⟨(x, y), List.mem_filter.mpr ⟨mem_of_lookup hxy, ?_⟩, rfl⟩
      simpa using hxy
    cases hlookup : ren.inverse.lookup y with
    | none =>
      have hnone := List.lookup_eq_none_iff.mp hlookup _ hmem
      simp at hnone
    | some x' => rw [h x' x y (lookup_of_lookup_inverse hlookup) hxy]

/-- A name that the renaming neither replaces nor introduces stays; any other comes back. -/
theorem Renames.substitute_inverse (h : ren.Renames) (hinj : ren.IsInjective) {text : String}
    (hapart : ∀ x y, ren.lookup x = some y →
      (ren.lookup y).isSome = true ∨ ¬ HasToken text.toList y.toList) :
    substitute ren.inverse (substitute ren text) = text := by
  have hidentity : substitute (ren.andThen ren.inverse) text = substitute [] text := by
    refine substitute_congr fun x hx => ?_
    have hempty : apply [] x.toList = x.toList := rfl
    rw [hempty, apply, String.ofList_toList]
    cases hxy : ren.lookup x with
    | some y =>
      rw [lookup_andThen_of_some hxy, hinj.lookup_inverse_iff.mpr hxy]
      exact Text.asOperand_of_isIdent (h.of_lookup hxy).1
    | none =>
      have hnone : ren.inverse.lookup x = none := by
        rw [Option.eq_none_iff_forall_ne_some]
        intro z hz
        rcases hapart z x (lookup_of_lookup_inverse hz) with hkey | hnot
        · rw [hxy] at hkey
          cases hkey
        · exact hnot (hasToken_of_mentions hx)
      rw [lookup_andThen_of_none hxy, hnone]
  rw [h.substitute_andThen, hidentity, substitute_nil]

end Substitution

/-- To rename identifiers in a text and then to substitute in it is one substitution: a renamed
identifier gets the replacement of its new name, or keeps that name if there is none, and any other
its own replacement. A renaming that gives no two names the same one is undone by its inverse, in a
text that has none of the new names unless they are renamed as well. And a substitution changes no
character outside of the identifiers that it replaces. -/
theorem substitutions_compose {ren : Substitution} (hren : ren.Renames) (sub : Substitution)
    (text : String) :
    substitute sub (substitute ren text) = substitute (ren.andThen sub) text ∧
      (∀ x y, ren.lookup x = some y →
        (ren.andThen sub).lookup x = some ((sub.lookup y).getD y)) ∧
      (∀ x, ren.lookup x = none → (ren.andThen sub).lookup x = sub.lookup x) ∧
      (ren.IsInjective →
        (∀ x y, ren.inverse.lookup y = some x ↔ ren.lookup x = some y) ∧
          ((∀ x y, ren.lookup x = some y →
              (ren.lookup y).isSome = true ∨ ¬ HasToken text.toList y.toList) →
            substitute ren.inverse (substitute ren text) = text)) ∧
      ∀ out, sub.Rewrites [] text.toList out ↔ out = (substitute sub text).toList := by
  refine ⟨hren.substitute_andThen sub text, fun x y hxy => ?_, fun x hx => ?_, fun hinj => ?_,
    fun out => Substitution.rewrites_iff⟩
  · exact Substitution.lookup_andThen_of_some hxy sub
  · exact Substitution.lookup_andThen_of_none hx sub
  · exact ⟨fun x y => hinj.lookup_inverse_iff, hren.substitute_inverse hinj⟩

/-- Exchanges two variables and renames a third one. -/
def Substitution.exchange : Substitution :=
  [("x", "y"), ("y", "x"), ("n", "k")]

/-- A primed identifier stays, as does a letter behind another one; an identifier in front of a
letter that belongs to none is replaced. -/
theorem substitutions_compose_exchange :
    substitute [("y", "a + 1")] (substitute .exchange "x' <= xé & éx + y = n") =
        substitute (Substitution.exchange.andThen [("y", "a + 1")]) "x' <= xé & éx + y = n" ∧
      substitute (Substitution.exchange.andThen [("y", "a + 1")]) "x' <= xé & éx + y = n" =
        "x' <= (a + 1)é & éx + x = k" ∧
      substitute Substitution.exchange.inverse (substitute .exchange "x' <= xé & éx + y = n") =
        "x' <= xé & éx + y = n" := by
  have hren : Substitution.exchange.Renames := by
    intro entry hentry
    simp only [Substitution.exchange, List.mem_cons, List.not_mem_nil, or_false] at hentry
    rcases hentry with rfl | rfl | rfl <;> decide
  have hinj : Substitution.exchange.IsInjective := by
    intro x x' y hx hx'
    simp only [Substitution.exchange, lookup_entry_cons, List.lookup_nil] at hx hx'
    grind
  have hapart : ∀ x y, Substitution.exchange.lookup x = some y →
      (Substitution.exchange.lookup y).isSome = true ∨
        ¬ HasToken "x' <= xé & éx + y = n".toList y.toList := by
    intro x y hxy
    have hentry := mem_of_lookup hxy
    simp only [Substitution.exchange, List.mem_cons, List.not_mem_nil, or_false,
      Prod.mk.injEq] at hentry
    rcases hentry with ⟨-, rfl⟩ | ⟨-, rfl⟩ | ⟨-, rfl⟩
    · exact .inl (by decide)
    · exact .inl (by decide)
    · refine .inr fun htoken => ?_
      have hmem : 'k' ∈ "x' <= xé & éx + y = n".toList := htoken.subset (by decide)
      exact absurd hmem (by decide)
  obtain ⟨hcompose, -, -, hundone, -⟩ :=
    substitutions_compose hren [("y", "a + 1")] "x' <= xé & éx + y = n"
  exact ⟨hcompose, by decide +kernel, (hundone hinj).2 hapart⟩

end HybridObjects
