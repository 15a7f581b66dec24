import HybridObjects.Proofs.Tokens
import Mathlib.Data.List.Basic

/-!
# HybridObjects.Proofs.ClauseText

Rewriting the identifiers of clause text. The pieces of a text are known by three things: they spell
the text, their identifiers are identifiers, and no identifier runs into what follows it. So a
rewriting that keeps these things can be read off the pieces, and two rewritings one after the other
are one rewriting.

* `Text.Cut`, `pieces_eq_iff`   — which lists of pieces are the pieces of a text.
* `Cut.map`                     — which rewritings of the pieces keep them apart.
* `Sits`, `mapIdents_separated` — rewriting texts that stand behind one another.
* `mapIdents_mapIdents`, `Substitution.andThen` — two rewritings as one.
* `Substitution.binding`, `substitute_binding` — texts for names, and names renamed before they are
  bound.
-/

namespace HybridObjects
namespace Text

/-! ## Cutting a text -/

/-- An identifier without a prime. -/
def isIdent : List Char → Bool
  | [] => false
  | c :: cs => isIdentStart c && cs.all isIdentChar

/-- An identifier or a prime in front of these pieces ends there. -/
def Stops (ps : List Piece) : Prop :=
  HeadIs (fun c => isIdentChar c = false ∧ c ≠ '\'') (unpieces ps)

/-- The pieces are those of the text that they spell, the flag saying whether a word character
stands in front of it. -/
def Cut : Bool → List Piece → Prop
  | _, [] => True
  | afterWord, .other c :: ps =>
    (isIdentStart c = true → afterWord = true) ∧ Cut (isWordChar c) ps
  | afterWord, .ident name primed :: ps =>
    afterWord = false ∧ isIdent name = true ∧ (primed = false → Stops ps) ∧ Cut false ps

theorem exists_of_isIdent {name : List Char} (h : isIdent name = true) :
    ∃ c cs, name = c :: cs ∧ isIdentStart c = true ∧ cs.all isIdentChar = true := by
  cases name with
  | nil => cases h
  | cons c cs =>
    simp only [isIdent, Bool.and_eq_true] at h
    exact ⟨c, cs, rfl, h⟩

theorem all_isIdentChar_of_isIdent {name : List Char} (h : isIdent name = true) :
    name.all isIdentChar = true := by
  obtain ⟨c, cs, rfl, hc, hcs⟩ := exists_of_isIdent h
  simp [isIdentChar_of_isIdentStart hc, hcs]

@[simp] theorem unpieces_nil : unpieces [] = [] := rfl

@[simp] theorem unpieces_cons (p : Piece) (ps : List Piece) :
    unpieces (p :: ps) = p.text ++ unpieces ps := rfl

/-- Only a character outside of all identifiers ends an identifier. -/
theorem Stops.cases {ps : List Piece} {afterWord : Bool} (h : Stops ps) (hcut : Cut afterWord ps) :
    ps = [] ∨ ∃ c qs, ps = .other c :: qs ∧ isIdentChar c = false ∧ c ≠ '\'' := by
  cases ps with
  | nil => exact .inl rfl
  | cons p qs =>
    cases p with
    | other c =>
      have hc := h c (by simp [Piece.text])
      exact .inr ⟨c, qs, rfl, hc⟩
    | ident name primed =>
      obtain ⟨-, hname, -, -⟩ := hcut
      obtain ⟨c, cs, rfl, hc, -⟩ := exists_of_isIdent hname
      have hhead : c ∈ (unpieces (.ident (c :: cs) primed :: qs)).head? := by
        cases primed <;> simp [Piece.text]
      have hnot := (h c hhead).1
      rw [isIdentChar_of_isIdentStart hc] at hnot
      cases hnot

/-! ### Scanning -/

theorem scan_inside_run {run : List Char} (h : run.all isIdentChar = true) (rev rest : List Char) :
    scan (.inside rev) (run ++ rest) = scan (.inside (run.reverse ++ rev)) rest := by
  induction run generalizing rev with
  | nil => rfl
  | cons c run ih =>
    simp only [List.all_cons, Bool.and_eq_true] at h
    simp [scan, h.1, ih h.2]

/-- Where an identifier ends, the scanner goes on as it would after a blank. -/
theorem scan_inside_stop {rest : List Char}
    (h : HeadIs (fun c => isIdentChar c = false ∧ c ≠ '\'') rest) (rev : List Char) :
    scan (.inside rev) rest = .ident rev.reverse false :: scan (.outside false) rest := by
  cases rest with
  | nil => rfl
  | cons c rest =>
    obtain ⟨hchar, hprime⟩ := h c rfl
    simp [scan, hchar, hprime, isIdentStart_eq_false hchar]

theorem scan_unpieces {ps : List Piece} {afterWord : Bool} (h : Cut afterWord ps) :
    scan (.outside afterWord) (unpieces ps) = ps := by
  induction ps generalizing afterWord with
  | nil => rfl
  | cons p ps ih =>
    cases p with
    | other c =>
      obtain ⟨hstart, hrest⟩ := h
      have hskip : (isIdentStart c && !afterWord) = false := by
        cases hc : isIdentStart c with
        | false => rfl
        | true => simp [hstart hc]
      simp [Piece.text, scan, hskip, ih hrest]
    | ident name primed =>
      obtain ⟨rfl, hname, hstop, hrest⟩ := h
      obtain ⟨c, cs, rfl, hc, hcs⟩ := exists_of_isIdent hname
      cases primed with
      | true =>
        have htext : unpieces (.ident (c :: cs) true :: ps) = c :: (cs ++ '\'' :: unpieces ps) := by
          simp [Piece.text]
        have hprime : isIdentChar '\'' = false := by decide
        rw [htext, scan, hc]
        simp [scan_inside_run hcs, scan, hprime, ih hrest]
      | false =>
        have htext : unpieces (.ident (c :: cs) false :: ps) = c :: (cs ++ unpieces ps) := by
          simp [Piece.text]
        rw [htext, scan, hc]
        simp [scan_inside_run hcs, scan_inside_stop (hstop rfl), ih hrest]

/-- What a scanner has read so far is an identifier if it stands inside one. -/
def ScanState.Sound : ScanState → Prop
  | .inside rev => isIdent rev.reverse = true
  | .outside _ => True

/-- What a scanner has read so far and not yet put into a piece. -/
def ScanState.held : ScanState → List Char
  | .inside rev => rev.reverse
  | .outside _ => []

def ScanState.afterWord : ScanState → Bool
  | .inside _ => false
  | .outside afterWord => afterWord

theorem isIdent_append {name cs : List Char} (h : isIdent name = true)
    (hcs : cs.all isIdentChar = true) : isIdent (name ++ cs) = true := by
  obtain ⟨c, tail, rfl, hc, htail⟩ := exists_of_isIdent h
  simp only [List.cons_append, isIdent, List.all_append, Bool.and_eq_true]
  exact ⟨hc, htail, hcs⟩

/-- The scanner cuts a text into its pieces. -/
theorem cut_scan (state : ScanState) (cs : List Char) (h : state.Sound) :
    Cut state.afterWord (scan state cs) ∧ unpieces (scan state cs) = state.held ++ cs := by
  fun_induction scan state cs with
  | case1 rev =>
    refine ⟨⟨rfl, h, ?_, trivial⟩, by simp [Piece.text, ScanState.held]⟩
    rintro - c hc
    simp at hc
  | case2 => exact ⟨trivial, rfl⟩
  | case3 rev c cs hc ih =>
    have hsound : (ScanState.inside (c :: rev)).Sound := by
      simpa [ScanState.Sound] using isIdent_append h (by simp [hc] : [c].all isIdentChar = true)
    obtain ⟨hcut, htext⟩ := ih hsound
    exact ⟨hcut, by simp [htext, ScanState.held]⟩
  | case4 rev cs hc ih =>
    obtain ⟨hcut, htext⟩ := ih trivial
    refine ⟨⟨rfl, h, ?_, hcut⟩, by simp [Piece.text, htext, ScanState.held]⟩
    intro hfalse
    cases hfalse
  | case5 rev c cs hchar hprime ih =>
    obtain ⟨hcut, htext⟩ := ih trivial
    have hstart : isIdentStart c = true → false = true := by
      intro hstart
      exact absurd (isIdentChar_of_isIdentStart hstart) hchar
    refine ⟨⟨rfl, h, ?_, hstart, hcut⟩, ?_⟩
    · rintro - d hd
      obtain rfl : c = d := by simpa [Piece.text] using hd
      exact ⟨Bool.eq_false_iff.mpr hchar, hprime⟩
    · simp [Piece.text, htext, ScanState.held]
  | case6 afterWord c cs hc ih =>
    simp only [Bool.and_eq_true, Bool.not_eq_true'] at hc
    have hsound : (ScanState.inside [c]).Sound := by simp [ScanState.Sound, isIdent, hc.1]
    obtain ⟨hcut, htext⟩ := ih hsound
    refine ⟨?_, by simp [htext, ScanState.held]⟩
    rwa [ScanState.afterWord, hc.2]
  | case7 afterWord c cs hc ih =>
    obtain ⟨hcut, htext⟩ := ih trivial
    refine ⟨⟨fun hstart => ?_, hcut⟩, by simp [Piece.text, htext, ScanState.held]⟩
    simpa [hstart, ScanState.afterWord] using hc

theorem cut_pieces (cs : List Char) : Cut false (pieces cs) :=
  (cut_scan (.outside false) cs trivial).1

@[simp] theorem unpieces_pieces (cs : List Char) : unpieces (pieces cs) = cs :=
  (cut_scan (.outside false) cs trivial).2

/-- The pieces of a text are the one way to cut it. -/
theorem pieces_eq_iff {cs : List Char} {ps : List Piece} :
    pieces cs = ps ↔ Cut false ps ∧ unpieces ps = cs := by
  constructor
  · rintro rfl
    exact ⟨cut_pieces cs, unpieces_pieces cs⟩
  · rintro ⟨hcut, rfl⟩
    exact scan_unpieces hcut

theorem isIdent_of_mem_pieces {cs name : List Char} {primed : Bool}
    (h : .ident name primed ∈ pieces cs) : isIdent name = true := by
  suffices hall : ∀ (ps : List Piece) (afterWord : Bool), Cut afterWord ps →
      .ident name primed ∈ ps → isIdent name = true from hall _ _ (cut_pieces cs) h
  intro ps
  induction ps with
  | nil =>
    intro _ _ hmem
    cases hmem
  | cons p ps ih =>
    intro afterWord hcut hmem
    rcases List.mem_cons.mp hmem with rfl | hlater
    · exact hcut.2.1
    · cases p with
      | other c => exact ih _ hcut.2 hlater
      | ident _ _ => exact ih _ hcut.2.2.2 hlater

/-! ### Texts behind one another -/

/-- A character that neither belongs to an identifier nor keeps one from starting behind it. -/
def separates (c : Char) : Bool :=
  !isWordChar c && !isIdentChar c && c != '\''

/-- Pieces that may stand behind any character but those of words, and before anything that ends an
identifier. -/
def Sits (ps : List Piece) : Prop :=
  ∀ rest, Stops rest → (∀ afterWord, Cut afterWord rest) → Cut false (ps ++ rest)

theorem separates_iff {c : Char} :
    separates c = true ↔ isWordChar c = false ∧ isIdentChar c = false ∧ c ≠ '\'' := by
  simp [separates, and_assoc]

theorem cut_other {c : Char} (hc : isIdentStart c = false) {ps : List Piece}
    (hps : Cut (isWordChar c) ps) (afterWord : Bool) : Cut afterWord (.other c :: ps) := by
  refine ⟨fun hstart => ?_, hps⟩
  rw [hc] at hstart
  cases hstart

/-- No identifier starts in a run of characters that open none. -/
theorem cut_others {cs : List Char} (hcs : ∀ c ∈ cs, isIdentStart c = false) {rest : List Piece}
    (hrest : ∀ afterWord, Cut afterWord rest) (afterWord : Bool) :
    Cut afterWord (cs.map .other ++ rest) := by
  induction cs generalizing afterWord with
  | nil => exact hrest afterWord
  | cons c cs ih =>
    rw [List.forall_mem_cons] at hcs
    exact cut_other hcs.1 (ih hcs.2 _) afterWord

/-- Characters that separate leave room for an identifier behind them. -/
theorem cut_separators {cs : List Char} (hcs : cs.all separates = true) {rest : List Piece}
    (hrest : Cut false rest) : Cut false (cs.map .other ++ rest) := by
  induction cs with
  | nil => exact hrest
  | cons c cs ih =>
    rw [List.all_cons, Bool.and_eq_true, separates_iff] at hcs
    obtain ⟨⟨hword, hident, -⟩, hcs⟩ := hcs
    exact cut_other (isIdentStart_eq_false hident) (hword ▸ ih hcs) false

namespace Sits

theorem nil : Sits [] :=
  fun _ _ hcut => hcut false

theorem ident {name : List Char} (h : isIdent name = true) (primed : Bool) :
    Sits [.ident name primed] :=
  fun _ hstops hcut => ⟨rfl, h, fun _ => hstops, hcut false⟩

theorem others {cs : List Char} (hcs : ∀ c ∈ cs, isIdentStart c = false) :
    Sits (cs.map .other) :=
  fun _ _ hcut => cut_others hcs hcut false

theorem separated {ps qs : List Piece} (hps : Sits ps) (hqs : Sits qs) {c : Char} {cs : List Char}
    (h : (c :: cs).all separates = true) : Sits (ps ++ (c :: cs).map .other ++ qs) := by
  intro rest hstops hcut
  rw [List.all_cons, Bool.and_eq_true, separates_iff] at h
  obtain ⟨⟨hword, hident, hprime⟩, hcs⟩ := h
  rw [List.append_assoc, List.append_assoc]
  refine hps _ ?_ fun afterWord => ?_
  · intro d hd
    cases hd
    exact ⟨hident, hprime⟩
  · have hrest := cut_separators hcs (hqs rest hstops hcut)
    exact cut_other (isIdentStart_eq_false hident) (hword ▸ hrest) afterWord

end Sits

/-- What a text is cut into does not depend on what stands behind it, if this ends an identifier. -/
theorem Cut.append {ps rest : List Piece} {afterWord : Bool} (h : Cut afterWord ps)
    (hstops : Stops rest) (hrest : ∀ afterWord, Cut afterWord rest) :
    Cut afterWord (ps ++ rest) := by
  induction ps generalizing afterWord with
  | nil => exact hrest afterWord
  | cons p ps ih =>
    cases p with
    | other c => exact ⟨h.1, ih h.2⟩
    | ident name primed =>
      obtain ⟨hafter, hname, hstop, hps⟩ := h
      refine ⟨hafter, hname, fun hfalse => ?_, ih hps⟩
      rcases (hstop hfalse).cases hps with rfl | ⟨c, qs, rfl, hc⟩
      · exact hstops
      · intro d hd
        obtain rfl : c = d := by simpa [Piece.text] using hd
        exact hc

theorem sits_pieces (cs : List Char) : Sits (pieces cs) :=
  fun _ hstops hrest => (cut_pieces cs).append hstops hrest

/-- Between separating characters every text is cut as it is on its own. -/
theorem pieces_separated {sep : List Char} (hsep : sep.all separates = true) (hne : sep ≠ [])
    (cs ds : List Char) :
    pieces (cs ++ sep ++ ds) = pieces cs ++ sep.map .other ++ pieces ds := by
  obtain ⟨c, sep, rfl⟩ := List.exists_cons_of_ne_nil hne
  have hcut := (sits_pieces cs).separated (sits_pieces ds) hsep [] (by simp [Stops, HeadIs])
    fun _ => trivial
  rw [List.append_nil] at hcut
  refine pieces_eq_iff.mpr ⟨hcut, ?_⟩
  have hothers : unpieces ((c :: sep).map .other) = c :: sep := by
    simp [unpieces, List.flatMap_map, Piece.text]
  rw [unpieces, List.flatMap_append, List.flatMap_append, ← unpieces, ← unpieces, ← unpieces,
    unpieces_pieces, unpieces_pieces, hothers]

/-! ## Rewriting pieces -/

/-- Every primed identifier ends at its prime, and would still end there without it. -/
def PrimesStop : List Piece → Prop
  | [] => True
  | .ident _ true :: ps => Stops ps ∧ PrimesStop ps
  | _ :: ps => PrimesStop ps

instance (ps : List Piece) : Decidable (Stops ps) :=
  decidable_of_iff
    ((unpieces ps).head?.all (fun c => !isIdentChar c && decide (c ≠ '\'')) = true)
    (by cases h : (unpieces ps).head? <;> simp [Stops, HeadIs, h])

instance decidablePrimesStop : (ps : List Piece) → Decidable (PrimesStop ps)
  | [] => .isTrue trivial
  | .ident _ true :: ps =>
    have := decidablePrimesStop ps
    inferInstanceAs (Decidable (Stops ps ∧ PrimesStop ps))
  | .ident _ false :: ps | .other _ :: ps => decidablePrimesStop ps

theorem PrimesStop.tail {p : Piece} {ps : List Piece} (h : PrimesStop (p :: ps)) :
    PrimesStop ps := by
  cases p with
  | other c => exact h
  | ident name primed =>
    cases primed with
    | true => exact h.2
    | false => exact h

/-- A rewriting of identifiers into identifiers keeps the pieces apart. It may drop a prime only
where nothing follows that would run into the identifier then. -/
theorem Cut.map {g : Piece → Piece} {ps : List Piece} {afterWord : Bool} (h : Cut afterWord ps)
    (hother : ∀ c, g (.other c) = .other c)
    (hident : ∀ name primed, .ident name primed ∈ ps → ∃ name' primed',
      g (.ident name primed) = .ident name' primed' ∧ isIdent name' = true ∧
        (primed = true → primed' = false → PrimesStop ps)) :
    Cut afterWord (ps.map g) := by
  induction ps generalizing afterWord with
  | nil => trivial
  | cons p ps ih =>
    have hlater : ∀ name primed, .ident name primed ∈ ps → ∃ name' primed',
        g (.ident name primed) = .ident name' primed' ∧ isIdent name' = true ∧
          (primed = true → primed' = false → PrimesStop ps) := by
      intro name primed hmem
      obtain ⟨name', primed', hg, hname', hdrop⟩ := hident name primed (List.mem_cons_of_mem p hmem)
      exact ⟨name', primed', hg, hname', fun h₁ h₂ => (hdrop h₁ h₂).tail⟩
    cases p with
    | other c =>
      obtain ⟨hstart, hrest⟩ := h
      rw [List.map_cons, hother]
      exact ⟨hstart, ih hrest hlater⟩
    | ident name primed =>
      obtain ⟨rfl, -, hstop, hrest⟩ := h
      obtain ⟨name', primed', hg, hname', hdrop⟩ := hident name primed (by simp)
      rw [List.map_cons, hg]
      refine ⟨rfl, hname', fun hfalse => ?_, ih hrest hlater⟩
      have hstops : Stops ps := by
        cases primed with
        | false => exact hstop rfl
        | true => exact (hdrop rfl hfalse).1
      -- what ends an identifier is no identifier, so the rewriting leaves it alone
      rcases hstops.cases hrest with rfl | ⟨c, qs, rfl, hc⟩
      · exact hstops
      · rw [List.map_cons, hother]
        intro d hd
        obtain rfl : c = d := by simpa [Piece.text] using hd
        exact hc

/-- A piece with another name, if it is an identifier. -/
def Piece.rename (g : List Char → Bool → List Char) : Piece → Piece
  | .ident name primed => .ident (g name primed) primed
  | .other c => .other c

/-- A text whose identifiers are rewritten into identifiers with the same primes. -/
theorem mapIdents_mapIdents {f r : List Char → List Char} {g : List Char → Bool → List Char}
    {cs : List Char}
    (hr : ∀ name primed, .ident name primed ∈ pieces cs →
      r (Piece.ident name primed).text = (Piece.ident (g name primed) primed).text ∧
        isIdent (g name primed) = true) :
    mapIdents f (mapIdents r cs) = mapIdents (fun token => f (r token)) cs := by
  have htext : mapIdents r cs = unpieces ((pieces cs).map (Piece.rename g)) := by
    rw [mapIdents, unpieces, List.flatMap_map]
    refine List.flatMap_congr fun p hp => ?_
    cases p with
    | other c => rfl
    | ident name primed => exact (hr name primed hp).1
  have hcut : Cut false ((pieces cs).map (Piece.rename g)) := by
    refine (cut_pieces cs).map (fun _ => rfl) fun name primed hmem => ?_
    refine ⟨_, _, rfl, (hr name primed hmem).2, ?_⟩
    rintro rfl hfalse
    cases hfalse
  rw [htext, mapIdents, (pieces_eq_iff.mpr ⟨hcut, rfl⟩ : pieces _ = _), mapIdents, List.flatMap_map]
  refine List.flatMap_congr fun p hp => ?_
  cases p with
  | other c => rfl
  | ident name primed => exact congrArg f (hr name primed hp).1.symm

theorem mapIdents_congr {f g : List Char → List Char} {cs : List Char}
    (h : ∀ name primed, .ident name primed ∈ pieces cs →
      f (Piece.ident name primed).text = g (Piece.ident name primed).text) :
    mapIdents f cs = mapIdents g cs := by
  refine List.flatMap_congr fun p hp => ?_
  cases p with
  | other c => rfl
  | ident name primed => exact h name primed hp

theorem mapIdents_separated (f : List Char → List Char) {sep : List Char}
    (hsep : sep.all separates = true) (hne : sep ≠ []) (cs ds : List Char) :
    mapIdents f (cs ++ sep ++ ds) = mapIdents f cs ++ sep ++ mapIdents f ds := by
  rw [mapIdents, pieces_separated hsep hne, List.flatMap_append, List.flatMap_append,
    List.flatMap_map]
  simp [mapIdents]

theorem isAtomic_ident {name : List Char} (h : isIdent name = true) (primed : Bool) :
    isAtomic (Piece.ident name primed).text = true := by
  have hall := List.all_eq_true.mp (all_isIdentChar_of_isIdent h)
  obtain ⟨c, cs, rfl, -, -⟩ := exists_of_isIdent h
  cases primed <;> simp_all [isAtomic, Piece.text]

/-- An identifier stands for another one without parentheses, with or without a prime. -/
theorem asOperand_ident {name : List Char} (h : isIdent name = true) (primed : Bool) :
    asOperand (Piece.ident name primed).text = (Piece.ident name primed).text := by
  rw [asOperand, if_pos (isAtomic_ident h primed)]

theorem asOperand_of_isIdent {name : List Char} (h : isIdent name = true) :
    asOperand name = name :=
  asOperand_ident h false

/-- An identifier has no prime. -/
theorem primed_ne_of_isIdent {ident : List Char} (h : isIdent ident = true) (name : List Char) :
    (Piece.ident name true).text ≠ ident := by
  rintro rfl
  have hall := all_isIdentChar_of_isIdent h
  have hprime : isIdentChar '\'' = false := by decide
  simp [Piece.text, hprime] at hall

end Text

/-! ## Entries by name -/

section

variable {β : Type}

theorem mem_of_lookup {entries : List (String × β)} {x : String} {value : β}
    (h : entries.lookup x = some value) : (x, value) ∈ entries := by
  obtain ⟨before, after, rfl, -⟩ := List.lookup_eq_some_iff.mp h
  simp

theorem lookup_entry_cons (name : String) (value : β) (entries : List (String × β)) (x : String) :
    List.lookup x ((name, value) :: entries) =
      if x = name then some value else entries.lookup x := by
  by_cases hx : x = name
  · simp [hx]
  · have hbeq : (x == name) = false := by simpa using hx
    simp [List.lookup_cons, hbeq, hx]

theorem lookup_map_value {γ : Type} (f : β → γ) (entries : List (String × β)) (x : String) :
    (entries.map fun entry => (entry.1, f entry.2)).lookup x = (entries.lookup x).map f := by
  induction entries with
  | nil => rfl
  | cons entry entries ih =>
    obtain ⟨key, value⟩ := entry
    rw [List.map_cons, lookup_entry_cons, lookup_entry_cons, ih]
    by_cases hx : x = key <;> simp [hx]

theorem lookup_filter_ne (entries : List (String × β)) (name x : String) :
    (entries.filter fun entry => entry.1 != name).lookup x =
      if x = name then none else entries.lookup x := by
  induction entries with
  | nil => simp
  | cons entry entries ih =>
    obtain ⟨key, value⟩ := entry
    by_cases hkey : key = name
    · rw [List.filter_cons_of_neg (by simpa using hkey), ih, lookup_entry_cons]
      by_cases hx : x = name <;> simp [hx, hkey]
    · rw [List.filter_cons_of_pos (by simpa using hkey), lookup_entry_cons, ih, lookup_entry_cons]
      by_cases hx : x = name
      · have hne : name ≠ key := fun he => hkey he.symm
        simp [hx, hne]
      · simp [hx]

end

/-! ## Substitutions -/

open Text (Piece isIdent pieces mapIdents)

/-- Every replacement is by an identifier for an identifier. -/
def Substitution.Renames (sub : Substitution) : Prop :=
  ∀ entry ∈ sub, isIdent entry.1.toList = true ∧ isIdent entry.2.toList = true

namespace Substitution

variable {sub : Substitution}

theorem apply_of_lookup {token : List Char} {text : String}
    (h : sub.lookup (String.ofList token) = some text) :
    sub.apply token = Text.asOperand text.toList := by
  rw [apply, h]

theorem apply_of_lookup_none {token : List Char} (h : sub.lookup (String.ofList token) = none) :
    sub.apply token = token := by
  rw [apply, h]

/-- Names that are identifiers are never those of primed identifiers. -/
theorem lookup_primed (h : ∀ entry ∈ sub, isIdent entry.1.toList = true) (name : List Char) :
    sub.lookup (String.ofList (Piece.ident name true).text) = none := by
  rw [List.lookup_eq_none_iff]
  intro entry hentry
  have hne := Text.primed_ne_of_isIdent (h entry hentry) name
  simp only [bne_iff_ne, ne_eq]
  intro heq
  exact hne (by rw [← heq, String.toList_ofList])

/-- What a renaming makes of an identifier is an identifier with the same prime. -/
theorem Renames.apply_eq (h : sub.Renames) {name : List Char} (hname : isIdent name = true)
    (primed : Bool) :
    sub.apply (Piece.ident name primed).text =
        (Piece.ident (if primed then name else sub.apply name) primed).text ∧
      isIdent (if primed then name else sub.apply name) = true := by
  cases primed with
  | true =>
    have hnone := lookup_primed (fun entry hentry => (h entry hentry).1) name
    exact ⟨apply_of_lookup_none hnone, hname⟩
  | false =>
    refine ⟨rfl, ?_⟩
    cases hlookup : sub.lookup (String.ofList name) with
    | none => simpa [apply_of_lookup_none hlookup] using hname
    | some text =>
      have htext := (h _ (mem_of_lookup hlookup)).2
      simpa [apply_of_lookup hlookup, Text.asOperand_of_isIdent htext] using htext

/-- The replacements of the first substitution, replaced by the second one where it has them, and
those of the second one for all other names. -/
def andThen (ren sub : Substitution) : Substitution :=
  ren.map (fun entry => (entry.1, (sub.lookup entry.2).getD entry.2)) ++ sub

variable {ren : Substitution}

theorem lookup_andThen_of_some {x y : String} (h : ren.lookup x = some y) (sub : Substitution) :
    (ren.andThen sub).lookup x = some ((sub.lookup y).getD y) := by
  rw [andThen, List.lookup_append, lookup_map_value (fun y => (sub.lookup y).getD y), h]
  rfl

theorem lookup_andThen_of_none {x : String} (h : ren.lookup x = none) (sub : Substitution) :
    (ren.andThen sub).lookup x = sub.lookup x := by
  rw [andThen, List.lookup_append, lookup_map_value (fun y => (sub.lookup y).getD y), h]
  rfl

theorem Renames.of_lookup (h : ren.Renames) {x y : String} (hxy : ren.lookup x = some y) :
    isIdent x.toList = true ∧ isIdent y.toList = true :=
  h _ (mem_of_lookup hxy)

/-- An identifier is replaced by both substitutions in turn as by the two of them together. -/
theorem Renames.apply_andThen (h : ren.Renames) (sub : Substitution) (token : List Char) :
    sub.apply (ren.apply token) = (ren.andThen sub).apply token := by
  cases hxy : ren.lookup (String.ofList token) with
  | none =>
    rw [apply_of_lookup_none hxy, apply, apply, lookup_andThen_of_none hxy]
  | some y =>
    have hy := (h.of_lookup hxy).2
    rw [apply_of_lookup hxy, Text.asOperand_of_isIdent hy,
      apply_of_lookup (lookup_andThen_of_some hxy sub), apply, String.ofList_toList]
    cases sub.lookup y with
    | none => exact (Text.asOperand_of_isIdent hy).symm
    | some text => rfl

/-- A renaming and a substitution after it are one substitution. -/
theorem Renames.substitute_andThen (h : ren.Renames) (sub : Substitution) (text : String) :
    substitute sub (substitute ren text) = substitute (ren.andThen sub) text := by
  have htwice : mapIdents sub.apply (mapIdents ren.apply text.toList) =
      mapIdents (fun token => sub.apply (ren.apply token)) text.toList :=
    Text.mapIdents_mapIdents (g := fun name primed => if primed then name else ren.apply name)
      fun _ primed hmem => h.apply_eq (Text.isIdent_of_mem_pieces hmem) primed
  have happly : (fun token => sub.apply (ren.apply token)) = (ren.andThen sub).apply :=
    funext (h.apply_andThen sub)
  rw [substitute, substitute, String.toList_ofList, htwice, happly, substitute]

end Substitution

theorem mentions_iff {text name : String} :
    mentions text name = true ↔
      ∃ ident primed, .ident ident primed ∈ pieces text.toList ∧
        String.ofList (Piece.ident ident primed).text = name := by
  rw [mentions, List.any_eq_true]
  constructor
  · rintro ⟨p, hp, hname⟩
    cases p with
    | other c => cases hname
    | ident ident primed =>
      refine ⟨ident, primed, hp, ?_⟩
      rw [beq_iff_eq.mp hname, String.ofList_toList]
  · rintro ⟨ident, primed, hp, rfl⟩
    exact ⟨_, hp, by simp⟩

/-! ## Texts for names -/

namespace Substitution

/-- The replacements of names by texts, one by one; the last text of a name counts. -/
def binding (names texts : List String) : Substitution :=
  (names.zip texts).reverse

theorem binding_cons (name text : String) (names texts : List String) :
    binding (name :: names) (text :: texts) = binding names texts ++ [(name, text)] := by
  simp [binding]

theorem lookup_binding_of_not_mem {names : List String} {x : String} (h : x ∉ names)
    (texts : List String) : (binding names texts).lookup x = none := by
  rw [List.lookup_eq_none_iff]
  rintro ⟨name, text⟩ hentry
  have hname := (List.of_mem_zip (List.mem_reverse.mp hentry)).1
  simp only [bne_iff_ne, ne_eq]
  rintro rfl
  exact h hname

theorem lookup_binding_getElem {names texts : List String} (hnames : names.Nodup) {i : Nat}
    (hi : i < names.length) (hi' : i < texts.length) :
    (binding names texts).lookup names[i] = some texts[i] := by
  induction names generalizing texts i with
  | nil => simp at hi
  | cons name names ih =>
    obtain ⟨hname, hnames⟩ := List.nodup_cons.mp hnames
    cases texts with
    | nil => simp at hi'
    | cons text texts =>
      rw [binding_cons, List.lookup_append]
      cases i with
      | zero =>
        simp [lookup_binding_of_not_mem hname]
      | succ i =>
        have hlater : i < texts.length := by simpa using hi'
        simp [ih hnames (by simpa using hi) hlater]

theorem lookup_insert (sub : Substitution) (name text x : String) :
    (sub.insert name text).lookup x = if x = name then some text else sub.lookup x := by
  rw [insert, lookup_entry_cons, lookup_filter_ne]
  by_cases hx : x = name <;> simp [hx]

end Substitution

open Substitution (binding)

theorem substitute_congr {sub sub' : Substitution} {text : String}
    (h : ∀ x, mentions text x = true → sub.apply x.toList = sub'.apply x.toList) :
    substitute sub text = substitute sub' text := by
  rw [substitute, substitute]
  congr 1
  refine Text.mapIdents_congr fun name primed hmem => ?_
  have hmention := mentions_iff.mpr ⟨name, primed, hmem, rfl⟩
  simpa using h _ hmention

@[simp] theorem substitute_nil (text : String) : substitute [] text = text := by
  have hid :
      mapIdents (Substitution.apply []) text.toList = Text.unpieces (pieces text.toList) := by
    refine List.flatMap_congr fun p _ => ?_
    cases p <;> rfl
  rw [substitute, hid, Text.unpieces_pieces, String.ofList_toList]

/-- Names bound to names and these to texts are names bound to texts, in a text in which the names
in the middle do not occur unless they are among the first ones. -/
theorem substitute_binding {first second texts : List String} {text : String}
    (hfirst : first.Nodup) (hsecond : second.Nodup)
    (hlength : first.length = second.length) (hlength' : second.length = texts.length)
    (hidents : ∀ x ∈ first, isIdent x.toList = true)
    (hidents' : ∀ x ∈ second, isIdent x.toList = true)
    (hapart : ∀ x ∈ second, mentions text x = true → x ∈ first) :
    substitute (binding second texts) (substitute (binding first second) text) =
      substitute (binding first texts) text := by
  have hrenames : (binding first second).Renames := by
    rintro ⟨x, y⟩ hentry
    obtain ⟨hx, hy⟩ := List.of_mem_zip (List.mem_reverse.mp hentry)
    exact ⟨hidents x hx, hidents' y hy⟩
  rw [hrenames.substitute_andThen]
  refine substitute_congr fun x hmention => ?_
  rw [Substitution.apply, Substitution.apply, String.ofList_toList]
  by_cases hx : x ∈ first
  · -- the i-th name becomes the i-th text on both ways
    obtain ⟨i, hi, rfl⟩ := List.mem_iff_getElem.mp hx
    have hi' : i < second.length := hlength ▸ hi
    have hi'' : i < texts.length := hlength' ▸ hi'
    have hmiddle := Substitution.lookup_binding_getElem hfirst hi hi'
    rw [Substitution.lookup_andThen_of_some hmiddle,
      Substitution.lookup_binding_getElem hsecond hi' hi'',
      Substitution.lookup_binding_getElem hfirst hi hi'']
    rfl
  · have hy : x ∉ second := fun hy => hx (hapart x hy hmention)
    have hmiddle := Substitution.lookup_binding_of_not_mem hx second
    rw [Substitution.lookup_andThen_of_none hmiddle,
      Substitution.lookup_binding_of_not_mem hx, Substitution.lookup_binding_of_not_mem hy]

end HybridObjects
