import HybridObjects.Proofs.CallContracts

/-!
# HybridObjects.Proofs.Inheritance

The search for the declaration of a signature through the interfaces that others extend. Interfaces
may extend one another in a circle, extend names that nobody declares, be named with or without
their module and be declared more than once.

`found_through_parents`: the search ends on all of these. It finds a declaration exactly if an
interface that the name leads to has one, and then it is the first one of such an interface, that of
the named interface itself if this has one. Signatures that match are not told apart.

* `Model.Finds`    — the search with no bound on the number of names; a derivation is a run that
  ends.
* `Model.Reaches`  — the interfaces that a name leads to.
* `Model.finds_search`         — the bound is never what ends the search.
* `Model.Finds.reaches`, `Model.Finds.nothing_reached` — what is found is reached, and where nothing
  is found there is nothing to be reached.
-/

namespace HybridObjects

/-- The first declaration of the interface with a matching signature. -/
def Interface.DeclaresFirst (i : Interface) (sig : Signature) (found : InterfaceMethod) : Prop :=
  found.sig.matches sig = true ∧ ∃ before after, i.methods = before ++ found :: after ∧
    ∀ other ∈ before, other.sig.matches sig = false

namespace Interface

variable {i : Interface} {sig : Signature} {found : InterfaceMethod}

theorem method?_eq_some_iff : i.method? sig = some found ↔ i.DeclaresFirst sig found := by
  simp [method?, List.find?_eq_some_iff_append, DeclaresFirst]

theorem isSome_method?_iff :
    (i.method? sig).isSome = true ↔ ∃ d ∈ i.methods, d.sig.matches sig = true := by
  simp [method?]

end Interface

namespace Model

/-- How the search ends once the names in `visited` have been taken up, where those in `pending`
are still waiting, the next one first. -/
inductive Finds (m : Model) (sig : Signature) :
    List String → List String → Option InterfaceMethod → Prop where
  | exhausted {visited : List String} : Finds m sig visited [] none
  | again {visited pending : List String} {name : String} {answer : Option InterfaceMethod} :
      name ∈ visited → Finds m sig visited pending answer →
      Finds m sig visited (name :: pending) answer
  | unknown {visited pending : List String} {name : String} {answer : Option InterfaceMethod} :
      name ∉ visited → m.findInterface name = none →
      Finds m sig (name :: visited) pending answer →
      Finds m sig visited (name :: pending) answer
  | declared {visited pending : List String} {name : String} {i : Interface}
      {found : InterfaceMethod} :
      name ∉ visited → m.findInterface name = some i → i.method? sig = some found →
      Finds m sig visited (name :: pending) (some found)
  | extended {visited pending : List String} {name : String} {i : Interface}
      {answer : Option InterfaceMethod} :
      name ∉ visited → m.findInterface name = some i → i.method? sig = none →
      Finds m sig (name :: visited) (i.parents.reverse ++ pending) answer →
      Finds m sig visited (name :: pending) answer

/-- The name leads to the interface: it is found under the name, or under that of a parent of one
that the name leads to. -/
inductive Reaches (m : Model) : String → Interface → Prop where
  | itself {name : String} {i : Interface} : m.findInterface name = some i → Reaches m name i
  | inherited {name parent : String} {i j : Interface} :
      m.findInterface name = some i → parent ∈ i.parents → Reaches m parent j → Reaches m name j

variable {m : Model} {sig : Signature} {visited pending : List String}
  {answer answer' : Option InterfaceMethod}

/-! ## The search ends -/

/-- In each state there is one thing to do. -/
theorem Finds.unique (h : m.Finds sig visited pending answer)
    (h' : m.Finds sig visited pending answer') : answer = answer' := by
  induction h with
  | exhausted =>
    cases h'
    rfl
  | again hmem _ ih =>
    cases h' with
    | again _ h' => exact ih h'
    | unknown hnot | declared hnot | extended hnot => exact absurd hmem hnot
  | unknown hnot hnone _ ih =>
    cases h' with
    | again hmem _ => exact absurd hmem hnot
    | unknown _ _ h' => exact ih h'
    | declared _ hsome | extended _ hsome =>
      rw [hnone] at hsome
      cases hsome
  | declared hnot hsome hfound =>
    cases h' with
    | again hmem _ => exact absurd hmem hnot
    | unknown _ hnone _ =>
      rw [hnone] at hsome
      cases hsome
    | declared _ hsome' hfound' =>
      rw [hsome] at hsome'
      cases hsome'
      rw [← hfound, hfound']
    | extended _ hsome' hnothing _ =>
      rw [hsome] at hsome'
      cases hsome'
      rw [hnothing] at hfound
      cases hfound
  | extended hnot hsome hnothing _ ih =>
    cases h' with
    | again hmem _ => exact absurd hmem hnot
    | unknown _ hnone _ =>
      rw [hnone] at hsome
      cases hsome
    | declared _ hsome' hfound' =>
      rw [hsome] at hsome'
      cases hsome'
      rw [hnothing] at hfound'
      cases hfound'
    | extended _ hsome' _ h' =>
      rw [hsome] at hsome'
      cases hsome'
      exact ih h'

/-- The names that are still to be taken up if all come up. -/
def unvisited (names visited : List String) : List String :=
  names.filter fun name => !visited.contains name

/-- Taking up a name leaves fewer. -/
theorem length_unvisited_cons_lt {names visited : List String} {name : String}
    (hname : name ∈ names) (hnot : name ∉ visited) :
    (unvisited names (name :: visited)).length < (unvisited names visited).length := by
  have hfilter : unvisited names (name :: visited) =
      (unvisited names visited).filter fun other => !decide (other = name) := by
    simp [unvisited, List.filter_filter]
  have hmem : name ∈ unvisited names visited := by simp [unvisited, hname, hnot]
  rw [hfilter]
  exact List.length_filter_lt_length_iff_exists.mpr ⟨name, hmem, by simp⟩

/-- The names of parents that the interfaces of a model list. -/
def parentNames (m : Model) : List String :=
  (m.modules.flatMap Module.interfaces).flatMap Interface.parents

theorem parents_sublist {name : String} {i : Interface} (h : m.findInterface name = some i) :
    i.parents.Sublist m.parentNames := by
  rw [parentNames, List.flatMap_def]
  exact List.sublist_flatten_of_mem (List.mem_map_of_mem (List.mem_of_find?_eq_some h))

/-- The bound of a search is not reached if it exceeds what the waiting names and the parents of
those not yet visited come to: visiting a name adds at most `parentCount` names and leaves one name
less that could do so. -/
theorem finds_search (names : List String) (hparents : m.parentNames ⊆ names) {n : Nat}
    (hpending : pending ⊆ names)
    (hn : pending.length + m.parentCount * (unvisited names visited).length < n) :
    m.Finds sig visited pending (m.search sig n visited pending) := by
  induction n generalizing visited pending with
  | zero => omega
  | succ n ih =>
    cases pending with
    | nil => exact .exhausted
    | cons name pending =>
      obtain ⟨hname, hpending⟩ := List.cons_subset.mp hpending
      rw [List.length_cons] at hn
      rw [search]
      by_cases hmem : name ∈ visited
      · rw [if_pos (by simpa using hmem)]
        exact .again hmem (ih hpending (by omega))
      · rw [if_neg (by simpa using hmem)]
        have hfewer := length_unvisited_cons_lt hname hmem
        have hcost : m.parentCount * (unvisited names (name :: visited)).length + m.parentCount ≤
            m.parentCount * (unvisited names visited).length :=
          Nat.mul_le_mul_left m.parentCount hfewer
        cases hfind : m.findInterface name with
        | none => exact .unknown hmem hfind (ih hpending (by omega))
        | some i =>
          cases hmethod : i.method? sig with
          | some found =>
            simp only [hmethod]
            exact .declared hmem hfind hmethod
          | none =>
            simp only [hmethod]
            have hsub := parents_sublist hfind
            have hcount : i.parents.length ≤ m.parentCount := hsub.length_le
            refine .extended hmem hfind hmethod (ih ?_ ?_)
            · refine List.append_subset.mpr ⟨?_, hpending⟩
              exact fun x hx => hparents (hsub.subset (List.mem_reverse.mp hx))
            · rw [List.length_append, List.length_reverse]
              omega

/-- From every state the search ends. -/
theorem exists_finds (m : Model) (sig : Signature) (visited pending : List String) :
    ∃ answer, m.Finds sig visited pending answer :=
  ⟨_, finds_search (pending ++ m.parentNames) (List.subset_append_right _ _)
    (List.subset_append_left _ _) (Nat.lt_succ_self _)⟩

theorem finds_declared? (m : Model) (start : String) (sig : Signature) :
    m.Finds sig [] [start] (m.declared? start sig) := by
  refine finds_search (start :: m.parentNames) (List.subset_cons_self _ _) (by simp) ?_
  have hall : (unvisited (start :: m.parentNames) []).length = m.parentCount + 1 := by
    simp [unvisited, parentCount, parentNames]
  rw [hall, List.length_singleton, Nat.mul_comm]
  omega

theorem finds_iff {start : String} :
    m.Finds sig [] [start] answer ↔ m.declared? start sig = answer := by
  constructor
  · intro h
    exact (m.finds_declared? start sig).unique h
  · rintro rfl
    exact m.finds_declared? start sig

/-! ## What is found -/

/-- What is found is declared by an interface that one of the waiting names leads to. -/
theorem Finds.reaches {found : InterfaceMethod} (h : m.Finds sig visited pending (some found)) :
    ∃ name ∈ pending, ∃ i, m.Reaches name i ∧ i.method? sig = some found := by
  generalize hanswer : some found = answer at h
  induction h with
  | exhausted => cases hanswer
  | again _ _ ih | unknown _ _ _ ih =>
    obtain ⟨name, hname, hfound⟩ := ih hanswer
    exact ⟨name, List.mem_cons_of_mem _ hname, hfound⟩
  | declared _ hfind hmethod =>
    cases hanswer
    exact ⟨_, List.mem_cons_self, _, .itself hfind, hmethod⟩
  | extended _ hfind _ _ ih =>
    obtain ⟨name, hname, i, hreach, hmethod⟩ := ih hanswer
    rcases List.mem_append.mp hname with hparent | hname
    · exact ⟨_, List.mem_cons_self, i, .inherited hfind (List.mem_reverse.mp hparent) hreach,
        hmethod⟩
    · exact ⟨name, List.mem_cons_of_mem _ hname, i, hreach, hmethod⟩

/-- The names visited have been dealt with: what is found under them has no declaration of the
signature, and its parents have been visited or are waiting. -/
def DealtWith (m : Model) (sig : Signature) (visited pending : List String) : Prop :=
  ∀ name ∈ visited, ∀ i, m.findInterface name = some i →
    i.method? sig = none ∧ ∀ parent ∈ i.parents, parent ∈ visited ∨ parent ∈ pending

namespace DealtWith

variable {name : String}

/-- A name that has been visited before need not wait. -/
theorem again (h : m.DealtWith sig visited (name :: pending)) (hmem : name ∈ visited) :
    m.DealtWith sig visited pending := by
  intro other hother i hfind
  refine ⟨(h other hother i hfind).1, fun parent hparent => ?_⟩
  rcases (h other hother i hfind).2 parent hparent with hvisited | hwaiting
  · exact .inl hvisited
  · rcases List.mem_cons.mp hwaiting with rfl | hwaiting
    · exact .inl hmem
    · exact .inr hwaiting

/-- A name is visited, and the parents found under it wait from now on. -/
theorem visit (parents : List String) (h : m.DealtWith sig visited (name :: pending))
    (hname : ∀ i, m.findInterface name = some i →
      i.method? sig = none ∧ ∀ parent ∈ i.parents, parent ∈ parents) :
    m.DealtWith sig (name :: visited) (parents ++ pending) := by
  intro other hother i hfind
  rcases List.mem_cons.mp hother with rfl | hother
  · refine ⟨(hname i hfind).1, fun parent hparent => .inr ?_⟩
    exact List.mem_append_left _ ((hname i hfind).2 parent hparent)
  · refine ⟨(h other hother i hfind).1, fun parent hparent => ?_⟩
    rcases (h other hother i hfind).2 parent hparent with hvisited | hwaiting
    · exact .inl (List.mem_cons_of_mem _ hvisited)
    · rcases List.mem_cons.mp hwaiting with rfl | hwaiting
      · exact .inl List.mem_cons_self
      · exact .inr (List.mem_append_right _ hwaiting)

/-- If no name waits, nothing that the visited names lead to has a declaration. -/
theorem nothing_reached (h : m.DealtWith sig visited []) {i : Interface} (hname : name ∈ visited)
    (hreach : m.Reaches name i) : i.method? sig = none := by
  induction hreach with
  | itself hfind => exact (h _ hname _ hfind).1
  | inherited hfind hparent _ ih =>
    rcases (h _ hname _ hfind).2 _ hparent with hvisited | hwaiting
    · exact ih hvisited
    · cases hwaiting

end DealtWith

/-- If nothing is found, nothing that the names lead to has a declaration. -/
theorem Finds.nothing_reached (h : m.Finds sig visited pending none)
    (hdealt : m.DealtWith sig visited pending) {name : String} {i : Interface}
    (hname : name ∈ visited ∨ name ∈ pending) (hreach : m.Reaches name i) :
    i.method? sig = none := by
  generalize hanswer : none = answer at h
  -- the invariant passes from state to state; at the end no name waits
  induction h with
  | exhausted =>
    rcases hname with hname | hname
    · exact hdealt.nothing_reached hname hreach
    · cases hname
  | again hmem _ ih =>
    refine ih (hdealt.again hmem) ?_ hanswer
    rcases hname with hname | hname
    · exact .inl hname
    · rcases List.mem_cons.mp hname with rfl | hname
      · exact .inl hmem
      · exact .inr hname
  | unknown _ hnone _ ih =>
    refine ih (hdealt.visit [] fun i hfind => ?_) ?_ hanswer
    · rw [hnone] at hfind
      cases hfind
    · simp only [List.mem_cons] at hname ⊢
      tauto
  | declared => cases hanswer
  | @extended _ _ _ j _ _ hsome hnothing _ ih =>
    refine ih (hdealt.visit _ fun i hfind => ?_) ?_ hanswer
    · rw [hsome] at hfind
      cases hfind
      exact ⟨hnothing, fun parent hparent => List.mem_reverse.mpr hparent⟩
    · simp only [List.mem_cons, List.mem_append] at hname ⊢
      tauto

theorem isSome_declared?_iff {start : String} :
    (m.declared? start sig).isSome = true ↔
      ∃ i, m.Reaches start i ∧ (i.method? sig).isSome = true := by
  have hfinds := m.finds_declared? start sig
  cases hdeclared : m.declared? start sig with
  | some found =>
    rw [hdeclared] at hfinds
    obtain ⟨name, hname, i, hreach, hmethod⟩ := hfinds.reaches
    obtain rfl := List.mem_singleton.mp hname
    simp only [Option.isSome_some, true_iff]
    exact ⟨i, hreach, by simp [hmethod]⟩
  | none =>
    rw [hdeclared] at hfinds
    have hdealt : m.DealtWith sig [] [start] := by
      intro name hname
      cases hname
    simp only [Option.isSome_none, Bool.false_eq_true, false_iff, not_exists, not_and]
    intro i hreach
    simp [hfinds.nothing_reached hdealt (.inr List.mem_cons_self) hreach]

end Model

/-- The search through the parents of interfaces ends and misses nothing, whatever the names lead
to. It ends from every state in which it can be, and so does the search from a name, with what the
bounded search returns. It finds a declaration if and only if an interface that the name leads to
declares a matching signature; it finds the first one of such an interface, and that of the
interface found under the name itself if this has one. Signatures that match have the same
declaration, under a name and for a class. -/
theorem found_through_parents (m : Model) (start : String) (sig : Signature) :
    (∀ visited pending, ∃ answer, m.Finds sig visited pending answer) ∧
      (∀ answer, m.Finds sig [] [start] answer ↔ m.declared? start sig = answer) ∧
      ((m.declared? start sig).isSome = true ↔
        ∃ i, m.Reaches start i ∧ ∃ d ∈ i.methods, d.sig.matches sig = true) ∧
      (∀ found, m.declared? start sig = some found →
        ∃ i, m.Reaches start i ∧ i.DeclaresFirst sig found) ∧
      (∀ i found, m.findInterface start = some i → i.DeclaresFirst sig found →
        m.declared? start sig = some found) ∧
      ∀ sig' : Signature, sig.matches sig' = true →
        m.declared? start sig = m.declared? start sig' ∧
          ∀ c : Class, m.contractOf? c sig = m.contractOf? c sig' := by
  refine ⟨m.exists_finds sig, fun answer => Model.finds_iff, ?_, ?_, ?_, ?_⟩
  · simp only [Model.isSome_declared?_iff, Interface.isSome_method?_iff]
  · intro found hfound
    obtain ⟨name, hname, i, hreach, hmethod⟩ := (Model.finds_iff.mpr hfound).reaches
    obtain rfl := List.mem_singleton.mp hname
    exact ⟨i, hreach, Interface.method?_eq_some_iff.mp hmethod⟩
  · intro i found hfind hfirst
    have hmethod := Interface.method?_eq_some_iff.mpr hfirst
    exact Model.finds_iff.mp (.declared List.not_mem_nil hfind hmethod)
  · intro sig' hmatches
    exact ⟨Model.declared?_congr hmatches m start, Model.contractOf?_congr hmatches m⟩

/-! ## A harbor whose interfaces extend one another in a circle -/

/-- Extends a crane, a dock and something that nobody declares. -/
def Interface.pier : Interface :=
  ⟨"Pier", ["Crane", "M.Dock", "Buoy"], []⟩

def Interface.dock : Interface :=
  ⟨"Dock", ["Pier"], [⟨⟨"load", [⟨"weight", "Int"⟩]⟩, []⟩]⟩

def Interface.crane : Interface :=
  ⟨"Crane", ["Pier", "M.Crane"], [⟨⟨"load", [⟨"mass", "Int"⟩]⟩, []⟩]⟩

/-- The second declaration of `Dock` is never found. -/
def Model.harbor : Model :=
  ⟨[⟨"M", [.pier, .dock, .crane, ⟨"Dock", [], [⟨⟨"stop", []⟩, []⟩]⟩], [], none⟩]⟩

/-- From the pier, `load` is found at the dock, and from the crane it is found there, whatever the
parameter is called. The search for `stop` goes round the circle and ends; nothing that the pier
leads to declares it. -/
theorem found_through_parents_harbor :
    (∃ found, Model.harbor.declared? "M.Pier" ⟨"load", [⟨"n", "Int"⟩]⟩ = some found ∧
      Model.harbor.Reaches "M.Pier" .dock ∧
      Interface.dock.DeclaresFirst ⟨"load", [⟨"n", "Int"⟩]⟩ found) ∧
    (∃ found ∈ Interface.crane.methods,
      Model.harbor.declared? "M.Crane" ⟨"load", [⟨"n", "Int"⟩]⟩ = some found) ∧
    Model.harbor.declared? "M.Pier" ⟨"load", [⟨"n", "Int"⟩]⟩ =
      Model.harbor.declared? "M.Pier" ⟨"load", [⟨"weight", "Int"⟩]⟩ ∧
    ¬ ∃ i, Model.harbor.Reaches "M.Pier" i ∧
      ∃ d ∈ i.methods, d.sig.matches ⟨"stop", []⟩ = true := by
  have hpier : Model.harbor.findInterface "M.Pier" = some .pier := by rfl
  have hdock : Model.harbor.findInterface "M.Dock" = some .dock := by rfl
  have hcrane : Model.harbor.findInterface "M.Crane" = some .crane := by rfl
  have hload : Interface.dock.DeclaresFirst ⟨"load", [⟨"n", "Int"⟩]⟩
      ⟨⟨"load", [⟨"weight", "Int"⟩]⟩, []⟩ := ⟨by decide, [], [], rfl, by simp⟩
  have hlift : Interface.crane.DeclaresFirst ⟨"load", [⟨"n", "Int"⟩]⟩
      ⟨⟨"load", [⟨"mass", "Int"⟩]⟩, []⟩ := ⟨by decide, [], [], rfl, by simp⟩
  obtain ⟨-, -, -, -, hown, -⟩ :=
    found_through_parents Model.harbor "M.Crane" ⟨"load", [⟨"n", "Int"⟩]⟩
  obtain ⟨-, -, -, -, -, hcongr⟩ :=
    found_through_parents Model.harbor "M.Pier" ⟨"load", [⟨"n", "Int"⟩]⟩
  obtain ⟨-, -, hstop, -⟩ := found_through_parents Model.harbor "M.Pier" ⟨"stop", []⟩
  refine ⟨⟨_, rfl, .inherited hpier (by decide) (.itself hdock), hload⟩,
    ⟨_, by simp [Interface.crane], hown _ _ hcrane hlift⟩, (hcongr _ (by decide)).1, ?_⟩
  rw [← hstop]
  simp only [Bool.not_eq_true]
  rfl

end HybridObjects
