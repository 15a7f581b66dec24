import HybridObjects.Proofs.Artifacts
import HybridObjects.Proofs.CallContracts
import HybridObjects.Proofs.Strategies
import HybridObjects.Proofs.Translatable

/-!
# HybridObjects.Proofs.Controllers

Which methods control a class, and what the check for Zeno freedom makes of all the others.

`classified_once`: in a class whose methods have signatures that do not match, the controllers are
the methods that `Class.Controls` describes by the shape of their code. If there are any, the check
has one obligation for each of them and one violation for each other method that changes the state,
both in the order of the methods.

* `Class.HasFirst`     — the first method of a name, and all the others.
* `Class.Controls`     — the method controls the class.
* `Class.isControllable_iff`, `Method.isController_iff` — the tests by which controllers are found.
-/

namespace HybridObjects

/-! ## What controls a class -/

/-- The first method with a name, and the other methods. -/
def Class.HasFirst (c : Class) (name : String) (m : Method) (others : List Method) : Prop :=
  ∃ before after, c.methods = before ++ m :: after ∧ others = before ++ after ∧
    m.sig.name = name ∧ ∀ other ∈ before, other.sig.name ≠ name

namespace Method

/-- The body consists of asynchronous calls. -/
def OnlyDispatches (m : Method) : Prop :=
  ∀ s ∈ m.body, ∃ callee interface called args,
    s = .eval (.effect (.asyncCall callee interface called args))

/-- Past its leading guard the method reads no future, lets no time pass, makes no synchronous call
and calls nothing that matches the signature, at any depth. -/
def StaysPrompt (m : Method) (run : Signature) : Prop :=
  ∀ s : Stmt, s.StandsIn m.afterGuard →
    (∀ future, s.effect? ≠ some (.get future)) ∧ (∀ min max, s ≠ .duration min max) ∧
      (∀ callee interface called args, s.effect? ≠ some (.syncCall callee interface called args)) ∧
      ∀ callee interface called args, s.effect? = some (.asyncCall callee interface called args) →
        called.matches run = false

/-- The method waits for a condition on the continuous state or for time to pass, acts without
waiting for anything else, and calls itself again on `this`. -/
def Recurs (m : Method) : Prop :=
  ∃ guard middle interface called args,
    m.body = .await guard :: middle ++ [.eval (.effect (.asyncCall .this interface called args))] ∧
      ((∃ e, guard = .differential e) ∨ ∃ e, guard = .duration e) ∧
      (∀ s : Stmt, s.StandsIn middle →
        (∀ g, s ≠ .await g) ∧ ∀ future, s.effect? ≠ some (.get future)) ∧
      called.matches m.sig = true

/-- The method assigns a field or creates an object, at any depth. -/
def ChangesState (m : Method) : Prop :=
  ∃ s : Stmt, s.StandsIn m.body ∧
    ((∃ x value, s = .assign (.field x) value) ∨
      ∃ className args, s.effect? = some (.create className args))

end Method

/-- A statement of the block calls a matching signature on `this`, in any way and at any depth. -/
def Block.CallsOnThis (b : Block) (sig : Signature) : Prop :=
  ∃ s : Stmt, s.StandsIn b ∧ ∃ interface called args, called.matches sig = true ∧
    (s.effect? = some (.asyncCall .this interface called args) ∨
      s.effect? = some (.syncCall .this interface called args))

/-- The method controls the class: the first method `run` only dispatches, the other methods stay
prompt, the initializer or `run` calls the method on `this`, and the method recurs. -/
def Class.Controls (c : Class) (m : Method) : Prop :=
  ∃ run others, c.HasFirst "run" run others ∧ run.OnlyDispatches ∧
    (∀ other ∈ others, other.StaysPrompt run.sig) ∧
    ((∃ init, c.init = some init ∧ init.CallsOnThis m.sig) ∨
      Block.CallsOnThis run.body m.sig) ∧
    m.Recurs

/-! ## Statements -/

namespace Stmt

variable {s : Stmt}

theorem isDispatch_iff : s.isDispatch = true ↔
    ∃ callee interface called args,
      s = .eval (.effect (.asyncCall callee interface called args)) := by
  unfold isDispatch
  split
  · simp
  · next hnot =>
    simp only [Bool.false_eq_true, false_iff]
    rintro ⟨callee, interface, called, args, rfl⟩
    exact hnot _ _ _ _ rfl

theorem callsBack_iff {sig : Signature} : s.callsBack sig = true ↔
    ∃ interface called args, s = .eval (.effect (.asyncCall .this interface called args)) ∧
      called.matches sig = true := by
  unfold callsBack
  split
  · simp
  · next hnot =>
    simp only [Bool.false_eq_true, false_iff]
    rintro ⟨interface, called, args, rfl, -⟩
    exact hnot _ _ _ rfl

end Stmt

/-! ## Blocks -/

namespace Block

variable {b : Block}

theorem any_stmts_iff {test : Stmt → Bool} :
    b.stmts.any test = true ↔ ∃ s : Stmt, s.StandsIn b ∧ test s = true := by
  simp only [List.any_eq_true, mem_stmts_iff]

theorem any_selfCalls_iff {sig : Signature} :
    (b.selfCalls.any fun called => called.matches sig) = true ↔ b.CallsOnThis sig := by
  simp only [selfCalls, List.any_eq_true, List.mem_filterMap, mem_stmts_iff,
    Stmt.selfCall?_eq_some_iff]
  constructor
  · rintro ⟨called, ⟨s, hs, interface, args, heffect⟩, hmatches⟩
    exact ⟨s, hs, interface, called, args, hmatches, heffect⟩
  · rintro ⟨s, hs, interface, called, args, hmatches, heffect⟩
    exact ⟨called, ⟨s, hs, interface, args, heffect⟩, hmatches⟩

end Block

namespace Method

variable {m : Method}

theorem changesState_iff : Block.changesState m.body = true ↔ m.ChangesState := by
  have hcreations : (!(Block.creations m.body).isEmpty) = true ↔
      ∃ s : Stmt, s.StandsIn m.body ∧ ∃ className, s.creation? = some className := by
    rw [Bool.not_eq_true', List.isEmpty_eq_false_iff_exists_mem]
    simp only [Block.creations, List.mem_filterMap, Block.mem_stmts_iff]
    exact ⟨fun ⟨className, s, hs, h⟩ => ⟨s, hs, className, h⟩,
      fun ⟨s, hs, className, h⟩ => ⟨className, s, hs, h⟩⟩
  rw [Block.changesState, Bool.or_eq_true, Block.writesField, Block.any_stmts_iff, hcreations,
    ChangesState, ← exists_or]
  simp only [Stmt.writesField_iff, Stmt.creation?_eq_some_iff, and_or_left]

theorem isPrompt_iff {run : Signature} : m.isPrompt run = true ↔ m.StaysPrompt run := by
  simp only [isPrompt, Bool.and_eq_true, Block.containsGet, Block.containsDuration,
    Block.containsSyncCall, Stmt.isGet_iff, Stmt.isDuration_iff, Stmt.isSyncCall_iff,
    Bool.not_eq_true', List.any_eq_false, Block.calls, List.mem_filterMap, Block.mem_stmts_iff,
    Stmt.call?_eq_some_iff]
  constructor
  · rintro ⟨⟨⟨hget, hduration⟩, hsync⟩, hcalls⟩ s hs
    refine ⟨fun future h => hget s hs ⟨future, h⟩,
      fun min max h => hduration s hs ⟨min, max, h⟩,
      fun callee interface called args h => hsync s hs ⟨callee, interface, called, args, h⟩,
      fun callee interface called args h => ?_⟩
    exact Bool.not_eq_true _ ▸ hcalls called ⟨s, hs, callee, interface, args, .inl h⟩
  · intro h
    refine ⟨⟨⟨fun s hs ⟨future, hget⟩ => (h s hs).1 future hget,
      fun s hs ⟨min, max, hduration⟩ => (h s hs).2.1 min max hduration⟩,
      fun s hs ⟨callee, interface, called, args, hsync⟩ =>
        (h s hs).2.2.1 callee interface called args hsync⟩, ?_⟩
    rintro called ⟨s, hs, callee, interface, args, hasync | hsync⟩
    · simp [(h s hs).2.2.2 callee interface called args hasync]
    · exact absurd hsync ((h s hs).2.2.1 callee interface called args)

/-- A leading guard is the guard of an `await` in first position, and speaks of the continuous
state or of time. -/
theorem leadingGuard_isSome_iff : m.leadingGuard.isSome = true ↔
    ∃ guard rest, m.body = .await guard :: rest ∧
      ((∃ e, guard = .differential e) ∨ ∃ e, guard = .duration e) := by
  unfold leadingGuard
  split
  · simp_all
  · simp_all
  · next hdifferential hduration =>
    simp only [Option.isSome_none, Bool.false_eq_true, false_iff]
    rintro ⟨guard, rest, hbody, ⟨e, rfl⟩ | ⟨e, rfl⟩⟩
    · exact hdifferential e rest hbody
    · exact hduration e rest hbody

/-- The statements between the first and the last one are only looked at in a body of at least two,
since the `await` in first position does not call back. -/
theorem isController_iff {reachable : List Signature} :
    m.isController reachable = true ↔
      (reachable.any fun sig => sig.matches m.sig) = true ∧ m.Recurs := by
  have hmiddle : ∀ (first last : Stmt) (b : Block), Block.middle (first :: b ++ [last]) = b := by
    simp [Block.middle]
  simp only [isController, Bool.and_eq_true, leadingGuard_isSome_iff, Bool.not_eq_true',
    List.any_eq_false, Block.mem_stmts_iff, Stmt.isSuspension_iff, not_or, not_exists]
  constructor
  · rintro ⟨⟨⟨⟨guard, rest, hbody, hguard⟩, hreachable⟩, hlast⟩, hcalm⟩
    refine ⟨hreachable, ?_⟩
    rcases List.eq_nil_or_concat rest with rfl | ⟨middle, last, rfl⟩
    · rw [hbody] at hlast
      cases hlast
    · rw [List.concat_eq_append, ← List.cons_append] at hbody
      rw [hbody, List.getLast?_concat] at hlast
      obtain ⟨interface, called, args, rfl, hmatches⟩ := Stmt.callsBack_iff.mp hlast
      rw [hbody, hmiddle] at hcalm
      exact ⟨guard, middle, interface, called, args, hbody, hguard, hcalm, hmatches⟩
  · rintro ⟨hreachable, guard, middle, interface, called, args, hbody, hguard, hcalm, hmatches⟩
    refine ⟨⟨⟨⟨guard, _, hbody, hguard⟩, hreachable⟩, ?_⟩, ?_⟩
    · rw [hbody, List.getLast?_concat]
      exact Stmt.callsBack_iff.mpr ⟨interface, called, args, rfl, hmatches⟩
    · rw [hbody, hmiddle]
      exact hcalm

end Method

/-! ## Classes -/

theorem Signature.matches_comm (a b : Signature) : a.matches b = b.matches a := by
  rw [Bool.eq_iff_iff, matches_iff, matches_iff]
  exact and_congr eq_comm eq_comm

/-- Dropping signatures that earlier ones match loses none up to matching. -/
theorem any_dropMatching (sigs : List Signature) (sig : Signature) :
    ((dropMatching sigs).any fun s => s.matches sig) = sigs.any fun s => s.matches sig := by
  suffices hfold : ∀ seen : List Signature,
      ((sigs.foldl (fun seen sig => if seen.any fun s => s.matches sig then seen
        else seen ++ [sig]) seen).any fun s => s.matches sig) =
        ((seen ++ sigs).any fun s => s.matches sig) from hfold []
  induction sigs with
  | nil => simp
  | cons next sigs ih =>
    intro seen
    rw [List.foldl_cons, ih]
    split
    · next hseen =>
      -- an earlier signature matches whatever the dropped one matches
      obtain ⟨s, hs, hmatches⟩ := List.any_eq_true.mp hseen
      have hnext : next.matches sig = s.matches sig := by
        rw [Signature.matches_comm next, Signature.matches_comm s,
          Signature.matches_congr hmatches]
      have habsorbed : next.matches sig = true → (seen.any fun s => s.matches sig) = true :=
        fun h => List.any_eq_true.mpr ⟨s, hs, hnext ▸ h⟩
      rw [List.any_append, List.any_append, List.any_cons, Bool.eq_iff_iff]
      simp only [Bool.or_eq_true]
      constructor
      · exact fun h => h.imp_right .inr
      · rintro (h | h | h)
        · exact .inl h
        · exact .inl (habsorbed h)
        · exact .inr h
    · rw [List.append_assoc, List.singleton_append]

namespace Class

variable {c : Class} {m run : Method}

theorem runMethod?_eq_some_iff :
    c.runMethod? = some run ↔ ∃ others, c.HasFirst "run" run others := by
  simp only [runMethod?, method?, List.find?_eq_some_iff_append, HasFirst]
  constructor
  · rintro ⟨hname, before, after, hmethods, hbefore⟩
    exact ⟨before ++ after, before, after, hmethods, rfl, by simpa using hname,
      by simpa using hbefore⟩
  · rintro ⟨_, before, after, hmethods, -, hname, hbefore⟩
    exact ⟨by simpa using hname, before, after, hmethods, by simpa using hbefore⟩

theorem any_reachableFromInit_iff {sig : Signature} :
    (c.reachableFromInit.any fun s => s.matches sig) = true ↔
      (∃ init, c.init = some init ∧ init.CallsOnThis sig) ∨
        ∃ run, c.runMethod? = some run ∧ Block.CallsOnThis run.body sig := by
  rw [reachableFromInit, any_dropMatching, List.any_append, Bool.or_eq_true]
  apply or_congr
  · cases c.init with
    | none => simp
    | some init => simp [← Block.any_selfCalls_iff]
  · cases c.runMethod? with
    | none => simp
    | some run => simp [← Block.any_selfCalls_iff]

section

variable (hmethods : c.methods.Pairwise fun a b => a.sig.matches b.sig = false)
include hmethods

/-- The methods whose signatures do not match that of one method are all the others. -/
theorem filter_not_matches {name : String} {others : List Method}
    (h : c.HasFirst name m others) :
    (c.methods.filter fun m' => !m'.sig.matches m.sig) = others := by
  obtain ⟨before, after, hsplit, rfl, -, -⟩ := h
  rw [hsplit] at hmethods ⊢
  obtain ⟨-, hafter, hbefore⟩ := List.pairwise_append.mp hmethods
  have hkept : (before.filter fun m' => !m'.sig.matches m.sig) = before :=
    List.filter_eq_self.mpr fun m' hm' => by simp [hbefore m' hm' m List.mem_cons_self]
  have hkept' : (after.filter fun m' => !m'.sig.matches m.sig) = after :=
    List.filter_eq_self.mpr fun m' hm' => by
      simp [Signature.matches_comm m'.sig, (List.pairwise_cons.mp hafter).1 m' hm']
  rw [List.filter_append, List.filter_cons, hkept, hkept', Signature.matches_self]
  rfl

theorem isControllable_iff : c.isControllable = true ↔
    ∃ run others, c.HasFirst "run" run others ∧ run.OnlyDispatches ∧
      ∀ other ∈ others, other.StaysPrompt run.sig := by
  have hchecked : ∀ run others, c.HasFirst "run" run others →
      (c.isControllable = true ↔
        run.OnlyDispatches ∧ ∀ other ∈ others, other.StaysPrompt run.sig) := by
    intro run others hfirst
    rw [isControllable, runMethod?_eq_some_iff.mpr ⟨others, hfirst⟩]
    simp only [filter_not_matches hmethods hfirst, Bool.and_eq_true, List.all_eq_true,
      Stmt.isDispatch_iff, Method.isPrompt_iff, Method.OnlyDispatches]
  constructor
  · intro h
    cases hrun : c.runMethod? with
    | none =>
      rw [isControllable, hrun] at h
      cases h
    | some run =>
      obtain ⟨others, hfirst⟩ := runMethod?_eq_some_iff.mp hrun
      exact ⟨run, others, hfirst, (hchecked run others hfirst).mp h⟩
  · rintro ⟨run, others, hfirst, h⟩
    exact (hchecked run others hfirst).mpr h

theorem controls_iff : c.Controls m ↔
    c.isControllable = true ∧ m.isController c.reachableFromInit = true := by
  rw [isControllable_iff hmethods, Method.isController_iff, any_reachableFromInit_iff]
  constructor
  · rintro ⟨run, others, hfirst, hdispatches, hprompt, hcalled, hrecurs⟩
    refine ⟨⟨run, others, hfirst, hdispatches, hprompt⟩, hcalled.imp_right fun h => ?_, hrecurs⟩
    exact ⟨run, runMethod?_eq_some_iff.mpr ⟨others, hfirst⟩, h⟩
  · rintro ⟨⟨run, others, hfirst, hdispatches, hprompt⟩, hcalled, hrecurs⟩
    refine ⟨run, others, hfirst, hdispatches, hprompt, hcalled.imp_right ?_, hrecurs⟩
    rintro ⟨run', hrun', h⟩
    rw [runMethod?_eq_some_iff.mpr ⟨others, hfirst⟩] at hrun'
    cases hrun'
    exact h

theorem eq_of_matches {m' : Method} (hm : m ∈ c.methods) (hm' : m' ∈ c.methods)
    (h : m.sig.matches m'.sig = true) : m = m' := by
  have hsame := methodBySig?_congr h c
  rw [methodBySig?_of_mem hm hmethods, methodBySig?_of_mem hm' hmethods] at hsame
  exact Option.some.inj hsame

end

end Class

/-! ## Checks -/

namespace Profile

variable {p : Profile} {log log' : Log}

section

variable {c : Class} {model : Model} {requested : Strategy} {m : Method}
  (hprofile : Profile.of model c requested log = .ok p log')
  (hmethods : c.methods.Pairwise fun a b => a.sig.matches b.sig = false)
include hprofile hmethods

open Classical in
theorem controllers_eq :
    p.controllers = (c.methods.filter fun m => c.Controls m).map Method.sig := by
  obtain ⟨controllers, hfound, hnames, -, -⟩ := (isOf_of hprofile).control
  simp only [Class.controls_iff hmethods]
  by_cases hc : c.isControllable = true
  · rw [hnames, (Class.controllers_eq_ok hfound hc).1]
    simp [hc, Class.controllerMethods]
  · rw [Class.controllers, if_neg hc] at hfound
    cases hfound
    simp [hnames, hc]

/-- Only a method of the class itself has a signature that matches its own. -/
theorem isController_iff (hm : m ∈ c.methods) : p.isController m.sig = true ↔ c.Controls m := by
  simp only [isController, controllers_eq hprofile hmethods, List.any_eq_true, List.mem_map,
    List.mem_filter, decide_eq_true_eq]
  constructor
  · rintro ⟨_, ⟨m', ⟨hm', hcontrols⟩, rfl⟩, hmatches⟩
    exact Class.eq_of_matches hmethods hm' hm hmatches ▸ hcontrols
  · intro hcontrols
    exact ⟨m.sig, ⟨m, ⟨hm, hcontrols⟩, rfl⟩, Signature.matches_self m.sig⟩

theorem mem_controllers_iff (hm : m ∈ c.methods) : m.sig ∈ p.controllers ↔ c.Controls m := by
  rw [← isController_iff hprofile hmethods hm, isController, List.any_eq_true]
  constructor
  · exact fun h => ⟨m.sig, h, Signature.matches_self m.sig⟩
  · rintro ⟨sig, hsig, hmatches⟩
    simp only [controllers_eq hprofile hmethods, List.mem_map, List.mem_filter,
      decide_eq_true_eq] at hsig ⊢
    obtain ⟨m', ⟨hm', hcontrols⟩, rfl⟩ := hsig
    exact ⟨m', ⟨hm', hcontrols⟩, by rw [Class.eq_of_matches hmethods hm' hm hmatches]⟩

end

end Profile

open Classical in
/-- The controllers of a class are the methods that control it, in the order of the methods. If
there are any, a check that succeeds has one obligation for each of them, and one violation for each
other method that changes the state. -/
theorem classified_once {model : Model} {c : Class} {requested : Strategy} {p : Profile}
    {log log' : Log} (hprofile : Profile.of model c requested log = .ok p log')
    (hmethods : c.methods.Pairwise fun a b => a.sig.matches b.sig = false) :
    (∀ m ∈ c.methods, m.sig ∈ p.controllers ↔ c.Controls m) ∧
      p.controllers = (c.methods.filter fun m => c.Controls m).map Method.sig ∧
      ∀ {log₁ log₂ : Log} {check : ZenoCheck}, p.controllers ≠ [] →
        p.zenoCheck log₁ = .ok check log₂ →
        List.Forall₂
            (fun m o => o.place = (c.name, "zeno_" ++ m.sig.name) ∧
              ∃ log₃ log₄, p.zenoObligation m log₃ = .ok o log₄)
            (c.methods.filter fun m => c.Controls m) check.obligations ∧
          check.violations =
            (c.methods.filter fun m => ¬ c.Controls m ∧ m.ChangesState).map
              fun m => m.sig.name := by
  refine ⟨fun m hm => Profile.mem_controllers_iff hprofile hmethods hm,
    Profile.controllers_eq hprofile hmethods, ?_⟩
  intro log₁ log₂ check hsome hcheck
  rw [Profile.zenoCheck, if_neg (by simpa using hsome)] at hcheck
  have howner := (Profile.isOf_of hprofile).owner_eq
  obtain ⟨hobligations, hviolations⟩ := Profile.checkMethods_classifies hcheck
  rw [howner] at hobligations hviolations
  have hcontrollers : (c.methods.filter fun m => c.Controls m) =
      c.methods.filter fun m => p.isController m.sig := by
    refine List.filter_congr fun m hm => ?_
    rw [Bool.eq_iff_iff, decide_eq_true_iff, Profile.isController_iff hprofile hmethods hm]
  constructor
  · rw [hcontrollers]
    refine hobligations.imp ?_
    rintro m o ⟨log₃, log₄, ho⟩
    exact ⟨by rw [Profile.place_zenoObligation ho, howner], log₃, log₄, ho⟩
  · rw [hviolations]
    congr 1
    refine List.filter_congr fun m hm => ?_
    rw [Bool.eq_iff_iff, decide_eq_true_iff, Bool.and_eq_true, Bool.not_eq_true',
      ← Bool.not_eq_true, Profile.isController_iff hprofile hmethods hm, Method.changesState_iff]

/-! ## A kiln -/

namespace Method

/-- Starts the controller of the kiln. -/
def ignite : Method :=
  ⟨⟨"run", []⟩, [.eval (.effect (.asyncCall .this none ⟨"control", []⟩ []))], []⟩

/-- Waits until the kiln is hot, cools it, and starts anew. -/
def control : Method :=
  ⟨⟨"control", []⟩,
    [.await (.differential (.binary .ge (.field "x") (.int "9"))),
      .cond (.binary .gt (.field "x") (.int "0")) [.assign (.field "x") (.pure (.int "0"))] none,
      .eval (.effect (.asyncCall .this none ⟨"control", []⟩ []))], []⟩

/-- Cools the kiln at any time. -/
def quench : Method :=
  ⟨⟨"quench", []⟩, [.block [.assign (.field "x") (.pure (.int "0"))]], []⟩

/-- Tells how hot the kiln is. -/
def gauge : Method :=
  ⟨⟨"gauge", []⟩, [.ret (.field "x")], []⟩

end Method

def Class.kiln : Class :=
  { name := "Kiln"
    params := []
    fields := []
    physical := some ⟨[⟨"x", .int "0", ⟨.derivative (.field "x"), .int "1"⟩⟩], []⟩
    init := none
    methods := [.ignite, .quench, .control, .gauge]
    implements := []
    annotations := [] }

def Profile.kiln : Profile :=
  { model := ⟨[]⟩
    owner := .kiln
    strategy := .uniform
    ode := ⟨[("x", .num "1")]⟩
    invariant := .verum
    precondition := .verum
    controllers := [⟨"control", []⟩]
    controllerGuards := [.cmp .ge (.var "x") (.num "9")] }

open Classical in
/-- The kiln has one controller; of the other methods one cools it inside of a block. -/
theorem classified_once_kiln : ∃ log log' check,
    Profile.of ⟨[]⟩ .kiln .uniform [] = .ok .kiln log ∧
      Profile.kiln.zenoCheck log = .ok check log' ∧
      (check.obligations.map Obligation.place = [("Kiln", "zeno_control")]) ∧
      check.violations = ["quench"] ∧
      (∀ m ∈ Class.kiln.methods, m.sig ∈ Profile.kiln.controllers ↔ Class.kiln.Controls m) ∧
      check.violations =
        (Class.kiln.methods.filter fun m => ¬ Class.kiln.Controls m ∧ m.ChangesState).map
          fun m => m.sig.name := by
  have hprofile : ∃ log, Profile.of ⟨[]⟩ .kiln .uniform [] = .ok .kiln log := ⟨_, rfl⟩
  obtain ⟨log, hprofile⟩ := hprofile
  have hcheck : ∃ check log', Profile.kiln.zenoCheck log = .ok check log' ∧
      check.obligations.map Obligation.place = [("Kiln", "zeno_control")] ∧
      check.violations = ["quench"] := ⟨_, _, rfl, rfl, rfl⟩
  obtain ⟨check, log', hcheck, hplaces, hviolations⟩ := hcheck
  have hmethods : Class.kiln.methods.Pairwise fun a b => a.sig.matches b.sig = false := by
    decide
  obtain ⟨hmem, -, hclassified⟩ := classified_once hprofile hmethods
  exact ⟨log, log', check, hprofile, hcheck, hplaces, hviolations, hmem,
    (hclassified (by decide) hcheck).2⟩

end HybridObjects
