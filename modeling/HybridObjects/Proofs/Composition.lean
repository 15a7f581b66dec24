import HybridObjects.Proofs.Assembly
import HybridObjects.Proofs.Silence
import HybridObjects.Session.Batch
import Mathlib.Data.List.Forall2

/-!
# HybridObjects.Proofs.Composition

How runs are composed. `runs_compose`: the run of a class is the run of its initializer followed by
the runs of its methods; the run of a whole model never fails, and it is the runs of its physical
classes, with one lost outcome for each class that has no profile, followed by the run of the main
block. In all of them the verdict on one artifact decides the verdict of its own outcome and nothing
else.

Runs are compared by what they report, by the files that they leave, and by what the backend has
written to the log. A backend that records its submissions writes down each path and the text that
it finds there, so that runs that agree have submitted the same texts in the same order.

* `World.Alike`       — worlds that no backend can tell apart.
* `Backend.Matches`   — backends that differ in their verdicts only.
* `Backend.Blind`     — backends that do not read what others have written to the log.
* `Batch.ends_run`    — the same run with other verdicts.
* `Performs`          — a run does what some checks do.
-/

namespace HybridObjects

/-! ## Worlds -/

/-- The same files, and the same entries of the prover. -/
structure World.Alike (w u : World) : Prop where
  files : w.files = u.files
  asked : ofProver w.log = ofProver u.log

namespace World.Alike

variable {w u v : World}

theorem refl (w : World) : w.Alike w :=
  ⟨rfl, rfl⟩

theorem symm (h : w.Alike u) : u.Alike w :=
  ⟨h.files.symm, h.asked.symm⟩

theorem trans (h : w.Alike u) (h' : u.Alike v) : w.Alike v :=
  ⟨h.files.trans h'.files, h.asked.trans h'.asked⟩

theorem of_alike {w' u' : World} (h : w.Alike u) (h' : w'.Alike w ∧ u'.Alike u) : w'.Alike u' :=
  h'.1.trans (h.trans h'.2.symm)

theorem note_left (h : w.Alike u) {component : Component} (hcomponent : component ≠ .prover)
    (level : Level) (text : String) : (w.note level component text).Alike u :=
  ⟨h.files, (ofProver_append_of_ne hcomponent).trans h.asked⟩

theorem note_batch (h : w.Alike u) (level : Level) (text text' : String) :
    (w.note level .batch text).Alike (u.note level .batch text') :=
  ((h.note_left (by decide) level text).symm.note_left (by decide) level text').symm

theorem note_prover (h : w.Alike u) (level : Level) (text : String) :
    (w.note level .prover text).Alike (u.note level .prover text) := by
  refine ⟨h.files, ?_⟩
  change ofProver (w.log ++ _) = ofProver (u.log ++ _)
  have hasked := h.asked
  simp only [ofProver] at hasked
  rw [ofProver, ofProver, List.filter_append, List.filter_append, hasked]

end World.Alike

/-! ## Backends -/

/-- From worlds that are alike the two backends leave worlds that are alike, and their verdicts are
related by `V`. -/
structure Backend.Matches (V : Path → Verdict → Verdict → Prop) (backend backend' : Backend) :
    Prop where
  submit : ∀ {path : Path} {w u : World}, w.Alike u →
    V path (backend path w).1 (backend' path u).1 ∧ (backend path w).2.Alike (backend' path u).2

/-- A backend that sees the files and its own entries in the log, and nothing else. -/
def Backend.Blind (backend : Backend) : Prop :=
  backend.Matches (fun _ => Eq) backend

/-- The backend with every submission written to the log: the path, and what can be read there. -/
def Backend.recorded (backend : Backend) : Backend := fun path w =>
  let w := w.note .info .prover path
  match w.files.read path with
  | .ok text => backend path (w.note .debug .prover text)
  | .error fault => backend path (w.note .error .prover fault.message)

/-- The backend whose verdict is a function of the path and of what can be read there. -/
def Backend.answering (answer : Path → Except FileFault String → Verdict) : Backend := fun path w =>
  (answer path (w.files.read path), w)

theorem Backend.Matches.recorded {V : Path → Verdict → Verdict → Prop} {backend backend' : Backend}
    (h : backend.Matches V backend') : backend.recorded.Matches V backend'.recorded := by
  constructor
  intro path w u hwu
  have hpath := hwu.note_prover .info path
  unfold Backend.recorded
  dsimp only
  rw [hpath.files]
  split
  · exact h.submit (hpath.note_prover _ _)
  · exact h.submit (hpath.note_prover _ _)

theorem Backend.matches_answering (answer answer' : Path → Except FileFault String → Verdict) :
    (Backend.answering answer).Matches
      (fun path v v' => ∃ content, v = answer path content ∧ v' = answer' path content)
      (Backend.answering answer') := by
  constructor
  intro path w u hwu
  exact ⟨⟨w.files.read path, rfl, by rw [Backend.answering, hwu.files]⟩, hwu⟩

theorem Backend.blind_answering (answer : Path → Except FileFault String → Verdict) :
    (Backend.answering answer).Blind := by
  constructor
  intro path w u hwu
  exact ⟨by rw [Backend.answering, Backend.answering, hwu.files], hwu⟩

theorem Backend.alike_keepLog (settings : ProverSettings) (path : Path) (output : CommandOutput)
    {w u : World} (h : w.Alike u) :
    (keepLog settings path output w).Alike (keepLog settings path output u) := by
  have hnote := h.note_prover .debug ("writing prover log to " ++ settings.logFile path)
  unfold keepLog
  split
  · dsimp only
    rw [hnote.files]
    split
    · exact ⟨rfl, hnote.asked⟩
    · exact hnote.note_prover _ _
  · exact h

theorem Backend.alike_judge (settings : ProverSettings) (path : Path) (result : CommandResult)
    {w u : World} (h : w.Alike u) :
    (judge settings path result w).1 = (judge settings path result u).1 ∧
      (judge settings path result w).2.Alike (judge settings path result u).2 := by
  cases result with
  | timedOut | refused fault => exact ⟨rfl, h.note_prover _ _⟩
  | finished output =>
    have hkept := alike_keepLog settings path output h
    unfold judge
    dsimp only
    split
    · exact ⟨rfl, hkept⟩
    · exact ⟨rfl, hkept.note_prover _ _⟩

/-- The prover is run on the files, so what has been logged by others has no influence on it. -/
theorem Backend.blind_prover (launcher : Launcher) (settings : ProverSettings) :
    (Backend.prover launcher settings).Blind := by
  constructor
  intro path w u hwu
  unfold Backend.prover
  split
  · have hnoted := (hwu.note_prover .info ("running KeYmaera X on " ++ path)).note_prover .debug
      ("command line: " ++ " ".intercalate (settings.command path))
    dsimp only
    rw [hnoted.files]
    exact alike_judge settings path _ hnoted
  · exact ⟨rfl, hwu.note_prover _ _⟩

/-! ## Steps of a run -/

namespace Run

variable {w u : World}

theorem ends_changeFiles (change : FileTree.Change) (h : w.Alike u) :
    Ends Eq World.Alike (changeFiles change w) (changeFiles change u) := by
  unfold changeFiles
  rw [h.files]
  split
  · exact .ok rfl ⟨rfl, h.asked⟩
  · exact .error ⟨rfl, h.asked⟩

theorem ends_writeFile (path : Path) (text : String) (h : w.Alike u) :
    Ends Eq World.Alike (writeFile path text w) (writeFile path text u) := by
  unfold writeFile
  rw [h.files]
  split
  · exact .ok rfl ⟨rfl, h.asked⟩
  · exact .error h

/-- Generation comes to the same in all worlds, and leaves them as no backend can tell them from
before. -/
theorem ends_logged {α : Type} {x : Logged α} (hx : x.Silent) (w u : World) :
    Ends Eq (fun w' u' => w'.Alike w ∧ u'.Alike u) (logged x w) (logged x u) := by
  have hends := hx.ends (s := w.log) (t := u.log) rfl
  unfold logged
  generalize x w.log = r at hends ⊢
  generalize x u.log = q at hends ⊢
  cases hends with
  | ok ha hlog => exact .ok ha ⟨⟨rfl, hlog.2.1⟩, ⟨rfl, hlog.2.2⟩⟩
  | error hlog => exact .error ⟨⟨rfl, hlog.2.1⟩, ⟨rfl, hlog.2.2⟩⟩

/-- What generation comes to with an empty log, it comes to in every world. -/
theorem logged_of_ok {α : Type} {x : Logged α} (hx : x.Silent) {a : α} {log : Log}
    (h : x [] = .ok a log) (w : World) : ∃ w', logged x w = .ok a w' ∧ w'.Alike w := by
  have hends := ends_logged hx w ⟨w.files, []⟩
  have hempty : logged x ⟨w.files, []⟩ = .ok a ⟨w.files, log⟩ := by simp only [logged, h]
  rw [hempty] at hends
  generalize logged x w = r at hends ⊢
  cases hends with
  | ok ha hs => exact ⟨_, by rw [ha], hs.1⟩

theorem logged_of_error {α : Type} {x : Logged α} (hx : x.Silent) {e : Error} {log : Log}
    (h : x [] = .error e log) (w : World) : ∃ w', logged x w = .error e w' ∧ w'.Alike w := by
  have hends := ends_logged hx w ⟨w.files, []⟩
  have hempty : logged x ⟨w.files, []⟩ = .error e ⟨w.files, log⟩ := by simp only [logged, h]
  rw [hempty] at hends
  generalize logged x w = r at hends ⊢
  cases hends with
  | error hs => exact ⟨_, rfl, hs.1⟩

end Run

/-! ## Checks with other verdicts -/

/-- Outcomes that differ in their verdicts only, and there only if they have an artifact. -/
structure Outcome.Matches (V : Path → Verdict → Verdict → Prop) (o o' : Outcome) : Prop where
  name : o.name = o'.name
  artifact : o.artifact = o'.artifact
  verdict : o.verdict = o'.verdict ∨ ∃ path, o.artifact = some path ∧ V path o.verdict o'.verdict

/-- Reports of the same outcomes but for the verdicts on artifacts. -/
def Report.Matches (V : Path → Verdict → Verdict → Prop) (r r' : Report) : Prop :=
  List.Forall₂ (Outcome.Matches V) r.outcomes r'.outcomes

/-- Checks of the same obligations, in worlds that are alike. -/
structure ChecksMatch (V : Path → Verdict → Verdict → Prop)
    (f g : World → List Outcome × World) : Prop where
  check : ∀ {w u : World}, w.Alike u →
    List.Forall₂ (Outcome.Matches V) (f w).1 (g u).1 ∧ (f w).2.Alike (g u).2

theorem Outcome.Matches.eq {o o' : Outcome} (h : o.Matches (fun _ => Eq) o') : o = o' := by
  have hverdict : o.verdict = o'.verdict := h.verdict.elim id fun ⟨_, _, hverdict⟩ => hverdict
  cases o
  cases o'
  exact Outcome.mk.injEq .. ▸ ⟨h.name, hverdict, h.artifact⟩

theorem outcomes_eq_of_matches {os os' : List Outcome}
    (h : List.Forall₂ (Outcome.Matches fun _ => Eq) os os') : os = os' := by
  induction h with
  | nil => rfl
  | cons ho _ ih => rw [ho.eq, ih]

namespace ChecksMatch

variable {V : Path → Verdict → Verdict → Prop} {f f' g g' : World → List Outcome × World}

/-- Checks one after the other. -/
theorem andThen (hf : ChecksMatch V f f') (hg : ChecksMatch V g g') :
    ChecksMatch V (fun w => ((f w).1 ++ (g (f w).2).1, (g (f w).2).2))
      (fun w => ((f' w).1 ++ (g' (f' w).2).1, (g' (f' w).2).2)) := by
  constructor
  intro w u hwu
  obtain ⟨hfirst, hwu⟩ := hf.check hwu
  obtain ⟨hrest, hwu⟩ := hg.check hwu
  exact ⟨List.rel_append hfirst hrest, hwu⟩

theorem checkAll {α : Type} {step step' : α → World → List Outcome × World}
    (h : ∀ a, ChecksMatch V (step a) (step' a)) (as : List α) :
    ChecksMatch V (Batch.checkAll step as) (Batch.checkAll step' as) := by
  induction as with
  | nil => exact ⟨fun hwu => ⟨.nil, hwu⟩⟩
  | cons a as ih => exact (h a).andThen ih

end ChecksMatch

/-- Runs over the same model with the same settings, and backends that differ in their verdicts. -/
structure Batch.Matches (V : Path → Verdict → Verdict → Prop) (b b' : Batch) : Prop where
  model : b.model = b'.model
  settings : b.settings = b'.settings
  backend : b.backend.Matches V b'.backend

/-- Verdicts with the same artifact, related by `V` unless they are the same. -/
def Batch.SameArtifact (V : Path → Verdict → Verdict → Prop) (r r' : Verdict × Option Path) :
    Prop :=
  r.2 = r'.2 ∧ (r.1 = r'.1 ∨ ∃ path, r.2 = some path ∧ V path r.1 r'.1)

namespace Batch.Matches

variable {V : Path → Verdict → Verdict → Prop} {b b' : Batch} {w u : World}

theorem ends_discharge (h : b.Matches V b') (o : Obligation) (hwu : w.Alike u) :
    Ends (SameArtifact V) World.Alike (b.discharge o w) (b'.discharge o u) := by
  unfold discharge
  cases o.problem with
  | none => exact .ok ⟨rfl, .inl rfl⟩ hwu
  | some problem =>
    rw [h.settings]
    refine Ends.bind (Run.ends_changeFiles _ hwu) ?_ fun h => h
    rintro _ _ w u - hwu
    cases problem.text with
    | error id => exact .error hwu
    | ok text =>
      simp only [pure_bind]
      refine Ends.bind (Run.ends_writeFile _ text hwu) ?_ fun h => h
      rintro _ _ w u - hwu
      obtain ⟨hverdict, hwu⟩ := h.backend.submit (hwu.note_batch .debug _ _)
      exact .ok ⟨rfl, .inr ⟨_, rfl, hverdict⟩⟩ hwu

/-- The check of one obligation that is generated silently. -/
theorem check (h : b.Matches V b') (name : String) {obligation : Logged Obligation}
    (hsilent : obligation.Silent) :
    ChecksMatch V (fun w => ([(b.check name obligation w).1], (b.check name obligation w).2))
      (fun w => ([(b'.check name obligation w).1], (b'.check name obligation w).2)) := by
  constructor
  intro w u hwu
  have hends : Ends (SameArtifact V) World.Alike
      ((Run.logged obligation >>= b.discharge) w) ((Run.logged obligation >>= b'.discharge) u) := by
    refine Ends.bind (Run.ends_logged hsilent w u) ?_ fun hs => hwu.of_alike hs
    rintro o _ w' u' rfl hs
    exact h.ends_discharge o (hwu.of_alike hs)
  unfold Batch.check
  dsimp only
  generalize (Run.logged obligation >>= b.discharge) w = r at hends ⊢
  generalize (Run.logged obligation >>= b'.discharge) u = q at hends ⊢
  cases hends with
  | ok hr hs => exact ⟨.cons ⟨rfl, hr.1, hr.2⟩ .nil, hs.note_batch _ _ _⟩
  | error hs => exact ⟨.cons ⟨rfl, rfl, .inl rfl⟩ .nil, (hs.note_batch _ _ _).note_batch _ _ _⟩

theorem checkClass (h : b.Matches V b') (p : Profile) :
    ChecksMatch V (b.checkClass p) (b'.checkClass p) :=
  (h.check _ p.silent_initObligation).andThen
    (.checkAll (fun m => h.check _ (p.silent_methodObligation m)) p.owner.methods)

theorem checkMain (h : b.Matches V b') : ChecksMatch V b.checkMain b'.checkMain := by
  unfold Batch.checkMain
  rw [h.model]
  exact h.check _ b'.model.silent_mainObligation

/-- An outcome that is noted without a check. -/
theorem conclude (V : Path → Verdict → Verdict → Prop) (name : String) (verdict : Verdict) :
    ChecksMatch V
      (fun w => ([(Batch.conclude name verdict none w).1], (Batch.conclude name verdict none w).2))
      (fun w => ([(Batch.conclude name verdict none w).1],
        (Batch.conclude name verdict none w).2)) :=
  ⟨fun hwu => ⟨.cons ⟨rfl, rfl, .inl rfl⟩ .nil, hwu.note_batch _ _ _⟩⟩

theorem checkZeno (h : b.Matches V b') (p : Profile) :
    ChecksMatch V (b.checkZeno p) (b'.checkZeno p) := by
  have hobligations : ∀ zeno : ZenoCheck, ChecksMatch V
      (checkAll (fun o w => ([(b.check o.qualifiedName (pure o) w).1],
        (b.check o.qualifiedName (pure o) w).2)) zeno.obligations)
      (checkAll (fun o w => ([(b'.check o.qualifiedName (pure o) w).1],
        (b'.check o.qualifiedName (pure o) w).2)) zeno.obligations) :=
    fun zeno => .checkAll (fun o => h.check _ (.pure o)) _
  constructor
  intro w u hwu
  have hends := Run.ends_logged p.silent_zenoCheck w u
  unfold Batch.checkZeno
  dsimp only
  generalize Run.logged p.zenoCheck w = r at hends ⊢
  generalize Run.logged p.zenoCheck u = q at hends ⊢
  cases hends with
  | error hs => exact (conclude V _ _).check ((hwu.of_alike hs).note_batch _ _ _)
  | @ok zeno _ _ _ hzeno hs =>
    subst hzeno
    dsimp only
    split
    · exact ((conclude V _ _).andThen (hobligations zeno)).check
        ((hwu.of_alike hs).note_batch _ _ _)
    · exact (hobligations zeno).check (hwu.of_alike hs)

theorem checkMember (h : b.Matches V b') (moduleName : String) (c : Class) :
    ChecksMatch V (b.checkMember moduleName c) (b'.checkMember moduleName c) := by
  constructor
  intro w u hwu
  have hends := Run.ends_logged (Profile.silent_of b'.model c b'.settings.regions) w u
  unfold Batch.checkMember
  rw [h.model, h.settings]
  dsimp only
  split
  · generalize Run.logged (Profile.of b'.model c b'.settings.regions) w = r at hends ⊢
    generalize Run.logged (Profile.of b'.model c b'.settings.regions) u = q at hends ⊢
    cases hends with
    | error hs => exact (conclude V _ _).check ((hwu.of_alike hs).note_batch _ _ _)
    | @ok p _ _ _ hp hs =>
      subst hp
      exact (h.checkClass p).check (hwu.of_alike hs)
  · exact ⟨.nil, hwu.note_batch _ _ _⟩

theorem checkFull (h : b.Matches V b') : ChecksMatch V b.checkFull b'.checkFull := by
  have hclasses := ChecksMatch.checkAll (fun mod : Module =>
    ChecksMatch.checkAll (h.checkMember mod.name) mod.classes) b'.model.userModules
  have hmain : ChecksMatch V
      (fun w => if b'.model.mainBlock?.isSome then b.checkMain w
        else ([], w.note .warn .batch "model contains no main block"))
      (fun w => if b'.model.mainBlock?.isSome then b'.checkMain w
        else ([], w.note .warn .batch "model contains no main block")) := by
    cases b'.model.mainBlock?.isSome with
    | true => exact h.checkMain
    | false => exact ⟨fun hwu => ⟨.nil, hwu.note_batch _ _ _⟩⟩
  unfold Batch.checkFull
  rw [h.model]
  exact hclasses.andThen hmain

theorem ends_report {f f' : World → List Outcome × World} (hf : ChecksMatch V f f')
    (hwu : w.Alike u) : Ends (Report.Matches V) World.Alike (report f w) (report f' u) :=
  .ok (hf.check hwu).1 (hf.check hwu).2

/-- A run that finds a class, makes its profile and checks something by it. -/
theorem ends_onClass {α : Type} (h : b.Matches V b') (found : Except Error α) (owner : α → Class)
    {f f' : α → Profile → World → List Outcome × World}
    (hf : ∀ a p, ChecksMatch V (f a p) (f' a p)) (hwu : w.Alike u) :
    Ends (Report.Matches V) World.Alike
      ((Run.lift found >>= fun a => b.profile (owner a) >>= fun p => report (f a p)) w)
      ((Run.lift found >>= fun a => b'.profile (owner a) >>= fun p => report (f' a p)) u) := by
  cases found with
  | error e => exact .error hwu
  | ok a =>
    have hprofile : Ends Eq (fun w' u' => w'.Alike w ∧ u'.Alike u) (b.profile (owner a) w)
        (b'.profile (owner a) u) := by
      rw [profile, profile, h.model, h.settings]
      exact Run.ends_logged (Profile.silent_of _ _ _) w u
    simp only [Run.lift, pure_bind]
    refine Ends.bind hprofile ?_ fun hs => hwu.of_alike hs
    rintro p _ w' u' rfl hs
    exact ends_report (hf a p) (hwu.of_alike hs)

/-- A run with other verdicts reports the same obligations with the same artifacts, submits the same
texts, and leaves the same files. -/
theorem ends_run (h : b.Matches V b') (target : Target) (hwu : w.Alike u) :
    Ends (Report.Matches V) World.Alike (b.run target w) (b'.run target u) := by
  cases target with
  | method path =>
    rw [run, run, h.model]
    exact h.ends_onClass _ Prod.fst
      (fun a p => h.check _ (p.silent_methodObligation a.2)) hwu
  | initializer path =>
    rw [run, run, h.model]
    exact h.ends_onClass _ id (fun _ p => h.check _ p.silent_initObligation) hwu
  | wholeClass path =>
    rw [run, run, h.model]
    exact h.ends_onClass _ id (fun _ p => h.checkClass p) hwu
  | zeno path =>
    rw [run, run, h.model]
    exact h.ends_onClass _ id (fun _ p => h.checkZeno p) hwu
  | main =>
    rw [run, run, h.model]
    split
    · exact ends_report h.checkMain hwu
    · exact .error hwu
  | full => exact ends_report h.checkFull hwu

end Batch.Matches

/-! ## Names -/

/-- No two modules have the same name, nor two classes of a module, nor two methods of a class, and
the names of classes and methods have no point. -/
structure Model.Distinct (m : Model) : Prop where
  modules : (m.modules.map Module.name).Nodup
  classes : ∀ mod ∈ m.modules, (mod.classes.map Class.name).Nodup
  methods : ∀ mod ∈ m.modules, ∀ c ∈ mod.classes,
    (c.methods.map fun method => method.sig.name).Nodup
  pointless : ∀ mod ∈ m.modules, ∀ c ∈ mod.classes,
    '.' ∉ c.name.toList ∧ ∀ method ∈ c.methods, '.' ∉ method.sig.name.toList

theorem Text.splitLast?_eq_none {sep : Char} {cs : List Char} (h : sep ∉ cs) :
    splitLast? sep cs = none := by
  induction cs with
  | nil => rfl
  | cons c cs ih =>
    obtain ⟨hc, hcs⟩ := List.ne_and_not_mem_of_not_mem_cons h
    rw [splitLast?, ih hcs]
    exact if_neg hc.symm

theorem Text.splitLast?_append {sep : Char} {after : List Char} (h : sep ∉ after)
    (before : List Char) : splitLast? sep (before ++ sep :: after) = some (before, after) := by
  induction before with
  | nil =>
    rw [List.nil_append, splitLast?, splitLast?_eq_none h]
    exact if_pos rfl
  | cons c before ih => rw [List.cons_append, splitLast?, ih]

theorem splitName?_join {name : String} (h : '.' ∉ name.toList) (above : String) :
    splitName? (above ++ "." ++ name) = some (above, name) := by
  have hsplit : (above ++ "." ++ name).toList = above.toList ++ '.' :: name.toList := by simp
  rw [splitName?, hsplit, Text.splitLast?_append h]
  simp

/-- A member of a list is found by its key if no two members have the same. -/
theorem find?_of_nodup {α β : Type} [BEq β] [LawfulBEq β] {key : α → β} {as : List α}
    (h : (as.map key).Nodup) {a : α} (ha : a ∈ as) :
    as.find? (fun x => key x == key a) = some a := by
  induction as with
  | nil => cases ha
  | cons x as ih =>
    rw [List.map_cons, List.nodup_cons] at h
    rcases List.mem_cons.mp ha with rfl | ha
    · exact List.find?_cons_of_pos (by simp)
    · have hne : key x ≠ key a := fun he => h.1 (he ▸ List.mem_map_of_mem ha)
      rw [List.find?_cons_of_neg (by simpa using hne), ih h.2 ha]

namespace Model.Distinct

variable {m : Model} {mod : Module} {c : Class}

theorem findClass (h : m.Distinct) (hmod : mod ∈ m.modules) (hc : c ∈ mod.classes) :
    m.findClass (mod.name ++ "." ++ c.name) = .ok c := by
  rw [Model.findClass, splitName?_join (h.pointless mod hmod c hc).1]
  dsimp only
  rw [Model.module?, find?_of_nodup h.modules hmod]
  dsimp only
  rw [find?_of_nodup (h.classes mod hmod) hc]

theorem findMethod (h : m.Distinct) (hmod : mod ∈ m.modules) (hc : c ∈ mod.classes)
    {method : Method} (hmethod : method ∈ c.methods) :
    m.findMethod (mod.name ++ "." ++ c.name ++ "." ++ method.sig.name) = .ok (c, method) := by
  rw [Model.findMethod, splitName?_join ((h.pointless mod hmod c hc).2 method hmethod)]
  dsimp only
  rw [h.findClass hmod hc]
  dsimp only
  rw [Class.method?, find?_of_nodup (h.methods mod hmod c hc) hmethod]

end Model.Distinct

/-! ## Runs in turn -/

namespace Run

/-- Two runs with a common report. -/
def andThen (x y : Run Report) : Run Report := do
  let first ← x
  let rest ← y
  return ⟨first.outcomes ++ rest.outcomes⟩

/-- Runs one after the other, with a common report. The first failure ends them. -/
def inTurn : List (Run Report) → Run Report
  | [] => pure ⟨[]⟩
  | x :: xs => x.andThen (inTurn xs)

theorem inTurn_append (xs ys : List (Run Report)) :
    inTurn (xs ++ ys) = (inTurn xs).andThen (inTurn ys) := by
  induction xs with
  | nil => simp [inTurn, andThen]
  | cons x xs ih =>
    rw [List.cons_append, inTurn, ih, inTurn]
    simp [andThen, List.append_assoc]

end Run

/-- The run never fails, and it does what the checks do from every world like theirs. -/
structure Performs (x : Run Report) (f : World → List Outcome × World) : Prop where
  run : ∀ {w u : World}, w.Alike u → ∃ u', x u = .ok ⟨(f w).1⟩ u' ∧ (f w).2.Alike u'

/-- The run fails with the error before anything is submitted. -/
structure Fails (x : Run Report) (e : Error) : Prop where
  run : ∀ u, ∃ u', x u = .error e u' ∧ u'.Alike u

namespace Performs

variable {x y : Run Report} {xs ys : List (Run Report)} {f g : World → List Outcome × World}

/-- Two runs that perform the same checks cannot be told apart. -/
theorem ends (hx : Performs x f) (hy : Performs y f) (w : World) :
    Ends Eq World.Alike (x w) (y w) := by
  obtain ⟨u, hxw, hu⟩ := hx.run (World.Alike.refl w)
  obtain ⟨v, hyw, hv⟩ := hy.run (World.Alike.refl w)
  rw [hxw, hyw]
  exact .ok rfl (hu.symm.trans hv)

theorem nil : Performs (Run.inTurn []) fun w => ([], w) :=
  ⟨fun hwu => ⟨_, rfl, hwu⟩⟩

theorem andThen (hx : Performs x f) (hy : Performs y g) :
    Performs (x.andThen y) fun w => ((f w).1 ++ (g (f w).2).1, (g (f w).2).2) := by
  constructor
  intro w u hwu
  obtain ⟨u', hfirst, hwu⟩ := hx.run hwu
  obtain ⟨v, hrest, hwu⟩ := hy.run hwu
  exact ⟨v, bind_eq_ok.mpr ⟨_, _, hfirst, bind_eq_ok.mpr ⟨_, _, hrest, rfl⟩⟩, hwu⟩

theorem append (hxs : Performs (Run.inTurn xs) f) (hys : Performs (Run.inTurn ys) g) :
    Performs (Run.inTurn (xs ++ ys)) fun w => ((f w).1 ++ (g (f w).2).1, (g (f w).2).2) := by
  rw [Run.inTurn_append]
  exact hxs.andThen hys

theorem checkAll {α : Type} {run : α → Run Report} {step : α → World → List Outcome × World}
    {as : List α} (h : ∀ a ∈ as, Performs (run a) (step a)) :
    Performs (Run.inTurn (as.map run)) (Batch.checkAll step as) := by
  induction as with
  | nil => exact nil
  | cons a as ih =>
    obtain ⟨ha, has⟩ := List.forall_mem_cons.mp h
    exact ha.andThen (ih has)

end Performs

namespace Batch

variable {b : Batch}

/-- A run whose backend is blind. -/
def Blind (b : Batch) : Prop :=
  b.Matches (fun _ => Eq) b

/-- Whether a class has a profile under the settings of the run. -/
def analyzes (b : Batch) (c : Class) : Bool :=
  match Profile.of b.model c b.settings.regions [] with
  | .ok .. => true
  | .error .. => false

/-- A class has the same profile, or fails to have one in the same way, in all worlds. -/
theorem profile_cases (b : Batch) (c : Class) :
    (∃ p, p.owner = c ∧ b.analyzes c = true ∧ ∀ w, ∃ w', b.profile c w = .ok p w' ∧ w'.Alike w) ∨
      ∃ e, b.analyzes c = false ∧ ∀ w, ∃ w', b.profile c w = .error e w' ∧ w'.Alike w := by
  have hsilent := Profile.silent_of b.model c b.settings.regions
  unfold analyzes
  cases hof : Profile.of b.model c b.settings.regions [] with
  | ok p log =>
    exact .inl ⟨p, (Profile.isOf_of hof).owner_eq, rfl, Run.logged_of_ok hsilent hof⟩
  | error e log => exact .inr ⟨e, rfl, Run.logged_of_error hsilent hof⟩

theorem performs_report {f : World → List Outcome × World}
    (hf : ChecksMatch (fun _ => Eq) f f) : Performs (report f) f := by
  constructor
  intro w u hwu
  obtain ⟨houtcomes, hworld⟩ := hf.check hwu
  exact ⟨(f u).2, by rw [outcomes_eq_of_matches houtcomes]; rfl, hworld⟩

/-- A run that finds a class with a profile and checks something by it. -/
theorem performs_onClass {α : Type} {found : Except Error α} {a : α} (hfound : found = .ok a)
    (owner : α → Class) {p : Profile}
    (hprofile : ∀ w, ∃ w', b.profile (owner a) w = .ok p w' ∧ w'.Alike w)
    {f : α → Profile → World → List Outcome × World}
    (hf : ChecksMatch (fun _ => Eq) (f a p) (f a p)) :
    Performs (Run.lift found >>= fun a => b.profile (owner a) >>= fun p => report (f a p))
      (f a p) := by
  constructor
  intro w u hwu
  obtain ⟨u', hu, hu'⟩ := hprofile u
  obtain ⟨v, hv, hwv⟩ := (performs_report hf).run (hwu.trans hu'.symm)
  exact ⟨v, bind_eq_ok.mpr ⟨a, u, by rw [hfound]; rfl, bind_eq_ok.mpr ⟨p, u', hu, hv⟩⟩, hwv⟩

theorem fails_onClass {α : Type} {found : Except Error α} {a : α} (hfound : found = .ok a)
    (owner : α → Class) {e : Error}
    (hprofile : ∀ w, ∃ w', b.profile (owner a) w = .error e w' ∧ w'.Alike w)
    (f : α → Profile → World → List Outcome × World) :
    Fails (Run.lift found >>= fun a => b.profile (owner a) >>= fun p => report (f a p)) e := by
  constructor
  intro u
  obtain ⟨u', hu, hu'⟩ := hprofile u
  exact ⟨u', bind_eq_error.mpr (.inr ⟨a, u, by rw [hfound]; rfl, bind_eq_error.mpr (.inl hu)⟩), hu'⟩

/-- The targets of a class one by one: its initializer and its methods. -/
def parts (path : String) (c : Class) : List Target :=
  .initializer path :: c.methods.map fun m => .method (path ++ "." ++ m.sig.name)

variable (hb : b.Blind) {mod : Module} {c : Class} (hmodel : b.model.Distinct)
  (hmod : mod ∈ b.model.modules) (hc : c ∈ mod.classes)

include hb hmodel hmod hc

theorem Blind.performs_wholeClass {p : Profile}
    (hprofile : ∀ w, ∃ w', b.profile c w = .ok p w' ∧ w'.Alike w) :
    Performs (b.run (.wholeClass (mod.name ++ "." ++ c.name))) (b.checkClass p) :=
  performs_onClass (hmodel.findClass hmod hc) id hprofile (hb.checkClass p)

theorem Blind.performs_parts {p : Profile} (howner : p.owner = c)
    (hprofile : ∀ w, ∃ w', b.profile c w = .ok p w' ∧ w'.Alike w) :
    Performs (Run.inTurn ((parts (mod.name ++ "." ++ c.name) c).map b.run)) (b.checkClass p) := by
  subst howner
  have hinit : Performs (b.run (.initializer (mod.name ++ "." ++ p.owner.name))) (b.checkInit p) :=
    performs_onClass (hmodel.findClass hmod hc) id hprofile (hb.check _ p.silent_initObligation)
  have hmethods : ∀ m ∈ p.owner.methods,
      Performs (b.run (.method (mod.name ++ "." ++ p.owner.name ++ "." ++ m.sig.name)))
        (b.checkMethod p m) := fun m hm =>
    performs_onClass (hmodel.findMethod hmod hc hm) Prod.fst hprofile
      (hb.check _ (p.silent_methodObligation m))
  rw [parts, List.map_cons, List.map_map]
  exact hinit.andThen (.checkAll hmethods)

/-- The run of a class is the runs of its parts. -/
theorem Blind.ends_wholeClass (w : World) :
    Ends Eq World.Alike (b.run (.wholeClass (mod.name ++ "." ++ c.name)) w)
      (Run.inTurn ((parts (mod.name ++ "." ++ c.name) c).map b.run) w) := by
  have hfound := hmodel.findClass hmod hc
  rcases b.profile_cases c with ⟨p, howner, -, hprofile⟩ | ⟨e, -, hprofile⟩
  · exact (hb.performs_wholeClass hmodel hmod hc hprofile).ends
      (hb.performs_parts hmodel hmod hc howner hprofile) w
  · -- without a profile the run of the initializer, which is the first one, fails in the same way
    have hclass : Fails (b.run (.wholeClass (mod.name ++ "." ++ c.name))) e :=
      fails_onClass hfound id hprofile fun _ => b.checkClass
    have hinit : Fails (b.run (.initializer (mod.name ++ "." ++ c.name))) e :=
      fails_onClass hfound id hprofile fun _ => b.checkInit
    obtain ⟨u, hu, hwu⟩ := hclass.run w
    obtain ⟨v, hv, hwv⟩ := hinit.run w
    have hparts : Run.inTurn ((parts (mod.name ++ "." ++ c.name) c).map b.run) w = .error e v :=
      bind_eq_error.mpr (.inl hv)
    rw [hu, hparts]
    exact .error (hwu.trans hwv.symm)

/-- The run of a class, if it has a profile, and else one lost outcome. -/
def member (b : Batch) (path : String) (c : Class) : Run Report :=
  if b.analyzes c then b.run (.wholeClass path) else pure ⟨[⟨path, .notProved, none⟩]⟩

theorem Blind.performs_member (hphysical : c.isPhysical = true) :
    Performs (b.member (mod.name ++ "." ++ c.name) c) (b.checkMember mod.name c) := by
  constructor
  intro w u hwu
  unfold member checkMember
  rw [if_pos hphysical]
  rcases b.profile_cases c with ⟨p, -, hanalyzes, hprofile⟩ | ⟨e, hanalyzes, hprofile⟩
  · obtain ⟨w', hw, hw'⟩ := hprofile w
    rw [profile] at hw
    rw [hanalyzes, hw]
    exact (hb.performs_wholeClass hmodel hmod hc hprofile).run (hw'.trans hwu)
  · obtain ⟨w', hw, hw'⟩ := hprofile w
    rw [profile] at hw
    rw [hanalyzes, hw]
    exact ⟨u, rfl, ((hw'.trans hwu).note_left (by decide) _ _).note_left (by decide) _ _⟩

omit hc

/-- The physical classes of a module in turn; the others are passed over. -/
theorem Blind.performs_classes {classes : List Class} (hclasses : classes ⊆ mod.classes) :
    Performs (Run.inTurn ((classes.filter Class.isPhysical).map fun c =>
      b.member (mod.name ++ "." ++ c.name) c)) (checkAll (b.checkMember mod.name) classes) := by
  induction classes with
  | nil => exact .nil
  | cons c classes ih =>
    obtain ⟨hc, hclasses⟩ := List.cons_subset.mp hclasses
    cases hphysical : c.isPhysical with
    | true =>
      rw [List.filter_cons_of_pos hphysical, List.map_cons]
      exact (hb.performs_member hmodel hmod hc hphysical).andThen (ih hclasses)
    | false =>
      rw [List.filter_cons_of_neg (by simp [hphysical])]
      constructor
      intro w u hwu
      have hskip : b.checkMember mod.name c w = ([],
          w.note .warn .batch ("skipping discrete class " ++ (mod.name ++ "." ++ c.name))) := by
        rw [checkMember, hphysical]
        rfl
      rw [checkAll, hskip]
      exact (ih hclasses).run (hwu.note_left (by decide) _ _)

omit hmod

/-- The physical classes of the user modules in turn. -/
def members (b : Batch) : List (Run Report) :=
  b.model.userModules.flatMap fun mod =>
    (mod.classes.filter Class.isPhysical).map fun c => b.member (mod.name ++ "." ++ c.name) c

theorem Blind.performs_members {mods : List Module} (hmods : mods ⊆ b.model.modules) :
    Performs (Run.inTurn (mods.flatMap fun mod =>
        (mod.classes.filter Class.isPhysical).map fun c => b.member (mod.name ++ "." ++ c.name) c))
      (checkAll (fun mod w => checkAll (b.checkMember mod.name) mod.classes w) mods) := by
  induction mods with
  | nil => exact .nil
  | cons mod mods ih =>
    obtain ⟨hmod, hmods⟩ := List.cons_subset.mp hmods
    rw [List.flatMap_cons]
    exact (hb.performs_classes hmodel hmod (List.Subset.refl _)).append (ih hmods)

/-- The run of the whole model is the runs of its classes and of its main block. -/
theorem Blind.performs_full :
    Performs (Run.inTurn (b.members ++
      if b.model.mainBlock?.isSome then [b.run .main] else [])) b.checkFull := by
  have hmain : Performs (Run.inTurn (if b.model.mainBlock?.isSome then [b.run .main] else []))
      (fun w => if b.model.mainBlock?.isSome then b.checkMain w
        else ([], w.note .warn .batch "model contains no main block")) := by
    rw [run]
    cases b.model.mainBlock?.isSome with
    | true =>
      have honly := (performs_report hb.checkMain).andThen .nil
      simp only [List.append_nil] at honly
      exact honly
    | false => exact ⟨fun hwu => ⟨_, rfl, hwu.note_left (by decide) _ _⟩⟩
  exact (hb.performs_members hmodel (List.filter_subset_self _)).append hmain

end Batch

/-- The run with every submission written to the log. -/
def Batch.recorded (b : Batch) : Batch :=
  { b with backend := b.backend.recorded }

/-- Runs compose. The run of a class is the runs of its initializer and of its methods in turn; the
run of the whole model never fails and is the runs of its physical classes in turn, with one lost
outcome for each of them that has no profile, and then the run of the main block. All agree in the
report or the error, the files, and the paths and texts submitted. A backend that answers otherwise
on some artifacts changes the verdicts on these artifacts and nothing else. -/
theorem runs_compose {b : Batch} (hmodel : b.model.Distinct) (hbackend : b.backend.Blind) :
    (∀ mod ∈ b.model.modules, ∀ c ∈ mod.classes, ∀ w, Ends Eq World.Alike
      (b.recorded.run (.wholeClass (mod.name ++ "." ++ c.name)) w)
      (Run.inTurn ((Batch.parts (mod.name ++ "." ++ c.name) c).map b.recorded.run) w)) ∧
    (∀ w, (∃ report w', b.recorded.run .full w = .ok report w') ∧
      Ends Eq World.Alike (b.recorded.run .full w)
        (Run.inTurn (b.recorded.members ++
          if b.model.mainBlock?.isSome then [b.recorded.run .main] else []) w)) ∧
    ∀ answer answer' target w,
      Ends (Report.Matches fun path v v' =>
          ∃ content, v = answer path content ∧ v' = answer' path content) World.Alike
        (Batch.run ⟨b.model, b.settings, (Backend.answering answer).recorded⟩ target w)
        (Batch.run ⟨b.model, b.settings, (Backend.answering answer').recorded⟩ target w) := by
  have hb : b.recorded.Blind := ⟨rfl, rfl, hbackend.recorded⟩
  refine ⟨fun mod hmod c hc w => hb.ends_wholeClass hmodel hmod hc w,
    fun w => ⟨⟨_, _, rfl⟩, ?_⟩, ?_⟩
  · exact (Batch.performs_report hb.checkFull).ends (hb.performs_full hmodel) w
  · intro answer answer' target w
    have hmatches : Batch.Matches _ ⟨b.model, b.settings, (Backend.answering answer).recorded⟩
        ⟨b.model, b.settings, (Backend.answering answer').recorded⟩ :=
      ⟨rfl, rfl, (Backend.matches_answering answer answer').recorded⟩
    exact hmatches.ends_run target (.refl w)

/-! ## A plant with a class that cannot be analyzed -/

/-- Opens the sluice. -/
def Method.lift : Method :=
  ⟨⟨"lift", []⟩, [.assign (.field "x") (.pure (.int "1"))], []⟩

/-- A class in which `x` grows with slope one. -/
def Class.sluice : Class :=
  { name := "Sluice"
    params := []
    fields := []
    physical := some
      { fields := [⟨"x", .int "0", ⟨.derivative (.field "x"), .int "1"⟩⟩]
        annotations := [⟨"ABS.DC.HybridSpec", .construct "ObjInv" [.string "x >= 0"]⟩] }
    init := none
    methods := [.lift]
    implements := []
    annotations := [] }

/-- A class whose equation is about another field than its own. -/
def Class.siphon : Class :=
  { name := "Siphon"
    params := []
    fields := []
    physical := some
      { fields := [⟨"x", .int "0", ⟨.derivative (.field "y"), .int "1"⟩⟩], annotations := [] }
    init := none
    methods := []
    implements := []
    annotations := [] }

namespace Batch

/-- The siphon, the sluice and a main block, with a prover that fails on the initializer of the
sluice. -/
def plant : Batch where
  model := ⟨[⟨"M", [], [.siphon, .sluice], some [.skip]⟩]⟩
  settings := .default
  backend := .answering fun path _ =>
    if path = "chisel-out/Sluice/init.kyx" then .notProved else .proved

theorem distinct_plant : plant.model.Distinct where
  modules := by decide
  classes := by decide
  methods := by decide
  pointless := by decide

theorem blind_plant : plant.backend.Blind :=
  Backend.blind_answering fun path _ =>
    if path = "chisel-out/Sluice/init.kyx" then .notProved else .proved

/-- What is seen of a run: its outcomes, the paths submitted, whether a text was found at each of
them, and the files that are left. -/
structure Footprint where
  outcomes : List Outcome
  submitted : List Path
  levels : List Level
  files : List Path
deriving DecidableEq

def Footprint.of (report : Report) (w : World) : Footprint where
  outcomes := report.outcomes
  submitted := ((ofProver w.log).filter fun entry => entry.level = .info).map LogEntry.text
  levels := (ofProver w.log).map LogEntry.level
  files := w.files.listing.map Prod.fst

theorem Footprint.of_alike {w u : World} (h : w.Alike u) (report : Report) :
    of report w = of report u := by
  rw [of, of, h.asked, h.files]

/-- Each obligation of the plant is filed and submitted, whatever the verdict on the others; the
class that has no profile gives one outcome. -/
def plantFootprint : Footprint where
  outcomes :=
    [⟨"M.Siphon", .notProved, none⟩,
      ⟨"Sluice.<init>", .notProved, some "chisel-out/Sluice/init.kyx"⟩,
      ⟨"Sluice.lift", .proved, some "chisel-out/Sluice/lift.kyx"⟩,
      ⟨"<main>", .proved, some "chisel-out/main/main.kyx"⟩]
  submitted :=
    ["chisel-out/Sluice/init.kyx", "chisel-out/Sluice/lift.kyx", "chisel-out/main/main.kyx"]
  levels := [.info, .debug, .info, .debug, .info, .debug]
  files := ["chisel-out/Sluice/init.kyx", "chisel-out/Sluice/lift.kyx", "chisel-out/main/main.kyx"]

theorem run_plant : ∃ report w',
    plant.recorded.run .full ⟨.emptyAt ["work"], []⟩ = .ok report w' ∧
      Footprint.of report w' = plantFootprint := by
  have hran : (match plant.recorded.run .full ⟨.emptyAt ["work"], []⟩ with
      | .ok report w' => some (Footprint.of report w')
      | .error .. => none) = some plantFootprint := by
    decide +kernel
  split at hran
  · next report w' hrun => exact ⟨report, w', hrun, Option.some.inj hran⟩
  · cases hran

end Batch

/-- The run of the plant: a lost outcome for the siphon, the sluice, and the main block. The runs in
turn have been carried out in an empty world. -/
theorem runs_compose_plant : Batch.plant.model.Distinct ∧ Batch.plant.backend.Blind ∧
    (∀ w, Ends Eq World.Alike (Batch.plant.recorded.run .full w)
        (Run.inTurn [pure ⟨[⟨"M.Siphon", .notProved, none⟩]⟩,
          Batch.plant.recorded.run (.wholeClass "M.Sluice"), Batch.plant.recorded.run .main] w) ∧
      Ends Eq World.Alike (Batch.plant.recorded.run (.wholeClass "M.Sluice") w)
        (Run.inTurn [Batch.plant.recorded.run (.initializer "M.Sluice"),
          Batch.plant.recorded.run (.method "M.Sluice.lift")] w)) ∧
    ∃ report w', Run.inTurn [pure ⟨[⟨"M.Siphon", .notProved, none⟩]⟩,
        Batch.plant.recorded.run (.wholeClass "M.Sluice"), Batch.plant.recorded.run .main]
          ⟨.emptyAt ["work"], []⟩ = .ok report w' ∧
      Batch.Footprint.of report w' = Batch.plantFootprint := by
  obtain ⟨hclass, hfull, -⟩ := runs_compose Batch.distinct_plant Batch.blind_plant
  have hcomposed : ∀ w, Ends Eq World.Alike (Batch.plant.recorded.run .full w)
      (Run.inTurn [pure ⟨[⟨"M.Siphon", .notProved, none⟩]⟩,
        Batch.plant.recorded.run (.wholeClass "M.Sluice"), Batch.plant.recorded.run .main] w) :=
    fun w => (hfull w).2
  refine ⟨Batch.distinct_plant, Batch.blind_plant, fun w => ⟨hcomposed w, ?_⟩, ?_⟩
  · exact hclass ⟨"M", [], [.siphon, .sluice], some [.skip]⟩ (by simp [Batch.plant]) .sluice
      (by simp) w
  · obtain ⟨report, w', hrun, hfootprint⟩ := Batch.run_plant
    have hends := hcomposed ⟨.emptyAt ["work"], []⟩
    rw [hrun] at hends
    obtain ⟨_, u, hturn, rfl, halike⟩ := hends.exists_ok
    rw [Batch.Footprint.of_alike halike] at hfootprint
    exact ⟨report, u, hturn, hfootprint⟩

end HybridObjects
