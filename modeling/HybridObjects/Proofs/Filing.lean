import HybridObjects.Proofs.Composition
import HybridObjects.Proofs.FileTrees

/-!
# HybridObjects.Proofs.Filing

What a run files. It goes through the tasks of its target, that is through the obligations that can
be made, and writes the texts of those that have a problem. No other artifact is touched, whatever
the prover writes beside them. So a file with the ending of artifacts keeps what was written to it
last.

* `Backend.Harmless`      — backends that spare the artifacts.
* `Entry`                 — an outcome, with what was filed for it.
* `Filed`                 — what filing some entries does to the files.
* `Batch.tasks`           — the obligations of a target.
* `Batch.Carries`         — checks carry out some tasks.
* `Batch.exists_entries`  — a run carries out the tasks of its target.
-/

namespace HybridObjects

/-! ## Paths of obligations -/

/-- What the file of an obligation is named for. -/
def Obligation.place (o : Obligation) : String × String :=
  (o.group, o.name)

/-- The file of a place inside the output directory. -/
def Batch.fileAt (b : Batch) (place : String × String) : Path :=
  Path.join b.settings.outputDir (Path.join place.1 (place.2 ++ ".kyx"))

theorem Batch.exists_fileAt_eq (b : Batch) (place : String × String) :
    ∃ q, b.fileAt place = q ++ ".kyx" := by
  obtain ⟨q, hq⟩ := Path.exists_join_append place.1 place.2 ".kyx"
  rw [fileAt, hq]
  exact Path.exists_join_append b.settings.outputDir q ".kyx"

/-- A place whose names a path takes literally. -/
def PlainPlace (place : String × String) : Prop :=
  Path.IsPlain place.1 ∧ '/' ∉ place.2.toList

theorem place_eq_of_files {place place' : String × String}
    (h : [place.1, place.2 ++ ".kyx"] = [place'.1, place'.2 ++ ".kyx"]) : place = place' := by
  simp only [List.cons.injEq, and_true] at h
  have hname := congrArg String.toList h.2
  rw [String.toList_append, String.toList_append] at hname
  exact Prod.ext h.1 (String.toList_injective (List.append_cancel_right hname))

namespace PlainPlace

variable {place place' : String × String} (h : PlainPlace place)
include h

theorem isPlain_file : Path.IsPlain (place.2 ++ ".kyx") :=
  Path.isPlain_append h.2 (by decide) (by decide)

theorem relative : Path.isAbsolute (Path.join place.1 (place.2 ++ ".kyx")) = false := by
  rw [Path.isAbsolute_join (Path.isAbsolute_eq_false h.isPlain_file.1)]
  exact Path.isAbsolute_eq_false h.1.1

theorem names_eq :
    Path.names (Path.join place.1 (place.2 ++ ".kyx")) = [place.1, place.2 ++ ".kyx"] := by
  rw [Path.names_join (Path.isAbsolute_eq_false h.isPlain_file.1), Path.names_eq_singleton h.1,
    Path.names_eq_singleton h.isPlain_file, List.singleton_append]

/-- The file of a plain place, in the directory of its group. -/
theorem place_fileAt (b : Batch) (home : Location) :
    FileTree.place home (b.fileAt place) =
      FileTree.place home b.settings.outputDir ++ [place.1, place.2 ++ ".kyx"] := by
  rw [Batch.fileAt, FileTree.place_join h.relative, h.names_eq]
  rw [h.names_eq]
  simp only [List.mem_cons, List.not_mem_nil, or_false, not_or]
  exact ⟨h.1.2.2.2.symm, h.isPlain_file.2.2.2.symm⟩

theorem place_fileAt_inj (b : Batch) (home : Location) (h' : PlainPlace place') :
    FileTree.place home (b.fileAt place) = FileTree.place home (b.fileAt place') ↔
      place = place' := by
  rw [h.place_fileAt, h'.place_fileAt]
  constructor
  · intro heq
    exact place_eq_of_files (List.append_cancel_left heq)
  · rintro rfl
    rfl

theorem fileAt_inj (b : Batch) (h' : PlainPlace place') :
    b.fileAt place = b.fileAt place' ↔ place = place' := by
  constructor
  · intro heq
    exact (h.place_fileAt_inj b [] h').mp (congrArg (FileTree.place []) heq)
  · rintro rfl
    rfl

end PlainPlace

/-! ## Other files -/

/-- Nothing is removed, and no file with the ending of artifacts is changed. -/
structure FileTree.Spares (t t' : FileTree) : Prop where
  later : t.Extends t'
  artifacts : ∀ dir name, t'.files.lookup (dir ++ [name ++ ".kyx"]) =
    t.files.lookup (dir ++ [name ++ ".kyx"])

namespace FileTree

variable {t t' t'' : FileTree}

theorem Spares.refl (t : FileTree) : t.Spares t :=
  ⟨.refl t, fun _ _ => rfl⟩

theorem Spares.trans (h : t.Spares t') (h' : t'.Spares t'') : t.Spares t'' :=
  ⟨h.later.trans h'.later, fun dir name => (h'.artifacts dir name).trans (h.artifacts dir name)⟩

theorem Grows.spares (h : t.Grows t') : t.Spares t' :=
  ⟨h.later, fun _ _ => by rw [h.files]⟩

theorem Spares.lookup (h : t.Spares t') (home : Location) (q : Path) :
    t'.files.lookup (place home (q ++ ".kyx")) = t.files.lookup (place home (q ++ ".kyx")) := by
  obtain ⟨dir, name, hplace⟩ := place_append ".kyx" (by decide) (by decide) home q
  rw [hplace]
  exact h.artifacts dir name

/-- The output of the prover is not written to an artifact. -/
theorem spares_of_write {p : Path} {text : String} (h : t.write (p ++ ".log") text = .ok t') :
    t.Spares t' := by
  refine ⟨extends_of_write h, fun dir name => ?_⟩
  obtain ⟨dir', name', hplace⟩ := place_append ".log" (by decide) (by decide) t.home p
  rw [lookup_of_write h, hplace, if_neg]
  intro heq
  have hlast : name ++ ".kyx" = name' ++ ".log" := by simpa using List.append_inj_right' heq rfl
  have hending := congrArg String.toList hlast
  rw [String.toList_append, String.toList_append] at hending
  exact absurd (List.append_inj_right' hending rfl) (by decide)

end FileTree

/-- A backend that spares the artifacts. -/
def Backend.Harmless (backend : Backend) : Prop :=
  ∀ path (w : World), w.files.Spares (backend path w).2.files

namespace Backend

theorem spares_keepLog (settings : ProverSettings) (path : Path) (output : CommandOutput)
    (w : World) : w.files.Spares (keepLog settings path output w).files := by
  unfold keepLog
  split
  · dsimp only
    split
    · next files hwrite => exact FileTree.spares_of_write hwrite
    · exact .refl _
  · exact .refl _

theorem spares_judge (settings : ProverSettings) (path : Path) (result : CommandResult)
    (w : World) : w.files.Spares (judge settings path result w).2.files := by
  cases result with
  | timedOut | refused fault => exact .refl _
  | finished output =>
    unfold judge
    dsimp only
    split <;> exact spares_keepLog settings path output w

/-- The prover writes its output to files of its own. -/
theorem harmless_prover (launcher : Launcher) (settings : ProverSettings) :
    (Backend.prover launcher settings).Harmless := by
  intro path w
  unfold Backend.prover
  split
  · exact spares_judge settings path _ ((w.note .info .prover _).note .debug .prover _)
  · exact .refl _

end Backend

/-! ## Entries -/

/-- An outcome with the obligation and the text that were filed for it, if it has an artifact. -/
structure Entry where
  outcome : Outcome
  filed : Option (Obligation × String)

namespace Entry

/-- Where an entry is filed. -/
def place? (e : Entry) : Option (String × String) :=
  e.filed.map fun f => f.1.place

/-- The entry records what came of a task, that is a name and an obligation, if one could be made:
its artifact is the file of the obligation, and its text is that of the obligation. -/
structure Records (b : Batch) (e : Entry) (task : String × Option Obligation) : Prop where
  name : e.outcome.name = task.1
  artifact : e.outcome.artifact = e.place?.map b.fileAt
  own : ∀ f, e.filed = some f → task.2 = some f.1 ∧
    ∃ problem, f.1.problem = some problem ∧ problem.text = .ok f.2

/-- For an outcome with an artifact something was filed. -/
theorem Records.exists_filed {b : Batch} {e : Entry} {task : String × Option Obligation}
    (h : e.Records b task) {path : Path} (hpath : e.outcome.artifact = some path) :
    ∃ f, e.filed = some f ∧ b.fileAt f.1.place = path := by
  rw [h.artifact] at hpath
  obtain ⟨place, hplace, hfile⟩ := Option.map_eq_some_iff.mp hpath
  obtain ⟨f, hf, rfl⟩ := Option.map_eq_some_iff.mp hplace
  exact ⟨f, hf, hfile⟩

end Entry

/-- The text that was filed last where a path leads. -/
def lastFiled (b : Batch) (home : Location) (p : Path) (es : List Entry) : Option String :=
  ((es.filterMap Entry.filed).reverse.find? fun f =>
    FileTree.place home (b.fileAt f.1.place) == FileTree.place home p).map Prod.snd

section LastFiled

variable {b : Batch} {home : Location} {p : Path} {e : Entry} {es : List Entry}
  {f : Obligation × String}

theorem lastFiled_cons_none (h : e.filed = none) (es : List Entry) :
    lastFiled b home p (e :: es) = lastFiled b home p es := by
  rw [lastFiled, List.filterMap_cons_none h]
  rfl

theorem lastFiled_cons_some (h : e.filed = some f) (es : List Entry) :
    lastFiled b home p (e :: es) = (lastFiled b home p es).or
      (if FileTree.place home p = FileTree.place home (b.fileAt f.1.place) then some f.2
        else none) := by
  rw [lastFiled, List.filterMap_cons_some h, List.reverse_cons, List.find?_append, lastFiled]
  cases List.find? _ (List.filterMap Entry.filed es).reverse with
  | some g => rfl
  | none =>
    by_cases heq : FileTree.place home p = FileTree.place home (b.fileAt f.1.place)
    · simp [heq]
    · simp [heq, Ne.symm heq]

/-- Some text is filed last where an entry is filed. -/
theorem exists_lastFiled (b : Batch) (home : Location) (he : e ∈ es) (hf : e.filed = some f) :
    ∃ text, lastFiled b home (b.fileAt f.1.place) es = some text := by
  have hmem : f ∈ (es.filterMap Entry.filed).reverse :=
    List.mem_reverse.mpr (List.mem_filterMap.mpr ⟨e, he, hf⟩)
  have hsome : ((es.filterMap Entry.filed).reverse.find? fun g =>
      FileTree.place home (b.fileAt g.1.place) ==
        FileTree.place home (b.fileAt f.1.place)).isSome :=
    List.find?_isSome.mpr ⟨f, hmem, by simp⟩
  obtain ⟨g, hg⟩ := Option.isSome_iff_exists.mp hsome
  exact ⟨g.2, by rw [lastFiled, hg]; rfl⟩

/-- What is filed at distinct places stays. -/
theorem lastFiled_of_nodup (hplain : ∀ place ∈ es.filterMap Entry.place?, PlainPlace place)
    (h : (es.filterMap Entry.place?).Nodup) (he : e ∈ es) (hf : e.filed = some f) :
    lastFiled b home (b.fileAt f.1.place) es = some f.2 := by
  have hplaces : (es.filterMap Entry.filed).map (fun f => f.1.place) =
      es.filterMap Entry.place? := List.map_filterMap
  have hlocations : ((es.filterMap Entry.filed).reverse.map fun f =>
      FileTree.place home (b.fileAt f.1.place)).Nodup := by
    have hnodup : ((es.filterMap Entry.place?).map fun place =>
        FileTree.place home (b.fileAt place)).Nodup :=
      h.map_on fun place hplace place' hplace' heq =>
        ((hplain place hplace).place_fileAt_inj b home (hplain place' hplace')).mp heq
    simp only [← hplaces, List.map_map, Function.comp_def] at hnodup
    rw [List.map_reverse, List.nodup_reverse]
    exact hnodup
  have hmem : f ∈ (es.filterMap Entry.filed).reverse :=
    List.mem_reverse.mpr (List.mem_filterMap.mpr ⟨e, he, hf⟩)
  rw [lastFiled, find?_of_nodup hlocations hmem]
  rfl

end LastFiled

/-! ## Filing -/

/-- Entries are filed one after the other: their texts are written to their files, and besides no
artifact is touched. -/
inductive Filed (b : Batch) : FileTree → List Entry → FileTree → Prop where
  | nil {t t' : FileTree} : t.Spares t' → Filed b t [] t'
  | lost {t t₁ t' : FileTree} {e : Entry} {es : List Entry} : e.filed = none → t.Spares t₁ →
      Filed b t₁ es t' → Filed b t (e :: es) t'
  | kept {t t₁ t₂ t' : FileTree} {e : Entry} {es : List Entry} {f : Obligation × String} :
      e.filed = some f → t.Spares t₁ → t₁.write (b.fileAt f.1.place) f.2 = .ok t₂ →
      Filed b t₂ es t' → Filed b t (e :: es) t'

namespace Filed

variable {b : Batch} {t t' t'' : FileTree} {es es' : List Entry}

theorem after (h : t.Spares t') (h' : Filed b t' es t'') : Filed b t es t'' := by
  cases h' with
  | nil hspares => exact .nil (h.trans hspares)
  | lost hnone hspares hrest => exact .lost hnone (h.trans hspares) hrest
  | kept hsome hspares hwrite hrest => exact .kept hsome (h.trans hspares) hwrite hrest

theorem append (h : Filed b t es t') (h' : Filed b t' es' t'') : Filed b t (es ++ es') t'' := by
  induction h with
  | nil hspares => exact after hspares h'
  | lost hnone hspares _ ih => exact .lost hnone hspares (ih h')
  | kept hsome hspares hwrite _ ih => exact .kept hsome hspares hwrite (ih h')

theorem later (h : Filed b t es t') : t.Extends t' := by
  induction h with
  | nil hspares => exact hspares.later
  | lost _ hspares _ ih => exact hspares.later.trans ih
  | kept _ hspares hwrite _ ih =>
    exact (hspares.later.trans (FileTree.extends_of_write hwrite)).trans ih

/-- At a path with the ending of artifacts stands what was filed there last, or else what was there
before. -/
theorem lookup (h : Filed b t es t') (q : Path) :
    t'.files.lookup (FileTree.place t.home (q ++ ".kyx")) =
      (lastFiled b t.home (q ++ ".kyx") es).or
        (t.files.lookup (FileTree.place t.home (q ++ ".kyx"))) := by
  induction h with
  | nil hspares => exact hspares.lookup _ q
  | lost hnone hspares _ ih =>
    rw [lastFiled_cons_none hnone, ← hspares.lookup, ← hspares.later.home]
    exact ih
  | @kept t t₁ t₂ t' e es f hsome hspares hwrite _ ih =>
    have hhome : t₂.home = t.home :=
      (FileTree.extends_of_write hwrite).home.trans hspares.later.home
    rw [hhome, FileTree.lookup_of_write hwrite, hspares.later.home, hspares.lookup] at ih
    rw [ih, lastFiled_cons_some hsome, Option.or_assoc]
    split <;> rfl

/-- The file of every entry filed can be read at some time, and never loses its place. -/
theorem read (h : Filed b t es t') {e : Entry} (he : e ∈ es) {f : Obligation × String}
    (hf : e.filed = some f) :
    ∃ u : FileTree, u.read (b.fileAt f.1.place) = .ok f.2 ∧ u.Extends t' ∧ u.home = t.home := by
  induction h with
  | nil => cases he
  | lost hnone hspares _ ih =>
    rcases List.mem_cons.mp he with rfl | he
    · rw [hnone] at hf
      cases hf
    · obtain ⟨u, hread, hextends, hhome⟩ := ih he
      exact ⟨u, hread, hextends, hhome.trans hspares.later.home⟩
  | kept hsome hspares hwrite hrest ih =>
    have hhome := (FileTree.extends_of_write hwrite).home.trans hspares.later.home
    rcases List.mem_cons.mp he with rfl | he
    · rw [hsome] at hf
      cases hf
      exact ⟨_, FileTree.read_of_write hwrite, hrest.later, hhome⟩
    · obtain ⟨u, hread, hextends, hhome'⟩ := ih he
      exact ⟨u, hread, hextends, hhome'.trans hhome⟩

/-- In the end the file of an entry holds what was filed there last. -/
theorem read_last (h : Filed b t es t') {e : Entry} (he : e ∈ es) {f : Obligation × String}
    (hf : e.filed = some f) :
    ∃ text, lastFiled b t.home (b.fileAt f.1.place) es = some text ∧
      t'.read (b.fileAt f.1.place) = .ok text := by
  obtain ⟨text, hlast⟩ := exists_lastFiled b t.home he hf
  obtain ⟨u, hread, hextends, hhome⟩ := h.read he hf
  obtain ⟨q, hq⟩ := b.exists_fileAt_eq f.1.place
  have hlookup := h.lookup q
  rw [← hq, hlast, ← hhome] at hlookup
  exact ⟨text, hlast, hextends.read hread hlookup⟩

end Filed

/-! ## Tasks -/

/-- The obligation that a computation makes, if it makes one. -/
def made (x : Logged Obligation) : Option Obligation :=
  match x [] with
  | .ok o _ => some o
  | .error .. => none

namespace Profile

def initTask (p : Profile) : String × Option Obligation :=
  (p.owner.name ++ ".<init>", made p.initObligation)

def methodTask (p : Profile) (m : Method) : String × Option Obligation :=
  (p.owner.name ++ "." ++ m.sig.name, made (p.methodObligation m))

def classTasks (p : Profile) : List (String × Option Obligation) :=
  p.initTask :: p.owner.methods.map p.methodTask

/-- The obligations for Zeno freedom. One task without an obligation stands for a check that fails
or that finds methods that disturb the controlled state. -/
def zenoTasks (p : Profile) : List (String × Option Obligation) :=
  match p.zenoCheck [] with
  | .error .. => [(p.owner.name ++ ".<zeno>", none)]
  | .ok check _ =>
    (if check.isViolated then [(p.owner.name ++ ".<zeno>", none)] else []) ++
      check.obligations.map fun o => (o.qualifiedName, some o)

end Profile

namespace Batch

def mainTask (b : Batch) : String × Option Obligation :=
  ("<main>", made b.model.mainObligation)

/-- Tasks of a class by its profile, or else the tasks of a class without one. -/
def tasksBy (b : Batch) (c : Class) (tasks : Profile → List (String × Option Obligation))
    (lost : List (String × Option Obligation)) : List (String × Option Obligation) :=
  match Profile.of b.model c b.settings.regions [] with
  | .ok p _ => tasks p
  | .error .. => lost

/-- Tasks of the class with a qualified name. -/
def tasksAt (b : Batch) (path : String) (tasks : Profile → List (String × Option Obligation)) :
    List (String × Option Obligation) :=
  match b.model.findClass path with
  | .ok c => b.tasksBy c tasks []
  | .error _ => []

/-- Tasks of a class of a run over all classes. -/
def memberTasks (b : Batch) (moduleName : String) (c : Class) :
    List (String × Option Obligation) :=
  if c.isPhysical then
    b.tasksBy c Profile.classTasks [(moduleName ++ "." ++ c.name, none)]
  else []

/-- The obligations of a target, under the names of their outcomes. -/
def tasks (b : Batch) : Target → List (String × Option Obligation)
  | .method path =>
    match b.model.findMethod path with
    | .ok (c, m) => b.tasksBy c (fun p => [p.methodTask m]) []
    | .error _ => []
  | .initializer path => b.tasksAt path fun p => [p.initTask]
  | .wholeClass path => b.tasksAt path Profile.classTasks
  | .zeno path => b.tasksAt path Profile.zenoTasks
  | .main => [b.mainTask]
  | .full =>
    (b.model.userModules.flatMap fun mod => mod.classes.flatMap (b.memberTasks mod.name)) ++
      if b.model.mainBlock?.isSome then [b.mainTask] else []

end Batch

/-! ## Runs -/

theorem bind_of_ok {ε σ α β : Type} {x : EStateM ε σ α} {f : α → EStateM ε σ β} {s s' : σ} {a : α}
    (h : x s = .ok a s') : (x >>= f) s = f a s' := by
  change EStateM.bind x f s = f a s'
  rw [EStateM.bind, h]

theorem bind_of_error {ε σ α β : Type} {x : EStateM ε σ α} {f : α → EStateM ε σ β} {s s' : σ}
    {e : ε} (h : x s = .error e s') : (x >>= f) s = .error e s' := by
  change EStateM.bind x f s = .error e s'
  rw [EStateM.bind, h]

namespace Batch

variable {b : Batch}

/-- What discharging an obligation does to the files: it writes the text of the obligation, or it
touches no artifact. -/
theorem discharge_cases (hb : b.backend.Harmless) (o : Obligation) (w : World) :
    (∃ e w', b.discharge o w = .error e w' ∧ w.files.Spares w'.files) ∨
      b.discharge o w = .ok (.proved, none) w ∨
      ∃ problem text verdict t t' w', o.problem = some problem ∧ problem.text = .ok text ∧
        b.discharge o w = .ok (verdict, some (b.fileAt o.place)) w' ∧ w.files.Spares t ∧
        t.write (b.fileAt o.place) text = .ok t' ∧ t'.Spares w'.files := by
  unfold discharge
  cases hproblem : o.problem with
  | none => exact .inr (.inl rfl)
  | some problem =>
    have hpath : b.fileAt o.place = Path.join b.settings.outputDir o.relativePath := rfl
    rw [hpath]
    generalize Path.join b.settings.outputDir o.relativePath = path
    dsimp only
    cases hmake : FileTree.makeDirectories path w.files with
    | error fault t =>
      have hchange : Run.changeFiles (FileTree.makeDirectories path) w =
          .error (.file fault) { w with files := t } := by simp only [Run.changeFiles, hmake]
      exact .inl ⟨_, _, bind_of_error hchange,
        ((FileTree.grows_makeDirectories path).error hmake).spares⟩
    | ok _ t =>
      have hchange : Run.changeFiles (FileTree.makeDirectories path) w =
          .ok () { w with files := t } := by simp only [Run.changeFiles, hmake]
      have hspares := ((FileTree.grows_makeDirectories path).ok hmake).spares
      rw [bind_of_ok hchange]
      cases htext : problem.text with
      | error id => exact .inl ⟨_, _, rfl, hspares⟩
      | ok text =>
        simp only [pure_bind]
        cases hwrite : t.write path text with
        | error fault =>
          have hfile : Run.writeFile path text { w with files := t } =
              .error (.file fault) { w with files := t } := by simp only [Run.writeFile, hwrite]
          exact .inl ⟨_, _, bind_of_error hfile, hspares⟩
        | ok t' =>
          have hfile : Run.writeFile path text { w with files := t } =
              .ok () { w with files := t' } := by simp only [Run.writeFile, hwrite]
          rw [bind_of_ok hfile]
          exact .inr (.inr ⟨problem, text, _, t, t', _, rfl, htext, rfl, hspares, hwrite,
            hb path (World.note ⟨t', w.log⟩ .debug .batch ("wrote " ++ path))⟩)

/-- The checks carry out the tasks: they record each of them and file what they record. -/
structure Carries (b : Batch) (f : World → List Outcome × World)
    (tasks : List (String × Option Obligation)) : Prop where
  carry : ∀ w, ∃ es : List Entry, (f w).1 = es.map Entry.outcome ∧
    List.Forall₂ (Entry.Records b) es tasks ∧ Filed b w.files es (f w).2.files

namespace Carries

variable {f g : World → List Outcome × World} {tasks tasks' : List (String × Option Obligation)}

theorem nil (hf : ∀ w : World, (f w).1 = [] ∧ (f w).2.files = w.files) : Carries b f [] := by
  constructor
  intro w
  refine ⟨[], (hf w).1, .nil, .nil ?_⟩
  rw [(hf w).2]
  exact .refl _

theorem andThen (hf : Carries b f tasks) (hg : Carries b g tasks') :
    Carries b (fun w => ((f w).1 ++ (g (f w).2).1, (g (f w).2).2)) (tasks ++ tasks') := by
  constructor
  intro w
  obtain ⟨es, hes, hrecords, hfiled⟩ := hf.carry w
  obtain ⟨es', hes', hrecords', hfiled'⟩ := hg.carry (f w).2
  refine ⟨es ++ es', ?_, List.rel_append hrecords hrecords', hfiled.append hfiled'⟩
  rw [List.map_append, hes, hes']

theorem checkAll {α : Type} {step : α → World → List Outcome × World}
    {tasks : α → List (String × Option Obligation)} (h : ∀ a, Carries b (step a) (tasks a))
    (as : List α) : Carries b (Batch.checkAll step as) (as.flatMap tasks) := by
  induction as with
  | nil => exact .nil fun w => ⟨rfl, rfl⟩
  | cons a as ih =>
    rw [List.flatMap_cons]
    exact (h a).andThen ih

/-- An outcome without an artifact. -/
theorem exists_lost (b : Batch) (name : String) (verdict : Verdict) (o : Option Obligation)
    {t t' : FileTree} (h : t.Spares t') :
    ∃ es : List Entry, [(⟨name, verdict, none⟩ : Outcome)] = es.map Entry.outcome ∧
      List.Forall₂ (Entry.Records b) es [(name, o)] ∧ Filed b t es t' := by
  refine ⟨[⟨⟨name, verdict, none⟩, none⟩], rfl, .cons ⟨rfl, rfl, ?_⟩ .nil, ?_⟩
  · intro f hf
    cases hf
  · exact .lost rfl h (.nil (.refl _))

variable (hb : b.backend.Harmless)
include hb

theorem check (name : String) {x : Logged Obligation} (hx : x.Silent) :
    Carries b (fun w => ([(b.check name x w).1], (b.check name x w).2)) [(name, made x)] := by
  constructor
  intro w
  unfold Batch.check
  dsimp only
  cases hmade : x [] with
  | error e log =>
    obtain ⟨u, hu, halike⟩ := Run.logged_of_error hx hmade w
    rw [bind_of_error hu, ← halike.files]
    exact exists_lost b name _ _ (.refl _)
  | ok o log =>
    obtain ⟨u, hu, halike⟩ := Run.logged_of_ok hx hmade w
    rw [bind_of_ok hu, ← halike.files]
    rcases discharge_cases hb o u with ⟨e, u', hdischarge, hspares⟩ | hdischarge |
      ⟨problem, text, verdict, t, t', u', hproblem, htext, hdischarge, hspares, hwrite, hspares'⟩
    · rw [hdischarge]
      exact exists_lost b name _ _ hspares
    · rw [hdischarge]
      exact exists_lost b name _ _ (.refl _)
    · rw [hdischarge]
      refine ⟨[⟨⟨name, verdict, some (b.fileAt o.place)⟩, some (o, text)⟩], rfl,
        .cons ⟨rfl, rfl, ?_⟩ .nil, .kept rfl hspares hwrite (.nil hspares')⟩
      intro f hf
      cases hf
      exact ⟨by rw [made, hmade], problem, hproblem, htext⟩

theorem checkMethod (p : Profile) (m : Method) : Carries b (b.checkMethod p m) [p.methodTask m] :=
  check hb _ (p.silent_methodObligation m)

theorem checkInit (p : Profile) : Carries b (b.checkInit p) [p.initTask] :=
  check hb _ p.silent_initObligation

theorem checkClass (p : Profile) : Carries b (b.checkClass p) p.classTasks := by
  have hmethods := checkAll (checkMethod hb p) p.owner.methods
  rw [← List.map_eq_flatMap] at hmethods
  exact (checkInit hb p).andThen hmethods

theorem checkMain : Carries b b.checkMain [b.mainTask] :=
  check hb _ b.model.silent_mainObligation

theorem checkZeno (p : Profile) : Carries b (b.checkZeno p) p.zenoTasks := by
  constructor
  intro w
  unfold Batch.checkZeno Profile.zenoTasks
  dsimp only
  cases hzeno : p.zenoCheck [] with
  | error e log =>
    obtain ⟨u, hu, halike⟩ := Run.logged_of_error p.silent_zenoCheck hzeno w
    rw [hu, ← halike.files]
    exact exists_lost b _ _ _ (.refl _)
  | ok zeno log =>
    obtain ⟨u, hu, halike⟩ := Run.logged_of_ok p.silent_zenoCheck hzeno w
    have hobligations := checkAll (fun o : Obligation => check hb o.qualifiedName (.pure o))
      zeno.obligations
    rw [← List.map_eq_flatMap] at hobligations
    rw [hu, ← halike.files]
    dsimp only
    split
    · have hviolated : Carries b
          (fun w =>
            let w := w.note .error .batch (p.owner.name ++ " is not Zeno-free: " ++
              ", ".intercalate zeno.violations ++ " change the state outside of controllers")
            ([(Batch.conclude (p.owner.name ++ ".<zeno>") .notProved none w).1],
              (Batch.conclude (p.owner.name ++ ".<zeno>") .notProved none w).2))
          [(p.owner.name ++ ".<zeno>", none)] :=
        ⟨fun w => exists_lost b _ _ _ (.refl _)⟩
      exact (hviolated.andThen hobligations).carry u
    · exact hobligations.carry u

theorem checkMember (moduleName : String) (c : Class) :
    Carries b (b.checkMember moduleName c) (b.memberTasks moduleName c) := by
  constructor
  intro w
  have hsilent := Profile.silent_of b.model c b.settings.regions
  unfold Batch.checkMember memberTasks tasksBy
  dsimp only
  split
  · cases hof : Profile.of b.model c b.settings.regions [] with
    | error e log =>
      obtain ⟨u, hu, halike⟩ := Run.logged_of_error hsilent hof w
      rw [hu, ← halike.files]
      exact exists_lost b _ _ _ (.refl _)
    | ok p log =>
      obtain ⟨u, hu, halike⟩ := Run.logged_of_ok hsilent hof w
      rw [hu, ← halike.files]
      exact (checkClass hb p).carry u
  · exact ⟨[], rfl, .nil, .nil (.refl _)⟩

theorem checkFull : Carries b b.checkFull (b.tasks .full) := by
  have hclasses := checkAll (fun mod : Module =>
    checkAll (checkMember hb mod.name) mod.classes) b.model.userModules
  have hmain : Carries b
      (fun w => if b.model.mainBlock?.isSome then b.checkMain w
        else ([], w.note .warn .batch "model contains no main block"))
      (if b.model.mainBlock?.isSome then [b.mainTask] else []) := by
    cases b.model.mainBlock?.isSome with
    | true => exact checkMain hb
    | false => exact .nil fun w => ⟨rfl, rfl⟩
  exact hclasses.andThen hmain

end Carries

/-- What a run that finds a class and makes its profile reports. -/
theorem onClass_eq_ok {α : Type} {found : Except Error α} {owner : α → Class}
    {f : α → Profile → World → List Outcome × World} {report' : Report} {w w' : World}
    (h : (Run.lift found >>= fun a => b.profile (owner a) >>= fun p => report (f a p)) w =
      .ok report' w') :
    ∃ a p log u, found = .ok a ∧ Profile.of b.model (owner a) b.settings.regions [] = .ok p log ∧
      u.files = w.files ∧ report'.outcomes = (f a p u).1 ∧ w' = (f a p u).2 := by
  have hsilent := fun c => Profile.silent_of b.model c b.settings.regions
  obtain ⟨a, w₁, hfound, h⟩ := bind_eq_ok.mp h
  cases found with
  | error e => cases hfound
  | ok a' =>
    cases hfound
    obtain ⟨p, u, hprofile, h⟩ := bind_eq_ok.mp h
    cases hof : Profile.of b.model (owner a) b.settings.regions [] with
    | error e log =>
      obtain ⟨v, hv, -⟩ := Run.logged_of_error (hsilent _) hof w
      rw [profile, hv] at hprofile
      cases hprofile
    | ok q log =>
      obtain ⟨v, hv, halike⟩ := Run.logged_of_ok (hsilent _) hof w
      rw [profile, hv] at hprofile
      cases hprofile
      cases h
      exact ⟨a, p, log, u, rfl, hof, halike.files, rfl, rfl⟩

/-- A run that finds a class by its qualified name carries out its tasks. -/
theorem exists_entries_at {path : String} {f : Profile → World → List Outcome × World}
    {tasks : Profile → List (String × Option Obligation)} {report' : Report} {w w' : World}
    (hf : ∀ p, Carries b (f p) (tasks p))
    (h : (Run.lift (b.model.findClass path) >>= fun c => b.profile c >>= fun p => report (f p)) w =
      .ok report' w') :
    ∃ es : List Entry, report'.outcomes = es.map Entry.outcome ∧
      List.Forall₂ (Entry.Records b) es (b.tasksAt path tasks) ∧ Filed b w.files es w'.files := by
  obtain ⟨c, p, log, u, hfound, hof, hfiles, hreport, rfl⟩ := onClass_eq_ok h
  simp only [tasksAt, tasksBy, hfound, hof]
  rw [hreport, ← hfiles]
  exact (hf p).carry u

/-- A run carries out the tasks of its target. -/
theorem exists_entries (hb : b.backend.Harmless) {target : Target} {report' : Report} {w w' : World}
    (h : b.run target w = .ok report' w') :
    ∃ es : List Entry, report'.outcomes = es.map Entry.outcome ∧
      List.Forall₂ (Entry.Records b) es (b.tasks target) ∧ Filed b w.files es w'.files := by
  cases target with
  | method path =>
    obtain ⟨⟨c, m⟩, p, log, u, hfound, hof, hfiles, hreport, rfl⟩ := onClass_eq_ok h
    simp only [tasks, tasksBy, hfound, hof]
    rw [hreport, ← hfiles]
    exact (Carries.checkMethod hb p m).carry u
  | initializer path => exact exists_entries_at (Carries.checkInit hb) h
  | wholeClass path => exact exists_entries_at (Carries.checkClass hb) h
  | zeno path => exact exists_entries_at (Carries.checkZeno hb) h
  | main =>
    rw [run] at h
    split at h
    · cases h
      exact (Carries.checkMain hb).carry w
    · cases h
  | full =>
    cases h
    exact (Carries.checkFull hb).carry w

end Batch

end HybridObjects
