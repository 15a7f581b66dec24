import HybridObjects.Proofs.Filing
import Mathlib.Data.List.Flatten

/-!
# HybridObjects.Proofs.Artifacts

What is left of the artifacts of a run. The file of an obligation is named for its group and its
name, and for nothing else. So two obligations of a run share a file if and only if they share these
two, and the file keeps the text that was written last.

`artifacts_hold_last`: this describes the artifacts of every run. No artifact is lost if the places
of the target, which are read off the names of classes and methods, are distinct. Classes of the
same name in two modules, methods of the same name, a method `init` beside the initializer and a
method `main` of a class `main` beside the main block are at the same place.

* `Batch.places`  — the places of a target.
* `Model.Plain`   — names that can stand in paths.
* `Model.Apart`   — names that keep all places apart.
-/

namespace HybridObjects

/-! ## Places -/

namespace Profile

variable {p : Profile} {o : Obligation} {log log' : Log}

theorem place_initObligation (h : p.initObligation log = .ok o log') :
    o.place = (p.owner.name, "init") := by
  obtain ⟨_, _, _, _, _, -, -, -, rfl⟩ := initObligation_eq_ok h
  rfl

theorem place_methodObligation {m : Method} (h : p.methodObligation m log = .ok o log') :
    o.place = (p.owner.name, m.sig.name) := by
  obtain ⟨_, -, ⟨-, rfl⟩ | ⟨_, _, _, _, _, _, -, -, -, -, rfl⟩⟩ := methodObligation_cases h
  · rfl
  · rfl

theorem place_zenoObligation {m : Method} (h : p.zenoObligation m log = .ok o log') :
    o.place = (p.owner.name, "zeno_" ++ m.sig.name) := by
  obtain ⟨_, _, _, _, _, -, -, -, rfl⟩ := zenoObligation_eq_ok h
  rfl

/-- The obligations of a check stand for some of the methods, in their order. -/
theorem places_zenoCheck {check : ZenoCheck} (h : p.zenoCheck log = .ok check log') :
    (check.obligations.map Obligation.place).Sublist
      (p.owner.methods.map fun m => (p.owner.name, "zeno_" ++ m.sig.name)) := by
  have heach := (zenoCheck_eq_ok h).imp fun _ _ ⟨_, _, ho⟩ => (place_zenoObligation ho).symm
  have hplaces := List.forall₂_map_left_iff.mpr (List.forall₂_map_right_iff.mpr heach)
  rw [List.forall₂_eq_eq_eq] at hplaces
  rw [← hplaces]
  exact List.filter_sublist.map _

end Profile

theorem Model.place_mainObligation {m : Model} {o : Obligation} {log log' : Log}
    (h : m.mainObligation log = .ok o log') : o.place = ("main", "main") := by
  obtain ⟨_, _, _, -, -, rfl⟩ := Model.mainObligation_eq_ok h
  rfl

/-- The places of the initializer and of the methods of a class. -/
def Class.places (c : Class) : List (String × String) :=
  (c.name, "init") :: c.methods.map fun m => (c.name, m.sig.name)

/-- Places of the class with a qualified name. -/
def Batch.placesAt (b : Batch) (path : String) (places : Class → List (String × String)) :
    List (String × String) :=
  match b.model.findClass path with
  | .ok c => places c
  | .error _ => []

/-- The places of a target, by the names of classes and methods alone. -/
def Batch.places (b : Batch) : Target → List (String × String)
  | .method path =>
    match b.model.findMethod path with
    | .ok (c, m) => [(c.name, m.sig.name)]
    | .error _ => []
  | .initializer path => b.placesAt path fun c => [(c.name, "init")]
  | .wholeClass path => b.placesAt path Class.places
  | .zeno path =>
    b.placesAt path fun c => c.methods.map fun m => (c.name, "zeno_" ++ m.sig.name)
  | .main => [("main", "main")]
  | .full =>
    (b.model.userModules.flatMap fun mod =>
      mod.classes.flatMap fun c => if c.isPhysical then c.places else []) ++
      if b.model.mainBlock?.isSome then [("main", "main")] else []

/-- The places of the obligations that some tasks come to. -/
def placesOf (tasks : List (String × Option Obligation)) : List (String × String) :=
  tasks.filterMap fun task => task.2.map Obligation.place

theorem placesOf_append (tasks tasks' : List (String × Option Obligation)) :
    placesOf (tasks ++ tasks') = placesOf tasks ++ placesOf tasks' :=
  List.filterMap_append

theorem placesOf_flatMap {α : Type} (tasks : α → List (String × Option Obligation)) (as : List α) :
    placesOf (as.flatMap tasks) = as.flatMap fun a => placesOf (tasks a) := by
  induction as with
  | nil => rfl
  | cons a as ih => rw [List.flatMap_cons, List.flatMap_cons, placesOf_append, ih]

/-- A task whose obligation, if one is made, is for a known place. -/
theorem placesOf_cons_sublist {name : String} {x : Logged Obligation} {place : String × String}
    (hplace : ∀ {o log log'}, x log = .ok o log' → o.place = place)
    {tasks : List (String × Option Obligation)} {places : List (String × String)}
    (h : (placesOf tasks).Sublist places) :
    (placesOf ((name, made x) :: tasks)).Sublist (place :: places) := by
  cases hx : x [] with
  | error e log =>
    have hmade : made x = none := by rw [made, hx]
    rw [placesOf, List.filterMap_cons_none (by rw [hmade]; rfl)]
    exact h.cons _
  | ok o log =>
    have hmade : made x = some o := by rw [made, hx]
    rw [placesOf, List.filterMap_cons_some (by rw [hmade]; rfl), hplace hx]
    exact h.cons_cons _

theorem Profile.placesOf_classTasks (p : Profile) :
    (placesOf p.classTasks).Sublist p.owner.places := by
  refine placesOf_cons_sublist place_initObligation ?_
  induction p.owner.methods with
  | nil => exact .refl _
  | cons m methods ih => exact placesOf_cons_sublist place_methodObligation ih

theorem Profile.placesOf_zenoTasks (p : Profile) :
    (placesOf p.zenoTasks).Sublist
      (p.owner.methods.map fun m => (p.owner.name, "zeno_" ++ m.sig.name)) := by
  unfold Profile.zenoTasks
  cases hzeno : p.zenoCheck [] with
  | error e log => exact List.nil_sublist _
  | ok zeno log =>
    have hplaces : placesOf (zeno.obligations.map fun o => (o.qualifiedName, some o)) =
        zeno.obligations.map Obligation.place := by
      rw [placesOf, List.filterMap_map]
      exact congrFun List.filterMap_eq_map zeno.obligations
    dsimp only
    rw [placesOf_append, hplaces]
    split <;> exact places_zenoCheck hzeno

namespace Batch

variable {b : Batch}

theorem placesOf_tasksBy {c : Class} {tasks : Profile → List (String × Option Obligation)}
    {lost : List (String × Option Obligation)} {places : List (String × String)}
    (hlost : placesOf lost = [])
    (h : ∀ p : Profile, p.owner = c → (placesOf (tasks p)).Sublist places) :
    (placesOf (b.tasksBy c tasks lost)).Sublist places := by
  unfold tasksBy
  cases hof : Profile.of b.model c b.settings.regions [] with
  | error e log =>
    dsimp only
    rw [hlost]
    exact List.nil_sublist _
  | ok p log => exact h p (Profile.isOf_of hof).owner_eq

theorem placesOf_tasksAt (path : String) {tasks : Profile → List (String × Option Obligation)}
    {places : Class → List (String × String)}
    (h : ∀ p : Profile, (placesOf (tasks p)).Sublist (places p.owner)) :
    (placesOf (b.tasksAt path tasks)).Sublist (b.placesAt path places) := by
  unfold tasksAt placesAt
  cases b.model.findClass path with
  | error e => exact .refl _
  | ok c => exact placesOf_tasksBy rfl fun p hp => hp ▸ h p

theorem placesOf_memberTasks (moduleName : String) (c : Class) :
    (placesOf (b.memberTasks moduleName c)).Sublist (if c.isPhysical then c.places else []) := by
  unfold memberTasks
  split
  · exact placesOf_tasksBy rfl fun p hp => hp ▸ p.placesOf_classTasks
  · exact .refl _

/-- The obligations of a target are for some of its places. -/
theorem placesOf_tasks (b : Batch) (target : Target) :
    (placesOf (b.tasks target)).Sublist (b.places target) := by
  have hnone : (placesOf []).Sublist [] := .refl _
  have hmain : (placesOf [b.mainTask]).Sublist [("main", "main")] :=
    placesOf_cons_sublist Model.place_mainObligation hnone
  cases target with
  | method path =>
    rw [tasks, places]
    cases b.model.findMethod path with
    | error e => exact .refl _
    | ok found =>
      refine placesOf_tasksBy rfl fun p hp => ?_
      dsimp only
      rw [← hp]
      exact placesOf_cons_sublist Profile.place_methodObligation hnone
  | initializer path =>
    exact placesOf_tasksAt path fun p => placesOf_cons_sublist Profile.place_initObligation hnone
  | wholeClass path => exact placesOf_tasksAt path Profile.placesOf_classTasks
  | zeno path => exact placesOf_tasksAt path Profile.placesOf_zenoTasks
  | main => exact hmain
  | full =>
    rw [tasks, places, placesOf_append, placesOf_flatMap]
    refine (List.Sublist.flatMap_right _ fun mod _ => ?_).append ?_
    · rw [placesOf_flatMap]
      exact List.Sublist.flatMap_right _ fun c _ => placesOf_memberTasks mod.name c
    · split
      · exact hmain
      · exact .refl _

end Batch

/-! ## Names of classes and methods -/

namespace Model

variable {m : Model} {name : String} {c : Class} {method : Method}

theorem mem_of_findClass (h : m.findClass name = .ok c) : ∃ mod ∈ m.modules, c ∈ mod.classes := by
  unfold findClass at h
  split at h
  · cases h
  · split at h
    · cases h
    · next mod hmod =>
      split at h
      · cases h
      · next hc =>
        cases h
        exact ⟨mod, List.mem_of_find?_eq_some hmod, List.mem_of_find?_eq_some hc⟩

theorem mem_of_findMethod (h : m.findMethod name = .ok (c, method)) :
    (∃ mod ∈ m.modules, c ∈ mod.classes) ∧ method ∈ c.methods := by
  unfold findMethod at h
  split at h
  · cases h
  · split at h
    · cases h
    · next hclass =>
      split at h
      · cases h
      · next hmethod =>
        cases h
        exact ⟨mem_of_findClass hclass, List.mem_of_find?_eq_some hmethod⟩

/-- The names of classes and methods can stand in paths. -/
structure Plain (m : Model) : Prop where
  classes : ∀ mod ∈ m.modules, ∀ c ∈ mod.classes, Path.IsPlain c.name
  methods : ∀ mod ∈ m.modules, ∀ c ∈ mod.classes, ∀ method ∈ c.methods,
    '/' ∉ method.sig.name.toList

/-- All classes have names of their own, as have the methods of a class, with `init` for its
initializer, and the main block is not taken for a method. -/
structure Apart (m : Model) : Prop where
  classes : ((m.userModules.flatMap Module.classes).map Class.name).Nodup
  methods : ∀ mod ∈ m.modules, ∀ c ∈ mod.classes,
    ("init" :: c.methods.map fun method => method.sig.name).Nodup
  main : m.mainBlock?.isSome → ∀ mod ∈ m.userModules, ∀ c ∈ mod.classes, c.name = "main" →
    "main" ∉ c.methods.map fun method => method.sig.name

end Model

theorem Class.places_eq (c : Class) :
    c.places = ("init" :: c.methods.map fun m => m.sig.name).map fun name => (c.name, name) := by
  rw [places, List.map_cons, List.map_map]
  rfl

namespace Batch

variable {b : Batch}

/-- The class with a qualified name is one of the classes of the model, if there is one. -/
theorem placesAt_of_forall {P : List (String × String) → Prop} {path : String}
    {places : Class → List (String × String)} (hnone : P [])
    (h : ∀ mod ∈ b.model.modules, ∀ c ∈ mod.classes, P (places c)) :
    P (b.placesAt path places) := by
  unfold placesAt
  cases hfound : b.model.findClass path with
  | error e => exact hnone
  | ok c =>
    obtain ⟨mod, hmod, hc⟩ := Model.mem_of_findClass hfound
    exact h mod hmod c hc

theorem exists_of_mem_placesAt {path : String} {places : Class → List (String × String)}
    {place : String × String} (h : place ∈ b.placesAt path places) :
    ∃ mod ∈ b.model.modules, ∃ c ∈ mod.classes, place ∈ places c := by
  revert h
  refine placesAt_of_forall (P := fun ps => place ∈ ps → _) ?_ fun mod hmod c hc hplace =>
    ⟨mod, hmod, c, hc, hplace⟩
  intro hplace
  cases hplace

/-- If names can stand in paths, then all places can. -/
theorem plain_of_mem_places (h : b.model.Plain) {target : Target} {place : String × String}
    (hplace : place ∈ b.places target) : PlainPlace place := by
  have hinit : '/' ∉ "init".toList := by decide
  have hmain : PlainPlace ("main", "main") := ⟨by decide, by decide⟩
  have hclass : ∀ mod ∈ b.model.modules, ∀ c ∈ mod.classes, place ∈ c.places →
      PlainPlace place := by
    intro mod hmod c hc hplace
    rcases List.mem_cons.mp hplace with rfl | hplace
    · exact ⟨h.classes mod hmod c hc, hinit⟩
    · obtain ⟨method, hmethod, rfl⟩ := List.mem_map.mp hplace
      exact ⟨h.classes mod hmod c hc, h.methods mod hmod c hc method hmethod⟩
  cases target with
  | method path =>
    rw [places] at hplace
    split at hplace
    · next c method hfound =>
      obtain ⟨⟨mod, hmod, hc⟩, hmethod⟩ := Model.mem_of_findMethod hfound
      obtain rfl := List.mem_singleton.mp hplace
      exact ⟨h.classes mod hmod c hc, h.methods mod hmod c hc method hmethod⟩
    · cases hplace
  | initializer path =>
    obtain ⟨mod, hmod, c, hc, hplace⟩ := exists_of_mem_placesAt hplace
    obtain rfl := List.mem_singleton.mp hplace
    exact ⟨h.classes mod hmod c hc, hinit⟩
  | wholeClass path =>
    obtain ⟨mod, hmod, c, hc, hplace⟩ := exists_of_mem_placesAt hplace
    exact hclass mod hmod c hc hplace
  | zeno path =>
    obtain ⟨mod, hmod, c, hc, hplace⟩ := exists_of_mem_placesAt hplace
    obtain ⟨method, hmethod, rfl⟩ := List.mem_map.mp hplace
    refine ⟨h.classes mod hmod c hc, ?_⟩
    rw [String.toList_append, List.mem_append]
    exact not_or_intro (by decide) (h.methods mod hmod c hc method hmethod)
  | main =>
    obtain rfl := List.mem_singleton.mp hplace
    exact hmain
  | full =>
    rcases List.mem_append.mp hplace with hplace | hplace
    · obtain ⟨mod, hmod, hplace⟩ := List.mem_flatMap.mp hplace
      obtain ⟨c, hc, hplace⟩ := List.mem_flatMap.mp hplace
      split at hplace
      · exact hclass mod (List.mem_filter.mp hmod).1 c hc hplace
      · cases hplace
    · split at hplace
      · obtain rfl := List.mem_singleton.mp hplace
        exact hmain
      · cases hplace

theorem group_of_mem_member {c : Class} {place : String × String}
    (h : place ∈ if c.isPhysical then c.places else []) : place.1 = c.name := by
  split at h
  · rw [c.places_eq] at h
    obtain ⟨name, -, rfl⟩ := List.mem_map.mp h
    rfl
  · cases h

/-- If names are apart, then places are. -/
theorem nodup_places (h : b.model.Apart) (target : Target) : (b.places target).Nodup := by
  have hclass : ∀ mod ∈ b.model.modules, ∀ c ∈ mod.classes, c.places.Nodup := by
    intro mod hmod c hc
    rw [c.places_eq]
    exact (h.methods mod hmod c hc).map (Prod.mk_right_injective c.name)
  cases target with
  | method path =>
    rw [places]
    split
    · exact List.nodup_singleton _
    · exact List.nodup_nil
  | initializer path =>
    exact placesAt_of_forall List.nodup_nil fun mod hmod c hc => List.nodup_singleton _
  | wholeClass path => exact placesAt_of_forall List.nodup_nil hclass
  | zeno path =>
    refine placesAt_of_forall List.nodup_nil fun mod hmod c hc => ?_
    have hnames := (List.nodup_cons.mp (h.methods mod hmod c hc)).2
    have hinjective : Function.Injective fun name => (c.name, "zeno_" ++ name) := by
      intro name name' heq
      have htext := congrArg String.toList (Prod.mk.inj heq).2
      rw [String.toList_append, String.toList_append] at htext
      exact String.toList_injective (List.append_cancel_left htext)
    have hplaces := hnames.map hinjective
    rw [List.map_map] at hplaces
    exact hplaces
  | main => exact List.nodup_singleton _
  | full =>
    -- classes with different names have different places, and none is that of the main block
    have hclasses := List.pairwise_map.mp h.classes
    have hapart : ∀ c c' : Class, c.name ≠ c'.name → List.Disjoint
        (if c.isPhysical then c.places else []) (if c'.isPhysical then c'.places else []) := by
      intro c c' hne place hc hc'
      exact hne ((group_of_mem_member hc).symm.trans (group_of_mem_member hc'))
    rw [places, ← List.flatMap_assoc]
    refine List.Nodup.append (List.nodup_flatMap.mpr ⟨?_, hclasses.imp (hapart _ _)⟩) ?_ ?_
    · intro c hc
      obtain ⟨mod, hmod, hc⟩ := List.mem_flatMap.mp hc
      split
      · exact hclass mod (List.mem_filter.mp hmod).1 c hc
      · exact List.nodup_nil
    · split
      · exact List.nodup_singleton _
      · exact List.nodup_nil
    · intro place hplace hmain
      obtain ⟨c, hc, hplace⟩ := List.mem_flatMap.mp hplace
      obtain ⟨mod, hmod, hc⟩ := List.mem_flatMap.mp hc
      split at hmain
      · next hsome =>
        obtain rfl := List.mem_singleton.mp hmain
        have hname := group_of_mem_member hplace
        split at hplace
        · rw [c.places_eq] at hplace
          obtain ⟨name, hmem, heq⟩ := List.mem_map.mp hplace
          obtain rfl := (Prod.mk.inj heq).2
          rcases List.mem_cons.mp hmem with hinit | hmem
          · exact absurd hinit (by decide)
          · exact h.main hsome mod hmod c hc hname.symm hmem
        · cases hplace
      · cases hmain

end Batch

/-! ## Runs and places -/

theorem Entry.places_sublist {b : Batch} {es : List Entry}
    {tasks : List (String × Option Obligation)} (h : List.Forall₂ (Entry.Records b) es tasks) :
    (es.filterMap Entry.place?).Sublist (placesOf tasks) := by
  induction h with
  | nil => exact .refl _
  | @cons e task es tasks he _ ih =>
    have hrest : (es.filterMap Entry.place?).Sublist (placesOf (task :: tasks)) := by
      rw [placesOf, List.filterMap_cons]
      split
      · exact ih
      · exact ih.cons _
    cases hfiled : e.filed with
    | none => rwa [List.filterMap_cons_none (by rw [place?, hfiled]; rfl)]
    | some f =>
      obtain ⟨htask, -⟩ := he.own f hfiled
      rw [placesOf, List.filterMap_cons_some (by rw [place?, hfiled]; rfl),
        List.filterMap_cons_some (by rw [htask]; rfl)]
      exact ih.cons_cons _

theorem Entry.artifacts_eq {b : Batch} {es : List Entry}
    {tasks : List (String × Option Obligation)} (h : List.Forall₂ (Entry.Records b) es tasks) :
    (es.map Entry.outcome).filterMap Outcome.artifact =
      (es.filterMap Entry.place?).map b.fileAt := by
  induction h with
  | nil => rfl
  | @cons e task es tasks he _ ih =>
    rw [List.map_cons, List.filterMap_cons, List.filterMap_cons, he.artifact, ih]
    cases e.place? with
    | none => rfl
    | some place => rfl

/-- What a run leaves of its artifacts. It goes through the tasks of its target, and in the end the
file of each obligation that was written holds what was written there last. Obligations share a file
if and only if they share their group and their name, so all files hold their own obligations if the
places of the target are distinct, as they are if the names of the model are apart. -/
theorem artifacts_hold_last {b : Batch} (hbackend : b.backend.Harmless) {target : Target}
    {report : Report} {w w' : World} (hrun : b.run target w = .ok report w') :
    ∃ es : List Entry, report.outcomes = es.map Entry.outcome ∧
      List.Forall₂ (Entry.Records b) es (b.tasks target) ∧
      (∀ e ∈ es, ∀ f, e.filed = some f →
        ∃ text, lastFiled b w.files.home (b.fileAt f.1.place) es = some text ∧
          w'.files.read (b.fileAt f.1.place) = .ok text) ∧
      (b.model.Plain →
        (∀ e ∈ es, ∀ f, e.filed = some f → ∀ e' ∈ es, ∀ f', e'.filed = some f' →
          (b.fileAt f.1.place = b.fileAt f'.1.place ↔ f.1.place = f'.1.place)) ∧
        ((b.places target).Nodup → report.submitted.Nodup ∧
          ∀ e ∈ es, ∀ f, e.filed = some f → w'.files.read (b.fileAt f.1.place) = .ok f.2)) ∧
      (b.model.Apart → (b.places target).Nodup) := by
  obtain ⟨es, houtcomes, hrecords, hfiled⟩ := Batch.exists_entries hbackend hrun
  have hsublist : (es.filterMap Entry.place?).Sublist (b.places target) :=
    (Entry.places_sublist hrecords).trans (b.placesOf_tasks target)
  have hmem : ∀ {e f}, e ∈ es → e.filed = some f → f.1.place ∈ es.filterMap Entry.place? := by
    intro e f he hf
    exact List.mem_filterMap.mpr ⟨e, he, by rw [Entry.place?, hf]; rfl⟩
  refine ⟨es, houtcomes, hrecords, fun e he f hf => hfiled.read_last he hf, ?_,
    fun hmodel => Batch.nodup_places hmodel target⟩
  intro hplain
  have hplaces : ∀ place ∈ es.filterMap Entry.place?, PlainPlace place := fun place hplace =>
    Batch.plain_of_mem_places hplain (hsublist.subset hplace)
  refine ⟨?_, fun hnodup => ⟨?_, ?_⟩⟩
  · intro e he f hf e' he' f' hf'
    exact (hplaces _ (hmem he hf)).fileAt_inj b (hplaces _ (hmem he' hf'))
  · rw [Report.submitted, houtcomes, Entry.artifacts_eq hrecords]
    exact (hnodup.sublist hsublist).map_on fun place hplace place' hplace' heq =>
      ((hplaces place hplace).fileAt_inj b (hplaces place' hplace')).mp heq
  · intro e he f hf
    obtain ⟨text, hlast, hread⟩ := hfiled.read_last he hf
    rw [lastFiled_of_nodup hplaces (hnodup.sublist hsublist) he hf] at hlast
    cases hlast
    exact hread

/-! ## Waterworks with a method `init` -/

/-- A method that is named as the artifact of the initializer. -/
def Method.restart : Method :=
  ⟨⟨"init", [⟨"n", "Int"⟩]⟩, [.assign (.field "x") (.pure (.var "n"))], []⟩

/-- A class in which `x` grows with slope one. -/
def Class.reservoir : Class :=
  { name := "Reservoir"
    params := []
    fields := []
    physical := some
      { fields := [⟨"x", .int "0", ⟨.derivative (.field "x"), .int "1"⟩⟩]
        annotations := [⟨"ABS.DC.HybridSpec", .construct "ObjInv" [.string "x >= 0"]⟩] }
    init := none
    methods := [.restart]
    implements := []
    annotations := [] }

namespace Batch

/-- The reservoir, with a prover that answers nothing and whose output is kept. -/
def waterworks : Batch where
  model := ⟨[⟨"M", [], [.reservoir], none⟩]⟩
  settings := .default
  backend := .prover (fun _ _ _ => .finished ⟨.code 0, "", ""⟩) ⟨"", "prover.jar", [], 60, true⟩

theorem plain_waterworks : waterworks.model.Plain where
  classes := by decide
  methods := by decide

theorem tasks_waterworks : ∃ o o' : Obligation, waterworks.tasks (.wholeClass "M.Reservoir") =
    [("Reservoir.<init>", some o), ("Reservoir.init", some o')] ∧ o.problem ≠ o'.problem := by
  have hdeclared : ((waterworks.tasks (.wholeClass "M.Reservoir")).map fun task =>
      task.2.bind fun o => o.problem.map Problem.declared).Nodup := by decide +kernel
  obtain ⟨o, o', htasks⟩ : ∃ o o' : Obligation, waterworks.tasks (.wholeClass "M.Reservoir") =
      [("Reservoir.<init>", some o), ("Reservoir.init", some o')] := ⟨_, _, rfl⟩
  refine ⟨o, o', htasks, fun hproblem => ?_⟩
  rw [htasks] at hdeclared
  simp [hproblem] at hdeclared

theorem run_waterworks : ∃ report w',
    waterworks.run (.wholeClass "M.Reservoir") ⟨.emptyAt ["work"], []⟩ = .ok report w' ∧
      report.outcomes.map Outcome.artifact =
        [some "chisel-out/Reservoir/init.kyx", some "chisel-out/Reservoir/init.kyx"] := by
  have hran : (match waterworks.run (.wholeClass "M.Reservoir") ⟨.emptyAt ["work"], []⟩ with
      | .ok report _ => report.outcomes.map Outcome.artifact
      | .error .. => []) =
        [some "chisel-out/Reservoir/init.kyx", some "chisel-out/Reservoir/init.kyx"] := by
    decide +kernel
  split at hran
  · next report w' hrun => exact ⟨report, w', hrun, hran⟩
  · cases hran

end Batch

/-- The run of the waterworks: the initializer and the method are filed in the same place, and the
text for the initializer is lost. -/
theorem artifacts_hold_last_waterworks : Batch.waterworks.backend.Harmless ∧
    Batch.waterworks.model.Plain ∧ ∃ report w' e e' f f',
      Batch.waterworks.run (.wholeClass "M.Reservoir") ⟨.emptyAt ["work"], []⟩ = .ok report w' ∧
        report.outcomes = [Entry.outcome e, Entry.outcome e'] ∧
        e.filed = some f ∧ e'.filed = some f' ∧ f.1.place = f'.1.place ∧
        f.1.problem ≠ f'.1.problem ∧
        w'.files.read (Batch.waterworks.fileAt f.1.place) = .ok f'.2 := by
  obtain ⟨report, w', hrun, hartifacts⟩ := Batch.run_waterworks
  obtain ⟨o, o', htasks, hproblem⟩ := Batch.tasks_waterworks
  have hharmless : Batch.waterworks.backend.Harmless := Backend.harmless_prover _ _
  obtain ⟨es, houtcomes, hrecords, hlast, hplain, -⟩ := artifacts_hold_last hharmless hrun
  rw [htasks] at hrecords
  obtain ⟨e, rest, he, hrest, rfl⟩ := List.forall₂_cons_right_iff.mp hrecords
  obtain ⟨e', rest', he', hnil, rfl⟩ := List.forall₂_cons_right_iff.mp hrest
  obtain rfl := List.forall₂_nil_right_iff.mp hnil
  simp only [houtcomes, List.map_cons, List.map_nil, List.cons.injEq, and_true] at hartifacts
  obtain ⟨hpath, hpath'⟩ := hartifacts
  obtain ⟨f, hf, hfile⟩ := he.exists_filed hpath
  obtain ⟨f', hf', hfile'⟩ := he'.exists_filed hpath'
  have hplace := ((hplain Batch.plain_waterworks).1 e (by simp) f hf e' (by simp) f' hf').mp
    (hfile.trans hfile'.symm)
  obtain ⟨text, htext, hread⟩ := hlast e (by simp) f hf
  rw [lastFiled_cons_some hf, lastFiled_cons_some hf', if_pos (by rw [hplace])] at htext
  cases htext
  obtain ⟨hown, -⟩ := he.own f hf
  obtain ⟨hown', -⟩ := he'.own f' hf'
  cases hown
  cases hown'
  exact ⟨hharmless, Batch.plain_waterworks, report, w', e, e', f, f', hrun, houtcomes, hf, hf',
    hplace, hproblem, hread⟩

end HybridObjects
