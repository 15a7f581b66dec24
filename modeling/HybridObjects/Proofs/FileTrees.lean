import HybridObjects.Files.Tree
import HybridObjects.Proofs.Outcome
import Mathlib.Data.List.Basic

/-!
# HybridObjects.Proofs.FileTrees

What becomes of files. A path that leads anywhere leads to the same place in every tree. Creating
directories and writing files never takes a directory or a file away, and never puts a directory in
the place of a file; so what could be read once can be read ever after, and it is what was written
last to that place.

* `FileTree.place`            — where a path leads, whatever the tree.
* `FileTree.Extends`          — nothing is lost from one tree to another.
* `FileTree.Grows`            — only directories are new.
* `FileTree.write_eq_ok`, `FileTree.read_eq_ok`, `FileTree.Extends.read`.
* `Path.names_join`           — the names of a joined path.
-/

namespace HybridObjects

/-! ## Places -/

/-- Where names lead from a directory, if they lead anywhere. -/
def Location.follow : Location → List String → Location
  | dir, [] => dir
  | dir, name :: names => follow (if name = ".." then dir.dropLast else dir ++ [name]) names

theorem Location.follow_append (dir : Location) (names names' : List String) :
    follow dir (names ++ names') = follow (follow dir names) names' := by
  induction names generalizing dir with
  | nil => rfl
  | cons name names ih => rw [List.cons_append, follow, follow, ih]

theorem Location.follow_eq_append {names : List String} (h : ".." ∉ names) (dir : Location) :
    follow dir names = dir ++ names := by
  induction names generalizing dir with
  | nil => rw [follow, List.append_nil]
  | cons name names ih =>
    obtain ⟨hname, hnames⟩ := List.ne_and_not_mem_of_not_mem_cons h
    rw [follow, if_neg hname.symm, ih hnames, List.append_assoc, List.singleton_append]

namespace FileTree

/-- Where a path leads, if it leads anywhere. -/
def place (home : Location) (p : Path) : Location :=
  Location.follow (if Path.isAbsolute p then [] else home) (Path.names p)

variable {t t' : FileTree} {p : Path} {loc : Location} {text : String}

theorem locateFrom_eq_follow {dir : Location} {names : List String}
    (h : t.locateFrom dir names = .ok loc) : loc = Location.follow dir names := by
  induction names generalizing dir with
  | nil =>
    cases h
    rfl
  | cons name names ih =>
    rw [locateFrom] at h
    rw [Location.follow]
    split at h
    · cases h
    · split at h
      · next hname =>
        rw [if_pos (by simpa using hname)]
        exact ih h
      · next hname =>
        rw [if_neg (by simpa using hname)]
        split at h
        · cases h
        · exact ih h

theorem locate_eq_ok (h : t.locate p = .ok loc) :
    textFault? p = none ∧ p.isEmpty = false ∧
      t.locateFrom (t.start p) (Path.names p) = .ok loc := by
  unfold locate at h
  split at h
  · cases h
  · next hfault =>
    split at h
    · cases h
    · next hempty => exact ⟨hfault, by simpa using hempty, h⟩

theorem locate_eq_place (h : t.locate p = .ok loc) : loc = place t.home p :=
  locateFrom_eq_follow (locate_eq_ok h).2.2

theorem read_eq_ok : t.read p = .ok text ↔ t.locate p = .ok (place t.home p) ∧
    t.isDirectory (place t.home p) = false ∧ t.files.lookup (place t.home p) = some text ∧
      Path.wantsDirectory p = false := by
  unfold read
  constructor
  · intro h
    obtain ⟨loc, hlocate, h⟩ := except_bind_eq_ok.mp h
    obtain rfl := locate_eq_place hlocate
    split at h
    · cases h
    · next hdirectory =>
      split at h
      · cases h
      · next content hcontent =>
        split at h
        · cases h
        · next hwants =>
          cases h
          exact ⟨hlocate, by simpa using hdirectory, hcontent, by simpa using hwants⟩
  · rintro ⟨hlocate, hdirectory, hcontent, hwants⟩
    refine except_bind_eq_ok.mpr ⟨_, hlocate, ?_⟩
    rw [hdirectory, hcontent, hwants]
    rfl

theorem write_eq_ok : t.write p text = .ok t' ↔ t.locate p = .ok (place t.home p) ∧
    t.isDirectory (place t.home p) = false ∧ Path.wantsDirectory p = false ∧
      t' = { t with files := putFile (place t.home p) text t.files } := by
  unfold write
  constructor
  · intro h
    obtain ⟨loc, hlocate, h⟩ := except_bind_eq_ok.mp h
    obtain rfl := locate_eq_place hlocate
    split at h
    · cases h
    · next hnone =>
      cases h
      simp only [Bool.or_eq_true, not_or, Bool.not_eq_true] at hnone
      exact ⟨hlocate, hnone.1, hnone.2, rfl⟩
  · rintro ⟨hlocate, hdirectory, hwants, rfl⟩
    refine except_bind_eq_ok.mpr ⟨_, hlocate, ?_⟩
    rw [hdirectory, hwants]
    rfl

/-! ## Files -/

theorem lookup_file (file : Location × String) (files : List (Location × String))
    (loc : Location) :
    (file :: files).lookup loc = if loc = file.1 then some file.2 else files.lookup loc := by
  rw [List.lookup_cons]
  by_cases h : loc = file.1
  · rw [if_pos h, beq_iff_eq.mpr h]
  · rw [if_neg h, beq_eq_false_iff_ne.mpr h]

theorem isFile_eq_lookup : t.isFile loc = (t.files.lookup loc).isSome := by
  unfold isFile
  induction t.files with
  | nil => rfl
  | cons file files ih =>
    rw [List.any_cons, lookup_file, ih]
    by_cases h : loc = file.1
    · simp [h]
    · rw [if_neg h, beq_eq_false_iff_ne.mpr (Ne.symm h), Bool.false_or]

theorem lookup_putFile (files : List (Location × String)) (loc' : Location) :
    (putFile loc text files).lookup loc' = if loc' = loc then some text else files.lookup loc' := by
  induction files with
  | nil => rw [putFile, lookup_file]
  | cons file files ih =>
    rw [putFile, lookup_file file]
    by_cases hfile : file.1 = loc
    · rw [if_pos (beq_iff_eq.mpr hfile), lookup_file, hfile]
      by_cases h : loc' = loc <;> simp [h]
    · rw [if_neg (by simpa using hfile), lookup_file, ih]
      by_cases h : loc' = file.1
      · rw [if_pos h, if_pos h, if_neg (h ▸ hfile)]
      · rw [if_neg h, if_neg h]

/-! ## Later trees -/

/-- From one tree to another nothing is lost: directories remain, and so do files. -/
structure Extends (t t' : FileTree) : Prop where
  home : t'.home = t.home
  directories : ∀ {loc}, t.isDirectory loc = true → t'.isDirectory loc = true
  files : ∀ {loc}, t.isFile loc = true →
    t'.isFile loc = true ∧ (t'.isDirectory loc = true → t.isDirectory loc = true)

/-- Nothing but directories is new, and none of them is in the place of a file. -/
structure Grows (t t' : FileTree) : Prop where
  home : t'.home = t.home
  files : t'.files = t.files
  directories : ∀ {loc}, t.isDirectory loc = true → t'.isDirectory loc = true
  fresh : ∀ {loc}, t'.isDirectory loc = true → t.isDirectory loc = true ∨ t.isFile loc = false

theorem Extends.refl (t : FileTree) : t.Extends t :=
  ⟨rfl, fun h => h, fun h => ⟨h, fun h => h⟩⟩

theorem Extends.trans {t'' : FileTree} (h : t.Extends t') (h' : t'.Extends t'') :
    t.Extends t'' where
  home := h'.home.trans h.home
  directories hloc := h'.directories (h.directories hloc)
  files hloc := by
    obtain ⟨hfile, hdirectory⟩ := h.files hloc
    obtain ⟨hfile', hdirectory'⟩ := h'.files hfile
    exact ⟨hfile', fun hloc => hdirectory (hdirectory' hloc)⟩

theorem Grows.refl (t : FileTree) : t.Grows t :=
  ⟨rfl, rfl, fun h => h, .inl⟩

theorem Grows.trans {t'' : FileTree} (h : t.Grows t') (h' : t'.Grows t'') : t.Grows t'' where
  home := h'.home.trans h.home
  files := h'.files.trans h.files
  directories hloc := h'.directories (h.directories hloc)
  fresh hloc := by
    rcases h'.fresh hloc with hloc | hloc
    · exact h.fresh hloc
    · rw [isFile_eq_lookup, h.files, ← isFile_eq_lookup] at hloc
      exact .inr hloc

theorem Grows.later (h : t.Grows t') : t.Extends t' where
  home := h.home
  directories := h.directories
  files {loc} hloc := by
    refine ⟨by rwa [isFile_eq_lookup, h.files, ← isFile_eq_lookup], fun hdirectory => ?_⟩
    rcases h.fresh hdirectory with hdirectory | hnone
    · exact hdirectory
    · rw [hloc] at hnone
      cases hnone

/-- Writing a file replaces what is at its place and changes nothing else. -/
theorem lookup_of_write (h : t.write p text = .ok t') (loc : Location) :
    t'.files.lookup loc = if loc = place t.home p then some text else t.files.lookup loc := by
  obtain ⟨-, -, -, rfl⟩ := write_eq_ok.mp h
  exact lookup_putFile t.files loc

theorem extends_of_write (h : t.write p text = .ok t') : t.Extends t' := by
  have hlookup := lookup_of_write h
  obtain ⟨-, -, -, rfl⟩ := write_eq_ok.mp h
  refine ⟨rfl, fun hloc => hloc, fun {loc} hloc => ⟨?_, fun hdirectory => hdirectory⟩⟩
  rw [isFile_eq_lookup] at hloc
  rw [isFile_eq_lookup, hlookup]
  split
  · rfl
  · exact hloc

namespace Extends

theorem locateFrom (h : t.Extends t') {dir : Location} {names : List String}
    (hlocate : t.locateFrom dir names = .ok loc) : t'.locateFrom dir names = .ok loc := by
  induction names generalizing dir with
  | nil => exact hlocate
  | cons name names ih =>
    unfold FileTree.locateFrom at hlocate ⊢
    cases hdir : t.isDirectory dir with
    | false =>
      rw [hdir] at hlocate
      cases hlocate
    | true =>
      rw [hdir] at hlocate
      rw [h.directories hdir]
      simp only [Bool.not_true, Bool.false_eq_true, if_false] at hlocate ⊢
      split
      · next hname =>
        rw [if_pos hname] at hlocate
        exact ih hlocate
      · next hname =>
        rw [if_neg hname] at hlocate
        split
        · next hlong =>
          rw [if_pos hlong] at hlocate
          cases hlocate
        · next hlong =>
          rw [if_neg hlong] at hlocate
          exact ih hlocate

theorem locate (h : t.Extends t') (hlocate : t.locate p = .ok loc) : t'.locate p = .ok loc := by
  obtain ⟨hfault, hempty, hfrom⟩ := locate_eq_ok hlocate
  have hstart : t'.start p = t.start p := by rw [start, start, h.home]
  unfold FileTree.locate
  rw [hfault, hempty, hstart]
  exact h.locateFrom hfrom

/-- What could be read can be read later on, and it is what is at that place then. -/
theorem read (h : t.Extends t') (hread : t.read p = .ok text) {text' : String}
    (hlater : t'.files.lookup (place t.home p) = some text') : t'.read p = .ok text' := by
  obtain ⟨hlocate, hdirectory, hcontent, hwants⟩ := read_eq_ok.mp hread
  rw [read_eq_ok, h.home]
  refine ⟨h.locate hlocate, ?_, hlater, hwants⟩
  have hfile : t.isFile (place t.home p) = true := by rw [isFile_eq_lookup, hcontent]; rfl
  cases hdirectory' : t'.isDirectory (place t.home p) with
  | false => rfl
  | true => rw [(h.files hfile).2 hdirectory'] at hdirectory; cases hdirectory

end Extends

/-- What has been written can be read. -/
theorem read_of_write (h : t.write p text = .ok t') : t'.read p = .ok text := by
  have hlookup := lookup_of_write h (place t.home p)
  have hextends := extends_of_write h
  obtain ⟨hlocate, hdirectory, hwants, rfl⟩ := write_eq_ok.mp h
  rw [if_pos rfl] at hlookup
  exact read_eq_ok.mpr ⟨hextends.locate hlocate, hdirectory, hlookup, hwants⟩

/-! ## New directories -/

/-- The change makes nothing but directories, also when it fails. -/
structure Change.Grows (change : Change) : Prop where
  ok : ∀ {t t' : FileTree}, change t = .ok () t' → t.Grows t'
  error : ∀ {t t' : FileTree} {fault : FileFault}, change t = .error fault t' → t.Grows t'

theorem grows_of_makeDirectory {dir : Location} {names : List String}
    (h : t.makeDirectory dir names = .ok t') : t.Grows t' := by
  obtain ⟨loc, -, h⟩ := except_bind_eq_ok.mp h
  split at h
  · cases h
  · next hnone =>
    cases h
    simp only [Bool.or_eq_true, not_or, Bool.not_eq_true] at hnone
    refine ⟨rfl, rfl, fun hloc => ?_, fun hloc => ?_⟩
    · simp only [isDirectory, List.contains_iff_mem] at hloc ⊢
      exact List.mem_append_left _ hloc
    · simp only [isDirectory, List.contains_iff_mem, List.mem_append, List.mem_singleton] at hloc ⊢
      rcases hloc with hloc | rfl
      · exact .inl hloc
      · exact .inr hnone.1

theorem grows_ensureDirectory (dir : Location) (names : List String) :
    Change.Grows (ensureDirectory dir names) where
  ok {t t'} h := by
    unfold ensureDirectory at h
    split at h
    · next hmade =>
      cases h
      exact grows_of_makeDirectory hmade
    · split at h
      · cases h
        exact .refl t
      · cases h
  error {t t' fault} h := by
    unfold ensureDirectory at h
    split at h
    · cases h
    · split at h
      · cases h
      · cases h
        exact .refl t

theorem grows_ensureDirectories (dir : Location) (names : List String) :
    Change.Grows (ensureDirectories dir names) := by
  induction names with
  | nil => exact ⟨fun h => by cases h; exact .refl _, fun h => by cases h⟩
  | cons name above ih =>
    have hlast := grows_ensureDirectory dir (name :: above).reverse
    constructor
    · intro t t' h
      unfold ensureDirectories at h
      dsimp only at h
      split at h
      · obtain ⟨_, t₁, habove, h⟩ := bind_eq_ok.mp h
        exact (ih.ok habove).trans (hlast.ok h)
      · exact hlast.ok h
    · intro t t' fault h
      unfold ensureDirectories at h
      dsimp only at h
      split at h
      · rcases bind_eq_error.mp h with habove | ⟨_, t₁, habove, h⟩
        · exact ih.error habove
        · exact (ih.ok habove).trans (hlast.error h)
      · exact hlast.error h

theorem grows_makeDirectories (p : Path) : Change.Grows (makeDirectories p) where
  ok {t t'} h := by
    unfold makeDirectories at h
    split at h
    · cases h
    · exact (grows_ensureDirectories _ _).ok h
  error {t t' fault} h := by
    unfold makeDirectories at h
    split at h
    · cases h
      exact .refl t
    · exact (grows_ensureDirectories _ _).error h

end FileTree

/-! ## Joined paths -/

namespace Text

variable {sep : Char}

theorem splitAt_ne_nil (sep : Char) (cs : List Char) : splitAt sep cs ≠ [] := by
  cases cs with
  | nil => simp [splitAt]
  | cons c cs =>
    unfold splitAt
    split
    · simp
    · split <;> simp

theorem splitAt_eq_singleton {cs : List Char} (h : sep ∉ cs) : splitAt sep cs = [cs] := by
  induction cs with
  | nil => rfl
  | cons c cs ih =>
    obtain ⟨hc, hcs⟩ := List.ne_and_not_mem_of_not_mem_cons h
    rw [splitAt, if_neg hc.symm, ih hcs]

theorem splitAt_append (cs cs' : List Char) :
    splitAt sep (cs ++ sep :: cs') = splitAt sep cs ++ splitAt sep cs' := by
  induction cs with
  | nil => simp [splitAt]
  | cons c cs ih =>
    rw [List.cons_append, splitAt, ih, splitAt]
    split
    · rfl
    · obtain ⟨piece, pieces, hpieces⟩ := List.exists_cons_of_ne_nil (splitAt_ne_nil sep cs)
      rw [hpieces]
      rfl

/-- An ending without separators is part of the last piece. -/
theorem splitAt_append_ending {ending : List Char} (h : sep ∉ ending) (cs : List Char) :
    ∃ pieces last, splitAt sep (cs ++ ending) = pieces ++ [last ++ ending] := by
  induction cs with
  | nil => exact ⟨[], [], splitAt_eq_singleton h⟩
  | cons c cs ih =>
    obtain ⟨pieces, last, hpieces⟩ := ih
    rw [List.cons_append, splitAt, hpieces]
    split
    · exact ⟨[] :: pieces, last, rfl⟩
    · cases pieces with
      | nil => exact ⟨[], c :: last, rfl⟩
      | cons piece pieces => exact ⟨(c :: piece) :: pieces, last, rfl⟩

end Text

namespace Path

variable {p q : Path}

/-- The names between the slashes of a text. -/
def namesIn (cs : List Char) : List String :=
  ((Text.splitAt '/' cs).map String.ofList).filter fun name => name != "" && name != "."

theorem namesIn_append (cs cs' : List Char) :
    namesIn (cs ++ '/' :: cs') = namesIn cs ++ namesIn cs' := by
  rw [namesIn, Text.splitAt_append, List.map_append, List.filter_append]
  rfl

/-- What stands in front of a relative path that is joined to a path. -/
def inside (p : Path) : List Char :=
  if p.toList = [] then []
  else if p.toList.getLast? = some '/' then p.toList
  else p.toList ++ ['/']

theorem toList_join (hq : isAbsolute q = false) (p : Path) :
    (join p q).toList = inside p ++ q.toList := by
  unfold join
  rw [if_neg (by simp [hq])]
  split
  · next hlast =>
    rw [inside, if_pos (List.getLast?_eq_none_iff.mp hlast)]
    rfl
  · next hlast =>
    have hne : p.toList ≠ [] := by
      intro hnil
      rw [hnil] at hlast
      cases hlast
    rw [inside, if_neg hne, if_pos hlast, String.toList_append]
  · next c hc hlast =>
    have hne : p.toList ≠ [] := by
      intro hnil
      rw [hnil] at hlast
      cases hlast
    have hslash : p.toList.getLast? ≠ some '/' := by
      rw [hlast]
      simpa using hc
    rw [inside, if_neg hne, if_neg hslash, String.toList_append, String.toList_append]
    rfl

theorem names_join (hq : isAbsolute q = false) (p : Path) :
    names (join p q) = names p ++ names q := by
  change namesIn (join p q).toList = namesIn p.toList ++ namesIn q.toList
  rw [toList_join hq]
  unfold inside
  split
  · next hnil =>
    rw [hnil]
    rfl
  · split
    · next hlast =>
      obtain ⟨cs, hcs⟩ := List.getLast?_eq_some_iff.mp hlast
      have hnone : namesIn [] = [] := rfl
      rw [hcs, List.append_assoc, List.singleton_append, namesIn_append, namesIn_append, hnone,
        List.append_nil]
    · rw [List.append_assoc, List.singleton_append, namesIn_append]

theorem isAbsolute_join (hq : isAbsolute q = false) (p : Path) :
    isAbsolute (join p q) = isAbsolute p := by
  have hhead : (join p q).toList.head? =
      if p.toList = [] then q.toList.head? else p.toList.head? := by
    rw [toList_join hq]
    unfold inside
    split
    · rfl
    · next hne => split <;> simp [List.head?_append, List.head?_eq_some_head hne]
  unfold isAbsolute at hq ⊢
  rw [hhead]
  split
  · next hnil =>
    rw [hq, hnil]
    rfl
  · rfl

end Path

/-- What a relative path without steps upwards names below a directory. -/
theorem FileTree.place_join {q : Path} (hq : Path.isAbsolute q = false)
    (hnames : ".." ∉ Path.names q) (home : Location) (p : Path) :
    place home (Path.join p q) = place home p ++ Path.names q := by
  rw [place, Path.isAbsolute_join hq, Path.names_join hq, Location.follow_append,
    Location.follow_eq_append hnames]
  rfl

/-! ## Names in paths -/

theorem append_ne_of_length_lt {name ending other : String} (h : other.length < ending.length) :
    name ++ ending ≠ other := by
  rintro rfl
  rw [String.length_append] at h
  omega

namespace Path

/-- A name that a path takes literally. -/
def IsPlain (name : String) : Prop :=
  '/' ∉ name.toList ∧ name ≠ "" ∧ name ≠ "." ∧ name ≠ ".."

instance (name : String) : Decidable (IsPlain name) :=
  inferInstanceAs (Decidable (_ ∧ _))

theorem isPlain_append {name ending : String} (hname : '/' ∉ name.toList)
    (hending : '/' ∉ ending.toList) (hlength : 2 < ending.length) : IsPlain (name ++ ending) := by
  refine ⟨?_, append_ne_of_length_lt (Nat.zero_lt_of_lt hlength),
    append_ne_of_length_lt (Nat.lt_of_succ_lt hlength), append_ne_of_length_lt hlength⟩
  rw [String.toList_append, List.mem_append]
  exact not_or_intro hname hending

theorem isAbsolute_eq_false {p : Path} (h : '/' ∉ p.toList) : isAbsolute p = false := by
  unfold isAbsolute
  cases hhead : p.toList.head? with
  | none => rfl
  | some c =>
    have hc : c ∈ p.toList := List.mem_of_head? hhead
    have hne : c ≠ '/' := fun he => h (he ▸ hc)
    simpa using hne

/-- A joined path ends as the path that is joined. -/
theorem exists_join_append (p q : Path) (ending : String) :
    ∃ r, join p (q ++ ending) = r ++ ending := by
  unfold join
  split
  · exact ⟨q, rfl⟩
  · split
    · exact ⟨q, rfl⟩
    · exact ⟨p ++ q, (String.append_assoc ..).symm⟩
    · exact ⟨p ++ "/" ++ q, (String.append_assoc ..).symm⟩

theorem names_eq_singleton {name : String} (h : IsPlain name) : names name = [name] := by
  obtain ⟨hslash, hempty, hdot, -⟩ := h
  rw [names, Text.splitAt_eq_singleton hslash]
  simp [hempty, hdot]

end Path

/-- The file of a path with an ending is one with this ending. -/
theorem FileTree.place_append (ending : String) (hending : '/' ∉ ending.toList)
    (hlength : 2 < ending.length) (home : Location) (p : Path) :
    ∃ dir name, place home (p ++ ending) = dir ++ [name ++ ending] := by
  obtain ⟨pieces, last, hpieces⟩ := Text.splitAt_append_ending hending p.toList
  have hlast : String.ofList (last ++ ending.toList) = String.ofList last ++ ending := by
    rw [String.ofList_append, String.ofList_toList]
  have hempty : String.ofList last ++ ending ≠ "" :=
    append_ne_of_length_lt (Nat.zero_lt_of_lt hlength)
  have hdot : String.ofList last ++ ending ≠ "." :=
    append_ne_of_length_lt (Nat.lt_of_succ_lt hlength)
  have hup : String.ofList last ++ ending ≠ ".." := append_ne_of_length_lt hlength
  have hnames : Path.names (p ++ ending) =
      ((pieces.map String.ofList).filter fun name => name != "" && name != ".") ++
        [String.ofList last ++ ending] := by
    rw [Path.names, String.toList_append, hpieces, List.map_append, List.filter_append,
      List.map_singleton, hlast]
    simp [hempty, hdot]
  rw [place, hnames, Location.follow_append, Location.follow_eq_append (by simpa using hup.symm)]
  exact ⟨_, String.ofList last, rfl⟩

end HybridObjects
