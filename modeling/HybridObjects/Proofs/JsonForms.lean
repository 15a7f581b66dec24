import HybridObjects.Json.Decode
import HybridObjects.Model.Encode
import HybridObjects.Proofs.Outcome
import Mathlib.Data.List.Forall2
import Mathlib.Data.List.Nodup

/-!
# HybridObjects.Proofs.JsonForms

The spellings of structured data, and the readers that accept exactly these.

* `RecordForm` — an object with the members of the fields in any order among others, or an array of
  the values of the fields; fields that have their default may be missing.
* `UnitForm`, `TaggedForm` — variants without and with content.
* `ListForm`, `OptionForm`, `PairForm` — arrays, values that may be absent, pairs.
* `recordForm_iff` — a record is read off its spellings and off nothing else.
* `Accepts`    — a reader accepts exactly the spellings of values, with one rule for each kind.
-/

namespace HybridObjects
namespace Json

/-! ## Spellings -/

/-- How one field of a record is spelled: its key, the spellings of its value, and whether it may be
left out. -/
structure FieldForm where
  key : String
  Spelled : Json → Prop
  Omissible : Prop

def StringForm (s : String) (j : Json) : Prop :=
  j = .str s

def ArrayForm (items : List Json → Prop) : Json → Prop
  | .arr js => items js
  | _ => False

def ListForm {α : Type} (item : α → Json → Prop) (as : List α) : Json → Prop :=
  ArrayForm (List.Forall₂ item as)

/-- Null for absence. -/
def OptionForm {α : Type} (value : α → Json → Prop) : Option α → Json → Prop
  | none, j => j = .null
  | some a, j => value a j

def PairForm (first second : Json → Prop) : Json → Prop
  | .arr [x, y] => first x ∧ second y
  | _ => False

/-- A variant without content. -/
inductive UnitForm (tag : String) : Json → Prop where
  | name : UnitForm tag (.str tag)
  | null : UnitForm tag (.obj [(tag, .null)])

/-- A variant with content. -/
inductive TaggedForm (tag : String) (content : Json → Prop) : Json → Prop where
  | mk {j : Json} : content j → TaggedForm tag content (.obj [(tag, j)])

namespace FieldForm

def required (key : String) (spelled : Json → Prop) : FieldForm :=
  ⟨key, spelled, False⟩

/-- A field that may be left out if it has its default. -/
def defaulted (key : String) (spelled : Json → Prop) (isDefault : Prop) : FieldForm :=
  ⟨key, spelled, isDefault⟩

/-- A list that may be left out if it is empty. -/
def listed {α : Type} (key : String) (item : α → Json → Prop) (as : List α) : FieldForm :=
  defaulted key (ListForm item as) (as = [])

/-- A value that may be absent. -/
def optional {α : Type} (key : String) (value : α → Json → Prop) (a : Option α) : FieldForm :=
  defaulted key (OptionForm value a) (a = none)

@[simp] theorem key_required (key : String) (spelled : Json → Prop) :
    (required key spelled).key = key := rfl

@[simp] theorem key_defaulted (key : String) (spelled : Json → Prop) (isDefault : Prop) :
    (defaulted key spelled isDefault).key = key := rfl

@[simp] theorem key_listed {α : Type} (key : String) (item : α → Json → Prop) (as : List α) :
    (listed key item as).key = key := rfl

@[simp] theorem key_optional {α : Type} (key : String) (value : α → Json → Prop) (a : Option α) :
    (optional key value a).key = key := rfl

theorem optional_none {α : Type} (key : String) (value : α → Json → Prop) :
    optional key value none = defaulted key (· = .null) True := by
  simp only [optional]
  rfl

theorem optional_some {α : Type} (key : String) (value : α → Json → Prop) (a : α) :
    optional key value (some a) = required key (value a) := by
  simp only [optional, reduceCtorEq]
  rfl

/-- What is found for a field spells it. -/
def Holds (f : FieldForm) : Option Json → Prop
  | some j => f.Spelled j
  | none => f.Omissible

end FieldForm

/-- Members that spell fields in the order of their declaration, some of them left out. -/
inductive Spell : List FieldForm → Record → Prop where
  | nil : Spell [] []
  | given {f : FieldForm} {fields : List FieldForm} {j : Json} {members : Record} :
      f.Spelled j → Spell fields members → Spell (f :: fields) ((f.key, j) :: members)
  | omitted {f : FieldForm} {fields : List FieldForm} {members : Record} :
      f.Omissible → Spell fields members → Spell (f :: fields) members

/-- Values that spell fields in the order of their declaration, some missing at the end. -/
inductive Positions : List FieldForm → List Json → Prop where
  | given {f : FieldForm} {fields : List FieldForm} {j : Json} {items : List Json} :
      f.Spelled j → Positions fields items → Positions (f :: fields) (j :: items)
  | ended {fields : List FieldForm} : (∀ f ∈ fields, f.Omissible) → Positions fields []

/-- A record with the given fields: an object with the members of the fields in any order among
others with unknown keys, or an array of the values of the fields. -/
inductive RecordForm (fields : List FieldForm) : Json → Prop where
  | members {members given extra : Record} : Spell fields given →
      (∀ member ∈ extra, member.1 ∉ fields.map FieldForm.key) →
      members.Perm (given ++ extra) → RecordForm fields (.obj members)
  | positions {items : List Json} : Positions fields items → RecordForm fields (.arr items)

/-- The members of the fields alone, in the order of their declaration. -/
theorem RecordForm.of_spell {fields : List FieldForm} {members : Record}
    (h : Spell fields members) : RecordForm fields (.obj members) :=
  .members h (List.forall_mem_nil _) (by rw [List.append_nil])

theorem stringForm_str (s : String) : StringForm s (.str s) := rfl

theorem listForm_ofList {α : Type} {item : α → Json → Prop} {write : α → Json}
    (h : ∀ a, item a (write a)) (as : List α) : ListForm item as (ofList write as) := by
  change List.Forall₂ item as (as.map write)
  rw [List.forall₂_map_right_iff, List.forall₂_same]
  exact fun a _ => h a

theorem optionForm_ofOption {α : Type} {value : α → Json → Prop} {write : α → Json}
    (h : ∀ a, value a (write a)) (a : Option α) : OptionForm value a (ofOption write a) := by
  cases a with
  | none => rfl
  | some a => exact h a

/-! ## Records -/

theorem repeatedKey?_eq_none_iff {r : Record} :
    repeatedKey? r = none ↔ (r.map Prod.fst).Nodup := by
  induction r with
  | nil => simp [repeatedKey?]
  | cons member r ih =>
    obtain ⟨key, value⟩ := member
    rw [repeatedKey?, List.map_cons, List.nodup_cons, ← ih]
    split
    · next h =>
      simp only [List.any_eq_true, beq_iff_eq] at h
      simp only [reduceCtorEq, false_iff, not_and]
      intro hfresh
      obtain ⟨member, hmem, rfl⟩ := h
      exact absurd (List.mem_map_of_mem hmem) hfresh
    · next h =>
      have hfresh : key ∉ r.map Prod.fst := by
        simpa [List.any_eq_true] using h
      simp [hfresh]

theorem lookup_eq_some_iff {r : Record} (h : (r.map Prod.fst).Nodup) {key : String} {j : Json} :
    r.lookup key = some j ↔ (key, j) ∈ r := by
  induction r with
  | nil => simp
  | cons member r ih =>
    obtain ⟨key', value⟩ := member
    rw [List.map_cons, List.nodup_cons] at h
    rw [List.lookup_cons]
    by_cases hkey : key = key'
    · subst hkey
      have hfresh : (key, j) ∉ r := fun hmem => h.1 (List.mem_map.mpr ⟨_, hmem, rfl⟩)
      simp [hfresh, eq_comm]
    · rw [beq_false_of_ne hkey, List.mem_cons, Prod.mk.injEq]
      simp [hkey, ih h.2]

theorem lookup_of_perm {r r' : Record} (hperm : r.Perm r') (h : (r.map Prod.fst).Nodup)
    (key : String) : r.lookup key = r'.lookup key := by
  have h' : (r'.map Prod.fst).Nodup := (hperm.map Prod.fst).nodup_iff.mp h
  ext j
  rw [lookup_eq_some_iff h, lookup_eq_some_iff h', hperm.mem_iff]

namespace Spell

variable {fields : List FieldForm} {given : Record}

/-- The members given are some of the fields, in their order. -/
theorem keys_sublist (h : Spell fields given) :
    (given.map Prod.fst).Sublist (fields.map FieldForm.key) := by
  induction h with
  | nil => exact .slnil
  | given _ _ ih => exact ih.cons_cons _
  | omitted _ _ ih => exact ih.cons _

theorem holds (h : Spell fields given) (hkeys : (fields.map FieldForm.key).Nodup) :
    ∀ f ∈ fields, f.Holds (given.lookup f.key) := by
  induction h with
  | nil => simp
  | @given f fields j members hj hrest ih =>
    rw [List.map_cons, List.nodup_cons] at hkeys
    rw [List.forall_mem_cons]
    refine ⟨?_, fun f' hf' => ?_⟩
    · rw [List.lookup_cons_self]
      exact hj
    · have hne : f'.key ≠ f.key := by
        rintro heq
        exact hkeys.1 (heq ▸ List.mem_map_of_mem hf')
      rw [List.lookup_cons, beq_false_of_ne hne]
      exact ih hkeys.2 f' hf'
  | @omitted f fields members hf hrest ih =>
    rw [List.map_cons, List.nodup_cons] at hkeys
    rw [List.forall_mem_cons]
    refine ⟨?_, ih hkeys.2⟩
    have hnone : members.lookup f.key = none := by
      rw [List.lookup_eq_none_iff]
      intro member hmember
      have hin := hrest.keys_sublist.subset (List.mem_map_of_mem hmember)
      rw [bne_iff_ne]
      intro heq
      exact hkeys.1 (heq ▸ hin)
    rw [hnone]
    exact hf

end Spell

/-- The members of a record that belong to the fields, in the order of the fields. -/
def pick (fields : List FieldForm) (r : Record) : Record :=
  fields.filterMap fun f => (r.lookup f.key).map fun j => (f.key, j)

theorem spell_pick {fields : List FieldForm} {r : Record}
    (h : ∀ f ∈ fields, f.Holds (r.lookup f.key)) : Spell fields (pick fields r) := by
  induction fields with
  | nil => exact .nil
  | cons f fields ih =>
    rw [List.forall_mem_cons] at h
    obtain ⟨hf, hfields⟩ := h
    unfold pick at ih ⊢
    cases hlookup : r.lookup f.key with
    | none =>
      rw [List.filterMap_cons_none (by rw [hlookup]; rfl)]
      rw [hlookup] at hf
      exact .omitted hf (ih hfields)
    | some j =>
      rw [List.filterMap_cons_some (by rw [hlookup]; rfl)]
      rw [hlookup] at hf
      exact .given hf (ih hfields)

/-- A record without repeated keys and with keys of the fields only is picked up entirely. -/
theorem perm_pick {fields : List FieldForm} {r : Record}
    (hfields : (fields.map FieldForm.key).Nodup) (hr : (r.map Prod.fst).Nodup)
    (hkeys : ∀ member ∈ r, member.1 ∈ fields.map FieldForm.key)
    (h : ∀ f ∈ fields, f.Holds (r.lookup f.key)) : r.Perm (pick fields r) := by
  have hpick : ((pick fields r).map Prod.fst).Nodup := (spell_pick h).keys_sublist.nodup hfields
  refine (List.perm_ext_iff_of_nodup hr.of_map hpick.of_map).mpr ?_
  rintro ⟨key, j⟩
  rw [pick, List.mem_filterMap]
  constructor
  · intro hmem
    obtain ⟨f, hf, rfl⟩ := List.mem_map.mp (hkeys _ hmem)
    exact ⟨f, hf, by rw [(lookup_eq_some_iff hr).mpr hmem]; rfl⟩
  · rintro ⟨f, hf, hlookup⟩
    obtain ⟨j', hj', hmember⟩ := Option.map_eq_some_iff.mp hlookup
    rw [← hmember]
    exact (lookup_eq_some_iff hr).mp hj'

namespace Positions

variable {fields : List FieldForm} {items : List Json}

theorem length_le (h : Positions fields items) : items.length ≤ fields.length := by
  induction h with
  | given _ _ ih => exact Nat.succ_le_succ ih
  | ended _ => exact Nat.zero_le _

theorem spell (h : Positions fields items) :
    Spell fields ((fields.map FieldForm.key).zip items) := by
  induction h with
  | given hj _ ih => exact .given hj ih
  | @ended fields hrest =>
    rw [List.zip_nil_right]
    induction fields with
    | nil => exact .nil
    | cons f fields ih =>
      rw [List.forall_mem_cons] at hrest
      exact .omitted hrest.1 (ih hrest.2)

theorem of_holds (hkeys : (fields.map FieldForm.key).Nodup) (hlength : items.length ≤ fields.length)
    (h : ∀ f ∈ fields, f.Holds (((fields.map FieldForm.key).zip items).lookup f.key)) :
    Positions fields items := by
  induction fields generalizing items with
  | nil =>
    rw [List.eq_nil_of_length_eq_zero (Nat.le_zero.mp hlength)]
    exact .ended (by simp)
  | cons f fields ih =>
    cases items with
    | nil =>
      rw [List.zip_nil_right] at h
      exact .ended h
    | cons j items =>
      rw [List.map_cons, List.nodup_cons] at hkeys
      rw [List.map_cons, List.zip_cons_cons, List.forall_mem_cons, List.lookup_cons_self] at h
      refine .given h.1 (ih hkeys.2 (Nat.le_of_succ_le_succ hlength) fun f' hf' => ?_)
      have hne : f'.key ≠ f.key := fun heq => hkeys.1 (heq ▸ List.mem_map_of_mem hf')
      have hf := h.2 f' hf'
      rwa [List.lookup_cons, beq_false_of_ne hne] at hf

end Positions

/-- The members that a record leaves out of account. -/
theorem filter_of_perm {keys : List String} {members given extra : Record}
    (hgiven : ∀ member ∈ given, member.1 ∈ keys) (hextra : ∀ member ∈ extra, member.1 ∉ keys)
    (hperm : members.Perm (given ++ extra)) :
    (members.filter fun member => keys.contains member.1).Perm given := by
  refine (hperm.filter _).trans ?_
  have hall : given.filter (fun member => keys.contains member.1) = given := by
    rw [List.filter_eq_self]
    intro member hmember
    rw [List.contains_iff_mem]
    exact hgiven member hmember
  have hnone : extra.filter (fun member => keys.contains member.1) = [] := by
    rw [List.filter_eq_nil_iff]
    intro member hmember
    rw [List.contains_iff_mem]
    exact hextra member hmember
  rw [List.filter_append, hall, hnone, List.append_nil]

theorem asRecord_obj_eq_ok {keys : List String} {members r : Record} :
    asRecord keys (.obj members) = .ok r ↔
      members.filter (fun member => keys.contains member.1) = r ∧ (r.map Prod.fst).Nodup := by
  rw [asRecord]
  split
  · next key hrepeated =>
    simp only [reduceCtorEq, false_iff, not_and]
    rintro rfl
    rw [← repeatedKey?_eq_none_iff, hrepeated]
    simp
  · next hrepeated =>
    rw [Except.ok.injEq, iff_self_and]
    rintro rfl
    exact repeatedKey?_eq_none_iff.mp hrepeated

theorem asRecord_arr_eq_ok {keys : List String} {items : List Json} {r : Record} :
    asRecord keys (.arr items) = .ok r ↔ items.length ≤ keys.length ∧ keys.zip items = r := by
  rw [asRecord]
  split
  · next hlength => simp [hlength]
  · next hlength => simp [hlength]

/-- A record is read off its spellings: the value of each field is found, or the field may be
missing. -/
theorem recordForm_iff {fields : List FieldForm} (hkeys : (fields.map FieldForm.key).Nodup)
    {j : Json} : RecordForm fields j ↔ ∃ r, asRecord (fields.map FieldForm.key) j = .ok r ∧
      ∀ f ∈ fields, f.Holds (r.lookup f.key) := by
  constructor
  · intro h
    cases h with
    | @members members given extra hgiven hextra hperm =>
      have hin : ∀ member ∈ given, member.1 ∈ fields.map FieldForm.key := fun member hmember =>
        hgiven.keys_sublist.subset (List.mem_map_of_mem hmember)
      have hknown := filter_of_perm hin hextra hperm
      have hnodup := (hknown.map Prod.fst).nodup_iff.mpr (hgiven.keys_sublist.nodup hkeys)
      refine ⟨_, asRecord_obj_eq_ok.mpr ⟨rfl, hnodup⟩, fun f hf => ?_⟩
      rw [lookup_of_perm hknown hnodup]
      exact hgiven.holds hkeys f hf
    | @positions items h =>
      have hlength := h.length_le
      rw [← List.length_map FieldForm.key] at hlength
      exact ⟨_, asRecord_arr_eq_ok.mpr ⟨hlength, rfl⟩, h.spell.holds hkeys⟩
  · rintro ⟨r, hr, hholds⟩
    cases j with
    | obj members =>
      obtain ⟨rfl, hnodup⟩ := asRecord_obj_eq_ok.mp hr
      have hextra : ∀ member ∈ members.filter fun member =>
          !(fields.map FieldForm.key).contains member.1, member.1 ∉ fields.map FieldForm.key := by
        simp
      refine .members (spell_pick hholds) hextra ?_
      exact (List.filter_append_perm _ members).symm.trans
        ((perm_pick hkeys hnodup (by simp) hholds).append_right _)
    | arr items =>
      obtain ⟨hlength, rfl⟩ := asRecord_arr_eq_ok.mp hr
      rw [List.length_map] at hlength
      exact .positions (.of_holds hkeys hlength hholds)
    | null | bool b | num text | str s | unreadable => cases hr

/-! ## Depth -/

theorem depth_lt_of_mem_items {items : List Json} {j : Json} (h : j ∈ items) :
    j.depth < (Json.arr items).depth := by
  rw [depth, Nat.lt_succ_iff]
  induction items with
  | nil => cases h
  | cons item items ih =>
    rw [depthAll]
    rcases List.mem_cons.mp h with rfl | h
    · exact Nat.le_max_left _ _
    · exact Nat.le_trans (ih h) (Nat.le_max_right _ _)

theorem depth_lt_of_mem_members {members : Record} {member : String × Json} (h : member ∈ members) :
    member.2.depth < (Json.obj members).depth := by
  rw [depth, Nat.lt_succ_iff]
  induction members with
  | nil => cases h
  | cons first members ih =>
    obtain ⟨key, value⟩ := first
    rw [depthMembers]
    rcases List.mem_cons.mp h with rfl | h
    · exact Nat.le_max_left _ _
    · exact Nat.le_trans (ih h) (Nat.le_max_right _ _)

/-- The fields of a record are nested less deeply than the record. -/
theorem depth_lt_of_asRecord {keys : List String} {j : Json} {r : Record}
    (h : asRecord keys j = .ok r) {member : String × Json} (hmember : member ∈ r) :
    member.2.depth < j.depth := by
  cases j with
  | obj members =>
    obtain ⟨rfl, -⟩ := asRecord_obj_eq_ok.mp h
    exact depth_lt_of_mem_members (List.mem_of_mem_filter hmember)
  | arr items =>
    obtain ⟨-, rfl⟩ := asRecord_arr_eq_ok.mp h
    exact depth_lt_of_mem_items (List.of_mem_zip hmember).2
  | null | bool b | num text | str s | unreadable => cases h

/-! ## Readers -/

/-- Among the values nested less deeply than `n`, the reader accepts exactly the spellings. -/
def Accepts {α : Type} (n : Nat) (value : Json → Except Fault α) (form : α → Json → Prop) : Prop :=
  ∀ a j, j.depth < n → (value j = .ok a ↔ form a j)

/-- All values of a record are nested less deeply than `n`. -/
def Record.Below (n : Nat) (r : Record) : Prop :=
  ∀ member ∈ r, member.2.depth < n

section Readers

variable {α β : Type} {n : Nat} {value : Json → Except Fault α} {form : α → Json → Prop}

theorem except_map_eq_ok {ε : Type} {x : Except ε α} {f : α → β} {b : β} :
    (f <$> x) = .ok b ↔ ∃ a, x = .ok a ∧ f a = b := by
  cases x <;> simp [Functor.map, Except.map]

theorem except_pure_eq_ok {ε : Type} {a b : α} : (pure a : Except ε α) = .ok b ↔ a = b := by
  change Except.ok a = .ok b ↔ a = b
  rw [Except.ok.injEq]

theorem accepts_asString (n : Nat) : Accepts n asString StringForm := by
  intro s j _
  cases j <;> simp [asString, StringForm]

theorem accepts_asList (h : Accepts n value form) : Accepts n (asList value) (ListForm form) := by
  intro as j hj
  cases j with
  | arr items =>
    have hitems : ∀ item ∈ items, item.depth < n := fun item hitem =>
      Nat.lt_trans (depth_lt_of_mem_items hitem) hj
    simp only [asList, ListForm, ArrayForm]
    clear hj
    induction items generalizing as with
    | nil => cases as <;> simp [pure, Except.pure]
    | cons item items ih =>
      rw [List.forall_mem_cons] at hitems
      rw [List.mapM_cons]
      cases as with
      | nil => simp [except_bind_eq_ok, except_map_eq_ok]
      | cons a as =>
        simp [except_bind_eq_ok, except_map_eq_ok, h _ _ hitems.1, ih _ hitems.2]
  | null | bool b | num text | str s | obj members | unreadable =>
    simp [asList, ListForm, ArrayForm]

theorem accepts_asOption (h : Accepts n value form) (hnull : ∀ a, ¬form a .null) :
    Accepts n (asOption value) (OptionForm form) := by
  intro found j hj
  cases j with
  | null => cases found <;> simp [asOption, OptionForm, hnull]
  | bool b | num text | str s | arr items | obj members | unreadable =>
    cases found <;> simp [asOption, OptionForm, except_map_eq_ok, h _ _ hj]

namespace Record

variable {r : Record} {key : String}

theorem Below.lookup (hr : r.Below n) {j : Json} (h : r.lookup key = some j) : j.depth < n := by
  obtain ⟨before, after, rfl, -⟩ := List.lookup_eq_some_iff.mp h
  exact hr (key, j) (by simp)

theorem require_eq_ok (hr : r.Below n) (h : Accepts n value form) {a : α} :
    r.require key value = .ok a ↔ (FieldForm.required key (form a)).Holds (r.lookup key) := by
  unfold require
  cases hlookup : r.lookup key with
  | none => simp [FieldForm.Holds, FieldForm.required]
  | some j => exact h a j (hr.lookup hlookup)

theorem withDefault_eq_ok (hr : r.Below n) (h : Accepts n value form) {a default : α} :
    r.withDefault key default value = .ok a ↔
      (FieldForm.defaulted key (form a) (a = default)).Holds (r.lookup key) := by
  unfold withDefault
  cases hlookup : r.lookup key with
  | none => simp [FieldForm.Holds, FieldForm.defaulted, eq_comm]
  | some j => exact h a j (hr.lookup hlookup)

theorem list_eq_ok (hr : r.Below n) (h : Accepts n value form) {as : List α} :
    r.withDefault key [] (asList value) = .ok as ↔
      (FieldForm.listed key form as).Holds (r.lookup key) :=
  withDefault_eq_ok hr (accepts_asList h)

theorem optional_eq_ok (hr : r.Below n) (h : Accepts n value form) (hnull : ∀ a, ¬form a .null)
    {a : Option α} : r.optional key value = .ok a ↔
      (FieldForm.optional key form a).Holds (r.lookup key) :=
  withDefault_eq_ok hr (accepts_asOption h hnull)

end Record

/-! ### Records -/

variable {j : Json} {a : α} {keys : List String} {build : Record → Except Fault α}
  {fields : List FieldForm}

theorem record_eq_ok (hkeys : fields.map FieldForm.key = keys) (hnodup : keys.Nodup)
    (hj : j.depth < n)
    (hbuild : ∀ r, Record.Below n r → (build r = .ok a ↔ ∀ f ∈ fields, f.Holds (r.lookup f.key))) :
    (asRecord keys j >>= build) = .ok a ↔ RecordForm fields j := by
  subst hkeys
  rw [except_bind_eq_ok, recordForm_iff hnodup]
  refine exists_congr fun r => and_congr_right fun hr => ?_
  exact hbuild r fun member hmember => Nat.lt_trans (depth_lt_of_asRecord hr hmember) hj

theorem not_recordForm_null : ¬RecordForm fields .null := by
  rintro ⟨⟩

/-! ### Variants -/

variable {tag : String} {body : Option Json}

theorem asVariant_eq_ok :
    asVariant j = .ok (tag, body) ↔
      j = .str tag ∧ body = none ∨ ∃ c, j = .obj [(tag, c)] ∧ body = some c := by
  unfold asVariant
  split
  · simp [eq_comm]
  · simp only [Except.ok.injEq, Prod.mk.injEq, reduceCtorEq, false_and, obj.injEq, List.cons.injEq,
      and_true, false_or]
    grind
  · next h₁ h₂ =>
    simp only [reduceCtorEq, false_iff, not_or, not_and, not_exists]
    exact ⟨fun h => absurd h (h₁ tag), fun c h => absurd h (h₂ tag c)⟩

theorem UnitForm.asVariant_eq (h : UnitForm tag j) : ∃ body, asVariant j = .ok (tag, body) := by
  cases h with
  | name => exact ⟨none, rfl⟩
  | null => exact ⟨some .null, rfl⟩

theorem TaggedForm.asVariant_eq {content : Json → Prop} (h : TaggedForm tag content j) :
    ∃ body, asVariant j = .ok (tag, body) := by
  cases h with
  | mk h => exact ⟨some _, rfl⟩

/-- Variants are told apart by their names. -/
theorem accepts_variant {tagOf : α → String}
    (hvalue : ∀ {j a}, value j = .ok a → ∃ body, asVariant j = .ok (tagOf a, body))
    (hform : ∀ {j a}, form a j → ∃ body, asVariant j = .ok (tagOf a, body))
    (h : ∀ {j a body}, j.depth < n → asVariant j = .ok (tagOf a, body) →
      (value j = .ok a ↔ form a j)) : Accepts n value form := by
  intro a j hj
  constructor
  · intro ha
    obtain ⟨body, hv⟩ := hvalue ha
    exact (h hj hv).mp ha
  · intro ha
    obtain ⟨body, hv⟩ := hform ha
    exact (h hj hv).mpr ha

theorem eq_of_noContent {b : α} (h : noContent a body = .ok b) : a = b := by
  unfold noContent at h
  split at h
  · exact Except.ok.inj h
  · exact Except.ok.inj h
  · cases h

theorem noContent_eq_ok (hv : asVariant j = .ok (tag, body)) :
    noContent a body = .ok a ↔ UnitForm tag j := by
  rcases asVariant_eq_ok.mp hv with ⟨rfl, rfl⟩ | ⟨c, rfl, rfl⟩
  · exact ⟨fun _ => .name, fun _ => rfl⟩
  · constructor
    · intro h
      unfold noContent at h
      split at h
      · next heq => cases heq
      · next heq =>
        cases heq
        exact .null
      · cases h
    · rintro ⟨⟩
      rfl

theorem depth_content_lt {c : Json} (h : (Json.obj [(tag, c)]).depth < n + 1) : c.depth < n := by
  have hlt := depth_lt_of_mem_members (List.mem_singleton_self (tag, c))
  dsimp only at hlt
  omega

variable (hv : asVariant j = .ok (tag, body)) (hj : j.depth < n + 1)

include hv hj

/-- A variant with content is read off its content. -/
theorem tagged_eq_ok {x : Option Json → Except Fault β} {b : β} {spelled : Json → Prop}
    (hnone : x none ≠ .ok b) (hsome : ∀ c, c.depth < n → (x (some c) = .ok b ↔ spelled c)) :
    x body = .ok b ↔ TaggedForm tag spelled j := by
  rcases asVariant_eq_ok.mp hv with ⟨rfl, rfl⟩ | ⟨c, rfl, rfl⟩
  · constructor
    · intro h
      exact absurd h hnone
    · rintro ⟨⟩
  · have hc := hsome c (depth_content_lt hj)
    constructor
    · intro h
      exact .mk (hc.mp h)
    · rintro ⟨h⟩
      exact hc.mpr h

theorem map_content_eq_ok (h : Accepts n value form) {f : α → β}
    (hf : ∀ {a a'}, f a = f a' → a = a') :
    (f <$> content value body) = .ok (f a) ↔ TaggedForm tag (form a) j := by
  refine tagged_eq_ok hv hj (x := fun body => f <$> content value body) (by rintro ⟨⟩) ?_
  intro c hc
  rw [except_map_eq_ok, content, ← h a c hc]
  constructor
  · rintro ⟨a', ha', heq⟩
    rw [ha', hf heq]
  · intro ha
    exact ⟨a, ha, rfl⟩

theorem bind_content_eq_ok (h : Accepts n value form) {f : α → β}
    (hf : ∀ {a a'}, f a = f a' → a = a') :
    (content value body >>= fun a => pure (f a)) = .ok (f a) ↔ TaggedForm tag (form a) j := by
  rw [bind_pure_comp]
  exact map_content_eq_ok hv hj h hf

theorem content_record_eq_ok (hkeys : fields.map FieldForm.key = keys) (hnodup : keys.Nodup)
    (hbuild : ∀ r, Record.Below n r → (build r = .ok a ↔ ∀ f ∈ fields, f.Holds (r.lookup f.key))) :
    (content (asRecord keys) body >>= build) = .ok a ↔ TaggedForm tag (RecordForm fields) j := by
  refine tagged_eq_ok hv hj (x := fun body => content (asRecord keys) body >>= build)
    (by rintro ⟨⟩) ?_
  intro c hc
  exact record_eq_ok hkeys hnodup hc hbuild

theorem pairContent_eq_ok (h : Accepts n value form) {b : α} :
    pairContent value body = .ok (a, b) ↔ TaggedForm tag (PairForm (form a) (form b)) j := by
  refine tagged_eq_ok hv hj (x := pairContent value) (by rintro ⟨⟩) ?_
  intro c hc
  unfold pairContent PairForm
  split
  · next x y heq =>
    cases heq
    have hx : x.depth < n := Nat.lt_trans (depth_lt_of_mem_items (by simp)) hc
    have hy : y.depth < n := Nat.lt_trans (depth_lt_of_mem_items (by simp)) hc
    simp [except_bind_eq_ok, except_map_eq_ok, h a x hx, h b y hy]
  · next hother =>
    split
    · next x y => exact absurd rfl (hother x y)
    · simp

theorem bind_pairContent_eq_ok (h : Accepts n value form) {b : α} {f : α → α → β}
    (hf : ∀ {a b a' b'}, f a b = f a' b' → a = a' ∧ b = b') :
    (pairContent value body >>= fun p => pure (f p.1 p.2)) = .ok (f a b) ↔
      TaggedForm tag (PairForm (form a) (form b)) j := by
  rw [bind_pure_comp, except_map_eq_ok, ← pairContent_eq_ok hv hj h]
  constructor
  · rintro ⟨⟨a', b'⟩, hpair, heq⟩
    obtain ⟨rfl, rfl⟩ := hf heq
    exact hpair
  · intro hpair
    exact ⟨(a, b), hpair, rfl⟩

end Readers

end Json
end HybridObjects
