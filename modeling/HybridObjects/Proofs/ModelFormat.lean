import HybridObjects.Model.Decode
import HybridObjects.Model.Encode
import HybridObjects.Proofs.JsonForms

/-!
# HybridObjects.Proofs.ModelFormat

The format of models. For every part of a model it is said which JSON values spell it, from
operators up to the model; the readers accept exactly the spellings, and the canonical spelling is
one of them. So a model is read back from the value written for it, and from every other spelling.

* `Expr.SpelledBy`, `Stmt.SpelledBy`, `Class.SpelledBy`, … — the spellings.
* `Expr.accepts`, `Stmt.accepts`, `Class.accepts`, … — the readers accept exactly these.
* `ofJson_iff_spelledBy` — the format round-trips.
-/

namespace HybridObjects

open Json Json.Record

/-! ## Spellings of expressions and effects -/

def BinOp.SpelledBy (op : BinOp) : Json → Prop :=
  UnitForm op.label

def UnOp.SpelledBy (op : UnOp) : Json → Prop :=
  UnitForm op.label

mutual

def Expr.SpelledBy : Expr → Json → Prop
  | .int text => TaggedForm "IntLiteral" (StringForm text)
  | .float text => TaggedForm "FloatLiteral" (StringForm text)
  | .string text => TaggedForm "StringLiteral" (StringForm text)
  | .field name => TaggedForm "FieldUse" (StringForm name)
  | .var name => TaggedForm "VarUse" (StringForm name)
  | .this => UnitForm "This"
  | .binary op lhs rhs =>
    TaggedForm "Binary" (RecordForm [.required "op" op.SpelledBy,
      .required "lhs" lhs.SpelledBy, .required "rhs" rhs.SpelledBy])
  | .unary op arg =>
    TaggedForm "Unary" (RecordForm [.required "op" op.SpelledBy,
      .required "operand" arg.SpelledBy])
  | .derivative arg => TaggedForm "Derivative" arg.SpelledBy
  | .construct name args =>
    TaggedForm "DataConstructor" (RecordForm [.required "constructor" (StringForm name),
      .defaulted "args" (ArrayForm (Expr.ListSpelledBy args)) (args = [])])
  | .apply name args =>
    TaggedForm "FnApp" (RecordForm [.required "name" (StringForm name),
      .defaulted "args" (ArrayForm (Expr.ListSpelledBy args)) (args = [])])

def Expr.ListSpelledBy : List Expr → List Json → Prop
  | [], items => items = []
  | e :: es, items => ∃ j js, items = j :: js ∧ e.SpelledBy j ∧ ListSpelledBy es js

end

theorem Expr.listSpelledBy_eq (es : List Expr) :
    Expr.ListSpelledBy es = List.Forall₂ Expr.SpelledBy es := by
  funext items
  induction es generalizing items with
  | nil => simp [Expr.ListSpelledBy]
  | cons e es ih => cases items <;> simp [Expr.ListSpelledBy, ih]

def Param.SpelledBy (p : Param) : Json → Prop :=
  RecordForm [.required "name" (StringForm p.name),
    .defaulted "ty" (StringForm p.type) (p.type = "")]

def Signature.SpelledBy (sig : Signature) : Json → Prop :=
  RecordForm [.required "name" (StringForm sig.name), .listed "params" Param.SpelledBy sig.params]

def Effect.CallSpelledBy (callee : Expr) (interface : Option String) (method : Signature)
    (args : List Expr) : Json → Prop :=
  RecordForm [.required "callee" callee.SpelledBy,
    .optional "callee_interface" StringForm interface, .required "method" method.SpelledBy,
    .listed "args" Expr.SpelledBy args]

def Effect.SpelledBy : Effect → Json → Prop
  | .asyncCall callee interface method args =>
    TaggedForm "AsyncCall" (Effect.CallSpelledBy callee interface method args)
  | .syncCall callee interface method args =>
    TaggedForm "SyncCall" (Effect.CallSpelledBy callee interface method args)
  | .create className args =>
    TaggedForm "New" (RecordForm [.required "class" (StringForm className),
      .listed "args" Expr.SpelledBy args])
  | .get future => TaggedForm "Get" future.SpelledBy

def Rhs.SpelledBy : Rhs → Json → Prop
  | .pure value => TaggedForm "Pure" value.SpelledBy
  | .effect e => TaggedForm "Effect" e.SpelledBy

def Place.SpelledBy : Place → Json → Prop
  | .field name => TaggedForm "Field" (StringForm name)
  | .var name => TaggedForm "Var" (StringForm name)

def Guard.SpelledBy : Guard → Json → Prop
  | .cond value => TaggedForm "Exp" value.SpelledBy
  | .differential value => TaggedForm "Differential" value.SpelledBy
  | .and lhs rhs => TaggedForm "And" (PairForm lhs.SpelledBy rhs.SpelledBy)
  | .or lhs rhs => TaggedForm "Or" (PairForm lhs.SpelledBy rhs.SpelledBy)
  | .duration min => TaggedForm "Duration" (RecordForm [.required "min" min.SpelledBy])
  | .claim future => TaggedForm "Claim" future.SpelledBy

/-! ## Spellings of statements -/

mutual

def Stmt.SpelledBy : Stmt → Json → Prop
  | .skip => UnitForm "Skip"
  | .assign target value =>
    TaggedForm "Assign" (RecordForm [.required "target" target.SpelledBy,
      .required "value" value.SpelledBy])
  | .declare name type init =>
    TaggedForm "VarDecl" (RecordForm [.required "name" (StringForm name),
      .defaulted "ty" (StringForm type) (type = ""), .optional "init" Rhs.SpelledBy init])
  | .cond test thenBranch none =>
    TaggedForm "If" (RecordForm [.required "cond" test.SpelledBy,
      .required "then_branch" (ArrayForm (Stmt.ListSpelledBy thenBranch)),
      .defaulted "else_branch" (· = .null) True])
  | .cond test thenBranch (some elseBranch) =>
    TaggedForm "If" (RecordForm [.required "cond" test.SpelledBy,
      .required "then_branch" (ArrayForm (Stmt.ListSpelledBy thenBranch)),
      .required "else_branch" (ArrayForm (Stmt.ListSpelledBy elseBranch))])
  | .loop test body =>
    TaggedForm "While" (RecordForm [.required "cond" test.SpelledBy,
      .required "body" (ArrayForm (Stmt.ListSpelledBy body))])
  | .cases subject branches =>
    TaggedForm "Case" (RecordForm [.required "scrutinee" subject.SpelledBy,
      .required "branches" (ArrayForm (Stmt.BranchesSpelledBy branches))])
  | .block body => TaggedForm "Block" (ArrayForm (Stmt.ListSpelledBy body))
  | .ret value => TaggedForm "Return" value.SpelledBy
  | .eval value => TaggedForm "Expression" value.SpelledBy
  | .await guard => TaggedForm "Await" guard.SpelledBy
  | .duration min max =>
    TaggedForm "Duration" (RecordForm [.required "min" min.SpelledBy,
      .required "max" max.SpelledBy])
  | .assert claim => TaggedForm "Assert" claim.SpelledBy

def Stmt.ListSpelledBy : List Stmt → List Json → Prop
  | [], items => items = []
  | s :: ss, items => ∃ j js, items = j :: js ∧ s.SpelledBy j ∧ ListSpelledBy ss js

def Stmt.BranchesSpelledBy : List (String × List Stmt) → List Json → Prop
  | [], items => items = []
  | (pattern, body) :: branches, items => ∃ j js, items = j :: js ∧
    RecordForm [.required "pattern" (StringForm pattern),
      .required "body" (ArrayForm (Stmt.ListSpelledBy body))] j ∧ BranchesSpelledBy branches js

end

def Block.SpelledBy : Block → Json → Prop :=
  ListForm Stmt.SpelledBy

def branchSpelledBy (branch : String × Block) : Json → Prop :=
  RecordForm [.required "pattern" (StringForm branch.1),
    .required "body" (Block.SpelledBy branch.2)]

theorem Stmt.listSpelledBy_eq (ss : List Stmt) :
    Stmt.ListSpelledBy ss = List.Forall₂ Stmt.SpelledBy ss := by
  funext items
  induction ss generalizing items with
  | nil => simp [Stmt.ListSpelledBy]
  | cons s ss ih => cases items <;> simp [Stmt.ListSpelledBy, ih]

theorem Stmt.branchesSpelledBy_eq (branches : List (String × Block)) :
    Stmt.BranchesSpelledBy branches = List.Forall₂ branchSpelledBy branches := by
  funext items
  induction branches generalizing items with
  | nil => simp [Stmt.BranchesSpelledBy]
  | cons branch branches ih =>
    cases items <;>
      simp [Stmt.BranchesSpelledBy, ih, Stmt.listSpelledBy_eq, branchSpelledBy, Block.SpelledBy,
        ListForm]

/-! ## Spellings of declarations -/

def Annotation.SpelledBy (a : Annotation) : Json → Prop :=
  RecordForm [.required "ty" (StringForm a.type), .required "value" a.value.SpelledBy]

def Method.SpelledBy (m : Method) : Json → Prop :=
  RecordForm [.required "sig" m.sig.SpelledBy, .required "body" (Block.SpelledBy m.body),
    .listed "annotations" Annotation.SpelledBy m.annotations]

def InterfaceMethod.SpelledBy (m : InterfaceMethod) : Json → Prop :=
  RecordForm [.required "sig" m.sig.SpelledBy,
    .listed "annotations" Annotation.SpelledBy m.annotations]

def Interface.SpelledBy (i : Interface) : Json → Prop :=
  RecordForm [.required "name" (StringForm i.name), .listed "extends" StringForm i.parents,
    .listed "methods" InterfaceMethod.SpelledBy i.methods]

def Field.SpelledBy (f : Field) : Json → Prop :=
  RecordForm [.required "name" (StringForm f.name),
    .defaulted "ty" (StringForm f.type) (f.type = ""), .optional "init" Expr.SpelledBy f.init]

def Equation.SpelledBy (e : Equation) : Json → Prop :=
  RecordForm [.required "lhs" e.lhs.SpelledBy, .required "rhs" e.rhs.SpelledBy]

def PhysicalField.SpelledBy (f : PhysicalField) : Json → Prop :=
  RecordForm [.required "name" (StringForm f.name), .required "initial" f.initial.SpelledBy,
    .required "ode" f.ode.SpelledBy]

def Physical.SpelledBy (p : Physical) : Json → Prop :=
  RecordForm [.listed "fields" PhysicalField.SpelledBy p.fields,
    .listed "annotations" Annotation.SpelledBy p.annotations]

def Class.SpelledBy (c : Class) : Json → Prop :=
  RecordForm [.required "name" (StringForm c.name), .listed "params" Param.SpelledBy c.params,
    .listed "fields" Field.SpelledBy c.fields, .optional "physical" Physical.SpelledBy c.physical,
    .optional "init_block" Block.SpelledBy c.init, .listed "methods" Method.SpelledBy c.methods,
    .listed "implements" StringForm c.implements,
    .listed "annotations" Annotation.SpelledBy c.annotations]

def Module.SpelledBy (m : Module) : Json → Prop :=
  RecordForm [.required "name" (StringForm m.name),
    .listed "interfaces" Interface.SpelledBy m.interfaces,
    .listed "classes" Class.SpelledBy m.classes, .optional "main_block" Block.SpelledBy m.main]

def Model.SpelledBy (m : Model) : Json → Prop :=
  RecordForm [.listed "modules" Module.SpelledBy m.modules]

/-! ## Readers of expressions and effects -/

theorem BinOp.tag_of_ofJson {j : Json} {op : BinOp} (h : BinOp.ofJson j = .ok op) :
    ∃ body, asVariant j = .ok (op.label, body) := by
  obtain ⟨⟨tag, body⟩, hv, h⟩ := except_bind_eq_ok.mp h
  refine ⟨body, ?_⟩
  dsimp only at h
  split at h
  all_goals grind [BinOp.label, eq_of_noContent]

theorem BinOp.accepts (n : Nat) : Accepts n BinOp.ofJson BinOp.SpelledBy := by
  refine accepts_variant BinOp.tag_of_ofJson UnitForm.asVariant_eq ?_
  intro j op body hj hv
  have hop := noContent_eq_ok hv (a := op)
  rw [BinOp.ofJson, hv, BinOp.SpelledBy, ← hop]
  cases op <;> rfl

theorem UnOp.tag_of_ofJson {j : Json} {op : UnOp} (h : UnOp.ofJson j = .ok op) :
    ∃ body, asVariant j = .ok (op.label, body) := by
  obtain ⟨⟨tag, body⟩, hv, h⟩ := except_bind_eq_ok.mp h
  refine ⟨body, ?_⟩
  dsimp only at h
  split at h
  all_goals grind [UnOp.label, eq_of_noContent]

theorem UnOp.accepts (n : Nat) : Accepts n UnOp.ofJson UnOp.SpelledBy := by
  refine accepts_variant UnOp.tag_of_ofJson UnitForm.asVariant_eq ?_
  intro j op body hj hv
  have hop := noContent_eq_ok hv (a := op)
  rw [UnOp.ofJson, hv, UnOp.SpelledBy, ← hop]
  cases op <;> rfl

/-- The name of the variant of an expression. -/
def Expr.tag : Expr → String
  | .int _ => "IntLiteral"
  | .float _ => "FloatLiteral"
  | .string _ => "StringLiteral"
  | .field _ => "FieldUse"
  | .var _ => "VarUse"
  | .this => "This"
  | .binary .. => "Binary"
  | .unary .. => "Unary"
  | .derivative _ => "Derivative"
  | .construct .. => "DataConstructor"
  | .apply .. => "FnApp"

theorem Expr.tag_of_ofJsonWithin {n : Nat} {j : Json} {e : Expr}
    (h : Expr.ofJsonWithin n j = .ok e) : ∃ body, asVariant j = .ok (e.tag, body) := by
  cases n with
  | zero => cases h
  | succ n =>
    obtain ⟨⟨tag, body⟩, hv, h⟩ := except_bind_eq_ok.mp h
    refine ⟨body, ?_⟩
    dsimp only at h
    split at h
    all_goals
      grind [Expr.tag, except_bind_eq_ok, except_map_eq_ok, except_pure_eq_ok, eq_of_noContent]

theorem Expr.SpelledBy.tag {e : Expr} {j : Json} (h : e.SpelledBy j) :
    ∃ body, asVariant j = .ok (e.tag, body) := by
  cases e with
  | this => exact UnitForm.asVariant_eq h
  | int | float | string | field | var | binary | unary | derivative | construct | apply =>
    rw [Expr.SpelledBy] at h
    exact h.asVariant_eq

theorem Expr.accepts_ofJsonWithin (n : Nat) : Accepts n (Expr.ofJsonWithin n) Expr.SpelledBy := by
  induction n with
  | zero =>
    intro e j hj
    cases hj
  | succ n ih =>
    refine accepts_variant Expr.tag_of_ofJsonWithin Expr.SpelledBy.tag ?_
    intro j e body hj hv
    have htext := accepts_asString n
    rw [Expr.ofJsonWithin, hv]
    cases e with
    | int text => exact map_content_eq_ok hv hj htext Expr.int.inj
    | float text => exact map_content_eq_ok hv hj htext Expr.float.inj
    | string text => exact map_content_eq_ok hv hj htext Expr.string.inj
    | field name => exact map_content_eq_ok hv hj htext Expr.field.inj
    | var name => exact map_content_eq_ok hv hj htext Expr.var.inj
    | this => exact noContent_eq_ok hv
    | derivative arg => exact map_content_eq_ok hv hj ih Expr.derivative.inj
    | binary op lhs rhs =>
      refine content_record_eq_ok hv hj rfl (by decide) fun r hr => ?_
      simp [except_bind_eq_ok, except_map_eq_ok, require_eq_ok hr (BinOp.accepts n),
        require_eq_ok hr ih]
    | unary op arg =>
      refine content_record_eq_ok hv hj rfl (by decide) fun r hr => ?_
      simp [except_bind_eq_ok, except_map_eq_ok, require_eq_ok hr (UnOp.accepts n),
        require_eq_ok hr ih]
    | construct name args | apply name args =>
      refine content_record_eq_ok hv hj rfl (by decide) fun r hr => ?_
      simp [except_bind_eq_ok, except_map_eq_ok, require_eq_ok hr htext,
        withDefault_eq_ok hr (accepts_asList ih), Expr.listSpelledBy_eq, ListForm]

/-- Expressions are read with a bound that is large enough for them. -/
theorem Expr.accepts (n : Nat) : Accepts n Expr.ofJson Expr.SpelledBy := by
  intro e j _
  exact Expr.accepts_ofJsonWithin (j.depth + 1) e j (Nat.lt_succ_self _)

theorem Expr.not_spelledBy_null (e : Expr) : ¬e.SpelledBy .null := by
  intro h
  obtain ⟨body, hv⟩ := h.tag
  cases hv

theorem Param.accepts (n : Nat) : Accepts n Param.ofJson Param.SpelledBy := by
  intro p j hj
  refine record_eq_ok rfl (by decide) hj fun r hr => ?_
  cases p
  simp [except_bind_eq_ok, except_map_eq_ok, require_eq_ok hr (accepts_asString n),
    withDefault_eq_ok hr (accepts_asString n)]

theorem Signature.accepts (n : Nat) : Accepts n Signature.ofJson Signature.SpelledBy := by
  intro sig j hj
  refine record_eq_ok rfl (by decide) hj fun r hr => ?_
  cases sig
  simp [except_bind_eq_ok, except_map_eq_ok, require_eq_ok hr (accepts_asString n),
    list_eq_ok hr (Param.accepts n)]

theorem not_stringForm_null (s : String) : ¬StringForm s .null := by
  rintro ⟨⟩

theorem Effect.accepts_callOfJson (n : Nat) : Accepts n Effect.callOfJson
    fun call => Effect.CallSpelledBy call.1 call.2.1 call.2.2.1 call.2.2.2 := by
  rintro ⟨callee, interface, method, args⟩ j hj
  refine record_eq_ok rfl (by decide) hj fun r hr => ?_
  simp [except_bind_eq_ok, except_map_eq_ok, require_eq_ok hr (Expr.accepts n),
    optional_eq_ok hr (accepts_asString n) not_stringForm_null,
    require_eq_ok hr (Signature.accepts n), list_eq_ok hr (Expr.accepts n)]

def Effect.tag : Effect → String
  | .asyncCall .. => "AsyncCall"
  | .syncCall .. => "SyncCall"
  | .create .. => "New"
  | .get _ => "Get"

theorem Effect.tag_of_ofJson {j : Json} {e : Effect} (h : Effect.ofJson j = .ok e) :
    ∃ body, asVariant j = .ok (e.tag, body) := by
  obtain ⟨⟨tag, body⟩, hv, h⟩ := except_bind_eq_ok.mp h
  refine ⟨body, ?_⟩
  dsimp only at h
  split at h
  all_goals grind [Effect.tag, except_bind_eq_ok, except_map_eq_ok, except_pure_eq_ok]

theorem Effect.SpelledBy.tag {e : Effect} {j : Json} (h : e.SpelledBy j) :
    ∃ body, asVariant j = .ok (e.tag, body) := by
  cases e with
  | asyncCall | syncCall | create | get => exact TaggedForm.asVariant_eq h

theorem Effect.accepts (n : Nat) : Accepts n Effect.ofJson Effect.SpelledBy := by
  refine accepts_variant Effect.tag_of_ofJson Effect.SpelledBy.tag ?_
  intro j e body hj hv
  have hj : j.depth < n + 1 := Nat.lt_succ_of_lt hj
  have hcall := Effect.accepts_callOfJson n
  rw [Effect.ofJson, hv]
  cases e with
  | asyncCall callee interface method args =>
    refine bind_content_eq_ok hv hj hcall (a := (callee, interface, method, args))
      (f := fun call => Effect.asyncCall call.1 call.2.1 call.2.2.1 call.2.2.2) ?_
    rintro ⟨_, _, _, _⟩ ⟨_, _, _, _⟩ ⟨⟩
    rfl
  | syncCall callee interface method args =>
    refine bind_content_eq_ok hv hj hcall (a := (callee, interface, method, args))
      (f := fun call => Effect.syncCall call.1 call.2.1 call.2.2.1 call.2.2.2) ?_
    rintro ⟨_, _, _, _⟩ ⟨_, _, _, _⟩ ⟨⟩
    rfl
  | create className args =>
    refine content_record_eq_ok hv hj rfl (by decide) fun r hr => ?_
    simp [except_bind_eq_ok, except_map_eq_ok, require_eq_ok hr (accepts_asString n),
      list_eq_ok hr (Expr.accepts n)]
  | get future => exact map_content_eq_ok hv hj (Expr.accepts n) Effect.get.inj

def Rhs.tag : Rhs → String
  | .pure _ => "Pure"
  | .effect _ => "Effect"

theorem Rhs.tag_of_ofJson {j : Json} {value : Rhs} (h : Rhs.ofJson j = .ok value) :
    ∃ body, asVariant j = .ok (value.tag, body) := by
  obtain ⟨⟨tag, body⟩, hv, h⟩ := except_bind_eq_ok.mp h
  refine ⟨body, ?_⟩
  dsimp only at h
  split at h
  all_goals grind [Rhs.tag, except_map_eq_ok]

theorem Rhs.SpelledBy.tag {value : Rhs} {j : Json} (h : value.SpelledBy j) :
    ∃ body, asVariant j = .ok (value.tag, body) := by
  cases value with
  | pure | effect => exact TaggedForm.asVariant_eq h

theorem Rhs.accepts (n : Nat) : Accepts n Rhs.ofJson Rhs.SpelledBy := by
  refine accepts_variant Rhs.tag_of_ofJson Rhs.SpelledBy.tag ?_
  intro j value body hj hv
  have hj : j.depth < n + 1 := Nat.lt_succ_of_lt hj
  rw [Rhs.ofJson, hv]
  cases value with
  | pure e => exact map_content_eq_ok hv hj (Expr.accepts n) Rhs.pure.inj
  | effect e => exact map_content_eq_ok hv hj (Effect.accepts n) Rhs.effect.inj

theorem Rhs.not_spelledBy_null (value : Rhs) : ¬value.SpelledBy .null := by
  intro h
  obtain ⟨body, hv⟩ := h.tag
  cases hv

def Place.tag : Place → String
  | .field _ => "Field"
  | .var _ => "Var"

theorem Place.tag_of_ofJson {j : Json} {target : Place} (h : Place.ofJson j = .ok target) :
    ∃ body, asVariant j = .ok (target.tag, body) := by
  obtain ⟨⟨tag, body⟩, hv, h⟩ := except_bind_eq_ok.mp h
  refine ⟨body, ?_⟩
  dsimp only at h
  split at h
  all_goals grind [Place.tag, except_map_eq_ok]

theorem Place.SpelledBy.tag {target : Place} {j : Json} (h : target.SpelledBy j) :
    ∃ body, asVariant j = .ok (target.tag, body) := by
  cases target with
  | field | var => exact TaggedForm.asVariant_eq h

theorem Place.accepts (n : Nat) : Accepts n Place.ofJson Place.SpelledBy := by
  refine accepts_variant Place.tag_of_ofJson Place.SpelledBy.tag ?_
  intro j target body hj hv
  have hj : j.depth < n + 1 := Nat.lt_succ_of_lt hj
  rw [Place.ofJson, hv]
  cases target with
  | field name => exact map_content_eq_ok hv hj (accepts_asString n) Place.field.inj
  | var name => exact map_content_eq_ok hv hj (accepts_asString n) Place.var.inj

def Guard.tag : Guard → String
  | .cond _ => "Exp"
  | .differential _ => "Differential"
  | .and .. => "And"
  | .or .. => "Or"
  | .duration _ => "Duration"
  | .claim _ => "Claim"

theorem Guard.tag_of_ofJsonWithin {n : Nat} {j : Json} {g : Guard}
    (h : Guard.ofJsonWithin n j = .ok g) : ∃ body, asVariant j = .ok (g.tag, body) := by
  cases n with
  | zero => cases h
  | succ n =>
    obtain ⟨⟨tag, body⟩, hv, h⟩ := except_bind_eq_ok.mp h
    refine ⟨body, ?_⟩
    dsimp only at h
    split at h
    all_goals grind [Guard.tag, except_bind_eq_ok, except_map_eq_ok, except_pure_eq_ok]

theorem Guard.SpelledBy.tag {g : Guard} {j : Json} (h : g.SpelledBy j) :
    ∃ body, asVariant j = .ok (g.tag, body) := by
  cases g with
  | cond | differential | and | or | duration | claim => exact TaggedForm.asVariant_eq h

theorem Guard.accepts_ofJsonWithin (n : Nat) :
    Accepts n (Guard.ofJsonWithin n) Guard.SpelledBy := by
  induction n with
  | zero =>
    intro g j hj
    cases hj
  | succ n ih =>
    refine accepts_variant Guard.tag_of_ofJsonWithin Guard.SpelledBy.tag ?_
    intro j g body hj hv
    have hexpr := Expr.accepts n
    rw [Guard.ofJsonWithin, hv]
    cases g with
    | cond value => exact map_content_eq_ok hv hj hexpr Guard.cond.inj
    | differential value => exact map_content_eq_ok hv hj hexpr Guard.differential.inj
    | claim future => exact map_content_eq_ok hv hj hexpr Guard.claim.inj
    | and lhs rhs => exact bind_pairContent_eq_ok hv hj ih Guard.and.inj
    | or lhs rhs => exact bind_pairContent_eq_ok hv hj ih Guard.or.inj
    | duration min =>
      refine content_record_eq_ok hv hj rfl (by decide) fun r hr => ?_
      simp [except_map_eq_ok, require_eq_ok hr hexpr]

theorem Guard.accepts (n : Nat) : Accepts n Guard.ofJson Guard.SpelledBy := by
  intro g j _
  exact Guard.accepts_ofJsonWithin (j.depth + 1) g j (Nat.lt_succ_self _)

/-! ## Readers of statements -/

def Stmt.tag : Stmt → String
  | .skip => "Skip"
  | .assign .. => "Assign"
  | .declare .. => "VarDecl"
  | .cond .. => "If"
  | .loop .. => "While"
  | .cases .. => "Case"
  | .block _ => "Block"
  | .ret _ => "Return"
  | .eval _ => "Expression"
  | .await _ => "Await"
  | .duration .. => "Duration"
  | .assert _ => "Assert"

theorem Stmt.tag_of_ofJsonWithin {n : Nat} {j : Json} {s : Stmt}
    (h : Stmt.ofJsonWithin n j = .ok s) : ∃ body, asVariant j = .ok (s.tag, body) := by
  cases n with
  | zero => cases h
  | succ n =>
    obtain ⟨⟨tag, body⟩, hv, h⟩ := except_bind_eq_ok.mp h
    refine ⟨body, ?_⟩
    dsimp only at h
    split at h
    all_goals
      grind [Stmt.tag, except_bind_eq_ok, except_map_eq_ok, except_pure_eq_ok, eq_of_noContent]

theorem Stmt.SpelledBy.tag {s : Stmt} {j : Json} (h : s.SpelledBy j) :
    ∃ body, asVariant j = .ok (s.tag, body) := by
  cases s with
  | skip => exact UnitForm.asVariant_eq h
  | cond test thenBranch elseBranch =>
    cases elseBranch <;> rw [Stmt.SpelledBy] at h <;> exact h.asVariant_eq
  | assign | declare | loop | cases | block | ret | eval | await | duration | assert =>
    rw [Stmt.SpelledBy] at h
    exact h.asVariant_eq

theorem accepts_branchOfJson {n : Nat} {block : Json → Except Fault Block}
    (h : Accepts n block Block.SpelledBy) : Accepts n (branchOfJson block) branchSpelledBy := by
  rintro ⟨pattern, body⟩ j hj
  refine record_eq_ok rfl (by decide) hj fun r hr => ?_
  simp [except_bind_eq_ok, except_map_eq_ok, require_eq_ok hr (accepts_asString n),
    require_eq_ok hr h]

theorem Block.not_spelledBy_null (b : Block) : ¬Block.SpelledBy b .null := by
  rintro ⟨⟩

theorem Stmt.accepts_ofJsonWithin (n : Nat) : Accepts n (Stmt.ofJsonWithin n) Stmt.SpelledBy := by
  induction n with
  | zero =>
    intro s j hj
    cases hj
  | succ n ih =>
    refine accepts_variant Stmt.tag_of_ofJsonWithin Stmt.SpelledBy.tag ?_
    intro j s body hj hv
    have hexpr := Expr.accepts n
    have hrhs := Rhs.accepts n
    have hblock : Accepts n (asList (Stmt.ofJsonWithin n)) Block.SpelledBy := accepts_asList ih
    rw [Stmt.ofJsonWithin, hv]
    cases s with
    | skip => exact noContent_eq_ok hv
    | assign target value =>
      refine content_record_eq_ok hv hj rfl (by decide) fun r hr => ?_
      simp [except_bind_eq_ok, except_map_eq_ok, require_eq_ok hr (Place.accepts n),
        require_eq_ok hr hrhs]
    | declare name type init =>
      refine content_record_eq_ok hv hj rfl (by decide) fun r hr => ?_
      simp [except_bind_eq_ok, except_map_eq_ok, require_eq_ok hr (accepts_asString n),
        withDefault_eq_ok hr (accepts_asString n), optional_eq_ok hr hrhs Rhs.not_spelledBy_null]
    | cond test thenBranch elseBranch =>
      cases elseBranch with
      | none | some elseBranch =>
        refine content_record_eq_ok hv hj rfl (by decide) fun r hr => ?_
        simp [except_bind_eq_ok, except_map_eq_ok, require_eq_ok hr hexpr, require_eq_ok hr hblock,
          optional_eq_ok hr hblock Block.not_spelledBy_null, FieldForm.optional_none,
          FieldForm.optional_some, Stmt.listSpelledBy_eq, Block.SpelledBy, ListForm]
    | loop test body =>
      refine content_record_eq_ok hv hj rfl (by decide) fun r hr => ?_
      simp [except_bind_eq_ok, except_map_eq_ok, require_eq_ok hr hexpr, require_eq_ok hr hblock,
        Stmt.listSpelledBy_eq, Block.SpelledBy, ListForm]
    | cases subject branches =>
      refine content_record_eq_ok hv hj rfl (by decide) fun r hr => ?_
      simp [except_bind_eq_ok, except_map_eq_ok, require_eq_ok hr hexpr,
        require_eq_ok hr (accepts_asList (accepts_branchOfJson hblock)), Stmt.branchesSpelledBy_eq,
        ListForm]
    | block body =>
      rw [Stmt.SpelledBy, Stmt.listSpelledBy_eq]
      exact map_content_eq_ok hv hj hblock Stmt.block.inj
    | ret value => exact map_content_eq_ok hv hj hexpr Stmt.ret.inj
    | eval value => exact map_content_eq_ok hv hj hrhs Stmt.eval.inj
    | await guard => exact map_content_eq_ok hv hj (Guard.accepts n) Stmt.await.inj
    | duration min max =>
      refine content_record_eq_ok hv hj rfl (by decide) fun r hr => ?_
      simp [except_bind_eq_ok, except_map_eq_ok, require_eq_ok hr hexpr]
    | assert claim => exact map_content_eq_ok hv hj hexpr Stmt.assert.inj

theorem Stmt.accepts (n : Nat) : Accepts n Stmt.ofJson Stmt.SpelledBy := by
  intro s j _
  exact Stmt.accepts_ofJsonWithin (j.depth + 1) s j (Nat.lt_succ_self _)

theorem Block.accepts (n : Nat) : Accepts n Block.ofJson Block.SpelledBy :=
  accepts_asList (Stmt.accepts n)

/-! ## Readers of declarations -/

theorem Annotation.accepts (n : Nat) : Accepts n Annotation.ofJson Annotation.SpelledBy := by
  intro a j hj
  refine record_eq_ok rfl (by decide) hj fun r hr => ?_
  cases a
  simp [except_bind_eq_ok, except_map_eq_ok, require_eq_ok hr (accepts_asString n),
    require_eq_ok hr (Expr.accepts n)]

theorem Method.accepts (n : Nat) : Accepts n Method.ofJson Method.SpelledBy := by
  intro m j hj
  have hannotations := Annotation.accepts n
  refine record_eq_ok rfl (by decide) hj fun r hr => ?_
  cases m
  simp [except_bind_eq_ok, except_map_eq_ok, require_eq_ok hr (Signature.accepts n),
    require_eq_ok hr (Block.accepts n), list_eq_ok hr hannotations]

theorem InterfaceMethod.accepts (n : Nat) :
    Accepts n InterfaceMethod.ofJson InterfaceMethod.SpelledBy := by
  intro m j hj
  have hannotations := Annotation.accepts n
  refine record_eq_ok rfl (by decide) hj fun r hr => ?_
  cases m
  simp [except_bind_eq_ok, except_map_eq_ok, require_eq_ok hr (Signature.accepts n),
    list_eq_ok hr hannotations]

theorem Interface.accepts (n : Nat) : Accepts n Interface.ofJson Interface.SpelledBy := by
  intro i j hj
  refine record_eq_ok rfl (by decide) hj fun r hr => ?_
  cases i
  simp [except_bind_eq_ok, except_map_eq_ok, require_eq_ok hr (accepts_asString n),
    list_eq_ok hr (accepts_asString n), list_eq_ok hr (InterfaceMethod.accepts n)]

theorem Field.accepts (n : Nat) : Accepts n Field.ofJson Field.SpelledBy := by
  intro f j hj
  refine record_eq_ok rfl (by decide) hj fun r hr => ?_
  cases f
  simp [except_bind_eq_ok, except_map_eq_ok, require_eq_ok hr (accepts_asString n),
    withDefault_eq_ok hr (accepts_asString n),
    optional_eq_ok hr (Expr.accepts n) Expr.not_spelledBy_null]

theorem Equation.accepts (n : Nat) : Accepts n Equation.ofJson Equation.SpelledBy := by
  intro e j hj
  refine record_eq_ok rfl (by decide) hj fun r hr => ?_
  cases e
  simp [except_bind_eq_ok, except_map_eq_ok, require_eq_ok hr (Expr.accepts n)]

theorem PhysicalField.accepts (n : Nat) :
    Accepts n PhysicalField.ofJson PhysicalField.SpelledBy := by
  intro f j hj
  refine record_eq_ok rfl (by decide) hj fun r hr => ?_
  cases f
  simp [except_bind_eq_ok, except_map_eq_ok, require_eq_ok hr (accepts_asString n),
    require_eq_ok hr (Expr.accepts n), require_eq_ok hr (Equation.accepts n)]

theorem Physical.accepts (n : Nat) : Accepts n Physical.ofJson Physical.SpelledBy := by
  intro p j hj
  have hannotations := Annotation.accepts n
  refine record_eq_ok rfl (by decide) hj fun r hr => ?_
  cases p
  simp [except_bind_eq_ok, except_map_eq_ok, list_eq_ok hr (PhysicalField.accepts n),
    list_eq_ok hr hannotations]

theorem Class.accepts (n : Nat) : Accepts n Class.ofJson Class.SpelledBy := by
  intro c j hj
  have hannotations := Annotation.accepts n
  refine record_eq_ok rfl (by decide) hj fun r hr => ?_
  cases c
  simp [except_bind_eq_ok, except_map_eq_ok, require_eq_ok hr (accepts_asString n),
    list_eq_ok hr (Param.accepts n), list_eq_ok hr (Field.accepts n),
    optional_eq_ok hr (Physical.accepts n) fun _ => not_recordForm_null,
    optional_eq_ok hr (Block.accepts n) Block.not_spelledBy_null, list_eq_ok hr (Method.accepts n),
    list_eq_ok hr (accepts_asString n), list_eq_ok hr hannotations]

theorem Module.accepts (n : Nat) : Accepts n Module.ofJson Module.SpelledBy := by
  intro m j hj
  refine record_eq_ok rfl (by decide) hj fun r hr => ?_
  cases m
  simp [except_bind_eq_ok, except_map_eq_ok, require_eq_ok hr (accepts_asString n),
    list_eq_ok hr (Interface.accepts n), list_eq_ok hr (Class.accepts n),
    optional_eq_ok hr (Block.accepts n) Block.not_spelledBy_null]

theorem Model.accepts (n : Nat) : Accepts n Model.ofJson Model.SpelledBy := by
  intro m j hj
  refine record_eq_ok rfl (by decide) hj fun r hr => ?_
  cases m
  simp [except_map_eq_ok, list_eq_ok hr (Module.accepts n)]

/-! ## The canonical spelling -/

theorem BinOp.spelledBy_toJson (op : BinOp) : op.SpelledBy op.toJson :=
  .name

theorem UnOp.spelledBy_toJson (op : UnOp) : op.SpelledBy op.toJson :=
  .name

mutual

theorem Expr.spelledBy_toJson : ∀ e : Expr, e.SpelledBy e.toJson
  | .int _ | .float _ | .string _ | .field _ | .var _ => by
    rw [Expr.toJson, Expr.SpelledBy]
    exact .mk rfl
  | .this => by
    rw [Expr.toJson, Expr.SpelledBy]
    exact .name
  | .binary op lhs rhs => by
    rw [Expr.toJson, Expr.SpelledBy]
    exact .mk (.of_spell (.given op.spelledBy_toJson (.given lhs.spelledBy_toJson
      (.given rhs.spelledBy_toJson .nil))))
  | .unary op arg => by
    rw [Expr.toJson, Expr.SpelledBy]
    exact .mk (.of_spell (.given op.spelledBy_toJson (.given arg.spelledBy_toJson .nil)))
  | .derivative arg => by
    rw [Expr.toJson, Expr.SpelledBy]
    exact .mk arg.spelledBy_toJson
  | .construct name args | .apply name args => by
    rw [Expr.toJson, Expr.SpelledBy]
    exact .mk (.of_spell (.given rfl (.given (Expr.listSpelledBy_listToJson args) .nil)))

theorem Expr.listSpelledBy_listToJson : ∀ es : List Expr,
    Expr.ListSpelledBy es (Expr.listToJson es)
  | [] => by rw [Expr.listToJson, Expr.ListSpelledBy]
  | e :: es => by
    rw [Expr.listToJson, Expr.ListSpelledBy]
    exact ⟨_, _, rfl, e.spelledBy_toJson, Expr.listSpelledBy_listToJson es⟩

end

theorem Param.spelledBy_toJson (p : Param) : p.SpelledBy p.toJson :=
  .of_spell (.given rfl (.given rfl .nil))

theorem Signature.spelledBy_toJson (sig : Signature) : sig.SpelledBy sig.toJson :=
  .of_spell (.given rfl (.given (listForm_ofList Param.spelledBy_toJson sig.params) .nil))

theorem Effect.callSpelledBy_callToJson (callee : Expr) (interface : Option String)
    (method : Signature) (args : List Expr) : Effect.CallSpelledBy callee interface method args
      (Effect.callToJson callee interface method args) :=
  .of_spell (.given callee.spelledBy_toJson (.given (optionForm_ofOption stringForm_str interface)
    (.given method.spelledBy_toJson
      (.given (listForm_ofList Expr.spelledBy_toJson args) .nil))))

theorem Effect.spelledBy_toJson (e : Effect) : e.SpelledBy e.toJson := by
  cases e with
  | asyncCall callee interface method args | syncCall callee interface method args =>
    exact .mk (Effect.callSpelledBy_callToJson callee interface method args)
  | create className args =>
    exact .mk (.of_spell (.given rfl (.given (listForm_ofList Expr.spelledBy_toJson args) .nil)))
  | get future => exact .mk future.spelledBy_toJson

theorem Rhs.spelledBy_toJson (value : Rhs) : value.SpelledBy value.toJson := by
  cases value with
  | pure e => exact .mk e.spelledBy_toJson
  | effect e => exact .mk e.spelledBy_toJson

theorem Place.spelledBy_toJson (target : Place) : target.SpelledBy target.toJson := by
  cases target with
  | field | var => exact .mk rfl

theorem Guard.spelledBy_toJson (g : Guard) : g.SpelledBy g.toJson := by
  induction g with
  | cond value | differential value | claim value => exact .mk value.spelledBy_toJson
  | and lhs rhs ihl ihr | or lhs rhs ihl ihr => exact .mk ⟨ihl, ihr⟩
  | duration min => exact .mk (.of_spell (.given min.spelledBy_toJson .nil))

mutual

theorem Stmt.spelledBy_toJson : ∀ s : Stmt, s.SpelledBy s.toJson
  | .skip => by
    rw [Stmt.toJson, Stmt.SpelledBy]
    exact .name
  | .assign target value => by
    rw [Stmt.toJson, Stmt.SpelledBy]
    exact .mk (.of_spell (.given target.spelledBy_toJson (.given value.spelledBy_toJson .nil)))
  | .declare name type init => by
    rw [Stmt.toJson, Stmt.SpelledBy]
    exact .mk (.of_spell (.given rfl (.given rfl
      (.given (optionForm_ofOption Rhs.spelledBy_toJson init) .nil))))
  | .cond test thenBranch none => by
    rw [Stmt.toJson, Stmt.SpelledBy]
    exact .mk (.of_spell (.given test.spelledBy_toJson
      (.given (Stmt.listSpelledBy_listToJson thenBranch) (.given rfl .nil))))
  | .cond test thenBranch (some elseBranch) => by
    rw [Stmt.toJson, Stmt.SpelledBy]
    exact .mk (.of_spell (.given test.spelledBy_toJson
      (.given (Stmt.listSpelledBy_listToJson thenBranch)
        (.given (Stmt.listSpelledBy_listToJson elseBranch) .nil))))
  | .loop test body => by
    rw [Stmt.toJson, Stmt.SpelledBy]
    exact .mk (.of_spell (.given test.spelledBy_toJson
      (.given (Stmt.listSpelledBy_listToJson body) .nil)))
  | .cases subject branches => by
    rw [Stmt.toJson, Stmt.SpelledBy]
    exact .mk (.of_spell (.given subject.spelledBy_toJson
      (.given (Stmt.branchesSpelledBy_branchesToJson branches) .nil)))
  | .block body => by
    rw [Stmt.toJson, Stmt.SpelledBy]
    exact .mk (Stmt.listSpelledBy_listToJson body)
  | .ret value | .eval value | .await value | .assert value => by
    rw [Stmt.toJson, Stmt.SpelledBy]
    exact .mk value.spelledBy_toJson
  | .duration min max => by
    rw [Stmt.toJson, Stmt.SpelledBy]
    exact .mk (.of_spell (.given min.spelledBy_toJson (.given max.spelledBy_toJson .nil)))

theorem Stmt.listSpelledBy_listToJson : ∀ ss : List Stmt,
    Stmt.ListSpelledBy ss (Stmt.listToJson ss)
  | [] => by rw [Stmt.listToJson, Stmt.ListSpelledBy]
  | s :: ss => by
    rw [Stmt.listToJson, Stmt.ListSpelledBy]
    exact ⟨_, _, rfl, s.spelledBy_toJson, Stmt.listSpelledBy_listToJson ss⟩

theorem Stmt.branchesSpelledBy_branchesToJson : ∀ branches : List (String × List Stmt),
    Stmt.BranchesSpelledBy branches (Stmt.branchesToJson branches)
  | [] => by rw [Stmt.branchesToJson, Stmt.BranchesSpelledBy]
  | (pattern, body) :: branches => by
    rw [Stmt.branchesToJson, Stmt.BranchesSpelledBy]
    refine ⟨_, _, rfl, ?_, Stmt.branchesSpelledBy_branchesToJson branches⟩
    exact .of_spell (.given rfl (.given (Stmt.listSpelledBy_listToJson body) .nil))

end

theorem Block.spelledBy_toJson (b : Block) : Block.SpelledBy b (Block.toJson b) := by
  have h := Stmt.listSpelledBy_listToJson b
  rw [Stmt.listSpelledBy_eq] at h
  exact h

theorem Annotation.spelledBy_toJson (a : Annotation) : a.SpelledBy a.toJson :=
  .of_spell (.given rfl (.given a.value.spelledBy_toJson .nil))

theorem Method.spelledBy_toJson (m : Method) : m.SpelledBy m.toJson :=
  .of_spell (.given m.sig.spelledBy_toJson (.given (Block.spelledBy_toJson m.body)
    (.given (listForm_ofList Annotation.spelledBy_toJson m.annotations) .nil)))

theorem InterfaceMethod.spelledBy_toJson (m : InterfaceMethod) : m.SpelledBy m.toJson :=
  .of_spell (.given m.sig.spelledBy_toJson
    (.given (listForm_ofList Annotation.spelledBy_toJson m.annotations) .nil))

theorem Interface.spelledBy_toJson (i : Interface) : i.SpelledBy i.toJson :=
  .of_spell (.given rfl (.given (listForm_ofList stringForm_str i.parents)
    (.given (listForm_ofList InterfaceMethod.spelledBy_toJson i.methods) .nil)))

theorem Field.spelledBy_toJson (f : Field) : f.SpelledBy f.toJson :=
  .of_spell (.given rfl (.given rfl
    (.given (optionForm_ofOption Expr.spelledBy_toJson f.init) .nil)))

theorem Equation.spelledBy_toJson (e : Equation) : e.SpelledBy e.toJson :=
  .of_spell (.given e.lhs.spelledBy_toJson (.given e.rhs.spelledBy_toJson .nil))

theorem PhysicalField.spelledBy_toJson (f : PhysicalField) : f.SpelledBy f.toJson :=
  .of_spell (.given rfl (.given f.initial.spelledBy_toJson
    (.given f.ode.spelledBy_toJson .nil)))

theorem Physical.spelledBy_toJson (p : Physical) : p.SpelledBy p.toJson :=
  .of_spell (.given (listForm_ofList PhysicalField.spelledBy_toJson p.fields)
    (.given (listForm_ofList Annotation.spelledBy_toJson p.annotations) .nil))

theorem Class.spelledBy_toJson (c : Class) : c.SpelledBy c.toJson :=
  .of_spell (.given rfl (.given (listForm_ofList Param.spelledBy_toJson c.params)
    (.given (listForm_ofList Field.spelledBy_toJson c.fields)
      (.given (optionForm_ofOption Physical.spelledBy_toJson c.physical)
        (.given (optionForm_ofOption Block.spelledBy_toJson c.init)
          (.given (listForm_ofList Method.spelledBy_toJson c.methods)
            (.given (listForm_ofList stringForm_str c.implements)
              (.given (listForm_ofList Annotation.spelledBy_toJson c.annotations) .nil))))))))

theorem Module.spelledBy_toJson (m : Module) : m.SpelledBy m.toJson :=
  .of_spell (.given rfl (.given (listForm_ofList Interface.spelledBy_toJson m.interfaces)
    (.given (listForm_ofList Class.spelledBy_toJson m.classes)
      (.given (optionForm_ofOption Block.spelledBy_toJson m.main) .nil))))

theorem Model.spelledBy_toJson (m : Model) : m.SpelledBy m.toJson :=
  .of_spell (.given (listForm_ofList Module.spelledBy_toJson m.modules) .nil)

/-- The format of models round-trips. A model is read back from the JSON value written for it, and
the values that are read as this one are the spellings of the model: at every level, records as
objects with their members in any order among unknown ones or as arrays, in both without fields that
have their default, and variants without content as names or with a null. -/
theorem ofJson_iff_spelledBy (m : Model) : Model.ofJson m.toJson = .ok m ∧
    ∀ j, m.SpelledBy j ↔ Model.ofJson j = Model.ofJson m.toJson := by
  have haccepts : ∀ j, Model.ofJson j = .ok m ↔ m.SpelledBy j := fun j =>
    Model.accepts (j.depth + 1) m j (Nat.lt_succ_self _)
  have hcanonical : Model.ofJson m.toJson = .ok m := (haccepts _).mpr m.spelledBy_toJson
  refine ⟨hcanonical, fun j => ?_⟩
  rw [hcanonical]
  exact (haccepts j).symm

/-- Records as arrays, without what has its default. -/
example : Model.ofJson (.arr [.arr [.arr [.str "M", .arr [], .arr [.arr [.str "C"]]]]]) =
    .ok ⟨[⟨"M", [], [⟨"C", [], [], none, none, [], [], []⟩], none⟩]⟩ := rfl

/-- Members in another order, one that is unknown, and a variant with a null. -/
example : Model.ofJson (.obj [("version", .num "1"), ("modules", .arr [.obj
      [("main_block", .arr [.obj [("Skip", .null)]]), ("name", .str "M")]])]) =
    .ok ⟨[⟨"M", [], [], some [.skip]⟩]⟩ := rfl

end HybridObjects
