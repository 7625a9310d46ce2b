import JsEmitter.Proofs.GeneratedNodes

/-!
# Assignments to imports

A definition of another module is a property of the local name that its module is imported under,
whether it is read or assigned to. What a module imports cannot be written, so an assignment of a
static field should stay in the module of its class. The theorem `Emitter.emit_importAssignments`
says where the code of a program assigns to such properties: generation never does by itself. A body
does wherever it assigns to a definition of another module, and apart from that only in a place
where it writes the local name itself.
-/
namespace JsEmitter

open Js (Tree NodeRule)
open Js.Tree (visited visitedAll)
open Lowering (Context Scope receiverParam)

namespace Expr

/-- What stands in an expression that stands in another stands in the latter. -/
theorem Inside.trans {sub middle expr : Expr} (first : sub.Inside middle)
    (second : middle.Inside expr) : sub.Inside expr := by
  induction second with
  | refl => exact first
  | child _ among ih => exact ih.child among

/-- What an expression contributes to a block stands in it. -/
theorem inside_of_mem_flat {statement expr : Expr} (found : statement ∈ expr.flat) :
    statement.Inside expr := by
  induction expr using children_induction with
  | step expr ih =>
    cases expr with
    | skip => cases found
    | block exprs =>
      rw [flat, flatAll_eq_flatMap] at found
      obtain ⟨inner, among, found⟩ := List.mem_flatMap.1 found
      exact (ih inner among found).child among
    | _ =>
      obtain rfl := List.mem_singleton.1 found
      exact .refl

/-- Whether an expression is lowered to a variable or the selection of a property. -/
def isReference : Expr → Bool
  | this | localVar _ | globalRef _ | loadJsConstructor _ | select _ _ | selectStatic _ _
  | jsSelect _ _ => true
  | _ => false

end Expr

namespace Js.Tree

/-- A variable is a reference. -/
theorem isReference_of_varName? {tree : Tree} {name : String}
    (found : tree.varName? = some name) : tree.isReference = true := by
  cases tree <;> first | rfl | cases found

/-- A property of a variable is a reference. -/
theorem isReference_of_selectedFrom? {tree : Tree} {name : String}
    (found : tree.selectedFrom? = some name) : tree.isReference = true := by
  cases tree <;> first | rfl | cases found

/-- The variable that a tree is, or selects a property of. -/
def base? (tree : Tree) : Option String := tree.varName?.or tree.selectedFrom?

/-- The base of a variable is the variable. -/
theorem base?_of_varName? {tree : Tree} {name : String} (found : tree.varName? = some name) :
    tree.base? = some name := by
  rw [base?, found, Option.some_or]

/-- The base of a property of a variable is the variable. -/
theorem base?_of_selectedFrom? {tree : Tree} {name : String}
    (found : tree.selectedFrom? = some name) : tree.base? = some name := by
  cases tree <;> first | exact found | cases found

end Js.Tree

namespace Lowering.Context

variable {context : Context} {scope : Scope}

/-- The definition of a class that an expression refers to without calling it, after its owner: a
static field, or the constructor of a class that is not loaded from the host. -/
def definition? (context : Context) : Expr → Option (ClassName × String)
  | .selectStatic owner field => some (owner, context.naming.staticField owner field)
  | .loadJsConstructor owner =>
    if context.index.kind? owner = some .nativeJsClass ∧
        (context.index.nativeLoadSpec? owner).isSome then none
    else some (owner, context.naming.classConstructor owner)
  | _ => none

/-- Whether a place that is assigned to is a definition of another module that is imported. A block
around the reference makes no difference. -/
def ForeignPlace (context : Context) (place : Expr) (id : ModuleId) (name : String) : Prop :=
  ∃ reference owner, place.flat = [reference] ∧
    context.definition? reference = some (owner, name) ∧
    context.index.owner? owner = some id ∧ id ≠ context.home ∧
    context.config.moduleKind ≠ .script

/-- Whether an expression writes the name of a variable itself: of a local variable, or of one that
it takes from the host. -/
inductive Writes (context : Context) (name : String) : Expr → Prop
  | localVar : Writes context name (.localVar name)
  | taken {expr : Expr} : HostNames.TakenBy context.config context.index name expr →
    Writes context name expr

section References

variable {owner : ClassName} {name : String}

/-- What a definition that an expression refers to is called. -/
theorem of_definition? {reference : Expr}
    (found : context.definition? reference = some (owner, name)) :
    (∃ field, reference = .selectStatic owner field ∧
      name = context.naming.staticField owner field) ∨
    reference = .loadJsConstructor owner ∧ name = context.naming.classConstructor owner ∧
      ¬(context.index.kind? owner = some .nativeJsClass ∧
        (context.index.nativeLoadSpec? owner).isSome) := by
  cases reference with
  | selectStatic parent field =>
    obtain ⟨rfl, rfl⟩ := Prod.mk.inj (Option.some.inj found)
    exact .inl ⟨field, rfl, rfl⟩
  | loadJsConstructor loaded =>
    simp only [definition?, Option.ite_none_left_eq_some, Option.some.injEq, Prod.mk.injEq] at found
    obtain ⟨own, rfl, rfl⟩ := found
    exact .inr ⟨rfl, rfl, own⟩
  | _ => cases found

/-- An expression that refers to a definition becomes a reference to it. -/
theorem lower_definition {reference : Expr}
    (found : context.definition? reference = some (owner, name)) :
    (context.lower scope reference).value = context.classMemberRef owner name := by
  rcases of_definition? found with ⟨field, rfl, rfl⟩ | ⟨rfl, rfl, own⟩
  · rfl
  · simp only [lower, loadJsConstructor]
    split
    · next native =>
      have unknown : context.index.nativeLoadSpec? owner = none := by simpa [native] using own
      simp [loadNative, unknown, classRef]
    · rfl

/-- The name of a definition does not look like that of an import. -/
theorem definition?_not_looksImported {reference : Expr}
    (found : context.definition? reference = some (owner, name)) :
    ¬Naming.looksImported name := by
  rcases of_definition? found with ⟨field, -, rfl⟩ | ⟨-, rfl, -⟩
  · exact @Subject.not_looksImported context.naming (.member .staticField owner field.text) rfl rfl
  · exact not_looksImported_constructor context.naming owner

/-- A reference to a definition that is a variable has the name of the definition. -/
theorem qualify_varName? {owner? : Option ModuleId} {used : String}
    (found : (context.qualify owner? name).varName? = some used) : used = name := by
  unfold qualify at found
  split at found
  · split at found
    · cases found
    · exact (Option.some.inj found).symm
  · exact (Option.some.inj found).symm

/-- A reference to a definition that is a property is one of a definition of another module. -/
theorem qualify_selectedFrom? {owner? : Option ModuleId} {used : String}
    (found : (context.qualify owner? name).selectedFrom? = some used) :
    ∃ id, owner? = some id ∧ id ≠ context.home ∧ context.config.moduleKind ≠ .script ∧
      used = context.naming.internalImport id := by
  unfold qualify at found
  split at found
  · next id =>
    split at found
    · next foreign => exact ⟨id, rfl, foreign.1, foreign.2, (Option.some.inj found).symm⟩
    · cases found
  · cases found

/-- A reference to a definition of another module goes through the import of the module. -/
theorem qualify_foreign {id : ModuleId} (foreign : id ≠ context.home)
    (modular : context.config.moduleKind ≠ .script) :
    context.qualify (some id) name =
      .dotSelect (.varRef (context.naming.internalImport id)) name :=
  if_pos ⟨foreign, modular⟩

/-- A path of properties starts at what it is selected from. -/
theorem base?_of_foldl_propSelect {path : List String} {start : Tree}
    (found : (path.foldl context.propSelect start).base? = some name) :
    start.base? = some name := by
  induction path generalizing start with
  | nil => exact found
  | cons head rest ih =>
    have first := ih found
    have step : (context.propSelect start head).base? = start.varName? := by
      unfold propSelect
      split <;> rfl
    exact Tree.base?_of_varName? (step.symm.trans first)

/-- A class of the host is found by a name that is taken from there, or from an external import. -/
theorem loadNative_base? (known : (context.index.nativeLoadSpec? owner).isSome = true)
    (found : (context.loadNative owner).value.base? = some name)
    (imported : Naming.looksImported name) :
    name ∈ HostNames.ofNative context.config context.index owner := by
  have source (text : String) : ¬Naming.looksImported (context.naming.externalImport text) :=
    mt (context.naming.plainName_looksImported text (by decide)).1 (by decide)
  obtain ⟨spec, given⟩ := Option.isSome_iff_exists.1 known
  unfold loadNative at found
  unfold HostNames.ofNative
  rw [given] at found ⊢
  have whole (start : (context.hostRef "globalThis").value.base? = some name) :
      name ∈ HostNames.ofPath [] :=
    List.mem_singleton.2 (Option.some.inj start).symm
  have below (first : String) (rest : List String)
      (selected : ((context.hostRef first).map (rest.foldl context.propSelect)).value.base? =
        some name) : name ∈ HostNames.ofPath (first :: rest) :=
    List.mem_singleton.2 (Option.some.inj (base?_of_foldl_propSelect selected)).symm
  cases spec with
  | fromGlobal path =>
    cases path with
    | nil => exact whole found
    | cons first rest => exact below first rest found
  | fromModule text path =>
    dsimp only at found ⊢
    split at found
    · next script =>
      rw [if_pos script]
      cases path with
      | nil => exact whole found
      | cons first rest => exact below first rest found
    · have start := Option.some.inj (base?_of_foldl_propSelect found)
      exact absurd imported (start ▸ source text)

end References

/-- Only a reference is lowered to one, apart from blocks. -/
theorem isReference_of_lower {expr : Expr} (other : ∀ statements, expr ≠ .block statements)
    (reference : (context.lower scope expr).value.isReference = true) :
    expr.isReference = true := by
  cases expr with
  | block statements => exact absurd rfl (other statements)
  | this | localVar _ | globalRef _ | loadJsConstructor _ | select _ _ | selectStatic _ _
  | jsSelect _ _ => rfl
  | literal value => cases value <;> cases reference
  | applySuper method args =>
    exact absurd (Js.Tree.isReference_of_isCall (context.superCall_isCall scope method _))
      (ne_false_of_eq_true reference)
  | new owner ctor args =>
    exact absurd (Js.Tree.isReference_of_isCall (context.newInstance_isCall owner ctor _))
      (ne_false_of_eq_true reference)
  | isInstanceOf value owner =>
    exact absurd (Js.Tree.isReference_of_isCall (context.instanceTest_isCall owner _))
      (ne_false_of_eq_true reference)
  | _ => cases reference

/-- A class that is no definition of the program is found by a name that is taken from the host, or
from an external import. -/
theorem loadJsConstructor_base? {owner : ClassName} {name : String}
    (other : context.definition? (.loadJsConstructor owner) = none)
    (found : (context.loadJsConstructor owner).value.base? = some name)
    (imported : Naming.looksImported name) :
    name ∈ HostNames.ofClass context.config context.index owner := by
  have native : context.index.kind? owner = some .nativeJsClass ∧
      (context.index.nativeLoadSpec? owner).isSome := by
    by_contra own
    rw [definition?, if_neg own] at other
    cases other
  rw [HostNames.ofClass, if_pos native.1]
  rw [loadJsConstructor, if_pos native.1] at found
  exact loadNative_base? native.2 found imported

section Usual

variable (usual : scope.receiver = .this ∨ scope.receiver = .varRef receiverParam)
  {expr : Expr} {name : String}

include usual

/-- An expression that is lowered to a reference holds a reference that is lowered to the same, and
apart from it only empty statements. -/
theorem exists_reference (reference : (context.lower scope expr).value.isReference = true) :
    ∃ statement : Expr, expr.flat = [statement] ∧ statement.Inside expr ∧
      statement.isReference = true ∧
      (context.lower scope expr).value = (context.lower scope statement).value := by
  have receiver : scope.receiver.isOwn = true := by
    rcases usual with same | same <;> rw [same] <;> rfl
  obtain ⟨statement, single⟩ :=
    exists_flat_of_isOwn receiver (Js.Tree.isOwn_of_isReference reference)
  have among : statement ∈ expr.flat := by
    rw [single]
    exact List.mem_singleton_self _
  have same : (context.lower scope expr).value = (context.lower scope statement).value :=
    lower_of_flat single (flat_isOwn receiver expr statement among)
  rw [same] at reference
  exact ⟨statement, single, Expr.inside_of_mem_flat among,
    isReference_of_lower (Expr.of_mem_flat among).2 reference, same⟩

/-- An expression that is lowered to a variable that looks imported writes the name of it. -/
theorem lower_varName? (found : (context.lower scope expr).value.varName? = some name)
    (imported : Naming.looksImported name) :
    ∃ sub : Expr, sub.Inside expr ∧ context.Writes name sub := by
  obtain ⟨statement, -, inside, shape, same⟩ :=
    exists_reference usual (Js.Tree.isReference_of_varName? found)
  rw [same] at found
  refine ⟨statement, inside, ?_⟩
  cases defined : context.definition? statement with
  | some definition =>
    rw [lower_definition defined] at found
    rw [qualify_varName? found] at imported
    exact absurd imported (definition?_not_looksImported defined)
  | none =>
    cases statement with
    | this =>
      change scope.receiver.varName? = some name at found
      rcases usual with receiver | receiver <;> rw [receiver] at found
      · cases found
      · rw [← Option.some.inj found] at imported
        exact absurd imported (by decide)
    | localVar other =>
      obtain rfl := Option.some.inj found
      exact .localVar
    | globalRef other =>
      obtain rfl := Option.some.inj found
      exact .taken .globalRef
    | loadJsConstructor owner =>
      exact .taken (.loaded (loadJsConstructor_base? defined
        (Js.Tree.base?_of_varName? found) imported))
    | jsSelect qualifier property =>
      have reference : (context.propSelect (context.lower scope qualifier).value
        property).varName? = some name := found
      unfold propSelect at reference
      split at reference <;> cases reference
    | select qualifier field => cases found
    | selectStatic owner field => cases defined
    | _ => cases shape

/-- A place that is lowered to a property of a variable that looks imported is a definition of
another module, or writes the name of the variable. -/
theorem lower_selectedFrom? (found : (context.lower scope expr).value.selectedFrom? = some name)
    (imported : Naming.looksImported name) :
    (∃ sub : Expr, sub.Inside expr ∧ context.Writes name sub) ∨
      ∃ id item, context.ForeignPlace expr id item ∧
        name = context.naming.internalImport id := by
  obtain ⟨statement, single, inside, shape, same⟩ :=
    exists_reference usual (Js.Tree.isReference_of_selectedFrom? found)
  rw [same] at found
  cases defined : context.definition? statement with
  | some definition =>
    rw [lower_definition defined] at found
    obtain ⟨id, owned, foreign, modular, binding⟩ := qualify_selectedFrom? found
    exact .inr ⟨id, definition.2,
      ⟨statement, definition.1, single, defined, owned, foreign, modular⟩, binding⟩
  | none =>
    -- Apart from definitions, what a property is selected from is written in the place itself.
    refine .inl ?_
    have written {qualifier : Expr} (child : statement.children = [qualifier])
        (used : (context.lower scope qualifier).value.varName? = some name) :
        ∃ sub : Expr, sub.Inside expr ∧ context.Writes name sub := by
      obtain ⟨sub, deeper, writes⟩ := lower_varName? usual used imported
      have among : qualifier ∈ statement.children := by
        rw [child]
        exact List.mem_singleton_self _
      exact ⟨sub, (deeper.child among).trans inside, writes⟩
    cases statement with
    | this =>
      change scope.receiver.selectedFrom? = some name at found
      rcases usual with receiver | receiver <;> rw [receiver] at found <;> cases found
    | localVar other | globalRef other => cases found
    | select qualifier field => exact written rfl found
    | jsSelect qualifier property =>
      exact written rfl ((propSelect_selectedFrom? _ _).symm.trans found)
    | loadJsConstructor owner =>
      exact ⟨_, inside, .taken (.loaded (loadJsConstructor_base? defined
        (Js.Tree.base?_of_selectedFrom? found) imported))⟩
    | selectStatic owner field => cases defined
    | _ => cases shape

end Usual

/-- A definition of another module that is assigned to is a property of the import of the module. -/
theorem lower_foreignPlace {place : Expr} {id : ModuleId} {name : String}
    (foreign : context.ForeignPlace place id name) :
    (context.lower scope place).value =
      .dotSelect (.varRef (context.naming.internalImport id)) name := by
  obtain ⟨reference, owner, single, defined, owned, apart, modular⟩ := foreign
  have tree : (context.lower scope reference).value =
      .dotSelect (.varRef (context.naming.internalImport id)) name := by
    rw [lower_definition defined, classMemberRef, owned, qualify_foreign apart modular]
  rw [lower_of_flat single (by rw [tree]; rfl), tree]

/-- Whether a place is assigned to that a body names by a variable, or that is a definition of
another module. -/
def AssignsTo (context : Context) (place : Expr) (target : Tree) (name : String) : Prop :=
  (∃ sub : Expr, sub.Inside place ∧ context.Writes name sub) ∨
    ∃ id item, context.ForeignPlace place id item ∧ context.naming.internalImport id = name ∧
      target = .dotSelect (.varRef name) item

/-- The rule that a property of a variable is assigned to by some bodies only, in places that they
name by the variable or that are definitions of other modules. -/
def importRule (context : Context) (bodies : List Expr) (name : String) : NodeRule where
  block _ := True
  assign target _ := target.selectedFrom? = some name → ∃ body ∈ bodies, ∃ place value,
    (Expr.assign place value).Inside body ∧ context.AssignsTo place target name

variable {bodies : List Expr} {name : String} (imported : Naming.looksImported name)

include imported

/-- Generation itself keeps the rule. -/
theorem importRule_kept : (context.importRule bodies name).Kept where
  flatten _ holds := ((context.importRule bodies name).holds_ofStatements_of_free
    (fun _ => trivial)).2 holds
  assign _ _ apart found := absurd imported (apart name found)

/-- The bodies of the rule are as it allows. -/
theorem importRule_holds {body : Expr} (among : body ∈ bodies) :
    context.BodyHolds (context.importRule bodies name) body := by
  intro scope usual parent
  have receiver : (context.importRule bodies name).Holds scope.receiver.visited := by
    rcases usual with same | same <;> rw [same] <;> simp [visited]
  refine lower_holds_of_free (fun _ => trivial) ⟨receiver, parent⟩ (fun sub inside => ?_)
  cases sub with
  | assign place value =>
    intro found
    refine ⟨body, among, place, value, inside, ?_⟩
    rcases lower_selectedFrom? usual found imported with written | ⟨id, item, foreign, rfl⟩
    · exact .inl written
    · exact .inr ⟨id, item, foreign, rfl, lower_foreignPlace foreign⟩
  | _ => trivial

end Lowering.Context

/-- The variable of an imported module looks like an import. -/
theorem Naming.looksImported_internalImport (naming : Naming) (id : ModuleId) :
    looksImported (naming.internalImport id) :=
  (naming.plainName_looksImported id.text (by decide)).2 (by decide)

/-- Whether the code of a module assigns to properties of its imports where its bodies do, and only
there. -/
structure Module.AssignsImports (setting : Setting) (naming : Naming) (context : Context)
    (unit : Module) (pieces : ModulePieces) : Prop where
  /-- Such an assignment comes from a body of the module, and assigns to a definition of another
  module, unless the body itself names what looks like an import. -/
  source : ∀ id target value,
    .assign target value ∈ visitedAll (pieces.output setting naming).trees →
    target.selectedFrom? = some (naming.internalImport id) →
    ∃ body ∈ unit.bodies, ∃ place stored, (Expr.assign place stored).Inside body ∧
      context.AssignsTo place target (naming.internalImport id)
  /-- An emitted body that assigns to a definition of another module leads to one. -/
  emitted : ∀ body ∈ pieces.bodies setting.config, ∀ place value,
    (Expr.assign place value).Inside body → ∀ id item, context.ForeignPlace place id item →
    ∃ stored, .assign (.dotSelect (.varRef (naming.internalImport id)) item) stored ∈
      visitedAll (pieces.output setting naming).trees

section FirstRuns

variable {setting : Setting} {program : Program} {unit : Module}

/-- In a first run a module assigns to properties of its imports where its bodies do. -/
theorem ModulePieces.MadeFor.assignsImports {pieces : ModulePieces} (naming : Naming)
    (checked : program.Checked) (placed : unit ∈ program.modules)
    (made : pieces.MadeFor setting [program] program unit) :
    unit.AssignsImports setting naming (setting.context naming (program.site unit)) pieces where
  source id target value found selected := by
    have imported := naming.looksImported_internalImport id
    let context := setting.context naming (program.site unit)
    have rule : (context.importRule unit.bodies (naming.internalImport id)).Holds _ :=
      made.output_holds (Context.importRule_kept imported) checked placed
        (fun body among => Context.importRule_holds imported among)
    exact rule _ found selected
  emitted body among place value inside id item foreign := by
    obtain ⟨scope, reached⟩ := (made.emits naming checked placed among).subterm
    have property : ((setting.context naming (program.site unit)).lower scope place).value =
        .dotSelect (.varRef (naming.internalImport id)) item :=
      Context.lower_foreignPlace foreign
    refine ⟨((setting.context naming (program.site unit)).lower scope value).value, ?_⟩
    rw [← property]
    exact reached _ inside rfl

end FirstRuns

/-- In an emission by a new emitter, with any module system, the code of every module assigns to
properties of its imports where its bodies do: wherever these assign to definitions of other
modules, and else only in places where they write the local name of an import. -/
theorem Emitter.emit_importAssignments (setting : Setting) (supply : TokenSupply)
    (program : Program) {given : EmitResult} {reached : Emitter}
    (done : Emitter.emit program (fresh setting supply) = .ok given reached) :
    ∃ parts : Module → ModulePieces,
      given.modules.Perm (program.modules.map
        (fun unit => (parts unit).output setting reached.session.naming)) ∧
      ∀ unit ∈ program.modules, (parts unit).MadeFor setting [program] program unit ∧
        unit.AssignsImports setting reached.session.naming
          (setting.context reached.session.naming (program.site unit)) (parts unit) := by
  obtain ⟨checked, parts, modules, made⟩ := emit_fresh_parts done
  exact ⟨parts, modules, fun unit placed =>
    ⟨made unit placed, (made unit placed).assignsImports _ checked placed⟩⟩

/-- A module that exports a function which assigns to a static field of a library. -/
def resettingModule : Module :=
  { (Module.start ⟨"main"⟩).dependOn ⟨"lib"⟩ with
    isRoot := true
    classes := [.start .root .plain]
    topLevelExports := [
      ⟨"reset", .method [] (.assign (.selectStatic ⟨"lib.B"⟩ ⟨"count"⟩) (.literal (.int 0))),
        firstVersion⟩] }

/-- A program of the module and the library. -/
def resettingProgram : Program :=
  ⟨[resettingModule,
    (Module.start ⟨"lib"⟩).addClass
      { ((LinkedClass.start ⟨"lib.B"⟩ .plain).extend .root).addField ⟨"count"⟩ .int true with
        hasInstances := true }]⟩

/-- The context of the module in the program, with modules of the language. -/
def resettingContext (naming : Naming) : Context :=
  ⟨{ Config.standard with moduleKind := .esModule }, naming, .ofProgram resettingProgram,
    .standard, ⟨"main"⟩⟩

/-- The static field of the imported class is a foreign place. -/
theorem resettingContext_foreignPlace (naming : Naming) :
    (resettingContext naming).ForeignPlace (.selectStatic ⟨"lib.B"⟩ ⟨"count"⟩) ⟨"lib"⟩
      (naming.staticField ⟨"lib.B"⟩ ⟨"count"⟩) := by
  have owned : (ClassIndex.ofProgram resettingProgram).owner? ⟨"lib.B"⟩ = some ⟨"lib"⟩ := by
    decide +kernel
  have apart : (⟨"lib"⟩ : ModuleId) ≠ ⟨"main"⟩ := by decide
  exact ⟨_, ⟨"lib.B"⟩, rfl, rfl, owned, apart, ModuleKind.noConfusion⟩

/-- The exported function assigns to a property of the import of the library. -/
theorem Emitter.emit_importAssignments_resetting : ∃ given reached,
    let setting : Setting := ⟨{ Config.standard with moduleKind := .esModule }, .standard⟩
    let naming := reached.session.naming
    Emitter.emit resettingProgram (.fresh setting default) = .ok given reached ∧
    ∃ parts : Module → ModulePieces,
      given.modules.Perm
        (resettingProgram.modules.map (fun unit => (parts unit).output setting naming)) ∧
      (∀ unit ∈ resettingProgram.modules,
        (parts unit).MadeFor setting [resettingProgram] resettingProgram unit ∧
        unit.AssignsImports setting naming
          (setting.context naming (resettingProgram.site unit)) (parts unit)) ∧
      ∃ stored, .assign (.dotSelect (.varRef (naming.internalImport ⟨"lib"⟩))
          (naming.staticField ⟨"lib.B"⟩ ⟨"count"⟩)) stored ∈
        visitedAll ((parts resettingModule).output setting naming).trees := by
  have accepted : (Emitter.fresh ⟨{ Config.standard with moduleKind := .esModule }, .standard⟩
      default).check resettingProgram = .ok () := by decide +kernel
  have checked := Program.validate_eq_ok_iff.1 (Emitter.validate_of_check accepted)
  obtain ⟨given, reached, done⟩ := Emitter.emit_fresh_ok _ default accepted (by decide)
  obtain ⟨parts, modules, each⟩ :=
    Emitter.emit_importAssignments _ default resettingProgram done
  have main : resettingModule ∈ resettingProgram.modules := List.mem_cons_self
  obtain ⟨made, assigns⟩ := each resettingModule main
  have body : .assign (.selectStatic ⟨"lib.B"⟩ ⟨"count"⟩) (.literal (.int 0)) ∈
      (parts resettingModule).bodies { Config.standard with moduleKind := .esModule } := by
    refine List.mem_append_right _ ?_
    rw [made.topLevelExports.requested.own_topLevelExports checked main]
    exact List.mem_singleton_self _
  exact ⟨given, reached, done, parts, modules, each, assigns.emitted _ body _ _ .refl ⟨"lib"⟩ _
    (resettingContext_foreignPlace reached.session.naming)⟩

/-- The program is valid, and with modules of the language its exported function assigns to a
property of an imported namespace. -/
theorem Lowering.Context.topLevelExports_assign_import :
    let context := resettingContext ⟨∅⟩
    resettingProgram.validate = .ok () ∧ context.config.moduleKind = .esModule ∧
      ⟨"lib"⟩ ∈ context.importedModules resettingModule ∧
      ∃ item stored,
        .assign (.dotSelect (.varRef (context.naming.internalImport ⟨"lib"⟩)) item) stored ∈
          visitedAll (context.topLevelExports resettingModule.topLevelExports).value := by
  intro context
  have depends : ⟨"lib"⟩ ∈ resettingModule.internalDependencies := SortedSet.mem_insert.2 (.inl rfl)
  have emits : context.Emits (.assign (.selectStatic ⟨"lib.B"⟩ ⟨"count"⟩) (.literal (.int 0)))
      (context.topLevelExports resettingModule.topLevelExports).value :=
    topLevelExports_emits _ (List.mem_singleton_self _)
  obtain ⟨scope, reached⟩ := emits.subterm
  have property : (context.lower scope (.selectStatic ⟨"lib.B"⟩ ⟨"count"⟩)).value = _ :=
    lower_foreignPlace (resettingContext_foreignPlace context.naming)
  refine ⟨by decide +kernel, rfl, mem_importedModules_of_dependency depends,
    context.naming.staticField ⟨"lib.B"⟩ ⟨"count"⟩, .int 0, ?_⟩
  rw [← property]
  exact reached _ .refl rfl

end JsEmitter
