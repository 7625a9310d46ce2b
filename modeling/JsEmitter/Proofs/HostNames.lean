import JsEmitter.Proofs.Pieces

/-!
# Host names of generated code

Which host names a generator refers to is decided by the part of the program that it lowers, the
kinds of the classes and the places of native classes; neither the naming scheme nor the filter
has a say. The functions here read these names off the program, and the theorems say that the
names recorded with generated code are exactly those of them that are tracked.
-/
namespace JsEmitter

open Js (Tree)
open Lowering (Context Scope ConstructorParts Bootstrap)

/-- The recorded ones among some host names. -/
def Lowering.Context.recorded (context : Context) (names : List String) : HostRefs :=
  .ofList (names.filter (fun name => context.config.tracking.tracks context.filter name))

namespace Lowering.Context

variable (context : Context)

/-- Of no names, none is recorded. -/
@[simp] theorem recorded_nil : context.recorded [] = ∅ := rfl

/-- Names of a concatenation are recorded part by part. -/
@[simp] theorem recorded_append (left right : List String) :
    context.recorded (left ++ right) = context.recorded left ∪ context.recorded right := by
  ext name
  simp [recorded]

/-- A reference to a host name records this name. -/
@[simp] theorem hostRef_refs (name : String) :
    (context.hostRef name).refs = context.recorded [name] := by
  ext other
  unfold hostRef recorded
  by_cases tracked : context.config.tracking.tracks context.filter name <;>
    simp [tracked]

end Lowering.Context

namespace Tracked

variable {α β : Type}

/-- The values of a run over items are those of its steps. -/
@[simp] theorem mapM_value (items : List α) (run : α → Tracked β) :
    (items.mapM run).value = items.map (fun item => (run item).value) := by
  induction items with
  | nil => rfl
  | cons head rest ih => simp [List.mapM_cons, ih]

/-- The value of a list of tracked values is the list of their values. -/
@[simp] theorem list_value (items : List (Tracked α)) :
    (list items).value = items.map Tracked.value :=
  mapM_value items id

/-- An untracked value uses no host name. -/
@[simp] theorem untracked_refs (value : α) : (untracked value).refs = ∅ := rfl

/-- Changing a tracked value changes no host names. -/
@[simp] theorem map_refs' (transform : α → β) (tracked : Tracked α) :
    (tracked.map transform).refs = tracked.refs := rfl

/-- Changing a tracked value applies the function to the value. -/
@[simp] theorem map_value' (transform : α → β) (tracked : Tracked α) :
    (tracked.map transform).value = transform tracked.value := rfl

/-- The names of a list of values are those of its elements. -/
theorem mapM_refs {context : Context} {items : List α} {run : α → Tracked β}
    {hosts : α → List String}
    (each : ∀ item ∈ items, (run item).refs = context.recorded (hosts item)) :
    (items.mapM run).refs = context.recorded (items.flatMap hosts) := by
  induction items with
  | nil => rfl
  | cons head rest ih =>
    have others := ih (fun item found => each item (List.mem_cons_of_mem _ found))
    simp [List.mapM_cons, others, each head List.mem_cons_self]

/-- The names of a list of values are those of its elements. -/
theorem list_refs (context : Context) {items : List α} {run : α → Tracked β}
    {hosts : α → List String}
    (each : ∀ item ∈ items, (run item).refs = context.recorded (hosts item)) :
    (list (items.map run)).refs = context.recorded (items.flatMap hosts) := by
  have same : list (items.map run) = items.mapM run := by simp [list]
  rw [same]
  exact mapM_refs each

end Tracked

namespace HostNames

variable (config : Config) (index : ClassIndex)

/-- The first name of a path from the global scope. -/
def ofPath (path : List String) : List String := [path.head?.getD "globalThis"]

/-- The names that the load of a native class uses. -/
def ofNative (owner : ClassName) : List String :=
  match index.nativeLoadSpec? owner with
  | some (.fromModule _ path) => if config.moduleKind = .script then ofPath path else []
  | some (.fromGlobal path) => ofPath path
  | none => []

/-- The names that the constructor of a foreign class uses. -/
def ofClass (owner : ClassName) : List String :=
  if index.kind? owner = some .nativeJsClass then ofNative config index owner else []

mutual

/-- The names that an expression uses. -/
def ofExpr : Expr → List String
  | .skip | .literal _ | .this | .localVar _ | .loadModule _ | .selectStatic _ _ => []
  | .globalRef name => [name]
  | .block statements => ofExprs statements
  | .varDef _ value | .ret value | .raise value | .unary _ value => ofExpr value
  | .select qualifier _ | .jsSelect qualifier _ => ofExpr qualifier
  | .assign target value => ofExpr target ++ ofExpr value
  | .branch cond thenBranch elseBranch? =>
    ofExpr cond ++ ofExpr thenBranch ++ ofElse elseBranch?
  | .apply receiver _ args => ofExpr receiver ++ ofExprs args
  | .applySuper _ args | .applyStatic _ _ args | .applyConstructor _ _ args => ofExprs args
  | .new owner _ args => ofExprs args ++ ofClass config index owner
  | .loadJsConstructor owner => ofClass config index owner
  | .jsCall function args => ofExpr function ++ ofExprs args
  | .binary _ left right => ofExpr left ++ ofExpr right
  | .isInstanceOf value _ | .asInstanceOf value _ => ofExpr value

/-- The names that a list of expressions uses. -/
def ofExprs : List Expr → List String
  | [] => []
  | head :: rest => ofExpr head ++ ofExprs rest

/-- The names that the second branch uses, if there is one. -/
def ofElse : Option Expr → List String
  | none => []
  | some expr => ofExpr expr

end

/-- Whether a class extends the error type of the host. -/
def extendsHostError (linked : LinkedClass) : Bool :=
  linked.name.isThrowable && config.classSyntax && linked.kind = .plain

/-- Whether a class extends anything. -/
def hasParent (linked : LinkedClass) : Bool :=
  extendsHostError config linked || (linked.kind.isJsClass && linked.jsSuperClass?.isSome) ||
    linked.superClass?.isSome

/-- The names that the parent of a class uses. -/
def ofParent (linked : LinkedClass) : List String :=
  if extendsHostError config linked then [hostErrorName]
  else if linked.kind.isJsClass then
    match linked.jsSuperClass?, linked.superClass? with
    | some expr, _ => ofExpr config index expr
    | none, some parent => ofClass config index parent
    | none, none => []
  else []

/-- The names that a method uses. -/
def ofMethod (linked : LinkedClass) (method : MethodDef) : List String :=
  ofParent config index linked ++ ofExpr config index method.body

/-- The names that the constructor of a foreign class uses. -/
def ofJsConstructor (linked : LinkedClass) (ctor : JsConstructorDef) : List String :=
  ofParent config index linked ++ ofExprs config index ctor.beforeSuper ++
    (if hasParent config linked then ofExprs config index ctor.superArgs else []) ++
    ofExprs config index ctor.afterSuper

/-- The body of the constructor that is part of a class definition, if there is one. -/
def inlinedBody? (linked : LinkedClass) : Option Expr :=
  if index.inlinesConstructor linked.name then
    linked.constructors.head?.map (fun ctor => ctor.value.body)
  else none

/-- The names that the constructor of an ordinary class uses. -/
def ofPlainConstructor (linked : LinkedClass) : List String :=
  ofParent config index linked ++ ofElse config index (inlinedBody? index linked)

/-- The names that an exported member uses. -/
def ofExportedMember (linked : LinkedClass) (member : ExportedMember) : List String :=
  ofParent config index linked ++
    match member with
    | .method _ _ _ body => ofExpr config index body
    | .property _ _ getter? setter? =>
      ofElse config index getter? ++ ofElse config index (setter?.map Prod.snd) ++
        (if config.classSyntax then [] else ["Object"])

/-- The names that a piece of a class uses that depends on it alone. -/
def ofShellPart (linked : LinkedClass) : ShellPart → List String
  | .moduleAccessor => ofClass config index linked.name
  | _ => []

/-- The names that the imports of a module use. -/
def ofImports (unit : Module) : List String :=
  if config.moduleKind = .commonJs then
    let internal := match index.rootModule? with
      | some root =>
        if root = unit.id then unit.internalDependencies else unit.internalDependencies.insert root
      | none => unit.internalDependencies
    internal.toList.map (fun _ => "require") ++
      unit.externalDependencies.toList.map (fun _ => "require")
  else []

/-- Imports use no other name than the function of the host that loads modules. -/
theorem eq_require_of_mem_ofImports {config : Config} {index : ClassIndex} {unit : Module}
    {name : String} (found : name ∈ ofImports config index unit) : name = "require" := by
  unfold ofImports at found
  split at found
  · rcases List.mem_append.1 found with found | found <;>
      obtain ⟨_, -, rfl⟩ := List.mem_map.1 found <;> rfl
  · cases found

/-- The names that an export of a module uses. -/
def ofExport (entry : TopLevelExport) : List String :=
  (match entry.kind with
    | .method _ body => ofExpr config index body
    | _ => []) ++
  (if config.moduleKind = .commonJs then ["exports"] else [])

end HostNames

namespace Lowering.Context

open HostNames

variable (context : Context)

/-- Loading a native class records the host names of its place. -/
theorem loadNative_refs (owner : ClassName) :
    (context.loadNative owner).refs =
      context.recorded (ofNative context.config context.index owner) := by
  unfold loadNative ofNative
  cases context.index.nativeLoadSpec? owner with
  | none => rfl
  | some spec =>
    cases spec with
    | fromGlobal path => cases path <;> simp [ofPath]
    | fromModule source path =>
      by_cases script : context.config.moduleKind = .script
      · cases path <;> simp [script, ofPath]
      · simp [script]

/-- Loading a foreign class records the host names of its place, if it is native. -/
theorem loadJsConstructor_refs (owner : ClassName) :
    (context.loadJsConstructor owner).refs =
      context.recorded (ofClass context.config context.index owner) := by
  unfold loadJsConstructor ofClass
  split
  · exact context.loadNative_refs owner
  · rfl

/-- Creating an instance records the host names of the class. -/
theorem newInstance_refs (owner : ClassName) (ctor : MethodName) (args : List Tree) :
    (context.newInstance owner ctor args).refs =
      context.recorded (ofClass context.config context.index owner) := by
  unfold newInstance ofClass
  cases known : context.index.kind? owner with
  | none => rfl
  | some kind => cases kind <;> simp [context.loadNative_refs]

mutual

/-- The code of an expression records the host names that are read off the expression. -/
theorem lower_refs (scope : Scope) : (expr : Expr) →
    (context.lower scope expr).refs = context.recorded (ofExpr context.config context.index expr)
  | .skip | .literal _ | .this | .localVar _ | .loadModule _ | .selectStatic _ _ => by
    simp [lower, ofExpr]
  | .globalRef name => by simp [lower, ofExpr]
  | .block statements => by simp [lower, ofExpr, lowerAll_refs scope statements]
  | .varDef _ value | .ret value | .raise value | .unary _ value => by
    simp [lower, ofExpr, lower_refs scope value]
  | .select qualifier _ | .jsSelect qualifier _ => by
    simp [lower, ofExpr, lower_refs scope qualifier]
  | .assign target value => by
    simp [lower, ofExpr, lower_refs scope target, lower_refs scope value]
  | .branch cond thenBranch elseBranch? => by
    simp [lower, ofExpr, lower_refs scope cond, lower_refs scope thenBranch,
      lowerElse_refs scope elseBranch?]
  | .apply receiver _ args => by
    simp [lower, ofExpr, lower_refs scope receiver, lowerAll_refs scope args]
  | .applySuper _ args | .applyStatic _ _ args | .applyConstructor _ _ args => by
    simp [lower, ofExpr, lowerAll_refs scope args]
  | .new owner ctor args => by
    simp [lower, ofExpr, lowerAll_refs scope args, newInstance_refs]
  | .loadJsConstructor owner => by simp [lower, ofExpr, loadJsConstructor_refs]
  | .jsCall function args => by
    simp [lower, ofExpr, lower_refs scope function, lowerAll_refs scope args]
  | .binary _ left right => by
    simp [lower, ofExpr, lower_refs scope left, lower_refs scope right]
  | .isInstanceOf value _ | .asInstanceOf value _ => by
    simp [lower, ofExpr, lower_refs scope value]

/-- The code of expressions records the host names that are read off them. -/
theorem lowerAll_refs (scope : Scope) : (exprs : List Expr) →
    (context.lowerAll scope exprs).refs =
      context.recorded (ofExprs context.config context.index exprs)
  | [] => by simp [lowerAll, ofExprs]
  | head :: rest => by
    simp [lowerAll, ofExprs, lower_refs scope head, lowerAll_refs scope rest]

/-- The code of an optional expression records the host names that are read off it. -/
theorem lowerElse_refs (scope : Scope) : (expr? : Option Expr) →
    (context.lowerElse scope expr?).refs =
      context.recorded (ofElse context.config context.index expr?)
  | none => by simp [lowerElse, ofElse]
  | some expr => by simp [lowerElse, ofElse, lower_refs scope expr]

end

end Lowering.Context

end JsEmitter
