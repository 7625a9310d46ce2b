import JsEmitter.Proofs.HostNames

/-!
# Host names of pieces

The host names of every piece, and from them those of a whole module. `ModulePieces.output_refs`
says that a module records exactly the tracked ones among the names that its pieces use: nothing
is lost on the way through the parts of a class, the classes and the module.
-/
namespace JsEmitter

open Js (Tree)
open Lowering (Context Scope ConstructorParts Bootstrap)

namespace Lowering.Context

open HostNames

variable (context : Context)

/-- A reference to the parent of a class records its host names. -/
theorem parentRef_refs (linked : LinkedClass) :
    (context.parentRef linked).refs =
      context.recorded (ofParent context.config context.index linked) := by
  unfold parentRef ofParent
  change Tracked.refs (if HostNames.extendsHostError context.config linked then _ else _) = _
  split
  · simp
  · split
    · cases linked.jsSuperClass? with
      | some expr => simp [lower_refs]
      | none => cases linked.superClass? <;> simp [loadJsConstructor_refs]
    · rfl

/-- A class has a reference to a parent if it has a parent. -/
theorem parentRef_isSome (linked : LinkedClass) :
    (context.parentRef linked).value.isSome = hasParent context.config linked := by
  unfold parentRef hasParent
  change Option.isSome (Tracked.value
    (if HostNames.extendsHostError context.config linked then _ else _)) = _
  by_cases host : HostNames.extendsHostError context.config linked = true
  · simp [host]
  · simp only [host, Bool.false_eq_true, if_false, Bool.false_or]
    by_cases foreign : linked.kind.isJsClass = true
    · simp only [foreign, if_true, Bool.true_and]
      cases linked.jsSuperClass? with
      | some expr => simp
      | none => cases linked.superClass? <;> simp
    · simp [foreign]

/-- The scope of members records the host names of the parent. -/
@[simp] theorem memberScope_refs (linked : LinkedClass) :
    (context.memberScope linked).refs =
      context.recorded (ofParent context.config context.index linked) :=
  context.parentRef_refs linked

/-- The scope of members has a parent if the class has one. -/
@[simp] theorem memberScope_parent (linked : LinkedClass) :
    (context.memberScope linked).value.parent?.isSome = hasParent context.config linked :=
  context.parentRef_isSome linked

/-- A free function records the host names of its body, and of the parent of the class. -/
theorem freeFunction_refs (linked : LinkedClass) (method : MethodDef) :
    (context.freeFunction linked method).refs =
      context.recorded (ofMethod context.config context.index linked method) := by
  simp [freeFunction, ofMethod, parentRef_refs, lower_refs]

/-- A member method records the host names of its body, and of the parent of the class. -/
theorem memberMethod_refs (linked : LinkedClass) (method : MethodDef) :
    (context.memberMethod linked method).refs =
      context.recorded (ofMethod context.config context.index linked method) := by
  simp [memberMethod, ofMethod, lower_refs]

/-- Arguments of a super call record their host names if there is a parent. -/
theorem superArgs_refs (scope : Scope) (args : List Expr) :
    (context.superArgs scope args).refs = context.recorded
      (if scope.parent?.isSome then ofExprs context.config context.index args else []) := by
  unfold superArgs
  cases scope.parent? <;> simp [lowerAll_refs]

/-- The constructor of a foreign class records the host names of its expressions. -/
theorem jsConstructorParts_refs (linked : LinkedClass) (ctor : JsConstructorDef) :
    (context.jsConstructorParts linked ctor).refs =
      context.recorded (ofJsConstructor context.config context.index linked ctor) := by
  simp [jsConstructorParts, ofJsConstructor, lowerAll_refs, superArgs_refs]

/-- The constructor of an ordinary class records the host names of the inlined body. -/
theorem plainConstructorParts_refs (linked : LinkedClass) :
    (context.plainConstructorParts linked).refs =
      context.recorded (ofPlainConstructor context.config context.index linked) := by
  unfold plainConstructorParts ofPlainConstructor inlinedBody? inlinedConstructor?
  by_cases inlines : context.index.inlinesConstructor linked.name = true
  · cases linked.constructors.head? <;> simp [inlines, ofElse, lower_refs]
  · simp [inlines, ofElse]

/-- An ordinary constructor has a parent if the class has one. -/
theorem plainConstructorParts_parent (linked : LinkedClass) :
    (context.plainConstructorParts linked).value.parent?.isSome =
      hasParent context.config linked := by
  unfold plainConstructorParts
  cases context.inlinedConstructor? linked <;> exact context.parentRef_isSome linked

/-- An exported member records the host names of its bodies. -/
theorem exportedMember_refs (linked : LinkedClass) (member : ExportedMember) :
    (context.exportedMember linked member).refs =
      context.recorded (ofExportedMember context.config context.index linked member) := by
  cases member with
  | method name isStatic params body =>
    simp [exportedMember, ofExportedMember, lower_refs]
  | property name isStatic getter? setter? =>
    by_cases modern : context.config.classSyntax = true <;>
      cases getter? <;> cases setter? <;>
        simp [exportedMember, ofExportedMember, lowerGetter, lowerSetter, lower_refs, ofElse,
          definedProperty, modern]

/-- A module accessor records the host names of the class that it creates. -/
theorem moduleAccessor_refs (linked : LinkedClass) :
    (context.moduleAccessor linked).refs =
      context.recorded (ofClass context.config context.index linked.name) := by
  simp [moduleAccessor, newInstance_refs]

/-- Imports record their host names. -/
theorem imports_refs (unit : Module) :
    (context.imports unit).refs =
      context.recorded (ofImports context.config context.index unit) := by
  unfold imports ofImports
  cases kind : context.config.moduleKind with
  | script => simp
  | esModule =>
    have none : ∀ binding ∈ context.importBindings unit,
        (context.importStatement binding.1 binding.2).refs = context.recorded [] := by
      simp [importStatement, kind]
    exact (Tracked.mapM_refs none).trans (congrArg context.recorded (by simp))
  | commonJs =>
    have one : ∀ binding ∈ context.importBindings unit,
        (context.importStatement binding.1 binding.2).refs = context.recorded ["require"] := by
      simp [importStatement, kind]
    have all := Tracked.mapM_refs one
    simp only [reduceCtorEq, if_false, if_true]
    refine all.trans (congrArg context.recorded ?_)
    rw [← List.map_eq_flatMap]
    simp only [importBindings, importedModules, List.map_append, List.map_map]
    rfl

/-- An export records its host names. -/
theorem topLevelExport_refs (entry : TopLevelExport) :
    (context.topLevelExport entry).refs =
      context.recorded (ofExport context.config context.index entry) := by
  unfold topLevelExport exportValue ofExport
  cases entry.kind <;> cases kind : context.config.moduleKind <;> simp [lower_refs]

/-- Exports record their host names in turn. -/
theorem topLevelExports_refs (entries : List TopLevelExport) :
    (context.topLevelExports entries).refs =
      context.recorded (entries.flatMap (ofExport context.config context.index)) :=
  Tracked.mapM_refs (fun entry _ => context.topLevelExport_refs entry)

/-- The bootstrap library uses the constructor of type errors. -/
theorem bootstrap_refs : context.bootstrap.refs = context.recorded ["TypeError"] := by
  simp [bootstrap, castFailure]

/-- A class definition of its own uses a host name only for a foreign class with a parent and
without class syntax. -/
theorem fullClass_refs (linked : LinkedClass) (ctor : ConstructorParts) (members : List Tree)
    (exported : List (List Tree)) :
    (context.fullClass linked ctor members exported).refs = context.recorded
      (if !context.config.classSyntax && linked.kind.isJsClass && ctor.parent?.isSome
        then ["Object"] else []) := by
  unfold fullClass
  by_cases modern : context.config.classSyntax = true
  · simp [modern]
  · cases parent : ctor.parent? with
    | none => simp [modern, prototypeDefinition, prototypeLink, parent]
    | some tree =>
      by_cases foreign : linked.kind.isJsClass = true
      · simp [modern, prototypeDefinition, prototypeLink, parent, prototypeValue, foreign]
      · simp only [modern, prototypeDefinition, prototypeLink, parent, prototypeValue, foreign]
        cases linked.superClass? <;> simp

end Lowering.Context

namespace Piece

open HostNames

/-- The host names that a piece uses. -/
def hosts (config : Config) : {kind : PieceKind} → Piece kind → List String
  | _, .function site linked method | _, .member site linked method =>
    ofMethod config site.index linked method
  | _, .bridge _ _ => []
  | _, .jsConstructor site linked ctor => ofJsConstructor config site.index linked ctor
  | _, .plainConstructor site linked => ofPlainConstructor config site.index linked
  | _, .exportedMember site linked entry => ofExportedMember config site.index linked entry
  | _, .shell site linked part => ofShellPart config site.index linked part
  | _, .imports site unit => ofImports config site.index unit
  | _, .topLevelExports site entries => entries.flatMap (ofExport config site.index)
  | _, .initializers _ _ => []
  | _, .library _ => ["TypeError"]

/-- Whether a constructor is of a class with a parent. -/
def hasParent (config : Config) : Piece .ctor → Bool
  | .jsConstructor _ linked _ | .plainConstructor _ linked => HostNames.hasParent config linked

end Piece

namespace Setting

variable (setting : Setting)

/-- The recorded ones among some host names. -/
def recorded (names : List String) : HostRefs :=
  .ofList (names.filter (fun name => setting.config.tracking.tracks setting.filter name))

/-- A context records the names that its setting records. -/
theorem recorded_context (naming : Naming) (site : Site) (names : List String) :
    (setting.context naming site).recorded names = setting.recorded names := rfl

/-- Of a concatenation, the names of both parts are recorded. -/
@[simp] theorem recorded_append (left right : List String) :
    setting.recorded (left ++ right) = setting.recorded left ∪ setting.recorded right := by
  ext name
  simp [recorded]

/-- Of no names, none is recorded in a setting. -/
@[simp] theorem recorded_nil : setting.recorded [] = ∅ := rfl

end Setting

variable (setting : Setting) (naming : Naming)

/-- A piece records the tracked ones among the host names that it uses. -/
theorem Piece.run_refs {kind : PieceKind} (piece : Piece kind) :
    (piece.run setting naming).refs = setting.recorded (piece.hosts setting.config) := by
  cases piece with
  | function site linked method => exact Context.freeFunction_refs _ linked method
  | member site linked method => exact Context.memberMethod_refs _ linked method
  | bridge site method => rfl
  | jsConstructor site linked ctor => exact Context.jsConstructorParts_refs _ linked ctor
  | plainConstructor site linked => exact Context.plainConstructorParts_refs _ linked
  | exportedMember site linked entry => exact Context.exportedMember_refs _ linked entry
  | shell site linked part =>
    cases part with
    | moduleAccessor => exact Context.moduleAccessor_refs _ linked
    | _ => rfl
  | imports site unit => exact Context.imports_refs _ unit
  | topLevelExports site entries => exact Context.topLevelExports_refs _ entries
  | initializers site calls => rfl
  | library site => exact Context.bootstrap_refs _

/-- A constructor has a parent whatever definitions are called. -/
theorem Piece.run_parent (piece : Piece .ctor) :
    (piece.run setting naming).value.parent?.isSome = piece.hasParent setting.config := by
  cases piece with
  | jsConstructor site linked ctor => exact (setting.context naming site).parentRef_isSome linked
  | plainConstructor site linked =>
    exact (setting.context naming site).plainConstructorParts_parent linked

namespace Definition

/-- The host names that the definition uses besides those of its pieces. -/
def ownHosts (config : Config) (definition : Definition) : List String :=
  if !config.classSyntax && definition.linked.kind.isJsClass && definition.ctor.hasParent config
    then ["Object"] else []

/-- The host names that a class definition uses. -/
def hosts (config : Config) (definition : Definition) : List String :=
  definition.ctor.hosts config ++ definition.members.flatMap (Piece.hosts config) ++
    definition.exported.flatMap (Piece.hosts config) ++ definition.ownHosts config

/-- A class definition of its own records its own host names. -/
theorem run_refs (definition : Definition) :
    (definition.run setting naming).refs =
      setting.recorded (definition.ownHosts setting.config) := by
  unfold run ownHosts
  rw [Context.fullClass_refs, Piece.run_parent]
  rfl

/-- A class definition with its parts records all its host names. -/
theorem whole_refs (definition : Definition) :
    (definition.whole setting naming).refs =
      setting.recorded (definition.hosts setting.config) := by
  unfold whole hosts
  rw [Piece.run_refs, run_refs,
    Tracked.list_refs (setting.context naming definition.site)
      (fun piece _ => Piece.run_refs setting naming piece),
    Tracked.list_refs (setting.context naming definition.site)
      (fun piece _ => Piece.run_refs setting naming piece)]
  simp [Setting.recorded_context, SortedSet.union_assoc]

end Definition

end JsEmitter
