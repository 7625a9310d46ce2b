import JsEmitter.Proofs.ModuleSubjects
import JsEmitter.Proofs.PieceVariables

/-!
# Variables of modules

The parts of a module besides its classes use what generation adds by itself, the host names and the
local variables that the module writes, and definitions of the classes that it names.
-/
namespace JsEmitter

open Js (Tree)
open Lowering (Context Scope Bootstrap)

namespace TopLevelExport

/-- The classes that an export names. -/
def classes (entry : TopLevelExport) : List ClassName :=
  match entry.kind with
  | .method _ body => body.classes
  | kind => kind.referencedClass?.toList

/-- The names of variables that the code of an export writes. -/
def writtenNames (context : Context) (entry : TopLevelExport) : List String :=
  match entry.kind with
  | .method _ body => context.writtenNames body
  | _ => []

/-- The local variables that the code of an export reads or assigns. -/
def locals (entry : TopLevelExport) : List String :=
  match entry.kind with
  | .method _ body => body.locals
  | _ => []

end TopLevelExport

namespace Module

/-- The classes that a module names: those that its classes refer to, those of its exports and of
its calls at load time, and the root class. -/
def namedClasses (unit : Module) : List ClassName :=
  .root :: (unit.classes.flatMap (fun linked => linked.referencedClasses.toList) ++
    unit.topLevelExports.flatMap TopLevelExport.classes ++
    unit.initializers.map Initializer.owner)

/-- The names of variables that the code of a module writes: of the host, and of local variables. -/
def writtenNames (context : Context) (unit : Module) : List String :=
  unit.classes.flatMap (LinkedClass.writtenNames context) ++
    unit.topLevelExports.flatMap (TopLevelExport.writtenNames context)

end Module

/-- Whether the parts of the bootstrap library only use some names. -/
structure Lowering.Bootstrap.Within (names : String → Prop) (library : Bootstrap) : Prop where
  beforeRoot : ∀ tree ∈ library.beforeRoot, tree.Within names
  afterRoot : ∀ tree ∈ library.afterRoot, tree.Within names
  afterClasses : ∀ tree ∈ library.afterClasses, tree.Within names

namespace Lowering.Context

/-- Whether what a module names and writes is among some names. -/
structure ModuleWithin (context : Context) (names : String → Prop) (unit : Module) : Prop where
  allows : context.Allows names
  reached : ∀ owner ∈ unit.namedClasses, context.Reaches names owner
  written : ∀ name ∈ unit.writtenNames context, names name

variable {context : Context} {names : String → Prop}

section Library

variable (provides : context.naming.Provides names)

include provides

/-- The library before the root class uses permitted names. -/
theorem beforeRoot_within (host : names "TypeError") :
    ∀ tree ∈ context.bootstrap.value.beforeRoot, tree.Within names := by
  have value : names "instance" := provides.own _ (by decide)
  have type : names "classFullName" := provides.own _ (by decide)
  simp [bootstrap, castFailure, hostRef, host, value, type]

/-- The name of the constructor of type data is permitted. -/
theorem typeDataName_within : (Tree.varRef context.typeDataName).Within names :=
  Tree.within_varRef.2 provides.typeDataClass

/-- The methods of type data use permitted names. -/
theorem typeDataMethods_within :
    ∀ method ∈ typeDataMethods, method.body.Within names := by
  have name : names "name" := provides.own _ (by decide)
  have isInterface : names "isInterface" := provides.own _ (by decide)
  have ancestors : names "ancestors" := provides.own _ (by decide)
  have zero : names "zero" := provides.own _ (by decide)
  simp [typeDataMethods, setOwn, name, isInterface, ancestors, zero]

/-- The library after the root class uses permitted names. -/
theorem afterRoot_within :
    ∀ tree ∈ context.bootstrap.value.afterRoot, tree.Within names := by
  have constructor : typeDataConstructor.Within names := by simp [typeDataConstructor, setOwn]
  have type : (Tree.varRef context.typeDataName).Within names := typeDataName_within provides
  have value : names "x" := provides.own _ (by decide)
  have methods := typeDataMethods_within provides
  have root : (classTypeData (.varRef context.typeDataName) .root false [.root]).Within names :=
    classTypeData_within type _ _ _
  refine List.forall_mem_append.2 ⟨?_, ?_⟩
  · unfold typeDataDefinition
    split
    · simpa [constructor] using methods
    · simpa [constructor, Tree.within_varRef.1 type] using methods
  · simp [rootSupport, value, root]

/-- The library after the other classes uses permitted names. -/
theorem afterClasses_within :
    ∀ tree ∈ context.bootstrap.value.afterClasses, tree.Within names := by
  have type : names context.typeDataName := Tree.within_varRef.1 (typeDataName_within provides)
  simp [bootstrap, primitiveTypes, primitiveTypeData, type]

/-- The bootstrap library takes the error of a failed cast from the host. -/
theorem bootstrap_within (host : names "TypeError") : context.bootstrap.value.Within names :=
  ⟨beforeRoot_within provides host, afterRoot_within provides, afterClasses_within provides⟩

/-- The link of the root class to its type data uses permitted names. -/
theorem rootTypeDataLink_within : context.rootTypeDataLink.Within names := by
  have constructor : names (context.naming.classConstructor .root) :=
    provides.single .constructor _ (by decide)
  have type : names (context.naming.typeData .root) := provides.single .typeData _ (by decide)
  simp [rootTypeDataLink, constructor, type]

end Library

/-- Exports to other modules of the program refer to the definitions that they export. -/
theorem internalExports_within {defined : List String}
    (host : defined ≠ [] → context.config.moduleKind = .commonJs → names "exports")
    (inside : ∀ name ∈ defined, names name) :
    ∀ tree ∈ (context.internalExports defined).value, tree.Within names := by
  unfold internalExports
  split
  · simp
  · next some =>
    split
    · simp
    · simp
    · next modules =>
      have exports : names "exports" := host (by simpa using some) modules
      refine List.forall_mem_map.2 (fun name found => Tree.within_assign.2 ⟨?_, ?_⟩)
      · exact propSelect_within (Tree.within_varRef.2 exports) name
      · exact Tree.within_varRef.2 (inside name found)

/-- Imports use permitted names if their host names are. -/
theorem imports_within {unit : Module}
    (taken : ∀ name ∈ HostNames.ofImports context.config context.index unit, names name) :
    ∀ tree ∈ (context.imports unit).value, tree.Within names := by
  unfold imports
  split
  · simp
  · simp only [Tracked.mapM_value]
    refine List.forall_mem_map.2 (fun binding found => ?_)
    unfold importStatement
    cases modules : context.config.moduleKind with
    | commonJs =>
      have same : HostNames.ofImports context.config context.index unit =
          (context.importBindings unit).map (fun _ => "require") := by
        simp only [HostNames.ofImports, modules, if_true, importBindings, importedModules,
          List.map_append, List.map_map]
        rfl
      have require : names "require" :=
        taken _ (same ▸ List.mem_map.2 ⟨binding, found, rfl⟩)
      simp [hostRef, require]
    | esModule => simp
    | script => simp

/-- An export of a module uses permitted names if its value does. -/
theorem moduleExport_within {value : Tree} (inside : value.Within names) (binding name : String) :
    ∀ tree ∈ moduleExport binding name value, tree.Within names := by
  cases value <;> simp [moduleExport, inside]

section Exports

variable {entry : TopLevelExport} (permits : context.Permits names (.root :: entry.classes)
  (HostNames.ofExport context.config context.index entry) entry.locals)

include permits

/-- What an export exports, and the statements for it, use permitted names. -/
theorem exportValue_within : (∀ tree ∈ (context.exportValue entry).value.1, tree.Within names) ∧
    (context.exportValue entry).value.2.Within names := by
  obtain ⟨supplies, reached, taken, written⟩ := permits
  obtain ⟨root, named⟩ := List.forall_mem_cons.1 reached
  have binding : names (context.naming.exportBinding entry.name) :=
    supplies.single .binding _ (by decide)
  unfold TopLevelExport.classes at named
  unfold TopLevelExport.locals at written
  unfold HostNames.ofExport at taken
  unfold exportValue
  cases kind : entry.kind with
  | method params body =>
    simp only [kind] at named written taken
    have scope : context.ScopeWithin names .plain :=
      ⟨Tree.within_this, by simp [Scope.plain], root⟩
    have tree := lower_within supplies.lends scope body named
      (fun name found => taken name (List.mem_append_left _ found)) written
    simpa [binding] using tree
  | singleton owner =>
    rw [kind] at named
    have accessor : (context.classMemberRef owner
        (context.naming.moduleAccessor owner)).Within names :=
      qualify_within (supplies.single .accessor _ (by decide))
        (named owner (List.mem_singleton_self owner))
    simpa using accessor
  | jsClass owner =>
    rw [kind] at named
    simpa using classRef_within supplies.lends (named owner (List.mem_singleton_self owner))
  | field owner field =>
    rw [kind] at named
    have place : (context.classMemberRef owner
        (context.naming.staticField owner field)).Within names :=
      qualify_within (supplies.member .staticField _ _)
        (named owner (List.mem_singleton_self owner))
    simpa using place

/-- An export uses permitted names. -/
theorem topLevelExport_within :
    ∀ tree ∈ (context.topLevelExport entry).value, tree.Within names := by
  obtain ⟨before, value⟩ := exportValue_within permits
  have taken := permits.taken
  unfold HostNames.ofExport at taken
  unfold topLevelExport
  cases modules : context.config.moduleKind with
  | esModule => exact List.forall_mem_append.2 ⟨before, moduleExport_within value _ _⟩
  | commonJs =>
    have exports : names "exports" := taken _ (by simp [modules])
    refine List.forall_mem_append.2 ⟨before, List.forall_mem_singleton.2
      (Tree.within_assign.2 ⟨?_, value⟩)⟩
    exact propSelect_within (Tree.within_varRef.2 exports) entry.name
  | script => exact List.forall_mem_append.2 ⟨before, by simpa using value⟩

end Exports

/-- Exports use permitted names if what they refer to is permitted. -/
theorem topLevelExports_within {entries : List TopLevelExport}
    (permits : context.Permits names (.root :: entries.flatMap TopLevelExport.classes)
      (entries.flatMap (HostNames.ofExport context.config context.index))
      (entries.flatMap TopLevelExport.locals)) :
    ∀ tree ∈ (context.topLevelExports entries).value, tree.Within names := by
  simp only [topLevelExports, Tracked.map_value', Tracked.mapM_value]
  refine List.forall_mem_flatten.2 (List.forall_mem_map.2 (fun entry there => ?_))
  have among : ∀ {β : Type} (part : TopLevelExport → List β), part entry ⊆ entries.flatMap part :=
    fun part _ found => List.mem_flatMap.2 ⟨entry, there, found⟩
  exact topLevelExport_within
    (permits.mono (List.cons_subset_cons _ (among _)) (among _) (among _))

/-- Calls of initializers use permitted names if their classes are permitted. -/
theorem moduleInitializers_within {calls : List Initializer}
    (permits : context.Permits names (calls.map Initializer.owner) [] []) :
    ∀ tree ∈ context.moduleInitializers calls, tree.Within names := by
  refine List.forall_mem_map.2 (fun call there => ?_)
  have owner := permits.reached call.owner (List.mem_map_of_mem there)
  simpa using functionRef_within permits.supplies.lends owner .staticPublic call.method

namespace ModuleWithin

variable {unit : Module} (within : context.ModuleWithin names unit)

include within

/-- What a class of the module refers to is permitted. -/
theorem ofClass {linked : LinkedClass} (there : linked ∈ unit.classes)
    (self : linked.name ∈ linked.referencedClasses) : context.ClassWithin names linked := by
  have named : ∀ owner ∈ linked.referencedClasses, owner ∈ unit.namedClasses := by
    intro owner found
    exact List.mem_cons_of_mem _ (List.mem_append_left _ (List.mem_append_left _
      (List.mem_flatMap.2 ⟨linked, there, found⟩)))
  refine ⟨within.allows, fun owner found => ?_, within.reached _ (named _ self),
    fun name found => ?_⟩
  · rcases SortedSet.mem_insert.1 found with rfl | found
    · exact within.reached _ List.mem_cons_self
    · exact within.reached _ (named owner found)
  · exact within.written name (List.mem_append_left _ (List.mem_flatMap.2 ⟨linked, there, found⟩))

/-- What the exports of the module refer to is permitted. -/
theorem topLevelExports : context.Permits names
    (.root :: unit.topLevelExports.flatMap TopLevelExport.classes)
    (unit.topLevelExports.flatMap (HostNames.ofExport context.config context.index))
    (unit.topLevelExports.flatMap TopLevelExport.locals) := by
  have host : names "exports" := within.allows.other _ (by decide)
  have exports : ∀ name ∈ (if context.config.moduleKind = .commonJs then ["exports"] else []),
      names name := by
    split <;> simp [host]
  have each : ∀ entry ∈ unit.topLevelExports,
      (∀ name ∈ HostNames.ofExport context.config context.index entry, names name) ∧
        ∀ name ∈ entry.locals, names name := by
    intro entry there
    have written : ∀ name ∈ entry.writtenNames context, names name := fun name found =>
      within.written name (List.mem_append_right _ (List.mem_flatMap.2 ⟨entry, there, found⟩))
    unfold TopLevelExport.writtenNames at written
    unfold HostNames.ofExport TopLevelExport.locals
    cases kind : entry.kind with
    | method params body =>
      rw [kind] at written
      obtain ⟨taken, locals⟩ := List.forall_mem_append.1 written
      exact ⟨List.forall_mem_append.2 ⟨taken, exports⟩, locals⟩
    | _ => exact ⟨exports, List.forall_mem_nil _⟩
  refine ⟨within.allows.supplies, fun owner found => within.reached owner ?_,
    List.forall_mem_flatMap.2 (fun entry there => (each entry there).1),
    List.forall_mem_flatMap.2 (fun entry there => (each entry there).2)⟩
  rcases List.mem_cons.1 found with rfl | named
  · exact List.mem_cons_self
  · exact List.mem_cons_of_mem _ (List.mem_append_left _ (List.mem_append_right _ named))

/-- What the initializers of the module refer to is permitted. -/
theorem initializers :
    context.Permits names (unit.initializers.map Initializer.owner) [] [] := by
  refine ⟨within.allows.supplies, fun owner found => within.reached owner ?_,
    List.forall_mem_nil _, List.forall_mem_nil _⟩
  exact List.mem_cons_of_mem _ (List.mem_append_right _ found)

end ModuleWithin

end Lowering.Context

end JsEmitter
