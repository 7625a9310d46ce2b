import JsEmitter.Cache.Session
import JsEmitter.Emission.Versions

/-!
# Emission of a class

The statements of one class are put together from cached pieces, in the groups that the module
puts at different places. A native class has no statements.
-/
namespace JsEmitter

open Js (Tree)
open Lowering (Context ConstructorParts)

/-- The statements of one class, by the place where the module puts them. -/
structure ClassFragments where
  name : ClassName
  /-- Free functions, the class definition and the accessor of a singleton. -/
  main : List Tree
  /-- Instance tests and type data. -/
  typeSupport : List Tree
  staticFields : List Tree
  staticInitializers : List Tree

/-- A class without statements. -/
def ClassFragments.empty (name : ClassName) : ClassFragments := ⟨name, [], [], [], []⟩

namespace LinkedClass

/-- Whether a class definition is generated. -/
def needsDefinition (linked : LinkedClass) : Bool :=
  linked.kind.hasDefinition && linked.hasInstances

/-- Whether a method becomes a free function. -/
def isFreeFunction (linked : LinkedClass) (method : Versioned MethodDef) : Bool :=
  linked.kind.isStaticLike || method.value.home ≠ .instancePublic

end LinkedClass

namespace Lowering.Context

/-- Whether a method is the constructor that is part of the class definition. -/
def isInlined (context : Context) (linked : LinkedClass) (method : Versioned MethodDef) : Bool :=
  method.value.home = .constructor &&
    (context.inlinedConstructor? linked).any (fun ctor => method.value.name = ctor.value.name)

/-- The methods of a class that become free functions. -/
def freeFunctions (context : Context) (linked : LinkedClass) : List (Versioned MethodDef) :=
  linked.methods.filter (fun method =>
    !context.isInlined linked method && linked.isFreeFunction method)

/-- The methods of a class that go into its definition. -/
def memberMethods (linked : LinkedClass) : List (Versioned MethodDef) :=
  linked.methods.filter (fun method => !linked.isFreeFunction method)

/-- The methods of the root class that a class needs bridges for. -/
def bridgedMethods (context : Context) (linked : LinkedClass) : List MethodName :=
  if context.extendsHostError linked then
    context.index.rootMethods.toList.filter (fun method => !linked.definesPublicMethod method)
  else []

end Lowering.Context

namespace Emission

/-- The values of artifacts with the host names of all. -/
def collect {α : Type} (artifacts : List (Artifact α)) : Tracked (List α) :=
  .list (artifacts.map Artifact.tracked)

/-- The free functions of a class. -/
def emitFunctions (context : Context) (linked : LinkedClass) :
    Step EmitError Caches (List (Artifact Tree)) :=
  (context.freeFunctions linked).mapM (fun method =>
    Caches.requestFunction
      (.ofClass context.home linked, method.value.home, method.value.name)
      (context.methodVersion linked method)
      (fun _ => .ok (context.freeFunction linked method.value)))

/-- The methods inside the definition of a class. -/
def emitMembers (context : Context) (linked : LinkedClass) :
    Step EmitError Caches (List (Artifact Tree)) :=
  (Context.memberMethods linked).mapM (fun method =>
    Caches.requestMember (.ofClass context.home linked, method.value.name)
      (context.methodVersion linked method)
      (fun _ => .ok (context.memberMethod linked method.value)))

/-- The bridges of a class. -/
def emitBridges (context : Context) (linked : LinkedClass) :
    Step EmitError Caches (List (Artifact Tree)) :=
  (context.bridgedMethods linked).mapM (fun method =>
    Caches.requestBridge (.ofClass context.home linked, method) context.bridgeVersion
      (fun _ => .ok (context.bridge method)))

/-- The exported members of a class. -/
def emitExportedMembers (context : Context) (linked : LinkedClass) :
    Step EmitError Caches (List (Artifact (List Tree))) :=
  linked.exportedMembers.zipIdx.mapM (fun (member, position) =>
    Caches.requestExportedMember (.ofClass context.home linked, position)
      (context.exportedMemberVersion linked member)
      (fun _ => .ok (context.exportedMember linked member.value)))

/-- The definition of a class. -/
def emitDefinition (context : Context) (linked : LinkedClass) :
    Step EmitError Caches (Tracked (List Tree)) := do
  let key := ClassKey.ofClass context.home linked
  let methods ← emitMembers context linked
  let bridges ← emitBridges context linked
  let members := methods ++ bridges
  let ctor ← Caches.requestConstructor key (context.constructorVersion linked)
    (fun _ => context.constructorParts linked)
  let exported ← emitExportedMembers context linked
  let parts : DefinitionParts :=
    ⟨some ctor.token, members.map Artifact.token, exported.map Artifact.token⟩
  let full ← Caches.requestFullClass key (context.classVersion linked) parts
    (fun _ => .ok (context.fullClass linked ctor.value (members.map Artifact.value)
      (exported.map Artifact.value)))
  return ⟨full.value,
    ctor.refs ∪ (collect members).refs ∪ (collect exported).refs ∪ full.refs⟩

/-- A piece of a class, if the class has it. -/
def emitShellPart (context : Context) (linked : LinkedClass) (part : ShellPart) (present : Bool)
    (trees : Unit → Tracked (List Tree)) : Step EmitError Caches (Tracked (List Tree)) :=
  if present then do
    let artifact ← Caches.requestShellPart (.ofClass context.home linked) part
      (fun _ => .ok (trees ()))
    return artifact.tracked
  else return .untracked []

/-- The statements of a class. -/
def emitClass (context : Context) (linked : LinkedClass) :
    Step EmitError Caches (Tracked ClassFragments) :=
  if linked.kind = .nativeJsClass then return .untracked (.empty linked.name)
  else do
    let functions ← emitFunctions context linked
    let definition ← if linked.needsDefinition then emitDefinition context linked
      else pure (.untracked [])
    Caches.openShell (.ofClass context.home linked) (context.classVersion linked)
    let accessor ← emitShellPart context linked .moduleAccessor
      (linked.hasModuleAccessor && linked.kind.isModuleLike)
      (fun _ => context.moduleAccessor linked)
    let tests ← emitShellPart context linked .instanceTests
      (!linked.name.isRoot && linked.hasInstanceTests)
      (fun _ => .untracked (context.instanceTests linked))
    let data ← emitShellPart context linked .typeData
      (!linked.name.isRoot && linked.hasTypeData)
      (fun _ => .untracked (context.typeData linked))
    let fields ← emitShellPart context linked .staticFields true
      (fun _ => .untracked (context.staticFields linked))
    let initializers ← emitShellPart context linked .staticInitializers true
      (fun _ => .untracked (context.staticInitializers linked))
    return do
      return {
        name := linked.name
        main := (← collect functions) ++ (← definition) ++ (← accessor)
        typeSupport := (← tests) ++ (← data)
        staticFields := ← fields
        staticInitializers := ← initializers }

end Emission

end JsEmitter
