import JsEmitter.Emission.Module
import JsEmitter.Emitter
import JsEmitter.Proofs.Rearrangement
import JsEmitter.Proofs.SameParts

/-!
# Emission under another index

Emission asks the index for the facts about single classes, for the root module and for the methods
of the root class. Under an index that gives the same answers it makes the same requests, for the
same versions, and gives the same results.
-/
namespace JsEmitter

open Js (Tree)
open Lowering (Context Scope)

namespace ClassIndex.Alike

variable {first second : ClassIndex} (alike : first.Alike second)

include alike

/-- Indexes alike know the same owners. -/
theorem owner (name : ClassName) : second.owner? name = first.owner? name := by
  rw [owner?, owner?, alike.get]

/-- Indexes alike inline the same constructors. -/
theorem inlines (name : ClassName) :
    second.inlinesConstructor name = first.inlinesConstructor name := by
  rw [inlinesConstructor, inlinesConstructor, alike.get]

/-- Indexes alike know whether the root class has instances. -/
theorem rootHasInstances_eq : second.rootHasInstances = first.rootHasInstances := by
  rw [rootHasInstances, rootHasInstances, alike.get]

/-- Indexes alike agree in the facts about every class. -/
theorem sameFacts (name : ClassName) : first.SameFacts second name := by
  constructor <;> simp only [owner?, kind?, inlinesConstructor, nativeLoadSpec?, alike.get]

/-- Indexes alike have the same text for the root module. -/
theorem rootText_eq : second.rootText = first.rootText := by rw [rootText, rootText, alike.root]

/-- Indexes alike give the same versions of linkage. -/
theorem linkageVersion_eq (names : List ClassName) :
    second.linkageVersion names = first.linkageVersion names := by
  have texts : second.linkageText = first.linkageText := by
    funext name
    rw [linkageText, linkageText, alike.get]
  rw [linkageVersion, linkageVersion, alike.rootText_eq, texts]

end ClassIndex.Alike

section Reindex

variable {context : Context} {index : ClassIndex} (alike : context.index.Alike index)

include alike

namespace Lowering.Context

/-- Under an index alike a class is the same class. -/
theorem sameClass (linked : LinkedClass) : context.SameClass index linked linked where
  name := rfl
  ancestors := rfl
  outline := ⟨rfl, rfl, rfl, rfl, rfl, rfl, rfl, rfl, rfl⟩
  root := alike.root
  self := alike.sameFacts _
  facts owner _ := alike.sameFacts owner

/-- Under an index alike members take the same from the parent. -/
theorem parentUse_alike (linked : LinkedClass) (usesSuper calls : Bool) :
    (context.reindex index).parentUse linked usesSuper calls =
      context.parentUse linked usesSuper calls := by
  unfold parentUse
  rw [parentRef_reindex (sameClass alike linked)]
  simp only [(sameClass alike linked).superTarget]

/-- Under an index alike a class has the same inlined constructor. -/
theorem inlinedConstructor?_alike (linked : LinkedClass) :
    (context.reindex index).inlinedConstructor? linked = context.inlinedConstructor? linked := by
  unfold inlinedConstructor?
  rw [show (context.reindex index).index = index from rfl, alike.inlines]

/-- Under an index alike a class has the same free functions. -/
theorem freeFunctions_alike (linked : LinkedClass) :
    (context.reindex index).freeFunctions linked = context.freeFunctions linked := by
  unfold freeFunctions isInlined
  rw [inlinedConstructor?_alike alike]

/-- Under an index alike a class has the same bridges. -/
theorem bridgedMethods_alike (linked : LinkedClass) :
    (context.reindex index).bridgedMethods linked = context.bridgedMethods linked := by
  unfold bridgedMethods
  rw [show (context.reindex index).index = index from rfl, alike.rootMethods]
  rfl

/-- Under an index alike a free function has the same code. -/
theorem freeFunction_alike (linked : LinkedClass) (method : MethodDef) :
    (context.reindex index).freeFunction linked method = context.freeFunction linked method :=
  freeFunction_reindex rfl (fun owner _ => .of_root (alike.sameFacts owner) alike.root)
    (parentUse_alike alike linked false _)

/-- Under an index alike a member method has the same code. -/
theorem memberMethod_alike (linked : LinkedClass) (method : MethodDef) :
    (context.reindex index).memberMethod linked method = context.memberMethod linked method :=
  memberMethod_reindex rfl (alike.sameFacts _)
    (fun owner _ => .of_root (alike.sameFacts owner) alike.root) (parentUse_alike alike linked _ _)

/-- Under an index alike an exported member has the same code. -/
theorem exportedMember_alike (linked : LinkedClass) (member : ExportedMember) :
    (context.reindex index).exportedMember linked member = context.exportedMember linked member :=
  exportedMember_reindex rfl rfl (alike.sameFacts _)
    (fun _ _ owner _ => .of_root (alike.sameFacts owner) alike.root)
    (parentUse_alike alike linked _ _)

/-- Under an index alike a class has the same constructor. -/
theorem constructorParts_alike (linked : LinkedClass) :
    (context.reindex index).constructorParts linked = context.constructorParts linked := by
  have same := sameClass alike linked
  have plain : (context.reindex index).plainConstructorParts linked =
      context.plainConstructorParts linked :=
    plainConstructorParts_reindex same (by rw [inlinedConstructor?_alike alike])
  unfold constructorParts
  rw [plain]
  cases found : linked.jsConstructor? with
  | none => rfl
  | some ctor => simp only [jsConstructorParts_reindex same found]

/-- Under an index alike a method has the same version. -/
theorem methodVersion_alike (linked : LinkedClass) (method : Versioned MethodDef) :
    (context.reindex index).methodVersion linked method = context.methodVersion linked method := by
  unfold methodVersion
  rw [← alike.linkageVersion_eq]
  rfl

/-- Under an index alike a class has the same linkage. -/
theorem classLinkage_alike (linked : LinkedClass) :
    (context.reindex index).classLinkage linked = context.classLinkage linked :=
  alike.linkageVersion_eq _

/-- Under an index alike a class has the same version. -/
theorem classVersion_alike (linked : LinkedClass) :
    (context.reindex index).classVersion linked = context.classVersion linked := by
  rw [classVersion, classVersion, classLinkage_alike alike]

/-- Under an index alike bridges have the same version. -/
theorem bridgeVersion_alike :
    (context.reindex index).bridgeVersion = context.bridgeVersion := by
  unfold bridgeVersion
  rw [← alike.linkageVersion_eq]
  rfl

/-- Under an index alike a constructor has the same version. -/
theorem constructorVersion_alike (linked : LinkedClass) :
    (context.reindex index).constructorVersion linked = context.constructorVersion linked := by
  unfold constructorVersion
  rw [classVersion_alike alike, inlinedConstructor?_alike alike]

/-- Under an index alike an exported member has the same version. -/
theorem exportedMemberVersion_alike (linked : LinkedClass) (member : Versioned ExportedMember) :
    (context.reindex index).exportedMemberVersion linked member =
      context.exportedMemberVersion linked member := by
  rw [exportedMemberVersion, exportedMemberVersion, classLinkage_alike alike]

/-- Under an index alike the owners of classes have the same version. -/
theorem ownersVersion_alike (owners : List ClassName) :
    (context.reindex index).ownersVersion owners = context.ownersVersion owners := by
  unfold ownersVersion
  simp only [reindex, alike.owner]

/-- Under an index alike imports have the same version. -/
theorem importsVersion_alike (unit : Module) :
    (context.reindex index).importsVersion unit = context.importsVersion unit := by
  unfold importsVersion
  rw [← alike.rootText_eq]
  rfl

/-- Under an index alike exports have the same code. -/
theorem topLevelExports_alike (entries : List TopLevelExport) :
    (context.reindex index).topLevelExports entries = context.topLevelExports entries :=
  topLevelExports_eq_of_reads (fun _ _ owner _ => (alike.sameFacts owner).owner)
    (fun _ _ owner _ => .of_root (alike.sameFacts owner) alike.root)

end Lowering.Context

namespace Emission

open Lowering.Context

/-- Under an index alike the free functions of a class are emitted alike. -/
theorem emitFunctions_alike (linked : LinkedClass) :
    emitFunctions (context.reindex index) linked = emitFunctions context linked := by
  unfold emitFunctions
  simp only [freeFunctions_alike alike, methodVersion_alike alike, freeFunction_alike alike]
  rfl

/-- Under an index alike the definition of a class is emitted alike. -/
theorem emitDefinition_alike (linked : LinkedClass) :
    emitDefinition (context.reindex index) linked = emitDefinition context linked := by
  unfold emitDefinition emitMembers emitBridges emitExportedMembers
  simp only [methodVersion_alike alike, memberMethod_alike alike, bridgedMethods_alike alike,
    bridgeVersion_alike alike, bridge_reindex (alike.sameFacts _), constructorVersion_alike alike,
    constructorParts_alike alike, exportedMemberVersion_alike alike, exportedMember_alike alike,
    classVersion_alike alike, fullClass_reindex (sameClass alike linked)]
  rfl

/-- Under an index alike a class is emitted alike. -/
theorem emitClass_alike (linked : LinkedClass) :
    emitClass (context.reindex index) linked = emitClass context linked := by
  have shell := shellTrees_reindex (sameClass alike linked)
  have accessor : (context.reindex index).moduleAccessor linked = context.moduleAccessor linked :=
    shell .moduleAccessor
  have tests : (context.reindex index).instanceTests linked = context.instanceTests linked :=
    congrArg Tracked.value (shell .instanceTests)
  have data : (context.reindex index).typeData linked = context.typeData linked :=
    congrArg Tracked.value (shell .typeData)
  unfold emitClass
  simp only [emitFunctions_alike alike, emitDefinition_alike alike, classVersion_alike alike,
    accessor, tests, data]
  rfl

/-- A module is emitted in the same way under an index that gives the same answers. -/
theorem emitModule_alike (bootstrap? : Option (Artifact Lowering.Bootstrap)) (unit : Module)
    (exported : Bool) :
    emitModule (context.reindex index) bootstrap? unit exported =
      emitModule context bootstrap? unit exported := by
  have classes : emitClass (context.reindex index) = emitClass context :=
    funext (emitClass_alike alike)
  have statements : classStatements (context.reindex index) = classStatements context := by
    funext bootstrap? classes
    unfold classStatements
    rw [show (context.reindex index).index = index from rfl, alike.rootHasInstances_eq]
    rfl
  have initializers : (context.reindex index).initializersVersion unit =
      context.initializersVersion unit := by
    rw [initializersVersion, initializersVersion, ownersVersion_alike alike]
  have exports : (context.reindex index).topLevelExportsVersion unit =
      context.topLevelExportsVersion unit := by
    rw [topLevelExportsVersion, topLevelExportsVersion, ownersVersion_alike alike]
  unfold emitModule
  simp only [importsVersion_alike alike, imports_reindex rfl alike.root rfl rfl, classes,
    statements, exports, topLevelExports_alike alike, initializers,
    moduleInitializers_reindex (fun call _ => (alike.owner call.owner).symm)]
  rfl

end Emission

end Reindex

end JsEmitter
