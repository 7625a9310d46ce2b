import JsEmitter.Proofs.ClassInStep
import JsEmitter.Proofs.Revisions
import JsEmitter.Proofs.VersionParts

/-!
# Code of revised classes

A revision changes the code and the version of the method that it revises. If the new body names the
same classes as the old one, and the method is no constructor that is part of a definition, then all
other code of the class, with its versions, stays as it is.
-/
namespace JsEmitter

open Js (Tree)
open Lowering (Context)

/-- What a revision must keep of a class so that it changes the code of one method only. -/
structure Revision.Fits (revision : Revision) (context : Context) (linked : LinkedClass) :
    Prop where
  /-- The revised method is not part of a definition as its constructor. -/
  separate : linked.name = revision.owner → revision.home = .constructor →
    context.index.inlinesConstructor linked.name = false
  names : ∀ method ∈ linked.methods, revision.hits linked.name method = true →
    ∀ owner, owner ∈ revision.body.classes ↔ owner ∈ method.value.body.classes
  differs : ∀ method ∈ linked.methods, revision.hits linked.name method = true →
    revision.version.isSame method.version = false

variable {revision : Revision} {context : Context} {linked : LinkedClass}

namespace Lowering.Context

/-- Methods are selected alike before and after a revision, if only their names matter. -/
theorem filter_methods_revise {keep : Versioned MethodDef → Bool}
    (names : ∀ method : Versioned MethodDef,
      keep (revision.apply linked.name method) = keep method) :
    (linked.revise revision).methods.filter keep =
      (linked.methods.filter keep).map (revision.apply linked.name) := by
  simp only [LinkedClass.revise, List.filter_map, Function.comp_def, names]

/-- Revising a method leaves whether it is a free function. -/
theorem isFreeFunction_revise (method : Versioned MethodDef) :
    (linked.revise revision).isFreeFunction (revision.apply linked.name method) =
      linked.isFreeFunction method := by
  simp only [LinkedClass.isFreeFunction, Revision.apply_home]
  rfl

/-- The member methods of a revised class are the revised ones. -/
theorem memberMethods_revise : memberMethods (linked.revise revision) =
    (memberMethods linked).map (revision.apply linked.name) :=
  filter_methods_revise (fun method => congrArg not (isFreeFunction_revise method))

/-- A revision leaves the bridges of a class. -/
theorem bridgedMethods_revise :
    context.bridgedMethods (linked.revise revision) = context.bridgedMethods linked := by
  have defines : (linked.revise revision).definesPublicMethod = linked.definesPublicMethod := by
    funext name
    simp only [LinkedClass.definesPublicMethod, LinkedClass.methodsIn_revise, List.any_map,
      Function.comp_def, Revision.apply_name]
  unfold bridgedMethods
  rw [defines]
  rfl

/-- A revision leaves the module accessor of a class. -/
theorem moduleAccessor_revise :
    context.moduleAccessor (linked.revise revision) = context.moduleAccessor linked := by
  have first : accessorConstructor (linked.revise revision) = accessorConstructor linked := by
    unfold accessorConstructor LinkedClass.constructors
    rw [← List.head?_map, LinkedClass.map_name_revise, List.head?_map]
  unfold moduleAccessor
  rw [first]
  rfl

/-- A revision leaves the static initializers of a class. -/
theorem staticInitializers_revise :
    context.staticInitializers (linked.revise revision) = context.staticInitializers linked := by
  unfold staticInitializers LinkedClass.staticInitializer?
  rw [LinkedClass.methodsIn_revise, List.head?_map, Option.map_map]
  simp only [Function.comp_def, Revision.apply_name]
  rfl

variable (fits : revision.Fits context linked)

include fits

/-- A constructor that is part of a definition is not revised. -/
theorem constructors_revise (inlines : context.index.inlinesConstructor linked.name = true) :
    (linked.revise revision).constructors = linked.constructors :=
  linked.methodsIn_revise_of_ne (fun own home => by
    simp [fits.separate own home.symm] at inlines)

/-- A revision leaves the inlined constructor of a class. -/
theorem inlinedConstructor?_revise :
    context.inlinedConstructor? (linked.revise revision) = context.inlinedConstructor? linked := by
  change (if context.index.inlinesConstructor linked.name = true then _ else none) = _
  unfold inlinedConstructor?
  split
  · next inlines => rw [constructors_revise fits inlines]
  · rfl

/-- The free functions of a revised class are the revised ones. -/
theorem freeFunctions_revise : context.freeFunctions (linked.revise revision) =
    (context.freeFunctions linked).map (revision.apply linked.name) := by
  have inlined : context.isInlined (linked.revise revision) = context.isInlined linked := by
    funext method
    rw [isInlined, isInlined, inlinedConstructor?_revise fits]
  unfold freeFunctions
  rw [inlined]
  refine filter_methods_revise (fun method => ?_)
  simp only [isInlined, LinkedClass.isFreeFunction, Revision.apply_home, Revision.apply_name]

/-- A revision that fits leaves the classes that a class refers to. -/
theorem referencedClasses_revise :
    (linked.revise revision).referencedClasses = linked.referencedClasses := by
  have each : ∀ method ∈ linked.methods, ∀ owner,
      owner ∈ (revision.apply linked.name method).value.body.classes ↔
        owner ∈ method.value.body.classes := by
    intro method found owner
    cases hit : revision.hits linked.name method with
    | true =>
      rw [Revision.apply_of_hits hit]
      exact fits.names method found hit owner
    | false => rw [Revision.apply_of_misses hit]
  have bodies : ∀ owner, owner ∈ (linked.revise revision).bodies.flatMap Expr.classes ↔
      owner ∈ linked.bodies.flatMap Expr.classes := by
    intro owner
    have methods : (∃ method ∈ linked.methods,
        owner ∈ (revision.apply linked.name method).value.body.classes) ↔
          ∃ method ∈ linked.methods, owner ∈ method.value.body.classes :=
      exists_congr (fun method => and_congr_right (fun found => each method found owner))
    simp only [LinkedClass.bodies, LinkedClass.revise, List.flatMap_append, List.mem_append,
      List.flatMap_map, List.map_map, List.mem_flatMap, Function.comp_apply, methods]
  refine SortedSet.ext (fun owner => ?_)
  simp only [LinkedClass.referencedClasses, SortedSet.mem_ofList, List.mem_append, bodies owner]
  rfl

/-- A revision that fits leaves the linkage of a class. -/
theorem classLinkage_revise :
    context.classLinkage (linked.revise revision) = context.classLinkage linked := by
  rw [classLinkage, classLinkage, referencedClasses_revise fits]

/-- A revision that fits leaves the version of a class. -/
theorem classVersion_revise :
    context.classVersion (linked.revise revision) = context.classVersion linked := by
  rw [classVersion, classVersion, classLinkage_revise fits]
  rfl

/-- A revision that fits leaves the versions of exported members. -/
theorem exportedMemberVersion_revise (member : Versioned ExportedMember) :
    context.exportedMemberVersion (linked.revise revision) member =
      context.exportedMemberVersion linked member := by
  rw [exportedMemberVersion, exportedMemberVersion, classLinkage_revise fits]
  rfl

/-- A revision that fits leaves the version of the constructor. -/
theorem constructorVersion_revise :
    context.constructorVersion (linked.revise revision) = context.constructorVersion linked := by
  have versions : ∀ ctor ∈ context.inlinedConstructor? linked,
      inlinedVersion (linked.revise revision) ctor.value.name =
        inlinedVersion linked ctor.value.name := by
    intro ctor inlined
    have inlines : context.index.inlinesConstructor linked.name = true := by
      unfold inlinedConstructor? at inlined
      split at inlined
      · next inlines => exact inlines
      · cases inlined
    rw [inlinedVersion, inlinedVersion, constructors_revise fits inlines]
  have foreign : (linked.revise revision).jsConstructor?.filter
        (fun _ => (linked.revise revision).kind.isJsClass) =
      linked.jsConstructor?.filter (fun _ => linked.kind.isJsClass) := rfl
  unfold constructorVersion
  rw [classVersion_revise fits, inlinedConstructor?_revise fits, foreign]
  cases linked.jsConstructor?.filter (fun _ => linked.kind.isJsClass) with
  | some ctor => rfl
  | none =>
    cases inlined : context.inlinedConstructor? linked with
    | none => rfl
    | some ctor => simp only [versions ctor inlined]

/-- A revision that fits leaves the constructor. -/
theorem constructorParts_revise :
    context.constructorParts (linked.revise revision) = context.constructorParts linked := by
  have plain : context.plainConstructorParts (linked.revise revision) =
      context.plainConstructorParts linked := by
    unfold plainConstructorParts
    rw [inlinedConstructor?_revise fits]
    rfl
  unfold constructorParts
  rw [plain]
  rfl

/-- A revised method has another version than before. -/
theorem methodVersion_revise {method : Versioned MethodDef} (found : method ∈ linked.methods)
    (hit : revision.hits linked.name method = true) :
    (context.methodVersion linked method).isSame
      (context.methodVersion (linked.revise revision) (revision.apply linked.name method)) =
        false := by
  refine Bool.eq_false_iff.2 (fun same => ?_)
  cases Version.isSame_of_combine same with
  | cons own _ =>
    rw [Revision.apply_of_hits hit] at own
    have differs := fits.differs method found hit
    rw [Version.isSame_symm own] at differs
    cases differs

end Lowering.Context

namespace Emission

open Lowering.Context

variable (fits : revision.Fits context linked)

include fits

/-- The pieces that depend on a class alone are not revised. -/
theorem emitShell_revise :
    emitShell context (linked.revise revision) = emitShell context linked := by
  unfold emitShell
  rw [classVersion_revise fits, moduleAccessor_revise, staticInitializers_revise]
  rfl

omit fits in
/-- A revision that fits leaves how bridges are emitted. -/
theorem emitBridges_revise :
    emitBridges context (linked.revise revision) = emitBridges context linked := by
  unfold emitBridges
  rw [bridgedMethods_revise]
  rfl

/-- A revision that fits leaves how exported members are emitted. -/
theorem emitExportedMembers_revise :
    emitExportedMembers context (linked.revise revision) = emitExportedMembers context linked := by
  unfold emitExportedMembers
  simp only [exportedMemberVersion_revise fits]
  rfl

end Emission

end JsEmitter
