import JsEmitter.Proofs.MethodLinkage

/-!
# Linkage of classes

The pieces that depend on a class as a whole share one linkage, the version of the facts about the
classes that the class refers to and about the root class. It covers all that these pieces read from
the index. A program without modules has no root module, but a program that has the module for which
code is generated has one, and then the linkage says which one it is.
-/
namespace JsEmitter

open Js (Tree)
open Lowering (Context ConstructorParts)

/-- The index of a validated program that has some module has a root module. -/
theorem ClassIndex.rootModule?_ne_none {program : Program} (accepted : program.validate = .ok ())
    {home : ModuleId} (there : home ∈ program.modules.map Module.id) :
    (ofProgram program).rootModule? ≠ none := by
  rw [Ne, rootModule?_eq_none_iff accepted]
  intro empty
  rw [empty] at there
  cases there

namespace LinkedClass

/-- A class has its own outline. -/
theorem SameOutline.refl (linked : LinkedClass) : linked.SameOutline linked := by
  constructor <;> rfl

end LinkedClass

namespace Lowering.Context

open LinkedClass

/-- Whether two contexts give the same code, with the same host names, for the pieces of a class
that share its linkage. -/
structure SameClassCode (context other : Context) (linked : LinkedClass) : Prop where
  constructorParts : other.constructorParts linked = context.constructorParts linked
  fullClass : ∀ ctor members exported, other.fullClass linked ctor members exported =
    context.fullClass linked ctor members exported
  exportedMember : ∀ member ∈ linked.exportedMembers,
    other.exportedMember linked member.value = context.exportedMember linked member.value
  instanceTests : other.instanceTests linked = context.instanceTests linked
  typeData : other.typeData linked = context.typeData linked
  moduleAccessor : other.moduleAccessor linked = context.moduleAccessor linked
  staticFields : other.staticFields linked = context.staticFields linked
  staticInitializers : other.staticInitializers linked = context.staticInitializers linked

section Reindexed

variable {context : Context} {index : ClassIndex} {linked : LinkedClass}
  (same : context.SameClass index linked linked)

include same

/-- Members take the same from the parent of a class under an index that agrees in the facts about
the classes that the class refers to. -/
theorem parentUse_reindex (usesSuper calls : Bool) :
    (context.reindex index).parentUse linked usesSuper calls =
      context.parentUse linked usesSuper calls := by
  unfold parentUse
  simp only [parentRef_reindex same, same.superTarget]

/-- An index that agrees in the facts about a class inlines the same constructor. -/
theorem inlinedConstructor?_reindex :
    (context.reindex index).inlinedConstructor? linked = context.inlinedConstructor? linked := by
  have inlines : index.inlinesConstructor linked.name =
      context.index.inlinesConstructor linked.name := inlinesConstructor_reindex same
  unfold inlinedConstructor?
  change (if index.inlinesConstructor linked.name then _ else _) = _
  rw [inlines]

/-- An index that agrees in the facts about a class gives the same constructor. -/
theorem constructorParts_reindex :
    (context.reindex index).constructorParts linked = context.constructorParts linked := by
  unfold constructorParts
  split
  · split
    · next ctor found => rw [jsConstructorParts_reindex same found]
    · rfl
  · rw [plainConstructorParts_reindex same (by rw [inlinedConstructor?_reindex same])]

/-- The pieces of a class that share its linkage have the same code under an index that agrees in
the facts about the classes that the class refers to. -/
theorem sameClassCode_reindex : context.SameClassCode (context.reindex index) linked where
  constructorParts := constructorParts_reindex same
  fullClass := fullClass_reindex same
  exportedMember := by
    intro member found
    refine exportedMember_reindex rfl rfl same.self ?_ (parentUse_reindex same _ _)
    intro body inside owner named
    have facts := same.bodyFacts (mem_bodies_of_exportedMember found inside) owner named
    exact .of_root facts same.root
  instanceTests := congrArg Tracked.value (shellTrees_reindex same .instanceTests)
  typeData := congrArg Tracked.value (shellTrees_reindex same .typeData)
  moduleAccessor := shellTrees_reindex same .moduleAccessor
  staticFields := congrArg Tracked.value (shellTrees_reindex same .staticFields)
  staticInitializers := congrArg Tracked.value (shellTrees_reindex same .staticInitializers)

end Reindexed

/-- Programs with the same linkage of a class have the same code for the pieces of the class that
share it, in a module that both programs have, and programs with the same linkage of the root class
have the same bridges. -/
theorem classCode_of_linkage (context : Context) (linked : LinkedClass)
    (own : linked.ancestors.head? = some linked.name) {program other : Program}
    (accepted : program.validate = .ok ()) (valid : other.validate = .ok ())
    (natives : ∀ name, (ClassIndex.ofProgram program).nativeLoadSpec? name =
      (ClassIndex.ofProgram other).nativeLoadSpec? name) :
    (context.home ∈ program.modules.map Module.id → context.home ∈ other.modules.map Module.id →
      Version.Distinguished
        ((ClassIndex.ofProgram program).linkageParts (linked.referencedClasses.insert .root).toList)
        ((ClassIndex.ofProgram other).linkageParts (linked.referencedClasses.insert .root).toList) →
      ((context.reindex (.ofProgram program)).classLinkage linked).isSame
        ((context.reindex (.ofProgram other)).classLinkage linked) = true →
      (context.reindex (.ofProgram program)).SameClassCode
        (context.reindex (.ofProgram other)) linked) ∧
    (Version.Distinguished ((ClassIndex.ofProgram program).linkageParts [.root])
        ((ClassIndex.ofProgram other).linkageParts [.root]) →
      ((ClassIndex.ofProgram program).linkageVersion [.root]).isSame
        ((ClassIndex.ofProgram other).linkageVersion [.root]) = true →
      ∀ method, (context.reindex (.ofProgram other)).bridge method =
        (context.reindex (.ofProgram program)).bridge method) := by
  have agree := ClassIndex.SameNatives.of_forall natives
  constructor
  · intro here there apart linkage
    have exist : (ClassIndex.ofProgram program).rootModule? = none ↔
        (ClassIndex.ofProgram other).rootModule? = none :=
      iff_of_false (ClassIndex.rootModule?_ne_none accepted here)
        (ClassIndex.rootModule?_ne_none valid there)
    obtain ⟨roots, facts⟩ := ClassIndex.sameFacts_of_linkageVersion agree apart linkage
    have covered : ∀ owner ∈ linked.referencedClasses.insert .root,
        (ClassIndex.ofProgram program).SameFacts (.ofProgram other) owner :=
      fun owner named => facts owner (SortedSet.mem_toList.2 named)
    have named : linked.name ∈ linked.referencedClasses :=
      mem_referencedClasses_of_ancestor (List.mem_of_mem_head? own)
    have self := covered linked.name (SortedSet.mem_insert.2 (.inr named))
    have root := ClassIndex.rootModule?_eq exist roots
    have same : (context.reindex (.ofProgram program)).SameClass (.ofProgram other) linked linked :=
      ⟨rfl, rfl, .refl linked, root, self, covered⟩
    exact sameClassCode_reindex same
  · intro apart linkage method
    obtain ⟨-, facts⟩ := ClassIndex.sameFacts_of_linkageVersion agree apart linkage
    have root : (context.reindex (.ofProgram program)).index.SameFacts (.ofProgram other) .root :=
      facts .root List.mem_cons_self
    exact bridge_reindex root method

/-- Another class next to the parent of a foreign class does not change the code of the class. -/
theorem classCode_of_linkage_guest :
    let first := guestContext.reindex (.ofProgram (guestProgram ⟨"lib"⟩ []))
    let second := guestContext.reindex
      (.ofProgram (guestProgram ⟨"lib"⟩ [.start ⟨"app.L"⟩ .plain]))
    first.SameClassCode second guestClass ∧
      ∀ method, second.bridge method = first.bridge method := by
  let program := guestProgram ⟨"lib"⟩ []
  let other := guestProgram ⟨"lib"⟩ [.start ⟨"app.L"⟩ .plain]
  let names := (guestClass.referencedClasses.insert .root).toList
  have parts : (ClassIndex.ofProgram program).linkageParts names =
      (ClassIndex.ofProgram other).linkageParts names := by decide +kernel
  have roots : (ClassIndex.ofProgram program).linkageParts [.root] =
      (ClassIndex.ofProgram other).linkageParts [.root] := by decide +kernel
  have accepted : program.validate = .ok () := by decide +kernel
  have valid : other.validate = .ok () := by decide +kernel
  obtain ⟨pieces, bridges⟩ := classCode_of_linkage guestContext guestClass (by decide)
    accepted valid (ClassIndex.natives_eq (by decide +kernel) (by decide +kernel))
  constructor
  · exact pieces (by decide) (by decide) (parts ▸ .of_eq (by decide +kernel))
      (Version.isSame_of_eq (congrArg Version.fingerprintParts parts) rfl)
  · exact bridges (roots ▸ .of_eq (by decide +kernel))
      (Version.isSame_of_eq (congrArg Version.fingerprintParts roots) rfl)

end Lowering.Context

end JsEmitter
