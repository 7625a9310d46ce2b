import JsEmitter.Proofs.FaithfulHistory
import JsEmitter.Proofs.MethodLinkage

/-!
# Versions of exports

The version of the exports of a module covers the owners of the classes whose accessors,
constructors and fields are exported. An exported function also reads facts about the classes that
its body names, which the version does not cover.
-/
namespace JsEmitter

open Lowering (Context)

namespace ClassIndex

/-- Where module ids are not empty, the text of the root tells the root module. -/
theorem rootModule?_eq_of_named {program other : Program}
    (named : ∀ unit ∈ program.modules, unit.id.text ≠ "")
    (clear : ∀ unit ∈ other.modules, unit.id.text ≠ "")
    (texts : (ofProgram program).rootText = (ofProgram other).rootText) :
    (ofProgram program).rootModule? = (ofProgram other).rootModule? := by
  have empty : ∀ {program : Program}, (∀ unit ∈ program.modules, unit.id.text ≠ "") →
      ((ofProgram program).rootModule? = none ↔ (ofProgram program).rootText = "") := by
    intro program named
    unfold rootText
    cases root : (ofProgram program).rootModule? with
    | none => simp
    | some id =>
      obtain ⟨unit, found, rfl⟩ := Option.map_eq_some_iff.1 root
      simpa using named unit (List.mem_of_find?_eq_some found)
  refine rootModule?_eq ?_ texts
  rw [empty named, empty clear, texts]

end ClassIndex

namespace Lowering.Context

/-- The version of exports is the same only if that of the owners of their classes is. -/
theorem ownerParts_isSame {context other : Context} {unit : Module}
    (same : (context.topLevelExportsVersion unit).isSame (other.topLevelExportsVersion unit) =
      true) :
    (Version.fingerprintParts (context.index.ownerParts unit.exportedClasses)).isSame
      (.fingerprintParts (other.index.ownerParts unit.exportedClasses)) = true := by
  have parts := List.forall₂_reverse_iff.2 (Version.isSame_of_combine same)
  simp only [List.reverse_append, List.reverse_cons, List.reverse_nil, List.nil_append,
    List.cons_append] at parts
  cases parts with
  | cons owners rest => exact owners

/-- Programs with the same version of the exports of a module have the same statements for them, if
they also agree in the facts that exported functions read about other classes. -/
theorem topLevelExports_of_version (context : Context) (unit : Module) {program other : Program}
    (named : ∀ unit ∈ program.modules, unit.id.text ≠ "")
    (clear : ∀ unit ∈ other.modules, unit.id.text ≠ "")
    (natives : ∀ name, (ClassIndex.ofProgram program).nativeLoadSpec? name =
      (ClassIndex.ofProgram other).nativeLoadSpec? name)
    (apart : Version.Distinguished
      ((ClassIndex.ofProgram program).ownerParts unit.exportedClasses)
      ((ClassIndex.ofProgram other).ownerParts unit.exportedClasses))
    (same : ((context.reindex (.ofProgram program)).topLevelExportsVersion unit).isSame
      ((context.reindex (.ofProgram other)).topLevelExportsVersion unit) = true)
    (covered : ∀ entry ∈ unit.topLevelExports, ∀ owner ∈ entry.reads,
      (ClassIndex.ofProgram program).linkageText owner =
        (ClassIndex.ofProgram other).linkageText owner)
    (rooted : ∀ entry ∈ unit.topLevelExports, .root ∈ entry.reads →
      (ClassIndex.ofProgram program).rootText = (ClassIndex.ofProgram other).rootText) :
    (context.reindex (.ofProgram other)).topLevelExports unit.topLevelExports =
      (context.reindex (.ofProgram program)).topLevelExports unit.topLevelExports := by
  have owned := ownerParts_isSame same
  have parts := apart.parts_eq owned
  have owners := ClassIndex.owners_eq (.ofProgram named) (.ofProgram clear) parts
  have reads : ∀ entry ∈ unit.topLevelExports, ∀ owner ∈ entry.reads,
      (context.reindex (.ofProgram program)).SameReads (.ofProgram other) owner := by
    refine fun entry found owner read => ⟨?_, ?_⟩
    · exact ClassIndex.sameFacts_of_linkageText (.of_forall natives)
        (covered entry found owner read)
    · rintro rfl
      exact ClassIndex.rootModule?_eq_of_named named clear (rooted entry found read)
  refine topLevelExports_eq_of_reads (fun entry found owner referenced => ?_) reads
  exact owners owner (List.mem_filterMap.2 ⟨entry, found, referenced⟩)

end Lowering.Context

/-- A module that exports the constructor of a class and a function that makes an instance of it. -/
def factoryModule : Module :=
  { (Module.start ⟨"main"⟩).dependOn ⟨"lib"⟩ with
    isRoot := true
    classes := [.start .root .plain]
    topLevelExports := [
      ⟨"A", .jsClass ⟨"app.A"⟩, firstVersion⟩,
      ⟨"make", .method [] (.new ⟨"app.A"⟩ ⟨"<init>"⟩ []), firstVersion⟩] }

/-- A program of the module, the class, and other classes next to the class. -/
def factoryProgram (others : List LinkedClass) : Program :=
  ⟨[factoryModule,
    { Module.start ⟨"lib"⟩ with
      classes := ((LinkedClass.start ⟨"app.A"⟩ .plain).extend .root).addConstructor ⟨"<init>"⟩ []
        (.globalRef "log") :: others }]⟩

/-- The version of the exports does not depend on the classes next to the class. -/
theorem Lowering.Context.topLevelExportsVersion_factory (others more : List LinkedClass)
    (parts : (ClassIndex.ofProgram (factoryProgram others)).ownerParts
        factoryModule.exportedClasses =
      (ClassIndex.ofProgram (factoryProgram more)).ownerParts factoryModule.exportedClasses) :
    ((guestContext.reindex (.ofProgram (factoryProgram others))).topLevelExportsVersion
        factoryModule).isSame
      ((guestContext.reindex (.ofProgram (factoryProgram more))).topLevelExportsVersion
        factoryModule) = true := by
  have owners := congrArg Version.fingerprintParts parts
  refine Version.isSame_of_eq ?_ rfl
  exact congrArg (fun version => Version.combine
    (factoryModule.topLevelExports.map TopLevelExport.version ++
      [.fingerprintParts (factoryModule.topLevelExports.map TopLevelExport.name), version])) owners

/-- An unrelated class does not change the exports. -/
theorem Lowering.Context.topLevelExports_of_version_factory :
    let first := factoryProgram []
    let second := factoryProgram [.start ⟨"app.L"⟩ .plain]
    (guestContext.reindex (.ofProgram second)).topLevelExports factoryModule.topLevelExports =
      (guestContext.reindex (.ofProgram first)).topLevelExports factoryModule.topLevelExports := by
  intro first second
  have parts : (ClassIndex.ofProgram first).ownerParts factoryModule.exportedClasses =
      (ClassIndex.ofProgram second).ownerParts factoryModule.exportedClasses := by decide +kernel
  exact topLevelExports_of_version guestContext factoryModule (by decide) (by decide)
    (ClassIndex.natives_eq (by decide +kernel) (by decide +kernel))
    (parts ▸ .of_eq (by decide +kernel)) (topLevelExportsVersion_factory _ _ parts)
    (by decide +kernel) (by decide +kernel)

/-- A subclass of the class stops the exported function from running the constructor of the class as
a part of its definition, although the version of the exports stays the same. -/
theorem Lowering.Context.topLevelExports_change_factory :
    let first := factoryProgram []
    let second := factoryProgram [(LinkedClass.start ⟨"app.B"⟩ .plain).extend ⟨"app.A"⟩]
    first.validate = .ok () ∧ second.validate = .ok () ∧
      (∀ name, (ClassIndex.ofProgram first).nativeLoadSpec? name =
        (ClassIndex.ofProgram second).nativeLoadSpec? name) ∧
      ((guestContext.reindex (.ofProgram first)).topLevelExportsVersion factoryModule).isSame
        ((guestContext.reindex (.ofProgram second)).topLevelExportsVersion factoryModule) = true ∧
      (guestContext.reindex (.ofProgram second)).topLevelExports factoryModule.topLevelExports ≠
        (guestContext.reindex (.ofProgram first)).topLevelExports
          factoryModule.topLevelExports := by
  intro first second
  have parts : (ClassIndex.ofProgram first).ownerParts factoryModule.exportedClasses =
      (ClassIndex.ofProgram second).ownerParts factoryModule.exportedClasses := by decide +kernel
  refine ⟨by decide +kernel, by decide +kernel,
    ClassIndex.natives_eq (by decide +kernel) (by decide +kernel),
    topLevelExportsVersion_factory _ _ parts, fun same => ?_⟩
  have shapes := congrArg (fun code => (code.value.flatMap Js.Tree.visited).map Js.Tree.shape) same
  exact absurd shapes (by decide +kernel)

end JsEmitter
