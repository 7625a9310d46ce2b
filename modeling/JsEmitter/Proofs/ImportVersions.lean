import JsEmitter.Linked.Building
import JsEmitter.Linked.Validation
import JsEmitter.Proofs.ExportVersions
import JsEmitter.Proofs.SameVersions

/-!
# Versions of imports and load-time calls

The version of the imports of a module tells the modules that it imports, because dependencies of
the two kinds are marked and the root module is told from its text where ids are not empty. The
version of its load-time calls tells the owners of the classes that are called. So both cover all
that the statements are made from, for every configuration and every naming scheme. Whoever produces
the program gives no version for imports, and nothing is asked of the producer for them.
-/
namespace JsEmitter

open Lowering (Context)

namespace ClassIndex

variable {first second : ClassIndex} {unit other : Module}

/-- The texts behind the version of imports are the same exactly if the texts of the root modules
and the dependencies are. -/
theorem importParts_eq_iff : first.importParts unit = second.importParts other ↔
    first.rootText = second.rootText ∧
      unit.internalDependencies = other.internalDependencies ∧
      unit.externalDependencies = other.externalDependencies := by
  constructor
  · intro same
    obtain ⟨roots, rest⟩ := List.cons.inj same
    obtain ⟨internal, external⟩ := Readable.dependencies_inj rest
    refine ⟨(String.append_right_inj _).1 roots, ?_, ?_⟩
    · exact SortedSet.ext (fun id => by simp only [← SortedSet.mem_toList, internal])
    · exact SortedSet.ext (fun source => by simp only [← SortedSet.mem_toList, external])
  · rintro ⟨roots, internal, external⟩
    rw [importParts, importParts, roots, internal, external]

end ClassIndex

namespace Lowering.Context

/-- Modules of one id with the same version of their imports have the same statements and host names
for them, and modules with the same load-time calls and the same version of these have the same
statements for the calls. The programs behind the two indexes have no module with an empty id. -/
theorem linkStatements_of_versions (context : Context) {unit other : Module}
    (id : unit.id = other.id) {program later : Program}
    (named : ∀ unit ∈ program.modules, unit.id.text ≠ "")
    (clear : ∀ unit ∈ later.modules, unit.id.text ≠ "") :
    (Version.Distinguished ((ClassIndex.ofProgram program).importParts unit)
        ((ClassIndex.ofProgram later).importParts other) →
      ((context.reindex (.ofProgram program)).importsVersion unit).isSame
        ((context.reindex (.ofProgram later)).importsVersion other) = true →
      (context.reindex (.ofProgram later)).imports other =
        (context.reindex (.ofProgram program)).imports unit) ∧
    (Version.Distinguished
        ((ClassIndex.ofProgram program).ownerParts (unit.initializers.map Initializer.owner))
        ((ClassIndex.ofProgram later).ownerParts (other.initializers.map Initializer.owner)) →
      unit.initializers = other.initializers →
      ((context.reindex (.ofProgram program)).initializersVersion unit).isSame
        ((context.reindex (.ofProgram later)).initializersVersion other) = true →
      (context.reindex (.ofProgram later)).moduleInitializers other.initializers =
        (context.reindex (.ofProgram program)).moduleInitializers unit.initializers) := by
  let here := context.reindex (.ofProgram program)
  constructor
  · intro apart same
    obtain ⟨roots, internal, external⟩ :=
      ClassIndex.importParts_eq_iff.1 (apart.isSame_iff.1 same)
    have root : (ClassIndex.ofProgram program).rootModule? =
        (ClassIndex.ofProgram later).rootModule? :=
      ClassIndex.rootModule?_eq_of_named named clear roots
    have statements : (here.reindex (.ofProgram later)).imports other = here.imports unit :=
      imports_reindex id.symm root internal.symm external.symm
    exact statements
  · intro apart calls same
    cases Version.isSame_of_combine same with
    | cons own rest =>
      cases rest with
      | cons owned =>
        rw [← calls] at apart owned ⊢
        have owners := ClassIndex.owners_eq (.ofProgram named) (.ofProgram clear)
          (apart.isSame_iff.1 owned)
        have statements : (here.reindex (.ofProgram later)).moduleInitializers unit.initializers =
            here.moduleInitializers unit.initializers :=
          moduleInitializers_reindex
            (fun call found => owners call.owner (List.mem_map_of_mem found))
        exact statements

end Lowering.Context

/-- A module that depends on another one and on two external ones, and calls a method when it is
loaded. -/
def startingModule : Module :=
  (((Module.start ⟨"app"⟩).dependOn ⟨"lib"⟩).dependOnExternal "ext:lib").addInitializer
    ⟨⟨"lib.Main"⟩, ⟨"main"⟩⟩

/-- A program of the module, the other one with some classes, and a root module. -/
def startingProgram (others : List LinkedClass) : Program :=
  ⟨[startingModule, { Module.start ⟨"lib"⟩ with classes := .start ⟨"lib.Main"⟩ .plain :: others },
    { Module.start ⟨"main"⟩ with isRoot := true, classes := [.start .root .plain] }]⟩

/-- Another class next to the one that is called changes neither the imports nor the calls of a
module, and these go through an import. -/
theorem Lowering.Context.linkStatements_of_versions_starting :
    let context : Context := { guestContext with home := ⟨"app"⟩ }
    let first := startingProgram []
    let second := startingProgram [.start ⟨"lib.Other"⟩ .plain]
    first.validate = .ok () ∧ second.validate = .ok () ∧
      (context.reindex (.ofProgram second)).imports startingModule =
        (context.reindex (.ofProgram first)).imports startingModule ∧
      (context.reindex (.ofProgram second)).moduleInitializers startingModule.initializers =
        (context.reindex (.ofProgram first)).moduleInitializers startingModule.initializers ∧
      ((context.reindex (.ofProgram first)).imports startingModule).value.length = 3 ∧
      ((context.reindex (.ofProgram first)).moduleInitializers startingModule.initializers).any
        (fun tree => tree.references "$j_lib") = true := by
  intro context first second
  have imported : (ClassIndex.ofProgram first).importParts startingModule =
      (ClassIndex.ofProgram second).importParts startingModule := by decide +kernel
  have owned : (ClassIndex.ofProgram first).ownerParts
        (startingModule.initializers.map Initializer.owner) =
      (ClassIndex.ofProgram second).ownerParts
        (startingModule.initializers.map Initializer.owner) := by decide +kernel
  have named : ∀ unit ∈ first.modules, unit.id.text ≠ "" := by decide
  have clear : ∀ unit ∈ second.modules, unit.id.text ≠ "" := by decide
  have same : startingModule.id = startingModule.id := rfl
  obtain ⟨imports, calls⟩ := linkStatements_of_versions context same named clear
  refine ⟨by decide +kernel, by decide +kernel, ?_, ?_, by decide +kernel, by decide +kernel⟩
  · exact imports (imported ▸ .of_eq (by decide +kernel))
      (Version.isSame_of_eq (congrArg Version.fingerprintParts imported) rfl)
  · refine calls (owned ▸ .of_eq (by decide +kernel)) rfl (Version.isSame_of_eq ?_ rfl)
    exact congrArg (fun parts => Version.combine
      [startingModule.initializersVersion, .fingerprintParts parts]) owned

end JsEmitter
