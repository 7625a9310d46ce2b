import JsEmitter.Proofs.ClassInStep
import JsEmitter.Proofs.ModuleAccount

/-!
# A pass in lockstep

A family of runs makes a pass over a program as one. In a program of the history, all runs get the
same pieces for every module, and their counters agree; or all runs fail, at the same module and
with the same error.
-/
namespace JsEmitter

open Js (Tree)
open Lowering (Context ConstructorParts Bootstrap)

section Made

variable (setting : Setting) (history : List Program) (program : Program) (unit : Module)

/-- The pieces that are emitted for a module of a program. -/
structure ModulePieces.MadeFor (pieces : ModulePieces) : Prop where
  site : pieces.site = program.site unit
  id : pieces.id = unit.id
  exported : pieces.exported =
    (Emission.importedIds program (.ofProgram program)).contains unit.id
  imports : Served setting history (.modulePart unit.id .imports)
    ((setting.neutral (program.site unit)).importsVersion unit)
    (.imports (program.site unit) unit) pieces.imports
  library : pieces.library?.isSome = unit.isRoot
  classes : List.Forall₂ (ClassPieces.MadeFor setting history (program.site unit))
    unit.emissionOrder pieces.classes
  topLevelExports : Served setting history (.modulePart unit.id .topLevelExports)
    ((setting.neutral (program.site unit)).topLevelExportsVersion unit)
    (.topLevelExports (program.site unit) unit.topLevelExports) pieces.topLevelExports
  initializers : Served setting history (.modulePart unit.id .initializers)
    ((setting.neutral (program.site unit)).initializersVersion unit)
    (.initializers (program.site unit) unit.initializers) pieces.initializers

/-- What the emission of a module ends with: its pieces, the error of one of its classes, or the
error of a module for which nothing was generated. -/
inductive ModuleOutcome : Except EmitError ModulePieces → Prop
  | made {pieces : ModulePieces} : pieces.MadeFor setting history program unit →
    (pieces.bodyMarks setting.config).isEmpty = false → ModuleOutcome (.ok pieces)
  | failed {error : EmitError} :
    Gives (ClassOutcome setting history (program.site unit)) unit.emissionOrder (.error error) →
      ModuleOutcome (.error error)
  | blank {pieces : ModulePieces} : pieces.MadeFor setting history program unit →
    (pieces.bodyMarks setting.config).isEmpty = true →
      ModuleOutcome (.error (.emptyModule unit.id (unit.classes.map LinkedClass.name)))

end Made

/-- The pieces of all modules of a pass, with its counters. -/
structure PassPieces where
  modules : List ModulePieces
  stats : EmitStats

/-- What a pass gives under a naming scheme. -/
def PassPieces.pass (setting : Setting) (naming : Naming) (pieces : PassPieces) : Pass :=
  ⟨pieces.modules.map (ModulePieces.output setting naming), pieces.stats⟩

/-- What a pass over a program ends with. -/
def PassOutcome (setting : Setting) (history : List Program) (program : Program) :
    Except EmitError PassPieces → Prop
  | .ok pieces => Gives (ModuleOutcome setting history program) program.dependencyOrder
      (.ok pieces.modules)
  | .error error => Gives (ModuleOutcome setting history program) program.dependencyOrder
      (.error error)

/-- The classes of a module in their order of emission are its classes. -/
theorem Module.mem_emissionOrder {unit : Module} {linked : LinkedClass} :
    linked ∈ unit.emissionOrder ↔ linked ∈ unit.classes :=
  (List.mergeSort_perm unit.classes comesFirst).mem_iff

/-- The modules in the order of their dependencies are modules of the program. -/
theorem Program.mem_of_mem_dependencyOrder {program : Program} {unit : Module}
    (found : unit ∈ program.dependencyOrder) : unit ∈ program.modules := by
  have sorted : ∀ {unit : Module}, unit ∈ program.sortedModules → unit ∈ program.modules :=
    fun found => (List.mergeSort_perm program.modules _).mem_iff.1 found
  simp only [dependencyOrder] at found
  split at found
  · obtain ⟨position, -, there⟩ := List.mem_filterMap.1 found
    exact sorted (List.mem_of_getElem? there)
  · exact sorted found

variable {ι : Type} {family : Family ι} {world : Ledger ι}

namespace Emission

variable {program : Program} {unit : Module}

/-- The bootstrap library of a root module is the one that was requested. -/
theorem bootstrapOf_artifact (side : ι) {issue? : Option (Issue ι .library)}
    (library : issue?.isSome = unit.isRoot) :
    bootstrapOf unit (issue?.map (family.artifact side)) =
      .option ((issue?.map Issue.piece).map (Piece.run family.setting (family.naming side))) := by
  cases issue? with
  | none => rfl
  | some issue =>
    have root : unit.isRoot = true := library.symm
    simp only [bootstrapOf, root, Option.map_some, Option.filter, if_true]
    rfl

/-- A family of runs emits a module as one. -/
theorem emitModule_lockstep (emitted : program ∈ family.history)
    (placed : unit ∈ program.modules) {issue? : Option (Issue ι .library)}
    (library : issue?.isSome = unit.isRoot) :
    Lockstep (SessionInStep family) world
      (fun side => ModulePieces.output family.setting (family.naming side))
      (fun _ => ModuleOutcome family.setting family.history program unit)
      (fun side => emitModule (family.context side (program.site unit))
        (issue?.map (family.artifact side)) unit
        ((importedIds program (.ofProgram program)).contains unit.id)) := by
  unfold emitModule
  have part := fun {world : Ledger ι} {part : ModulePart} {version : Version}
      {piece : Piece .trees}
      (request : Request family.setting (program.site unit) unit (.modulePart unit.id part)
        version piece) =>
    @Caches.requestModulePart_lockstep EmitError ι family world version unit.id part (.ok piece)
      (by rintro _ ⟨⟩; exact ⟨program, emitted, unit, placed, request⟩)
  refine Lockstep.bind (part .imports) (by rintro _ _ _ ⟨⟩) ?_
  rintro first - imports importsIssued
  refine Lockstep.bind (Lockstep.mapM
    (fun _ => ClassOutcome family.setting family.history (program.site unit))
    (fun _ _ _ _ _ holds => holds)
    (fun linked found => emitClass_lockstep emitted placed (Module.mem_emissionOrder.1 found)))
    (fun _ _ _ failed => .failed failed) ?_
  rintro second - classes made
  refine Lockstep.bind (part .topLevelExports) (by rintro _ _ _ ⟨⟩) ?_
  rintro third - exports exportsIssued
  refine Lockstep.bind (part .initializers) (by rintro _ _ _ ⟨⟩) ?_
  rintro fourth - initializers initializersIssued
  let pieces : ModulePieces := {
    site := program.site unit
    id := unit.id
    exported := (importedIds program (.ofProgram program)).contains unit.id
    imports := imports.piece
    library? := issue?.map Issue.piece
    classes := classes
    topLevelExports := exports.piece
    initializers := initializers.piece }
  have madeFor : pieces.MadeFor family.setting family.history program unit := {
    site := rfl
    id := rfl
    exported := rfl
    imports := importsIssued.serves
    library := by simpa [pieces] using library
    classes := made.forall₂
    topLevelExports := exportsIssued.serves
    initializers := initializersIssued.serves }
  have body : ∀ side, (pieces.body family.setting (family.naming side)).isEmpty =
      (pieces.bodyMarks family.setting.config).isEmpty :=
    fun side => (pieces.body_marks family.setting (family.naming side)).isEmpty
  simp only [bootstrapOf_artifact _ library]
  change Lockstep _ _ _ _ (fun side =>
    if (pieces.body family.setting (family.naming side)).isEmpty = true then _ else _)
  simp only [body]
  cases blank : (pieces.bodyMarks family.setting.config).isEmpty with
  | true => exact Lockstep.throw _ (fun _ _ => .blank madeFor blank)
  | false => exact Lockstep.pureOf pieces (fun _ => rfl) (fun _ _ => .made madeFor blank)

/-- A family of runs emits the bootstrap library in the root module. -/
theorem emitBootstrap_lockstep :
    Lockstep (SessionInStep family) world
      (fun side (issue? : Option (Issue ι .library)) => issue?.map (family.artifact side))
      (fun _ outcome => ∃ issue?, outcome = .ok issue? ∧ issue?.isSome = unit.isRoot)
      (fun side => emitBootstrap (family.context side (program.site unit)) unit) := by
  unfold emitBootstrap
  cases root : unit.isRoot with
  | true =>
    have request := @Caches.requestBootstrap_lockstep EmitError ι family world (program.site unit)
    refine Lockstep.bind request (by rintro _ _ _ ⟨_, ⟨⟩, _⟩) ?_
    rintro last - issue -
    exact Lockstep.pureOf (some issue) (fun _ => rfl) (fun _ _ => ⟨_, rfl, rfl⟩)
  | false => exact Lockstep.pureOf none (fun _ => rfl) (fun _ _ => ⟨_, rfl, rfl⟩)

/-- A family of runs emits a module of a program, with the bootstrap library if it is the root. -/
theorem emitUnit_lockstep (emitted : program ∈ family.history)
    (placed : unit ∈ program.modules) :
    Lockstep (SessionInStep family) world
      (fun side => ModulePieces.output family.setting (family.naming side))
      (fun _ => ModuleOutcome family.setting family.history program unit)
      (fun side => emitUnit (fun home => family.context side ⟨.ofProgram program, home⟩)
        (importedIds program (.ofProgram program)) unit) := by
  unfold emitUnit
  refine Lockstep.bind emitBootstrap_lockstep (by rintro _ _ _ ⟨_, ⟨⟩, _⟩) ?_
  rintro last - issue? ⟨_, ⟨⟩, library⟩
  exact emitModule_lockstep emitted placed library

/-- A family of runs makes a pass over a program as one. -/
theorem emitPass_lockstep (emitted : program ∈ family.history) :
    Lockstep (SessionInStep family) world
      (fun side => PassPieces.pass family.setting (family.naming side))
      (fun _ => PassOutcome family.setting family.history program)
      (fun side => emitPass family.setting.config family.setting.filter (family.naming side)
        program) := by
  unfold emitPass
  refine Lockstep.bind (Lockstep.update (fun _ => Caches.startRun)
    (fun _ _ _ inStep => ⟨inStep.sound, inStep.caches.startRun⟩)) (by rintro _ _ _ ⟨⟩) ?_
  rintro first - _ ⟨⟩
  refine Lockstep.bind (Lockstep.mapM
    (fun _ => ModuleOutcome family.setting family.history program) (fun _ _ _ _ _ holds => holds)
    (fun unit found => emitUnit_lockstep emitted (Program.mem_of_mem_dependencyOrder found)))
    (fun _ _ _ failed => failed) ?_
  rintro second - modules gives
  refine Lockstep.bind Lockstep.look (by rintro _ _ _ ⟨_, ⟨⟩, _⟩) ?_
  rintro third - seen ⟨_, ⟨⟩, inStep⟩
  obtain ⟨stats, same⟩ := inStep.caches.stats
  refine Lockstep.bind (Lockstep.update (fun _ => Caches.endRun)
    (fun _ _ _ inStep => ⟨inStep.sound, inStep.caches.endRun⟩)) (by rintro _ _ _ ⟨⟩) ?_
  rintro fourth - _ ⟨⟩
  exact Lockstep.pureOf ⟨modules, stats⟩ (fun side => by rw [same side]; rfl) (fun _ _ => gives)

end Emission

end JsEmitter
