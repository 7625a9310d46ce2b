import JsEmitter.Proofs.CaptureFree
import JsEmitter.Proofs.OutputVariables

/-!
# No host name is lost

Each piece records the tracked ones among the names that it takes from the host, and these sets are
united on the way through classes, modules and runs. What a module records is compared with its
code: every variable there is a name that one of its pieces takes from the host, or it comes from a
source that has nothing to do with the host. A union that is left out on the way leaves a variable
without a source, or a name that is taken and not recorded.
-/
namespace JsEmitter

open Js (Tree)
open Lowering (Context)

/-- Whether all variables that generation adds to code, whatever the code is, are among some
names. -/
structure Naming.Adds (naming : Naming) (names : String → Prop) : Prop where
  own : ∀ name ∈ Lowering.ownVariables, names name
  generated : ∀ (subject : Subject) (stem : String), subject.definer = .generated stem →
    names (naming.avoidClash stem)

namespace Naming.Adds

variable {setting : Setting} {naming : Naming} {names : String → Prop} (adds : naming.Adds names)

include adds

/-- Such names are among what the naming scheme may write. -/
theorem provides : naming.Provides names where
  own := adds.own
  single sort text _ := adds.generated (.single sort text) _ rfl
  member sort owner text := adds.generated (.member sort owner text) _ rfl
  castFailure := adds.generated .castFailure _ rfl
  typeDataClass := adds.generated .typeDataClass _ rfl

/-- The variables of imports are such names. -/
theorem internalImport (id : ModuleId) : names (naming.internalImport id) :=
  adds.generated (.single .internalImport id.text) _ rfl

/-- Code may refer to whatever class, and takes other names only where it writes them. -/
theorem permits (site : Site) (owners : List ClassName) {hosts locals : List String}
    (taken : ∀ name ∈ hosts, names name) (written : ∀ name ∈ locals, names name) :
    (setting.context naming site).Permits names owners hosts locals where
  supplies := { adds.provides with root := fun id _ _ => adds.internalImport id }
  reached := fun _ _ id _ _ => adds.internalImport id
  taken := taken
  written := written

end Naming.Adds

/-- The local variables that a class definition reads or assigns. -/
def Definition.locals (definition : Definition) : List String :=
  definition.ctor.locals ++ definition.members.flatMap Piece.locals ++
    definition.exported.flatMap Piece.locals

/-- The local variables that the pieces of a class read or assign. -/
def ClassPieces.locals (pieces : ClassPieces) : List String :=
  pieces.functions.flatMap Piece.locals ++ (pieces.definition?.map Definition.locals).getD [] ++
    ShellPart.all.flatMap (fun part => ((pieces.shell part).map Piece.locals).getD [])

/-- The local variables that the pieces of a module read or assign. -/
def ModulePieces.locals (pieces : ModulePieces) : List String :=
  pieces.imports.locals ++ pieces.classes.flatMap ClassPieces.locals ++
    pieces.topLevelExports.locals ++ pieces.initializers.locals

/-- Where a variable of the code of a module comes from. -/
inductive ModulePieces.Source (setting : Setting) (naming : Naming) (pieces : ModulePieces)
    (name : String) : Prop
  /-- It is taken from the host. -/
  | host : name ∈ pieces.hosts setting.config → Source setting naming pieces name
  /-- It is a local variable that the program writes. -/
  | written : name ∈ pieces.locals → Source setting naming pieces name
  /-- The module itself defines it. -/
  | defined : name ∈ (pieces.output setting naming).definedNames →
    Source setting naming pieces name
  /-- The naming scheme makes it for a definition or for an import. -/
  | generated {subject : Subject} {stem : String} : subject.definer = .generated stem →
    naming.avoidClash stem = name → Source setting naming pieces name
  /-- It is a parameter of a function that generation writes. -/
  | own : name ∈ Lowering.ownVariables → Source setting naming pieces name

section Sources

variable {setting : Setting} {naming : Naming} {names : String → Prop}
  (adds : naming.Adds names)

include adds

/-- A class definition is permitted if its host names and local names are. -/
theorem Definition.permitted {definition : Definition}
    (taken : ∀ name ∈ definition.hosts setting.config, names name)
    (written : ∀ name ∈ definition.locals, names name) :
    definition.Permitted setting naming names := by
  simp only [hosts, locals, List.forall_mem_append, List.forall_mem_flatMap] at taken written
  obtain ⟨⟨⟨ctor, members⟩, exported⟩, own⟩ := taken
  obtain ⟨⟨ctorLocals, memberLocals⟩, exportedLocals⟩ := written
  exact ⟨adds.permits _ _ ctor ctorLocals,
    fun piece found => adds.permits _ _ (members piece found) (memberLocals piece found),
    fun piece found => adds.permits _ _ (exported piece found) (exportedLocals piece found),
    adds.permits _ _ own (List.forall_mem_nil _)⟩

/-- The pieces of a class are permitted if their host names and local names are. -/
theorem ClassPieces.permitted {pieces : ClassPieces}
    (taken : ∀ name ∈ pieces.hosts setting.config, names name)
    (written : ∀ name ∈ pieces.locals, names name) : pieces.Permitted setting naming names := by
  simp only [hosts, locals, List.forall_mem_append, List.forall_mem_flatMap] at taken written
  obtain ⟨⟨⟨⟨⟨⟨functions, definition⟩, accessor⟩, tests⟩, types⟩, fields⟩, initializers⟩ := taken
  obtain ⟨⟨functionLocals, definitionLocals⟩, shellLocals⟩ := written
  have shell : ∀ part, ∀ name ∈ pieces.shellHosts setting.config part, names name := by
    intro part
    cases part <;> assumption
  refine ⟨fun piece found => adds.permits _ _ (functions piece found) (functionLocals piece found),
    fun whole found => ?_, fun part piece found => ?_⟩
  · rw [Option.mem_def.1 found] at definition definitionLocals
    exact whole.permitted adds definition definitionLocals
  · have taken := shell part
    have written := shellLocals part (by cases part <;> decide)
    unfold shellHosts at taken
    rw [Option.mem_def.1 found] at taken written
    exact adds.permits _ _ taken written

end Sources

section Modules

variable {setting : Setting} {naming : Naming} {pieces : ModulePieces}

/-- The names that have a source include all that generation adds by itself. -/
theorem ModulePieces.adds_source : naming.Adds (pieces.Source setting naming) :=
  ⟨fun _ found => .own found, fun _ _ made => .generated made rfl⟩

/-- What the pieces of a module refer to, and what generation adds, is a source of its variables. -/
theorem ModulePieces.permitted_source :
    pieces.Permitted setting naming (pieces.Source setting naming) := by
  have adds : naming.Adds (pieces.Source setting naming) := adds_source
  have taken : ∀ name ∈ pieces.hosts setting.config, pieces.Source setting naming name :=
    fun _ found => .host found
  have written : ∀ name ∈ pieces.locals, pieces.Source setting naming name :=
    fun _ found => .written found
  simp only [hosts, locals, List.forall_mem_append, List.forall_mem_flatMap] at taken written
  obtain ⟨⟨⟨⟨⟨imports, classes⟩, library⟩, exports⟩, topLevel⟩, calls⟩ := taken
  obtain ⟨⟨⟨importLocals, classLocals⟩, topLevelLocals⟩, callLocals⟩ := written
  refine ⟨adds.provides, adds.permits _ _ imports importLocals, fun piece found => ?_,
    fun classPieces found => ClassPieces.permitted adds (classes classPieces found)
      (classLocals classPieces found),
    fun exporting modules => exports _ (by simp [exporting, modules]),
    fun _ definer found => .defined ?_, adds.permits _ _ topLevel topLevelLocals,
    adds.permits _ _ calls callLocals⟩
  · rw [Option.mem_def.1 found] at library
    exact library
  · have defined : definer ∈ pieces.definers setting.config :=
      Marks.mem_definers.2 (List.mem_append_right _ (List.mem_append_left _
        (List.mem_append_left _ (List.mem_append_left _ (Marks.mem_definers.1 found)))))
    rw [output_definedNames]
    exact List.mem_map_of_mem defined

/-- Every variable of the code of a module, in its imports and in its body, has a source. -/
theorem ModulePieces.source_of_references {tree : Tree}
    (found : tree ∈ (pieces.output setting naming).trees) {name : String}
    (refers : tree.references name = true) : pieces.Source setting naming name :=
  permitted_source.output_within tree found name refers

/-- A module records exactly the tracked ones among the names that it takes from the host. -/
theorem ModulePieces.mem_output_refs {name : String} :
    name ∈ (pieces.output setting naming).refs ↔ name ∈ pieces.hosts setting.config ∧
      setting.config.tracking.tracks setting.filter name = true := by
  rw [output_refs, Setting.recorded, SortedSet.mem_ofList, List.mem_filter]

end Modules

/-- A pass records exactly what its modules do. -/
theorem PassPieces.mem_pass_refs {setting : Setting} {naming : Naming} {pieces : PassPieces}
    {name : String} : name ∈ (pieces.pass setting naming).refs ↔
      ∃ output ∈ pieces.modules.map (ModulePieces.output setting naming), name ∈ output.refs := by
  rw [pass_refs, Setting.recorded, SortedSet.mem_ofList, List.mem_filter, hosts]
  constructor
  · rintro ⟨used, tracked⟩
    obtain ⟨unit, found, here⟩ := List.mem_flatMap.1 used
    exact ⟨_, List.mem_map_of_mem found, ModulePieces.mem_output_refs.2 ⟨here, tracked⟩⟩
  · rintro ⟨output, found, recorded⟩
    obtain ⟨unit, there, rfl⟩ := List.mem_map.1 found
    obtain ⟨here, tracked⟩ := ModulePieces.mem_output_refs.1 recorded
    exact ⟨List.mem_flatMap.2 ⟨unit, there, here⟩, tracked⟩

/-- A result, whose modules are put together from pieces, loses no host name. -/
structure KeepsHostNames (setting : Setting) (history : List Program) (program : Program)
    (session : Session) (given : EmitResult) (modules : List ModulePieces) : Prop where
  made : PassOutcome setting history program (.ok ⟨modules, given.stats⟩)
  outputs : given.modules.Perm (modules.map (ModulePieces.output setting session.naming))
  /-- Every variable of the code of a module has a source. -/
  source : ∀ unit ∈ modules, ∀ tree ∈ (unit.output setting session.naming).trees, ∀ name,
    tree.references name = true → unit.Source setting session.naming name
  /-- Generated with every host name recorded, a module has the names that it takes. -/
  called : ∀ unit ∈ modules, (unit.output setting.recordingAll session.naming).refs =
    .ofList (unit.hosts setting.config)
  /-- A module records the tracked ones among the names that it takes from the host. -/
  recorded : ∀ unit ∈ modules, ∀ name, name ∈ (unit.output setting session.naming).refs ↔
    name ∈ unit.hosts setting.config ∧
      setting.config.tracking.tracks setting.filter name = true
  /-- The result records what its modules do. -/
  united : ∀ name, name ∈ given.refs ↔ ∃ output ∈ given.modules, name ∈ output.refs
  dangerous : ∀ name, name ∈ given.dangerousRefs ↔
    name ∈ given.refs ∧ setting.filter name = true
  assumed : session.assumed = given.dangerousRefs

/-- No run of an emitter loses a host name, after runs over any programs, with whatever versions, be
they emitted or not. -/
theorem Emitter.emit_keepsHostNames (setting : Setting) (supply : TokenSupply)
    (programs : List Program) (program : Program) {given : EmitResult} {reached : Emitter}
    (done : emit program ((fresh setting supply).afterAll programs) = .ok given reached) :
    ∃ modules, KeepsHostNames setting (programs ++ [program]) program reached.session given
      modules := by
  have history : ∀ earlier ∈ programs, (fresh setting default).check earlier = .ok () →
      earlier ∈ programs ++ [program] :=
    fun _ found _ => List.mem_append_left _ found
  have last : program ∈ programs ++ [program] := List.mem_append_right _ List.mem_cons_self
  have sound := (fresh_sound setting (programs ++ [program]) supply).afterAll history
  obtain ⟨pieces, passes, holds, settled, assumed, same⟩ := sound.emit_ok last done
  have outputs : given.modules.Perm
      (pieces.modules.map (ModulePieces.output setting reached.session.naming)) :=
    same ▸ List.mergeSort_perm _ _
  have refs : given.refs = (pieces.pass setting reached.session.naming).refs :=
    congrArg EmitResult.refs same
  refine ⟨pieces.modules, same ▸ holds, outputs,
    fun _ _ _ found _ refers => ModulePieces.source_of_references found refers,
    fun unit _ => ?_, fun _ _ _ => ModulePieces.mem_output_refs, fun name => ?_, fun name => ?_,
    assumed⟩
  · rw [ModulePieces.output_refs, Setting.recordingAll_recorded]
    rfl
  · rw [refs, PassPieces.mem_pass_refs]
    exact exists_congr (fun output => and_congr_left (fun _ => outputs.mem_iff.symm))
  · rw [← settled, refs, PassPieces.pass_refs, PassPieces.dangerous, HostRefs.dangerous,
      SortedSet.mem_filter]

/-- The run of a new emitter over a program that takes a dangerous name from the host. -/
theorem emit_keepsHostNames_clashing : ∃ given reached modules,
    Emitter.emit clashingProgram
      ((Emitter.fresh ⟨.standard, .standard⟩ default).afterAll []) = .ok given reached ∧
    KeepsHostNames ⟨.standard, .standard⟩ [clashingProgram] clashingProgram reached.session given
      modules := by
  have success : succeeds (Emitter.emit clashingProgram
      ((Emitter.fresh ⟨.standard, .standard⟩ default).afterAll [])) = true := by
    decide +kernel
  obtain ⟨given, reached, done⟩ := exists_of_succeeds success
  obtain ⟨modules, keeps⟩ := Emitter.emit_keepsHostNames ⟨.standard, .standard⟩ default []
    clashingProgram done
  exact ⟨given, reached, modules, done, keeps⟩

end JsEmitter
