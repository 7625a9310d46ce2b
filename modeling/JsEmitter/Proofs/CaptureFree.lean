import JsEmitter.Proofs.EmitterRuns
import JsEmitter.Proofs.FreeNames
import JsEmitter.Linked.Building

/-!
# Definitions capture no host names

A name that the naming scheme makes starts with a dollar, and it is not an assumed one. If the
filter accepts all names that start with a dollar, then such a name is recorded wherever generated
code uses it as a host name, so the host names of a successful run that start with a dollar are all
assumed. Hence no module defines, under a name that the naming scheme has made, what any module
takes from the host.
-/
namespace JsEmitter

open Naming

/-- Whether a script declares the definition for an export of a program of the history, under the
name of the export. -/
def Definer.IsExport (setting : Setting) (history : List Program) (definer : Definer) : Prop :=
  setting.config.moduleKind = .script ∧
    ∃ program ∈ history, ∃ unit ∈ program.modules, ∃ entry ∈ unit.topLevelExports,
      definer = .exported entry.name

/-- Whether the history accounts for the name of a definition: the naming scheme has made it from a
stem that starts with a dollar, or it is the name of an export. -/
def Definer.Accounted (setting : Setting) (history : List Program) (definer : Definer) : Prop :=
  (∃ stem, definer = .generated stem ∧ looksGenerated stem) ∨ definer.IsExport setting history

/-- Whether the history accounts for all definitions among some statements. -/
def Marks.Accounted (setting : Setting) (history : List Program) (marks : Marks) : Prop :=
  ∀ definer, some definer ∈ marks → definer.Accounted setting history

namespace Marks

variable {setting : Setting} {history : List Program}

/-- The definers of marks are the marks of statements that define something. -/
@[simp] theorem mem_definers {marks : Marks} {definer : Definer} :
    definer ∈ marks.definers ↔ some definer ∈ marks := by
  simp [definers]

/-- No marks are accounted for. -/
@[simp] theorem accounted_nil : Accounted setting history [] :=
  fun _ found => (List.not_mem_nil found).elim

/-- A statement that defines nothing needs no account. -/
@[simp] theorem accounted_none {marks : Marks} :
    Accounted setting history (none :: marks) ↔ Accounted setting history marks := by
  simp [Accounted]

/-- Marks are accounted for if both parts are. -/
@[simp] theorem accounted_append {left right : Marks} :
    Accounted setting history (left ++ right) ↔
      Accounted setting history left ∧ Accounted setting history right := by
  simp only [Accounted, List.mem_append, or_imp, forall_and]

/-- A generated stem is accounted for if it looks generated. -/
@[simp] theorem accounted_stem {stem : String} {marks : Marks} :
    Accounted setting history (PieceMarks.ofStem stem :: marks) ↔
      looksGenerated stem ∧ Accounted setting history marks := by
  simp [Accounted, PieceMarks.ofStem, Definer.Accounted, Definer.IsExport]

/-- Marks of items are accounted for if those of each item are. -/
theorem accounted_flatMap {α : Type} {items : List α} {marks : α → Marks} :
    Accounted setting history (items.flatMap marks) ↔
      ∀ item ∈ items, Accounted setting history (marks item) := by
  simp only [Accounted, List.mem_flatMap]
  exact ⟨fun all item found definer there => all definer ⟨item, found, there⟩,
    fun all definer ⟨item, found, there⟩ => all item found definer there⟩

/-- Single marks of items are accounted for if each of them is. -/
theorem accounted_map {α : Type} {items : List α} {mark : α → Option Definer} :
    Accounted setting history (items.map mark) ↔
      ∀ item ∈ items, Accounted setting history [mark item] := by
  rw [← accounted_flatMap, List.map_eq_flatMap]

end Marks

namespace Piece

open PieceMarks

variable {setting : Setting} {history : List Program}

/-- What the tree of a piece defines is accounted for. -/
theorem treeMarks_accounted (piece : Piece .tree) :
    piece.treeMarks.Accounted setting history := by
  cases piece with
  | function site linked method =>
    exact Marks.accounted_stem.2
      ⟨memberName_looksGenerated _ _ (functionMark_looksGenerated _), Marks.accounted_nil⟩
  | member => simp [treeMarks]
  | bridge => simp [treeMarks]

/-- What an exported member defines is accounted for. -/
theorem exportedMember_accounted (config : Config) (member : ExportedMember) :
    (ofExportedMember config member).Accounted setting history := by
  cases member with
  | method => simp [ofExportedMember]
  | property name isStatic getter? setter? =>
    unfold ofExportedMember
    cases config.classSyntax <;> cases getter? <;> cases setter? <;> simp

/-- What the parts of a class shell define is accounted for. -/
theorem shellPart_accounted (linked : LinkedClass) (part : ShellPart) :
    (ofShellPart linked part).Accounted setting history := by
  cases part with
  | moduleAccessor => simp (disch := decide) [ofShellPart, plainName_looksGenerated]
  | instanceTests => simp (disch := decide) [ofShellPart, plainName_looksGenerated]
  | typeData =>
    cases support : linked.kind.isClass && linked.hasInstances <;>
      simp (disch := decide) [ofShellPart, support, plainName_looksGenerated]
  | staticFields =>
    refine Marks.accounted_map.2 (fun field _ => ?_)
    simp (disch := decide) [memberName_looksGenerated]
  | staticInitializers => cases found : linked.staticInitializer? <;> simp [ofShellPart, found]

/-- What imports define is accounted for. -/
theorem imports_accounted (config : Config) (index : ClassIndex) (unit : Module) :
    (ofImports config index unit).Accounted setting history := by
  unfold ofImports
  split
  · exact Marks.accounted_nil
  · refine Marks.accounted_append.2 ⟨Marks.accounted_map.2 (fun id _ => ?_),
      Marks.accounted_map.2 (fun source _ => ?_)⟩ <;>
      simp (disch := decide) [plainName_looksGenerated]

/-- Only a script names a definition as the program does, and then it is an export. -/
theorem export_accounted {program : Program} (emitted : program ∈ history) {unit : Module}
    (placed : unit ∈ program.modules) {entry : TopLevelExport}
    (there : entry ∈ unit.topLevelExports) (index : ClassIndex) (home : ModuleId) :
    (ofExport setting.config index home entry).Accounted setting history := by
  have binding : looksGenerated (plainName "$e_" entry.name) := plainName_looksGenerated _ rfl
  unfold ofExport
  refine Marks.accounted_append.2 ⟨?_, ?_⟩
  · cases entry.kind <;> simp [binding]
  · cases modules : setting.config.moduleKind with
    | script =>
      intro definer found
      cases List.mem_singleton.1 found
      exact .inr ⟨modules, program, emitted, unit, placed, entry, there, rfl⟩
    | esModule => cases exportsReference index home entry.kind <;> simp [binding]
    | commonJs => simp

/-- The history accounts for the definitions of a piece that it asked for. -/
theorem marks_accounted {place : Place .trees} {version : Version} {piece : Piece .trees}
    (requested : Requested setting history place version piece) :
    (piece.marks setting.config).Accounted setting history := by
  obtain ⟨program, emitted, unit, placed, request⟩ := requested
  cases request with
  | exportedMember => exact exportedMember_accounted _ _
  | shell => exact shellPart_accounted _ _
  | imports => exact imports_accounted _ _ _
  | topLevelExports =>
    exact Marks.accounted_flatMap.2
      (fun entry there => export_accounted emitted placed there _ _)
  | initializers => exact Marks.accounted_map.2 (fun _ _ => by simp)

end Piece

section Made

variable {setting : Setting} {history : List Program} {site : Site} {linked : LinkedClass}

open PieceMarks

/-- The history accounts for the definitions of a class definition that is emitted. -/
theorem Definition.MadeFor.accounted {definition : Definition}
    (made : definition.MadeFor setting history site linked) :
    (definition.marks setting.config).Accounted setting history := by
  have members : Marks.Accounted setting history
      (definition.members.flatMap Piece.treeMarks ++
        definition.exported.flatMap (Piece.marks setting.config)) := by
    refine Marks.accounted_append.2 ⟨Marks.accounted_flatMap.2
      (fun piece _ => piece.treeMarks_accounted), Marks.accounted_flatMap.2 (fun piece found => ?_)⟩
    obtain ⟨entry, -, served⟩ := exists_of_forall₂ made.exported found
    exact Piece.marks_accounted served.requested
  unfold marks ofDefinition
  cases setting.config.classSyntax <;> cases definition.linked.kind.isJsClass <;>
    cases definition.ctor.hasParent setting.config <;>
    simp (disch := decide) [members, plainName_looksGenerated]

/-- The history accounts for the definitions of a class that is emitted. -/
theorem ClassPieces.MadeFor.accounted {pieces : ClassPieces}
    (made : pieces.MadeFor setting history site linked) :
    (pieces.mainMarks setting.config).Accounted setting history ∧
      ∀ part, (pieces.shellMarks setting.config part).Accounted setting history := by
  have shell : ∀ part, (pieces.shellMarks setting.config part).Accounted setting history := by
    intro part
    unfold shellMarks
    cases present : linked.hasShellPart part with
    | false =>
      rw [made.absent part present]
      exact Marks.accounted_nil
    | true =>
      obtain ⟨piece, found, served⟩ := made.present part present
      rw [found]
      exact Piece.marks_accounted served.requested
  refine ⟨Marks.accounted_append.2 ⟨Marks.accounted_append.2 ⟨?_, ?_⟩, shell _⟩, shell⟩
  · exact Marks.accounted_flatMap.2 (fun piece _ => piece.treeMarks_accounted)
  · cases defined : linked.needsDefinition with
    | false =>
      rw [made.undefined defined]
      exact Marks.accounted_nil
    | true =>
      obtain ⟨definition, found, definitionMade⟩ := made.defined defined
      rw [found]
      exact definitionMade.accounted

/-- What comes before the root class is accounted for. -/
theorem beforeRoot_accounted : beforeRoot.Accounted setting history :=
  Marks.accounted_stem.2 ⟨by decide, Marks.accounted_nil⟩

/-- What follows the root class is accounted for. -/
theorem afterRoot_accounted (config : Config) : (afterRoot config).Accounted setting history := by
  have root := fun {mark : String} => @plainName_looksGenerated mark ClassName.root.text
  refine Marks.accounted_stem.2 ⟨by decide, Marks.accounted_append.2 ⟨?_, ?_⟩⟩
  · split
    · exact Marks.accounted_nil
    · exact Marks.accounted_map.2 (fun _ _ => by simp)
  · exact Marks.accounted_stem.2 ⟨root (by decide), Marks.accounted_stem.2 ⟨root (by decide),
      Marks.accounted_stem.2 ⟨root (by decide), Marks.accounted_nil⟩⟩⟩

/-- What follows the other classes is accounted for. -/
theorem afterClasses_accounted : afterClasses.Accounted setting history :=
  Marks.accounted_map.2 (fun _ _ => Marks.accounted_stem.2
    ⟨looksGenerated_append _ (by decide), Marks.accounted_nil⟩)

/-- The history accounts for the definitions of a module that is emitted. -/
theorem ModulePieces.MadeFor.accounted {program : Program} {unit : Module}
    {pieces : ModulePieces} (made : pieces.MadeFor setting history program unit) :
    (pieces.marks setting.config).Accounted setting history := by
  have classes : ∀ classPieces ∈ pieces.classes,
      (classPieces.mainMarks setting.config).Accounted setting history ∧
        ∀ part, (classPieces.shellMarks setting.config part).Accounted setting history := by
    intro classPieces found
    obtain ⟨linked, -, classMade⟩ := exists_of_forall₂ made.classes found
    exact classMade.accounted
  have library : ∀ {marks : Marks}, marks.Accounted setting history →
      (pieces.libraryMarks marks).Accounted setting history := by
    intro marks accounted
    unfold libraryMarks
    split
    · exact accounted
    · exact Marks.accounted_nil
  have statements : (pieces.statementMarks setting.config).Accounted setting history := by
    simp only [statementMarks, Marks.accounted_append, Marks.accounted_flatMap]
    refine ⟨⟨⟨⟨⟨⟨⟨library beforeRoot_accounted, ?_⟩, library (afterRoot_accounted _)⟩, ?_⟩, ?_⟩,
      library afterClasses_accounted⟩,
      fun _ found => (classes _ found).2 _⟩, fun _ found => (classes _ found).2 _⟩
    · exact fun _ found => (classes _ (List.mem_of_mem_filter found)).1
    · split <;> simp
    · intro classPieces found
      have classMade := classes _ (List.mem_of_mem_filter found)
      exact ⟨classMade.1, Marks.accounted_append.2 ⟨classMade.2 _, classMade.2 _⟩⟩
  have internal : (pieces.internalMarks setting.config).Accounted setting history := by
    unfold internalMarks
    split
    · cases setting.config.moduleKind with
      | script => exact Marks.accounted_nil
      | esModule => simp
      | commonJs => exact Marks.accounted_map.2 (fun _ _ => by simp)
    · exact Marks.accounted_nil
  simp only [marks, bodyMarks, Marks.accounted_append]
  exact ⟨Piece.marks_accounted made.imports.requested, ⟨⟨statements, internal⟩,
    Piece.marks_accounted made.topLevelExports.requested⟩,
    Piece.marks_accounted made.initializers.requested⟩

end Made

/-- The setting in which every host name is recorded. -/
def Setting.recordingAll (setting : Setting) : Setting := ⟨setting.config, fun _ => true⟩

/-- In such a setting all names of a list are recorded. -/
theorem Setting.recordingAll_recorded (setting : Setting) (names : List String) :
    setting.recordingAll.recorded names = .ofList names := by
  have all : ∀ name, setting.config.tracking.tracks (fun _ => true) name = true := by
    intro name
    cases setting.config.tracking <;> rfl
  simp [recorded, recordingAll, all]

/-- In a pass that uses the dangerous names that its session assumes, no module takes a name from
the host that the naming scheme has made. -/
theorem PassPieces.avoidClash_not_mem_hosts {setting : Setting} {pieces : PassPieces}
    {naming : Naming} (settled : pieces.dangerous setting = naming.assumed)
    (accepts : ∀ name, looksGenerated name → setting.filter name = true) {stem : String}
    (looks : looksGenerated stem) {other : ModulePieces} (found : other ∈ pieces.modules) :
    naming.avoidClash stem ∉ other.hosts setting.config := by
  intro used
  have accepted := accepts _ (avoidClash_looksGenerated naming looks)
  have tracked : setting.config.tracking.tracks setting.filter (naming.avoidClash stem) = true := by
    cases tracking : setting.config.tracking with
    | all => rfl
    | dangerous => exact accepted
  refine naming.avoidClash_free stem ?_
  rw [← settled, dangerous, HostRefs.dangerous, SortedSet.mem_filter, Setting.recorded,
    SortedSet.mem_ofList, List.mem_filter]
  exact ⟨⟨List.mem_flatMap.2 ⟨other, found, used⟩, tracked⟩, accepted⟩

/-- The modules of a result, put together from pieces, capture no host name: none of them defines,
under a name that the naming scheme has made, what any of them takes from the host. Generated with
every host name recorded, their code has all names that it takes from the host. -/
structure CaptureFree (setting : Setting) (history : List Program) (program : Program)
    (naming : Naming) (given : EmitResult) (modules : List ModulePieces) : Prop where
  made : PassOutcome setting history program (.ok ⟨modules, given.stats⟩)
  outputs : given.modules.Perm (modules.map (ModulePieces.output setting naming))
  defined : ∀ unit ∈ modules, (unit.output setting naming).definedNames =
    (unit.definers setting.config).map (Definer.name naming)
  free : ∀ unit ∈ modules, ∀ definer ∈ unit.definers setting.config,
    definer.IsExport setting history ∨
      ∀ other ∈ modules, definer.name naming ∉ (other.output setting.recordingAll naming).refs

/-- The result of an emitter captures no host name, after runs over any programs, with whatever
versions, be they emitted or not. -/
theorem Emitter.emit_captureFree (setting : Setting) (supply : TokenSupply)
    (programs : List Program) (program : Program)
    (accepts : ∀ name : String, name.toList.head? = some '$' → setting.filter name = true)
    {given : EmitResult} {reached : Emitter}
    (done : emit program ((fresh setting supply).afterAll programs) = .ok given reached) :
    ∃ modules, CaptureFree setting (programs ++ [program]) program reached.session.naming given
      modules := by
  have history : ∀ earlier ∈ programs, (fresh setting default).check earlier = .ok () →
      earlier ∈ programs ++ [program] :=
    fun _ found _ => List.mem_append_left _ found
  have last : program ∈ programs ++ [program] := List.mem_append_right _ List.mem_cons_self
  have sound := (fresh_sound setting (programs ++ [program]) supply).afterAll history
  obtain ⟨pieces, passes, holds, settled, assumed, same⟩ := sound.emit_ok last done
  refine ⟨pieces.modules, holds, same ▸ List.mergeSort_perm _ _,
    fun unit _ => unit.output_definedNames _ _, fun unit found definer defined => ?_⟩
  obtain ⟨source, -, outcome⟩ := Gives.exists_of_mem holds found
  cases outcome with
  | made made =>
    rcases made.accounted definer (Marks.mem_definers.1 defined) with
      ⟨stem, rfl, looks⟩ | exported
    · right
      intro other there
      rw [ModulePieces.output_refs, Setting.recordingAll_recorded, SortedSet.mem_ofList]
      exact PassPieces.avoidClash_not_mem_hosts (settled.trans assumed.symm) accepts looks there
    · exact .inl exported

/-- A program with one class, which takes from the host the name that its own method gets first. -/
def clashingProgram : Program :=
  ⟨[{ Module.start ⟨"main"⟩ with
    isRoot := true
    classes := [(LinkedClass.start ⟨"A"⟩ .plain).addMethod
      ⟨⟨"run"⟩, .staticPublic, [], .globalRef "$s_A__run"⟩ firstVersion] }]⟩

/-- Whether a run succeeds. -/
def succeeds : EStateM.Result EmitError Emitter EmitResult → Bool
  | .ok _ _ => true
  | .error _ _ => false

/-- A run that succeeds gives a result. -/
theorem exists_of_succeeds {outcome : EStateM.Result EmitError Emitter EmitResult}
    (success : succeeds outcome = true) : ∃ given reached, outcome = .ok given reached := by
  cases outcome with
  | ok given reached => exact ⟨given, reached, rfl⟩
  | error => cases success

/-- The run of a new emitter over a program whose names clash. -/
theorem emit_captureFree_clashing : ∃ given reached modules,
    Emitter.emit clashingProgram
      ((Emitter.fresh ⟨.standard, .standard⟩ default).afterAll []) = .ok given reached ∧
    CaptureFree ⟨.standard, .standard⟩ [clashingProgram] clashingProgram reached.session.naming
      given modules := by
  have success : succeeds (Emitter.emit clashingProgram
      ((Emitter.fresh ⟨.standard, .standard⟩ default).afterAll [])) = true := by
    decide +kernel
  obtain ⟨given, reached, done⟩ := exists_of_succeeds success
  have accepts : ∀ name : String, name.toList.head? = some '$' →
      DangerFilter.standard name = true := by
    intro name looks
    simp [DangerFilter.standard, looks]
  obtain ⟨modules, free⟩ := Emitter.emit_captureFree ⟨.standard, .standard⟩ default []
    clashingProgram accepts done
  exact ⟨given, reached, modules, done, free⟩

end JsEmitter
