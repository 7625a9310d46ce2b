import JsEmitter.Proofs.SessionInStep

/-!
# Emission of a class in lockstep

A family of runs emits a class as one: all runs get the same pieces for it, or all fail because
the class has no constructor. What the runs get for a piece was asked for by some program of the
history, at the same place and under the same version.
-/
namespace JsEmitter

open Js (Tree)
open Lowering (Context ConstructorParts Bootstrap)

section Made

variable (setting : Setting) (history : List Program) (site : Site) (linked : LinkedClass)

/-- The pieces of the methods inside a class definition. -/
def MembersMade (methods : List (Versioned MethodDef)) (pieces : List (Piece .tree)) : Prop :=
  List.Forall₂ (fun method piece =>
    Served setting history (.member (.ofClass site.home linked, method.value.name))
      ((setting.neutral site).methodVersion linked method) (.member site linked method.value)
      piece) methods pieces

/-- The pieces of the bridges of a class. -/
def BridgesMade (methods : List MethodName) (pieces : List (Piece .tree)) : Prop :=
  List.Forall₂ (fun method piece =>
    Served setting history (.bridge (.ofClass site.home linked, method))
      (setting.neutral site).bridgeVersion (.bridge site method) piece) methods pieces

/-- The definition that is emitted for a class: its pieces were asked for under the versions that
the class asks under, and they are its own where these versions have no token. -/
structure Definition.MadeFor (definition : Definition) : Prop where
  ctor : Requested setting history (.ctor (.ofClass site.home linked))
    ((setting.neutral site).constructorVersion linked) definition.ctor
  ownCtor : ((setting.neutral site).constructorVersion linked).isVersioned = false →
    site.constructor? linked = .ok definition.ctor
  members : ∃ methods bridges, definition.members = methods ++ bridges ∧
    MembersMade setting history site linked (Context.memberMethods linked) methods ∧
    BridgesMade setting history site linked
      ((setting.neutral site).bridgedMethods linked) bridges
  exported : List.Forall₂ (fun entry piece =>
    Served setting history (.exportedMember (.ofClass site.home linked, entry.2))
      ((setting.neutral site).exportedMemberVersion linked entry.1)
      (.exportedMember site linked entry.1.value) piece)
    linked.exportedMembers.zipIdx definition.exported
  whole : RequestedDefinition setting history (.ofClass site.home linked)
    ((setting.neutral site).classVersion linked) definition
  ownWhole : ((setting.neutral site).classVersion linked).isVersioned = false →
    definition.site = site ∧ definition.linked = linked

/-- The pieces that are emitted for a class. -/
structure ClassPieces.MadeFor (pieces : ClassPieces) : Prop where
  name : pieces.name = linked.name
  functions : List.Forall₂ (fun method piece =>
    Served setting history
      (.function (.ofClass site.home linked, method.value.home, method.value.name))
      ((setting.neutral site).methodVersion linked method) (.function site linked method.value)
      piece) (linked.requestedFunctions (setting.neutral site)) pieces.functions
  defined : linked.needsDefinition = true →
    ∃ definition, pieces.definition? = some definition ∧
      definition.MadeFor setting history site linked
  undefined : linked.needsDefinition = false → pieces.definition? = none
  present : ∀ part, linked.hasShellPart part = true →
    ∃ piece, pieces.shell part = some piece ∧
      Served setting history (.shell (.ofClass site.home linked) part)
        ((setting.neutral site).classVersion linked) (.shell site linked part) piece
  absent : ∀ part, linked.hasShellPart part = false → pieces.shell part = none

/-- What the emission of a definition ends with. -/
def DefinitionOutcome : Except EmitError Definition → Prop
  | .ok definition => definition.MadeFor setting history site linked
  | .error error => site.constructor? linked = .error error

/-- What the emission of a class ends with. -/
def ClassOutcome : Except EmitError ClassPieces → Prop
  | .ok pieces => pieces.MadeFor setting history site linked
  | .error error => linked.needsDefinition = true ∧ site.constructor? linked = .error error

end Made

variable {ι γ : Type} {kind : PieceKind} {family : Family ι} {world : Ledger ι}

/-- The issues for a list of requests: all are in the ledger, and each was asked for. -/
structure IssuedAll (family : Family ι) (place : γ → Place kind) (version : γ → Version)
    (own : γ → Piece kind) (items : List γ) (ledger : Ledger ι) (issues : List (Issue ι kind)) :
    Prop where
  held : ∀ issue ∈ issues, ledger.holds issue
  served : List.Forall₂
    (fun item issue => family.Serves (place item) (version item) (own item) issue.piece)
    items issues

/-- Issues of all items serve the pieces that the items ask for. -/
theorem IssuedAll.pieces {place : γ → Place kind} {version : γ → Version} {own : γ → Piece kind}
    {items : List γ} {ledger : Ledger ι} {issues : List (Issue ι kind)}
    (issued : IssuedAll family place version own items ledger issues) :
    List.Forall₂ (fun item piece => family.Serves (place item) (version item) (own item) piece)
      items (issues.map Issue.piece) :=
  List.forall₂_map_right_iff.2 issued.served

/-- Requests for pieces of which none fails. -/
theorem Lockstep.requestAll {items : List γ} {place : γ → Place kind} {version : γ → Version}
    {own : γ → Piece kind} {request : γ → ι → Step EmitError Caches (Artifact kind.Value)}
    (each : ∀ item ∈ items, Lockstep (SessionInStep family) world family.artifact
      (family.Issued (place item) (version item) (.ok (own item))) (request item)) :
    Lockstep (SessionInStep family) world (fun side => List.map (family.artifact side))
      (fun ledger outcome => ∃ issues, outcome = .ok issues ∧
        IssuedAll family place version own items ledger issues)
      (fun side => items.mapM (fun item => request item side)) := by
  have all := Lockstep.mapM
    (fun ledger item => family.Issued (place item) (version item)
      (.ok (own item) : Except EmitError (Piece kind)) ledger)
    (fun _ _ order _ _ issued => issued.mono order) each
  refine all.imp (fun last _ outcome gives => ?_)
  cases outcome with
  | error error =>
    obtain ⟨item, _, failed⟩ := gives.exists_error
    cases failed
  | ok issues =>
    refine ⟨issues, rfl, fun issue found => ?_, gives.forall₂.imp (fun _ _ issued => issued.serves)⟩
    obtain ⟨item, _, issued⟩ := gives.exists_of_mem found
    exact issued.1

namespace Emission

variable {program : Program} {unit : Module} {linked : LinkedClass}

section Lists

variable (emitted : program ∈ family.history) (placed : unit ∈ program.modules)
  (there : linked ∈ unit.classes)

include emitted placed there

/-- The free functions of a class are emitted in step. -/
theorem emitFunctions_lockstep (generated : linked.kind ≠ .nativeJsClass) :
    Lockstep (SessionInStep family) world (fun side => List.map (family.artifact side))
      (fun ledger outcome => ∃ issues, outcome = .ok issues ∧
        IssuedAll family
          (fun method => .function (.ofClass unit.id linked, method.value.home, method.value.name))
          ((family.setting.neutral (program.site unit)).methodVersion linked)
          (fun method => .function (program.site unit) linked method.value)
          (linked.requestedFunctions (family.setting.neutral (program.site unit))) ledger issues)
      (fun side => emitFunctions (family.context side (program.site unit)) linked) := by
  have requested : linked.requestedFunctions (family.setting.neutral (program.site unit)) =
      (family.setting.neutral (program.site unit)).freeFunctions linked := by
    simp [LinkedClass.requestedFunctions, generated]
  have every : ∀ method ∈ linked.requestedFunctions (family.setting.neutral (program.site unit)),
      Requested family.setting family.history
        (.function (.ofClass unit.id linked, method.value.home, method.value.name))
        ((family.setting.neutral (program.site unit)).methodVersion linked method)
        (.function (program.site unit) linked method.value) :=
    fun method found => ⟨program, emitted, unit, placed, .function there found⟩
  rw [requested] at every ⊢
  refine Lockstep.requestAll (fun method found => Caches.requestFunction_lockstep ?_)
  rintro piece ⟨⟩
  exact every method found

/-- The member methods of a class are emitted in step. -/
theorem emitMembers_lockstep (defined : linked.needsDefinition = true) :
    Lockstep (SessionInStep family) world (fun side => List.map (family.artifact side))
      (fun ledger outcome => ∃ issues, outcome = .ok issues ∧
        IssuedAll family (fun method => .member (.ofClass unit.id linked, method.value.name))
          ((family.setting.neutral (program.site unit)).methodVersion linked)
          (fun method => .member (program.site unit) linked method.value)
          (Context.memberMethods linked) ledger issues)
      (fun side => emitMembers (family.context side (program.site unit)) linked) := by
  refine Lockstep.requestAll (fun method found => Caches.requestMember_lockstep ?_)
  rintro piece ⟨⟩
  exact ⟨program, emitted, unit, placed, .member there defined found⟩

/-- The bridges of a class are emitted in step. -/
theorem emitBridges_lockstep (defined : linked.needsDefinition = true) :
    Lockstep (SessionInStep family) world (fun side => List.map (family.artifact side))
      (fun ledger outcome => ∃ issues, outcome = .ok issues ∧
        IssuedAll family (fun method => .bridge (.ofClass unit.id linked, method))
          (fun _ => (family.setting.neutral (program.site unit)).bridgeVersion)
          (fun method => .bridge (program.site unit) method)
          ((family.setting.neutral (program.site unit)).bridgedMethods linked) ledger issues)
      (fun side => emitBridges (family.context side (program.site unit)) linked) := by
  refine Lockstep.requestAll (fun method found => Caches.requestBridge_lockstep ?_)
  rintro piece ⟨⟩
  exact ⟨program, emitted, unit, placed, .bridge there defined found⟩

/-- The exported members of a class are emitted in step. -/
theorem emitExportedMembers_lockstep (defined : linked.needsDefinition = true) :
    Lockstep (SessionInStep family) world (fun side => List.map (family.artifact side))
      (fun ledger outcome => ∃ issues, outcome = .ok issues ∧
        IssuedAll family (fun entry => .exportedMember (.ofClass unit.id linked, entry.2))
          (fun entry =>
            (family.setting.neutral (program.site unit)).exportedMemberVersion linked entry.1)
          (fun entry => .exportedMember (program.site unit) linked entry.1.value)
          linked.exportedMembers.zipIdx ledger issues)
      (fun side => emitExportedMembers (family.context side (program.site unit)) linked) := by
  refine Lockstep.requestAll (fun entry found => Caches.requestExportedMember_lockstep ?_)
  rintro piece ⟨⟩
  exact ⟨program, emitted, unit, placed, .exportedMember there defined found⟩

/-- The constructor of a class is requested in step. -/
theorem requestConstructor_lockstep (defined : linked.needsDefinition = true) :
    Lockstep (SessionInStep family) world family.artifact
      (family.Issued (.ctor (.ofClass unit.id linked))
        ((family.setting.neutral (program.site unit)).constructorVersion linked)
        ((program.site unit).constructor? linked))
      (fun side => Caches.requestConstructor (.ofClass unit.id linked)
        ((family.context side (program.site unit)).constructorVersion linked)
        (fun _ => (family.context side (program.site unit)).constructorParts linked)) := by
  have steps : Lockstep (SessionInStep family) world family.artifact
      (family.Issued (.ctor (.ofClass unit.id linked))
        ((family.setting.neutral (program.site unit)).constructorVersion linked)
        ((program.site unit).constructor? linked))
      (fun side => Caches.requestConstructor (.ofClass unit.id linked)
        ((family.setting.neutral (program.site unit)).constructorVersion linked)
        (fun _ => ((program.site unit).constructor? linked).map (family.run side))) :=
    Caches.requestConstructor_lockstep (fun piece made =>
      ⟨program, emitted, unit, placed, .ctor there defined made⟩)
  have computes : ∀ side, (family.context side (program.site unit)).constructorParts linked =
      ((program.site unit).constructor? linked).map (family.run side) :=
    fun side => family.setting.constructorParts_eq (family.naming side) (program.site unit) linked
  simp only [computes]
  exact steps

end Lists

/-- The artifacts of issues have the values of their pieces. -/
theorem map_artifact_value (side : ι) (issues : List (Issue ι kind)) :
    (issues.map (family.artifact side)).map Artifact.value =
      (issues.map Issue.piece).map
        (fun piece => (piece.run family.setting (family.naming side)).value) := by
  simp only [List.map_map]
  rfl

/-- The artifacts of issues have the host names of their pieces. -/
theorem collect_artifacts (side : ι) (issues : List (Issue ι kind)) :
    collect (issues.map (family.artifact side)) =
      .list ((issues.map Issue.piece).map (Piece.run family.setting (family.naming side))) := by
  unfold collect
  simp only [List.map_map]
  rfl

/-- The parts of issues are the tokens of their artifacts. -/
theorem parts_artifacts (side : ι) (issues : PartIssues ι) :
    issues.parts side = ⟨some (family.artifact side issues.ctor).token,
      (issues.members.map (family.artifact side)).map Artifact.token,
      (issues.exported.map (family.artifact side)).map Artifact.token⟩ := by
  have tokens : ∀ {kind : PieceKind} (list : List (Issue ι kind)),
      (list.map (family.artifact side)).map Artifact.token =
        list.map (fun issue => issue.token side) := fun _ => List.map_map
  rw [tokens, tokens]
  rfl

/-- The definition from issues is put together from the values of their artifacts. -/
theorem definition_artifacts (side : ι) (issues : PartIssues ι) (site : Site) :
    (issues.definition site linked).run family.setting (family.naming side) =
      (family.context side site).fullClass linked (family.artifact side issues.ctor).value
        ((issues.members.map (family.artifact side)).map Artifact.value)
        ((issues.exported.map (family.artifact side)).map Artifact.value) := by
  rw [map_artifact_value side issues.members, map_artifact_value side issues.exported]
  rfl

/-- A family of runs emits a class definition as one. -/
theorem emitDefinition_lockstep (emitted : program ∈ family.history)
    (placed : unit ∈ program.modules) (there : linked ∈ unit.classes)
    (defined : linked.needsDefinition = true) :
    Lockstep (SessionInStep family) world
      (fun side => Definition.whole family.setting (family.naming side))
      (fun _ => DefinitionOutcome family.setting family.history (program.site unit) linked)
      (fun side => emitDefinition (family.context side (program.site unit)) linked) := by
  unfold emitDefinition
  refine Lockstep.bind (emitMembers_lockstep emitted placed there defined)
    (by rintro _ _ _ ⟨_, ⟨⟩, _⟩) ?_
  rintro first - methods ⟨_, ⟨⟩, methodsIssued⟩
  refine Lockstep.bind (emitBridges_lockstep emitted placed there defined)
    (by rintro _ _ _ ⟨_, ⟨⟩, _⟩) ?_
  rintro second order₂ bridges ⟨_, ⟨⟩, bridgesIssued⟩
  refine Lockstep.bind (requestConstructor_lockstep emitted placed there defined)
    (fun _ _ _ failed => failed) ?_
  rintro third order₃ ctor ctorIssued
  refine Lockstep.bind (emitExportedMembers_lockstep emitted placed there defined)
    (by rintro _ _ _ ⟨_, ⟨⟩, _⟩) ?_
  rintro fourth order₄ exported ⟨_, ⟨⟩, exportedIssued⟩
  let issues : PartIssues ι := ⟨ctor, methods ++ bridges, exported⟩
  have held : issues.Held fourth := by
    refine ⟨order₄ _ _ ctorIssued.1, fun issue found => ?_, exportedIssued.held⟩
    rcases List.mem_append.1 found with method | bridge
    · exact order₄ _ _ (order₃ _ _ (order₂ _ _ (methodsIssued.held issue method)))
    · exact order₄ _ _ (order₃ _ _ (bridgesIssued.held issue bridge))
  have admitted : RequestedDefinition family.setting family.history (.ofClass unit.id linked)
      ((family.setting.neutral (program.site unit)).classVersion linked)
      (issues.definition (program.site unit) linked) :=
    ⟨program, emitted, unit, placed, there, defined, rfl, rfl, rfl⟩
  have full := @Caches.requestFullClass_lockstep EmitError _ _ _ _ _ _ _ _ held admitted
  refine Lockstep.bind (full.congr (fun side => by
    have members : issues.members.map (family.artifact side) =
        methods.map (family.artifact side) ++ bridges.map (family.artifact side) :=
      List.map_append
    rw [@parts_artifacts _ family, definition_artifacts, members]
    rfl)) (by rintro _ _ _ ⟨_, _, ⟨⟩, _⟩) ?_
  rintro fifth order₅ ⟨definition, token⟩ ⟨_, _, ⟨⟩, made, requested, own⟩
  refine Lockstep.pureOf definition (fun side => ?_) (fun last order => ?_)
  · rw [← List.map_append, collect_artifacts, collect_artifacts, made]
    rfl
  · have ownWhole : ((family.setting.neutral (program.site unit)).classVersion linked).isVersioned =
        false → definition.site = program.site unit ∧ definition.linked = linked := by
      intro unversioned
      rw [own unversioned]
      exact ⟨rfl, rfl⟩
    rw [made]
    exact ⟨ctorIssued.2.1, ctorIssued.2.2, ⟨methods.map Issue.piece, bridges.map Issue.piece,
      List.map_append, methodsIssued.pieces, bridgesIssued.pieces⟩, exportedIssued.pieces,
      made ▸ requested, ownWhole⟩

/-- What a class gets for a piece that depends on it alone. -/
structure ShellPartMade (setting : Setting) (history : List Program) (site : Site)
    (linked : LinkedClass) (part : ShellPart) (piece? : Option (Piece .trees)) : Prop where
  present : linked.hasShellPart part = true → ∃ piece, piece? = some piece ∧
    Served setting history (.shell (.ofClass site.home linked) part)
      ((setting.neutral site).classVersion linked) (.shell site linked part) piece
  absent : linked.hasShellPart part = false → piece? = none

/-- The statements of a piece that a class need not have. -/
def optionalTrees (family : Family ι) (side : ι) : Option (Piece .trees) → Tracked (List Tree)
  | some piece => piece.run family.setting (family.naming side)
  | none => .untracked []

/-- A family of runs emits a piece of a class, if the class has it. -/
theorem emitShellPart_lockstep (emitted : program ∈ family.history)
    (placed : unit ∈ program.modules) (there : linked ∈ unit.classes) (part : ShellPart)
    {present : Bool} (decides : present = linked.hasShellPart part)
    {trees : ι → Unit → Tracked (List Tree)}
    (same : ∀ side, trees side =
      fun _ => shellTrees (family.context side (program.site unit)) linked part) :
    Lockstep (ShellOpen family (.ofClass unit.id linked)
        ((family.setting.neutral (program.site unit)).classVersion linked)
        (.shell (program.site unit) linked)) world
      (optionalTrees family)
      (fun _ outcome => ∃ piece?, outcome = .ok piece? ∧
        ShellPartMade family.setting family.history (program.site unit) linked part piece?)
      (fun side => emitShellPart (family.context side (program.site unit)) linked part present
        (trees side)) := by
  subst decides
  unfold emitShellPart
  simp only [same]
  by_cases has : linked.hasShellPart part = true
  · simp only [has, if_true]
    have requested : Requested family.setting family.history
        (.shell (.ofClass unit.id linked) part)
        ((family.setting.neutral (program.site unit)).classVersion linked)
        (.shell (program.site unit) linked part) :=
      ⟨program, emitted, unit, placed, .shell there has⟩
    refine Lockstep.bind
      (Caches.requestShellPart_lockstep (.shell (program.site unit) linked) requested)
      (by rintro _ _ _ ⟨_, ⟨⟩, _⟩) ?_
    rintro last - issue ⟨_, ⟨⟩, kept⟩
    exact Lockstep.pureOf (some issue.piece) (fun _ => rfl) (fun _ _ =>
      ⟨_, rfl, fun _ => ⟨_, rfl, kept⟩, fun lacks => by rw [has] at lacks; cases lacks⟩)
  · simp only [has]
    exact Lockstep.pureOf none (fun _ => rfl) (fun _ _ =>
      ⟨_, rfl, fun has' => (has has').elim, fun _ => rfl⟩)

/-- What belongs to each of the pieces of a shell, from five values in their order of emission. -/
def shellParts {α : Type} (accessor tests data fields initializers : α) : ShellPart → α
  | .moduleAccessor => accessor
  | .instanceTests => tests
  | .typeData => data
  | .staticFields => fields
  | .staticInitializers => initializers

/-- The pieces of a class that depend on it alone. -/
def emitShell (context : Context) (linked : LinkedClass) :
    Step EmitError Caches (ShellPart → Tracked (List Tree)) := do
  Caches.openShell (.ofClass context.home linked) (context.classVersion linked)
  let accessor ← emitShellPart context linked .moduleAccessor
    (linked.hasModuleAccessor && linked.kind.isModuleLike)
    (fun _ => context.moduleAccessor linked)
  let tests ← emitShellPart context linked .instanceTests
    (!linked.name.isRoot && linked.hasInstanceTests)
    (fun _ => .untracked (context.instanceTests linked))
  let data ← emitShellPart context linked .typeData
    (!linked.name.isRoot && linked.hasTypeData)
    (fun _ => .untracked (context.typeData linked))
  let fields ← emitShellPart context linked .staticFields true
    (fun _ => .untracked (context.staticFields linked))
  let initializers ← emitShellPart context linked .staticInitializers true
    (fun _ => .untracked (context.staticInitializers linked))
  return shellParts accessor tests data fields initializers

/-- The definition of a class, if it needs one. -/
def emitOptionalDefinition (context : Context) (linked : LinkedClass) :
    Step EmitError Caches (Tracked (List Tree)) :=
  if linked.needsDefinition then emitDefinition context linked else pure (.untracked [])

/-- The statements of a class from those of its parts. -/
def classFragments (name : ClassName) (functions definition : Tracked (List Tree))
    (shell : ShellPart → Tracked (List Tree)) : Tracked ClassFragments := do
  return {
    name := name
    main := (← functions) ++ (← definition) ++ (← shell .moduleAccessor)
    typeSupport := (← shell .instanceTests) ++ (← shell .typeData)
    staticFields := ← shell .staticFields
    staticInitializers := ← shell .staticInitializers }

/-- The emission of a class in three stages. -/
theorem emitClass_eq (context : Context) (generated : linked.kind ≠ .nativeJsClass) :
    emitClass context linked = (do
      let functions ← emitFunctions context linked
      let definition ← emitOptionalDefinition context linked
      let shell ← emitShell context linked
      return classFragments linked.name (collect functions) definition shell) := by
  unfold emitClass emitOptionalDefinition emitShell
  simp only [generated, if_false, bind_assoc, pure_bind]
  split
  · rfl
  · simp only [pure_bind]
    rfl

/-- A family of runs emits the pieces of a class that depend on it alone. -/
theorem emitShell_lockstep (emitted : program ∈ family.history)
    (placed : unit ∈ program.modules) (there : linked ∈ unit.classes)
    (generated : linked.kind ≠ .nativeJsClass) :
    Lockstep (SessionInStep family) world
      (fun side (pieces : ShellPart → Option (Piece .trees)) part =>
        optionalTrees family side (pieces part))
      (fun _ outcome => ∃ pieces, outcome = .ok pieces ∧ ∀ part,
        ShellPartMade family.setting family.history (program.site unit) linked part (pieces part))
      (fun side => emitShell (family.context side (program.site unit)) linked) := by
  have part := fun {world : Ledger ι} =>
    @emitShellPart_lockstep ι family world program unit linked emitted placed there
  refine Lockstep.within (ShellOpen family (.ofClass unit.id linked)
      ((family.setting.neutral (program.site unit)).classVersion linked)
      (.shell (program.site unit) linked)) _
    (fun _ _ _ inStep => inStep.openShell _) (fun _ _ opened => opened.session) ?_
  refine Lockstep.bind (part .moduleAccessor (by simp [LinkedClass.hasShellPart, generated])
    (fun _ => rfl)) (by rintro _ _ _ ⟨_, ⟨⟩, _⟩) ?_
  rintro first - accessor? ⟨_, ⟨⟩, accessorMade⟩
  refine Lockstep.bind (part .instanceTests (by simp [LinkedClass.hasShellPart, generated])
    (fun _ => rfl)) (by rintro _ _ _ ⟨_, ⟨⟩, _⟩) ?_
  rintro second - tests? ⟨_, ⟨⟩, testsMade⟩
  refine Lockstep.bind (part .typeData (by simp [LinkedClass.hasShellPart, generated])
    (fun _ => rfl)) (by rintro _ _ _ ⟨_, ⟨⟩, _⟩) ?_
  rintro third - data? ⟨_, ⟨⟩, dataMade⟩
  refine Lockstep.bind (part .staticFields (by simp [LinkedClass.hasShellPart, generated])
    (fun _ => rfl)) (by rintro _ _ _ ⟨_, ⟨⟩, _⟩) ?_
  rintro fourth - fields? ⟨_, ⟨⟩, fieldsMade⟩
  refine Lockstep.bind (part .staticInitializers (by simp [LinkedClass.hasShellPart, generated])
    (fun _ => rfl)) (by rintro _ _ _ ⟨_, ⟨⟩, _⟩) ?_
  rintro fifth - initializers? ⟨_, ⟨⟩, initializersMade⟩
  refine Lockstep.pureOf (shellParts accessor? tests? data? fields? initializers?)
    (fun side => ?_) (fun _ _ => ⟨_, rfl, ?_⟩)
  · funext part
    cases part <;> rfl
  · intro part
    cases part with
    | moduleAccessor => exact accessorMade
    | instanceTests => exact testsMade
    | typeData => exact dataMade
    | staticFields => exact fieldsMade
    | staticInitializers => exact initializersMade

/-- A family of runs emits the definition of a class, if it needs one. -/
theorem emitOptionalDefinition_lockstep (emitted : program ∈ family.history)
    (placed : unit ∈ program.modules) (there : linked ∈ unit.classes) :
    Lockstep (SessionInStep family) world
      (fun side (definition? : Option Definition) =>
        (definition?.map (Definition.whole family.setting (family.naming side))).getD
          (.untracked []))
      (fun _ outcome => match outcome with
        | .ok definition? =>
          (linked.needsDefinition = true → ∃ definition, definition? = some definition ∧
            definition.MadeFor family.setting family.history (program.site unit) linked) ∧
          (linked.needsDefinition = false → definition? = none)
        | .error error => linked.needsDefinition = true ∧
          (program.site unit).constructor? linked = .error error)
      (fun side => emitOptionalDefinition (family.context side (program.site unit)) linked) := by
  unfold emitOptionalDefinition
  by_cases defined : linked.needsDefinition = true
  · simp only [defined, if_true]
    refine (Lockstep.bind (emitDefinition_lockstep emitted placed there defined) ?_ ?_).congr
      (fun _ => (bind_pure _).symm)
    · exact fun _ _ _ failed => ⟨trivial, failed⟩
    · rintro last - definition made
      exact Lockstep.pureOf (some definition) (fun _ => rfl)
        (fun _ _ => ⟨fun _ => ⟨_, rfl, made⟩, by simp⟩)
  · simp only [defined]
    exact Lockstep.pureOf none (fun _ => rfl) (fun _ _ => ⟨by simp, fun _ => rfl⟩)

/-- A native class has no pieces. -/
theorem nativeClass_made (setting : Setting) (history : List Program) (site : Site)
    (native : linked.kind = .nativeJsClass) :
    ClassPieces.MadeFor setting history site linked ⟨linked.name, [], none, fun _ => none⟩ where
  name := rfl
  functions := by simp [LinkedClass.requestedFunctions, native]
  defined defined := by
    simp [LinkedClass.needsDefinition, native, ClassKind.hasDefinition, ClassKind.isClass,
      ClassKind.isJsClass] at defined
  undefined _ := rfl
  present part has := by simp [LinkedClass.hasShellPart, native] at has
  absent _ _ := rfl

/-- A family of runs emits a class as one. -/
theorem emitClass_lockstep (emitted : program ∈ family.history)
    (placed : unit ∈ program.modules) (there : linked ∈ unit.classes) :
    Lockstep (SessionInStep family) world
      (fun side => ClassPieces.fragments family.setting (family.naming side))
      (fun _ => ClassOutcome family.setting family.history (program.site unit) linked)
      (fun side => emitClass (family.context side (program.site unit)) linked) := by
  by_cases native : linked.kind = .nativeJsClass
  · unfold emitClass
    simp only [native, if_true]
    exact Lockstep.pureOf ⟨linked.name, [], none, fun _ => none⟩ (fun _ => rfl)
      (fun _ _ => nativeClass_made _ _ _ native)
  · simp only [emitClass_eq _ native]
    refine Lockstep.bind (emitFunctions_lockstep emitted placed there native)
      (by rintro _ _ _ ⟨_, ⟨⟩, _⟩) ?_
    rintro first - functions ⟨_, ⟨⟩, functionsIssued⟩
    refine Lockstep.bind (emitOptionalDefinition_lockstep emitted placed there)
      (fun _ _ _ failed => failed) ?_
    rintro second - definition? ⟨defined, undefined⟩
    refine Lockstep.bind (emitShell_lockstep emitted placed there native)
      (by rintro _ _ _ ⟨_, ⟨⟩, _⟩) ?_
    rintro third - shell ⟨_, ⟨⟩, shellMade⟩
    refine Lockstep.pureOf ⟨linked.name, functions.map Issue.piece, definition?, shell⟩
      (fun side => ?_) (fun _ _ => ?_)
    · rw [collect_artifacts]
      cases definition? <;> rfl
    · exact ⟨rfl, functionsIssued.pieces, defined, undefined,
        fun part => (shellMade part).present, fun part => (shellMade part).absent⟩

end Emission

end JsEmitter
