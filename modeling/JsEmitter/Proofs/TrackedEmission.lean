import JsEmitter.Proofs.ClassInStep
import JsEmitter.Proofs.KeptNames

/-!
# Emission under several tracking modes

Emissions that differ in the tracking mode alone make the same requests in the same order, for
pieces that are the same but for the host names that each mode tracks. So they give the same
statements, fail together, and leave caches that are the same but for these names.
-/
namespace JsEmitter

open Js (Tree)
open Lowering (Context ConstructorParts Bootstrap)

variable {ε ι α γ : Type}

/-- The host names that the modes of some runs track. -/
def Tracking.kept (filter : DangerFilter) (modes : ι → Tracking) (side : ι) : String → Bool :=
  (modes side).tracks filter

/-- The output with the host names that are kept. -/
def ModuleOutput.only (names : String → Bool) (output : ModuleOutput) :
    ModuleOutput :=
  { output with refs := output.refs.filter names }

/-- The pass with the host names that are kept. -/
def Pass.only (names : String → Bool) (pass : Pass) : Pass :=
  { pass with outputs := pass.outputs.map (ModuleOutput.only names) }

namespace Caches

/-! ## Requests to the caches of a session -/

section Requests

variable (kept : ι → String → Bool) (version : Version)

/-- Requests of keyed caches differ in the kept names only. -/
theorem requestKeyed_keepNames (sort : KeyedSort) (key : sort.Key)
    (own : Except ε (Tracked sort.Value)) :
    KeepNames Caches.only Artifact.only kept
      (fun side => requestKeyed sort key version
        (fun _ => own.map (Tracked.only (kept side)))) := by
  refine KeepNames.onPart ?_ ?_ (KeyedCache.request_keepNames kept key own)
  · rintro names caches
    cases sort <;> rfl
  · rintro names caches reached
    cases sort <;> rfl

/-- Requests of class definitions differ in the kept names only. -/
theorem requestFullClass_keepNames (key : ClassKey) (parts : DefinitionParts)
    (own : Tracked (List Tree)) :
    KeepNames Caches.only Artifact.only kept
      (fun side => (requestFullClass key version parts
        (fun _ => .ok (own.only (kept side))) : Step ε _ _)) :=
  KeepNames.onPart (fun _ _ => rfl) (fun _ _ _ => rfl)
    (FullClassCache.request_keepNames kept key parts own)

/-- Requests of parts of a module differ in the kept names only. -/
theorem requestModulePart_keepNames (id : ModuleId) (part : ModulePart)
    (own : Tracked (List Tree)) :
    KeepNames Caches.only Artifact.only kept
      (fun side => (requestModulePart id part version
        (fun _ => .ok (own.only (kept side))) : Step ε _ _)) :=
  KeepNames.onPart (fun _ _ => rfl) (fun _ _ _ => rfl)
    (ModuleCaches.request_keepNames kept id part (.ok own))

/-- Requests of the bootstrap library differ in the kept names only. -/
theorem requestBootstrap_keepNames (own : Tracked Bootstrap) :
    KeepNames Caches.only Artifact.only kept
      (fun side => (requestBootstrap (fun _ => .ok (own.only (kept side))) : Step ε _ _)) :=
  KeepNames.onPart (fun _ _ => rfl) (fun _ _ _ => rfl) (OneTimeSlot.request_keepNames kept own)

/-- Opening a class shell does not depend on the kept names. -/
theorem openShell_keepNames (key : ClassKey) :
    KeepNames Caches.only (fun _ value => value) kept
      (fun _ => (openShell key version : Step ε Caches Unit)) := by
  refine KeepNames.update _ (fun names caches => ?_)
  have opened : (caches.classes.only names).openShell key version =
      (caches.classes.openShell key version).only names := by
    have found : ((caches.classes.only names).shells.get? key).filter
          (fun shell => shell.version.isSame version) =
        ((caches.classes.shells.get? key).filter
          (fun shell => shell.version.isSame version)).map (ClassShell.only names) := by
      simp only [ClassCaches.only, Table.get?_mapValues, Option.filter_map]
      rfl
    unfold ClassCaches.openShell
    rw [found]
    cases (caches.classes.shells.get? key).filter (fun shell => shell.version.isSame version) <;>
      simp only [Option.map_some, Option.map_none, ClassCaches.only, ← Table.put_mapValues] <;> rfl
  simp only [Caches.only, opened]

/-- Requests of parts of a class shell differ in the kept names only. -/
theorem requestShellPart_keepNames (key : ClassKey) (part : ShellPart)
    (own : Tracked (List Tree)) :
    KeepNames Caches.only Artifact.only kept
      (fun side => (requestShellPart key part
        (fun _ => .ok (own.only (kept side))) : Step ε _ _)) := by
  refine KeepNames.onPart (fun names caches => ?_) (fun names caches reached => ?_)
    (OneTimeSlot.request_keepNames kept own)
  · simp only [Caches.only, ClassCaches.slot, ClassCaches.only, Table.get?_mapValues]
    cases caches.classes.shells.get? key <;> rfl
  · have slotted : (caches.classes.only names).withSlot key part (reached.1.only names) =
        (caches.classes.withSlot key part reached.1).only names := by
      simp only [ClassCaches.withSlot, ClassCaches.only, Table.get?_mapValues]
      cases caches.classes.shells.get? key with
      | none => rfl
      | some shell =>
        have same : (shell.only names).withSlot part (reached.1.only names) =
            (shell.withSlot part reached.1).only names := by
          simp only [ClassShell.withSlot, ClassShell.only, ClassShell.mk.injEq, true_and]
          funext other
          split <;> rfl
        simp only [Option.map_some, same, Table.put_mapValues]
    simp only [Caches.only, slotted]

/-- A request to a keyed cache for every element of a list. -/
theorem mapM_requestKeyed_keepNames (sort : KeyedSort) {items : List γ} {key : γ → sort.Key}
    {version : γ → Version} {own : ι → γ → Tracked sort.Value} (whole : γ → Tracked sort.Value)
    (same : ∀ side item, own side item = (whole item).only (kept side)) :
    KeepNames Caches.only (fun names => List.map (Artifact.only names)) kept
      (fun side => (items.mapM (fun item => requestKeyed sort (key item) (version item)
        (fun _ => .ok (own side item))) : Step ε Caches _)) := by
  refine KeepNames.mapM (fun item _ => ?_)
  simp only [same]
  exact requestKeyed_keepNames kept (version item) sort (key item) (.ok (whole item))

end Requests

end Caches

namespace Emission

/-! ## Classes -/

/-- Forgetting recorded names and collecting artifacts can be exchanged. -/
@[simp] theorem collect_only (names : String → Bool) (artifacts : List (Artifact α)) :
    collect (artifacts.map (Artifact.only names)) = (collect artifacts).only names := by
  simp only [collect, Tracked.only_list, List.map_map]
  rfl

/-- Forgetting recorded names keeps the tokens of artifacts. -/
@[simp] theorem map_token_only (names : String → Bool) (artifacts : List (Artifact α)) :
    (artifacts.map (Artifact.only names)).map Artifact.token = artifacts.map Artifact.token := by
  rw [List.map_map]
  rfl

/-- Forgetting recorded names keeps the values of artifacts. -/
@[simp] theorem map_value_only (names : String → Bool) (artifacts : List (Artifact α)) :
    (artifacts.map (Artifact.only names)).map Artifact.value = artifacts.map Artifact.value := by
  rw [List.map_map]
  rfl

variable (context : Context) (modes : ι → Tracking)

section Classes

variable (linked : LinkedClass)

/-- The free functions of a class differ under the modes in the kept names only. -/
theorem emitFunctions_keepNames :
    KeepNames Caches.only (fun names => List.map (Artifact.only names))
      (Tracking.kept context.filter modes)
      (fun side => emitFunctions (context.under (modes side)) linked) := by
  change KeepNames _ _ _ (fun side => (context.freeFunctions linked).mapM (fun method =>
    Caches.requestKeyed .functions
      (.ofClass context.home linked, method.value.home, method.value.name)
      (context.methodVersion linked method)
      (fun _ => .ok ((context.under (modes side)).freeFunction linked method.value))))
  exact Caches.mapM_requestKeyed_keepNames _ .functions _
    (fun side method => context.freeFunction_under (modes side) linked method.value)

/-- The member methods of a class differ under the modes in the kept names only. -/
theorem emitMembers_keepNames :
    KeepNames Caches.only (fun names => List.map (Artifact.only names))
      (Tracking.kept context.filter modes)
      (fun side => emitMembers (context.under (modes side)) linked) := by
  change KeepNames _ _ _ (fun side => (Context.memberMethods linked).mapM (fun method =>
    Caches.requestKeyed .members (.ofClass context.home linked, method.value.name)
      (context.methodVersion linked method)
      (fun _ => .ok ((context.under (modes side)).memberMethod linked method.value))))
  exact Caches.mapM_requestKeyed_keepNames _ .members _
    (fun side method => context.memberMethod_under (modes side) linked method.value)

/-- The bridges of a class differ under the modes in the kept names only. -/
theorem emitBridges_keepNames :
    KeepNames Caches.only (fun names => List.map (Artifact.only names))
      (Tracking.kept context.filter modes)
      (fun side => emitBridges (context.under (modes side)) linked) := by
  change KeepNames _ _ _ (fun side => (context.bridgedMethods linked).mapM (fun method =>
    Caches.requestKeyed .bridges (.ofClass context.home linked, method) context.bridgeVersion
      (fun _ => .ok ((context.under (modes side)).bridge method))))
  exact Caches.mapM_requestKeyed_keepNames _ .bridges (fun method => context.bridge method)
    (fun _ _ => rfl)

/-- The exported members of a class differ under the modes in the kept names only. -/
theorem emitExportedMembers_keepNames :
    KeepNames Caches.only (fun names => List.map (Artifact.only names))
      (Tracking.kept context.filter modes)
      (fun side => emitExportedMembers (context.under (modes side)) linked) := by
  change KeepNames _ _ _ (fun side => linked.exportedMembers.zipIdx.mapM (fun entry =>
    Caches.requestKeyed .exportedMembers (.ofClass context.home linked, entry.2)
      (context.exportedMemberVersion linked entry.1)
      (fun _ => .ok ((context.under (modes side)).exportedMember linked entry.1.value))))
  exact Caches.mapM_requestKeyed_keepNames _ .exportedMembers _
    (fun side entry => context.exportedMember_under (modes side) linked entry.1.value)

/-- The definition of a class differs under the modes in the kept names only. -/
theorem emitDefinition_keepNames :
    KeepNames Caches.only Tracked.only (Tracking.kept context.filter modes)
      (fun side => emitDefinition (context.under (modes side)) linked) := by
  have ctors := fun side => context.constructorParts_under (modes side) linked
  have classes := fun side => context.fullClass_under (modes side) linked
  unfold emitDefinition
  refine KeepNames.bind (emitMembers_keepNames context modes linked) (fun methods => ?_)
  refine KeepNames.bind (emitBridges_keepNames context modes linked) (fun bridges => ?_)
  simp only [ctors]
  refine KeepNames.bind (Caches.requestKeyed_keepNames _ (context.constructorVersion linked)
    .constructors (.ofClass context.home linked) ((context.under .all).constructorParts linked))
    (fun ctor => ?_)
  refine KeepNames.bind (emitExportedMembers_keepNames context modes linked) (fun exported => ?_)
  simp only [← List.map_append, map_token_only, map_value_only, collect_only, classes,
    Artifact.only_token, Artifact.only_value]
  refine KeepNames.bind (Caches.requestFullClass_keepNames _ (context.classVersion linked)
    (.ofClass context.home linked) _ ((context.under .all).fullClass linked ctor.value
      ((methods ++ bridges).map Artifact.value) (exported.map Artifact.value))) (fun full => ?_)
  exact KeepNames.pureOf ⟨full.value, ctor.refs ∪ (collect (methods ++ bridges)).refs ∪
    (collect exported).refs ∪ full.refs⟩ (fun side => Tracked.ext' rfl (by simp))

/-- A part of a class shell differs under the modes in the kept names only. -/
theorem emitShellPart_keepNames (part : ShellPart) (present : Bool)
    {trees : ι → Unit → Tracked (List Tree)} (whole : Tracked (List Tree))
    (same : ∀ side, trees side () = whole.only (Tracking.kept context.filter modes side)) :
    KeepNames Caches.only Tracked.only (Tracking.kept context.filter modes)
      (fun side => emitShellPart (context.under (modes side)) linked part present
        (trees side)) := by
  unfold emitShellPart
  cases present with
  | true =>
    simp only [if_true, same]
    refine KeepNames.bind (Caches.requestShellPart_keepNames _ (.ofClass context.home linked) part
      whole) (fun artifact => ?_)
    exact KeepNames.pureOf artifact.tracked (fun _ => rfl)
  | false => exact KeepNames.pureOf (.untracked []) (fun _ => rfl)

/-- The shell of a class differs under the modes in the kept names only. -/
theorem emitShell_keepNames :
    KeepNames Caches.only (fun names (shell : ShellPart → Tracked (List Tree)) part =>
        (shell part).only names) (Tracking.kept context.filter modes)
      (fun side => emitShell (context.under (modes side)) linked) := by
  have part := emitShellPart_keepNames context modes linked
  unfold emitShell
  refine KeepNames.bind (Caches.openShell_keepNames _ (context.classVersion linked)
    (.ofClass context.home linked)) (fun _ => ?_)
  refine KeepNames.bind (part .moduleAccessor _ _
    (fun side => context.moduleAccessor_under (modes side) linked)) (fun accessor => ?_)
  refine KeepNames.bind (part .instanceTests _ (.untracked (context.instanceTests linked))
    (fun _ => rfl)) (fun tests => ?_)
  refine KeepNames.bind (part .typeData _ (.untracked (context.typeData linked))
    (fun _ => rfl)) (fun data => ?_)
  refine KeepNames.bind (part .staticFields _ (.untracked (context.staticFields linked))
    (fun _ => rfl)) (fun fields => ?_)
  refine KeepNames.bind (part .staticInitializers _ (.untracked (context.staticInitializers linked))
    (fun _ => rfl)) (fun initializers => ?_)
  refine KeepNames.pureOf (shellParts accessor tests data fields initializers) (fun side => ?_)
  funext part
  cases part <;> rfl

/-- The definition of a class, if there is one, differs under the modes in the kept names only. -/
theorem emitOptionalDefinition_keepNames :
    KeepNames Caches.only Tracked.only (Tracking.kept context.filter modes)
      (fun side => emitOptionalDefinition (context.under (modes side)) linked) := by
  unfold emitOptionalDefinition
  cases linked.needsDefinition with
  | true => exact emitDefinition_keepNames context modes linked
  | false => exact KeepNames.pureOf (.untracked []) (fun _ => rfl)

/-- Forgetting recorded names and putting a class together can be exchanged. -/
theorem classFragments_only (names : String → Bool) (name : ClassName)
    (functions definition : Tracked (List Tree)) (shell : ShellPart → Tracked (List Tree)) :
    classFragments name (functions.only names) (definition.only names)
        (fun part => (shell part).only names) =
      (classFragments name functions definition shell).only names := by
  simp only [classFragments, Tracked.only_bind, Tracked.only_pure]

/-- A class differs under the modes in the kept names only. -/
theorem emitClass_keepNames :
    KeepNames Caches.only Tracked.only (Tracking.kept context.filter modes)
      (fun side => emitClass (context.under (modes side)) linked) := by
  by_cases native : linked.kind = .nativeJsClass
  · unfold emitClass
    simp only [native, if_true]
    exact KeepNames.pureOf (.untracked (.empty linked.name)) (fun _ => rfl)
  · simp only [emitClass_eq _ native]
    refine KeepNames.bind (emitFunctions_keepNames context modes linked) (fun functions => ?_)
    refine KeepNames.bind (emitOptionalDefinition_keepNames context modes linked)
      (fun definition => ?_)
    refine KeepNames.bind (emitShell_keepNames context modes linked) (fun shell => ?_)
    exact KeepNames.pureOf (classFragments linked.name (collect functions) definition shell)
      (fun side => by rw [collect_only, classFragments_only])

end Classes

/-! ## Modules and passes -/

/-- Under a mode, exports of internal names record what the mode tracks. -/
theorem emitInternalExports_under (mode : Tracking) (exported : Bool) (statements : List Tree) :
    emitInternalExports (context.under mode) exported statements =
      (emitInternalExports (context.under .all) exported statements).only
        (mode.tracks context.filter) := by
  unfold emitInternalExports
  cases exported with
  | true => exact context.internalExports_under mode _
  | false => rfl

/-- A module differs under the modes in the kept names only. -/
theorem emitModule_keepNames (library? : Option (Artifact Bootstrap)) (unit : Module)
    (exported : Bool) :
    KeepNames Caches.only ModuleOutput.only (Tracking.kept context.filter modes)
      (fun side => emitModule (context.under (modes side))
        (library?.map (Artifact.only (Tracking.kept context.filter modes side))) unit
        exported) := by
  have library : ∀ names, bootstrapOf unit (library?.map (Artifact.only names)) =
      (bootstrapOf unit library?).only names := by
    intro names
    cases library? with
    | none => rfl
    | some artifact =>
      simp only [bootstrapOf, Option.map_some, Option.filter]
      split <;> rfl
  have imports := fun side => context.imports_under (modes side) unit
  have exports := fun side => context.topLevelExports_under (modes side) unit.topLevelExports
  have internal := fun side => emitInternalExports_under context (modes side) exported
  unfold emitModule
  simp only [imports, exports, internal, library]
  refine KeepNames.bind (Caches.requestModulePart_keepNames _ (context.importsVersion unit)
    unit.id .imports _) (fun imports => ?_)
  refine KeepNames.bind (KeepNames.mapM (fun linked _ =>
    emitClass_keepNames context modes linked)) (fun classes => ?_)
  refine KeepNames.bind (Caches.requestModulePart_keepNames _
    (context.topLevelExportsVersion unit) unit.id .topLevelExports _) (fun exports => ?_)
  refine KeepNames.bind (Caches.requestModulePart_keepNames _
    (context.initializersVersion unit) unit.id .initializers
    (pure (context.moduleInitializers unit.initializers))) (fun initializers => ?_)
  simp only [← Tracked.only_list, Tracked.only_value, Artifact.only_value]
  let statements := classStatements context (bootstrapOf unit library?).value
    (Tracked.list classes).value
  let others := emitInternalExports (context.under .all) exported statements
  let body := statements ++ others.value ++ exports.value ++ initializers.value
  change KeepNames _ _ _ (fun side => if body.isEmpty = true then _ else _)
  by_cases blank : body.isEmpty = true
  · simp only [if_pos blank]
    exact KeepNames.throw _
  · simp only [if_neg blank]
    refine KeepNames.pureOf ⟨unit.id, imports.value, body, imports.refs ∪
      (Tracked.list classes).refs ∪ (bootstrapOf unit library?).refs ∪ others.refs ∪
      exports.refs ∪ initializers.refs⟩ (fun side => ?_)
    simp only [ModuleOutput.only, SortedSet.filter_union]
    rfl

/-- A module with its library differs under the modes in the kept names only. -/
theorem emitUnit_keepNames (contexts : ModuleId → Context) (filter : DangerFilter)
    (same : ∀ home, (contexts home).filter = filter) (imported : List ModuleId) (unit : Module) :
    KeepNames Caches.only ModuleOutput.only (Tracking.kept filter modes)
      (fun side => emitUnit (fun home => (contexts home).under (modes side)) imported unit) := by
  have here := same unit.id
  subst here
  have library := fun side => (contexts unit.id).bootstrap_under (modes side)
  have whole : KeepNames Caches.only (fun names => Option.map (Artifact.only names))
      (Tracking.kept (contexts unit.id).filter modes)
      (fun side => emitBootstrap ((contexts unit.id).under (modes side)) unit) := by
    unfold emitBootstrap
    cases unit.isRoot with
    | true =>
      simp only [if_true, library]
      exact KeepNames.bind (Caches.requestBootstrap_keepNames _ _)
        (fun artifact => KeepNames.pureOf (some artifact) (fun _ => rfl))
    | false => exact KeepNames.pureOf none (fun _ => rfl)
  unfold emitUnit
  exact KeepNames.bind whole (fun library? =>
    emitModule_keepNames (contexts unit.id) modes library? unit _)

/-- Passes under several tracking modes give the same but for the host names that each mode
tracks. -/
theorem emitPass_keepNames (config : Config) (filter : DangerFilter) (naming : Naming)
    (program : Program) :
    KeepNames Caches.only Pass.only (Tracking.kept filter modes)
      (fun side => emitPass (config.under (modes side)) filter naming program) := by
  unfold emitPass
  refine KeepNames.bind (KeepNames.update _ (fun names caches => caches.only_startRun names))
    (fun _ => ?_)
  refine KeepNames.bind (KeepNames.mapM (fun unit _ => emitUnit_keepNames modes
    (fun home => ⟨config, naming, .ofProgram program, filter, home⟩) filter (fun _ => rfl) _ unit))
    (fun outputs => ?_)
  refine KeepNames.bind KeepNames.look (fun caches => ?_)
  refine KeepNames.bind (KeepNames.update _ (fun names caches => caches.only_endRun names))
    (fun _ => ?_)
  exact KeepNames.pureOf ⟨outputs, .ofCaches caches.classes⟩ (fun _ => rfl)

end Emission

end JsEmitter
