import JsEmitter.Proofs.CoveredCode
import JsEmitter.Proofs.PieceHosts

/-!
# Coverage

The version of a piece covers all that its code takes from the program, with two exceptions. Methods
and exported members take the parent of their class, which only the version of the class covers;
and functions that a module exports take facts about the classes they name, of which the version of
the exports has none. `Piece.uncovered` is what a piece takes without cover. In a readable history,
requests with the same version ask for the same host names and for the same code if they take the
same without cover.
-/
namespace JsEmitter

open Js (Tree)
open Lowering (Context)

/-- What a piece takes that its version does not cover: what a method or an exported member takes
from the parent of its class, and the code of exported functions. -/
def Piece.uncovered (setting : Setting) (naming : Naming) :
    {kind : PieceKind} → Piece kind → Tracked (List (Option Tree))
  | _, .function site linked method =>
    (setting.context naming site).parentUse linked false method.body.callsSuper
  | _, .member site linked method =>
    (setting.context naming site).parentUse linked ((setting.context naming site).usesSuper linked)
      method.body.callsSuper
  | _, .exportedMember site linked entry =>
    (setting.context naming site).parentUse linked ((setting.context naming site).usesSuper linked)
      (Expr.anyCallsSuper entry.bodies)
  | _, .topLevelExports site entries => entries.mapM (setting.context naming site).exportedFunction
  | _, .bridge .. | _, .jsConstructor .. | _, .plainConstructor .. | _, .shell .. | _, .imports ..
  | _, .initializers .. | _, .library .. => pure []

/-- Whether all that pieces take without cover stays the same in a history while their versions
do. -/
def CodeKept (setting : Setting) (history : List Program) : Prop :=
  ∀ {kind : PieceKind} (place : Place kind) (version : Version) (piece other : Piece kind),
    version.isVersioned = true → Requested setting history place version piece →
      Requested setting history place version other →
        ∀ naming, other.uncovered setting naming = piece.uncovered setting naming

/-- Whether the host names that pieces take without cover stay the same in a history while their
versions do. -/
def NamesKept (setting : Setting) (history : List Program) : Prop :=
  ∀ {kind : PieceKind} (place : Place kind) (version : Version) (piece other : Piece kind),
    version.isVersioned = true → Requested setting history place version piece →
      Requested setting history place version other →
        (other.uncovered setting default).refs = (piece.uncovered setting default).refs

namespace Setting

variable (setting : Setting)

/-- The recorded names of a list are those that are tracked. -/
theorem mem_recorded {names : List String} {name : String} :
    name ∈ setting.recorded names ↔
      name ∈ names ∧ setting.config.tracking.tracks setting.filter name = true := by
  simp [recorded]

variable {first second : ClassIndex} (root : first.rootModule? = second.rootModule?)

include root

/-- Expressions use the same host names under indexes that agree in the facts about their
classes. -/
theorem recorded_ofExpr {body : Expr}
    (facts : ∀ owner ∈ body.classes, first.SameFacts second owner) :
    setting.recorded (HostNames.ofExpr setting.config second body) =
      setting.recorded (HostNames.ofExpr setting.config first body) := by
  let context := setting.context default ⟨first, default⟩
  -- What super calls go to has no say in the host names, so it can be anything.
  have lowered : (context.reindex second).lower ⟨.this, some .this, false⟩ body =
      context.lower ⟨.this, some .this, false⟩ body :=
    Context.lower_reindex rfl body (fun owner named => .of_root (facts owner named) root)
      (fun _ => rfl)
  have refs := congrArg Tracked.refs lowered
  rw [Context.lower_refs, Context.lower_refs] at refs
  exact refs

/-- Bodies whose classes have the same facts let the same names be recorded. -/
theorem recorded_ofElse (body? : Option Expr)
    (facts : ∀ body ∈ body?, ∀ owner ∈ body.classes, first.SameFacts second owner) :
    setting.recorded (HostNames.ofElse setting.config second body?) =
      setting.recorded (HostNames.ofElse setting.config first body?) := by
  cases body? with
  | none => rfl
  | some body => exact setting.recorded_ofExpr root (facts body rfl)

end Setting

/-- Methods use the same host names under indexes that agree in the facts about their classes, if
the parents of their classes do. -/
theorem Setting.recorded_ofMethod (setting : Setting) {naming : Naming} {here there : Site}
    {linked other : LinkedClass} {method : MethodDef}
    (root : here.index.rootModule? = there.index.rootModule?)
    (facts : ∀ owner ∈ method.body.classes, here.index.SameFacts there.index owner)
    (parents : ((setting.context naming there).parentRef other).refs =
      ((setting.context naming here).parentRef linked).refs) :
    setting.recorded (HostNames.ofMethod setting.config there.index other method) =
      setting.recorded (HostNames.ofMethod setting.config here.index linked method) := by
  rw [Context.parentRef_refs, Context.parentRef_refs] at parents
  rw [HostNames.ofMethod, HostNames.ofMethod, recorded_append, recorded_append,
    setting.recorded_ofExpr root facts]
  exact congrArg (· ∪ _) parents

/-- Exported members use the same host names under indexes that agree in the facts about their
classes, if the parents of their classes do. -/
theorem Setting.recorded_ofExportedMember (setting : Setting) {naming : Naming} {here there : Site}
    {linked other : LinkedClass} {member : ExportedMember}
    (root : here.index.rootModule? = there.index.rootModule?)
    (facts : ∀ body ∈ member.bodies, ∀ owner ∈ body.classes,
      here.index.SameFacts there.index owner)
    (parents : ((setting.context naming there).parentRef other).refs =
      ((setting.context naming here).parentRef linked).refs) :
    setting.recorded (HostNames.ofExportedMember setting.config there.index other member) =
      setting.recorded (HostNames.ofExportedMember setting.config here.index linked member) := by
  rw [Context.parentRef_refs, Context.parentRef_refs] at parents
  simp only [HostNames.ofExportedMember, recorded_append]
  refine congrArg₂ (· ∪ ·) parents ?_
  cases form : member with
  | method name isStatic params body =>
    exact setting.recorded_ofExpr root (facts body (by simp [form, ExportedMember.bodies]))
  | property name isStatic getter? setter? =>
    have getters := setting.recorded_ofElse root getter? (fun body lies =>
      facts body (by simp [form, ExportedMember.bodies, Option.mem_def.1 lies]))
    have setters := setting.recorded_ofElse root (setter?.map Prod.snd) (fun body lies =>
      facts body (by simp [form, ExportedMember.bodies, Option.mem_def.1 lies]))
    simp only [recorded_append]
    exact congrArg (· ∪ _) (congrArg₂ (· ∪ ·) getters setters)

/-- The host names that the function of an export uses. -/
def HostNames.ofFunction (config : Config) (index : ClassIndex) (entry : TopLevelExport) :
    List String :=
  match entry.kind with
  | .method _ body => HostNames.ofExpr config index body
  | _ => []

/-- The host names of exports, those of their functions apart. -/
theorem Setting.recorded_ofExports (setting : Setting) (index : ClassIndex)
    (entries : List TopLevelExport) :
    setting.recorded (entries.flatMap (HostNames.ofExport setting.config index)) =
      setting.recorded (entries.flatMap (HostNames.ofFunction setting.config index)) ∪
        setting.recorded ((entries.map TopLevelExport.name).flatMap (fun _ =>
          if setting.config.moduleKind = .commonJs then ["exports"] else [])) := by
  have split : HostNames.ofExport setting.config index = fun entry =>
      HostNames.ofFunction setting.config index entry ++
        if setting.config.moduleKind = .commonJs then ["exports"] else [] := rfl
  ext name
  simp only [split, SortedSet.mem_union, mem_recorded, List.mem_flatMap, List.mem_append,
    List.mem_map]
  constructor
  · rintro ⟨⟨entry, found, function | exports⟩, tracked⟩
    · exact .inl ⟨⟨entry, found, function⟩, tracked⟩
    · exact .inr ⟨⟨_, ⟨entry, found, rfl⟩, exports⟩, tracked⟩
  · rintro (⟨⟨entry, found, function⟩, tracked⟩ | ⟨⟨_, ⟨entry, found, rfl⟩, exports⟩, tracked⟩)
    · exact ⟨⟨entry, found, .inl function⟩, tracked⟩
    · exact ⟨⟨entry, found, .inr exports⟩, tracked⟩

namespace Piece

variable {setting : Setting} {naming : Naming}

/-- The uncovered names of exports are those of the exported functions. -/
theorem uncovered_topLevelExports (site : Site) (entries : List TopLevelExport) :
    ((topLevelExports site entries).uncovered setting naming).refs =
      setting.recorded (entries.flatMap (HostNames.ofFunction setting.config site.index)) := by
  have functions : ∀ entry ∈ entries, ((setting.context naming site).exportedFunction entry).refs =
      (setting.context naming site).recorded
        (HostNames.ofFunction setting.config site.index entry) := by
    intro entry _
    unfold Context.exportedFunction HostNames.ofFunction
    cases entry.kind with
    | method params body => exact Context.lower_refs _ .plain body
    | _ => rfl
  exact Tracked.mapM_refs functions

end Piece

variable {setting : Setting} {naming : Naming} {history : List Program}

/-- No class of a history of named modules is in a module with an empty id. -/
theorem ModuleIn.namedOwners (here : ModuleIn history) (named : NamedModules history) :
    here.index.NamedOwners :=
  .ofProgram (fun unit placed => named ⟨here.program, unit, here.emitted, placed⟩)

namespace Readable

variable (readable : Readable history)

include readable

section Names

variable {version : Version} (versioned : version.isVersioned = true)

include versioned

/-- Free functions under one version record the same names if what they take without cover does. -/
theorem function_hosts {key : FunctionKey} {piece other : Piece .tree}
    (first : Requested setting history (.function key) version piece)
    (second : Requested setting history (.function key) version other)
    (refs : (other.uncovered setting naming).refs = (piece.uncovered setting naming).refs) :
    setting.recorded (other.hosts setting.config) =
      setting.recorded (piece.hosts setting.config) := by
  obtain ⟨here, there, method, -, rfl, rfl, root, facts⟩ :=
    readable.function_requests versioned first second
  exact setting.recorded_ofMethod root
    (fun owner named => facts owner (List.mem_append_right _ named)) refs

/-- Member methods under one version record the same names if what they take without cover does. -/
theorem member_hosts {key : MemberKey} {piece other : Piece .tree}
    (first : Requested setting history (.member key) version piece)
    (second : Requested setting history (.member key) version other)
    (refs : (other.uncovered setting naming).refs = (piece.uncovered setting naming).refs) :
    setting.recorded (other.hosts setting.config) =
      setting.recorded (piece.hosts setting.config) := by
  obtain ⟨here, there, method, -, rfl, rfl, root, facts⟩ :=
    readable.member_requests versioned first second
  exact setting.recorded_ofMethod root
    (fun owner named => facts owner (List.mem_append_right _ named)) refs

/-- Exported members under one version record the same names if what they take without cover
does. -/
theorem exportedMember_hosts {key : ClassKey × Nat} {piece other : Piece .trees}
    (first : Requested setting history (.exportedMember key) version piece)
    (second : Requested setting history (.exportedMember key) version other)
    (refs : (other.uncovered setting naming).refs = (piece.uncovered setting naming).refs) :
    setting.recorded (other.hosts setting.config) =
      setting.recorded (piece.hosts setting.config) := by
  obtain ⟨here, there, member, -, rfl, rfl, -, root, -, facts⟩ :=
    readable.exportedMember_requests versioned first second
  exact setting.recorded_ofExportedMember root facts refs

/-- Exports under one version record the same names if what they take without cover does. -/
theorem topLevelExports_hosts {id : ModuleId} {piece other : Piece .trees}
    (first : Requested setting history (.modulePart id .topLevelExports) version piece)
    (second : Requested setting history (.modulePart id .topLevelExports) version other)
    (refs : (other.uncovered setting naming).refs = (piece.uncovered setting naming).refs) :
    setting.recorded (other.hosts setting.config) =
      setting.recorded (piece.hosts setting.config) := by
  obtain ⟨here, rfl, rfl, rfl⟩ := first.topLevelExports
  obtain ⟨there, ids, versions, rfl⟩ := second.topLevelExports
  obtain ⟨entries, -⟩ := readable.topLevelExportsVersion_eq here there ids
    (Version.isSame_of_eq versions versioned)
  have names : there.unit.topLevelExports.map TopLevelExport.name =
      here.unit.topLevelExports.map TopLevelExport.name :=
    (map_eq_map_iff.2 (entries.imp (fun _ _ same => same.1.symm))).symm
  rw [Piece.uncovered_topLevelExports, Piece.uncovered_topLevelExports] at refs
  simp only [Piece.hosts, setting.recorded_ofExports, names]
  exact congrArg (· ∪ _) refs

end Names

section Code

variable {version : Version} (versioned : version.isVersioned = true)

include versioned

/-- Free functions under one version have the same code if they take the same without cover. -/
theorem function_eq {key : FunctionKey} {piece other : Piece .tree}
    (first : Requested setting history (.function key) version piece)
    (second : Requested setting history (.function key) version other)
    (use : other.uncovered setting naming = piece.uncovered setting naming) :
    other.run setting naming = piece.run setting naming := by
  obtain ⟨here, there, method, keys, rfl, rfl, root, facts⟩ :=
    readable.function_requests versioned first second
  simp only [Piece.uncovered, Piece.run,
    here.context_eq there.toModuleIn (congrArg ClassKey.home keys)] at use ⊢
  exact Context.freeFunction_reindex (readable.name_eq here there keys)
    (fun owner named => .of_root (facts owner (List.mem_append_right _ named)) root) use

/-- Member methods under one version have the same code if they take the same without cover. -/
theorem member_eq {key : MemberKey} {piece other : Piece .tree}
    (first : Requested setting history (.member key) version piece)
    (second : Requested setting history (.member key) version other)
    (use : other.uncovered setting naming = piece.uncovered setting naming) :
    other.run setting naming = piece.run setting naming := by
  obtain ⟨here, there, method, keys, rfl, rfl, root, facts⟩ :=
    readable.member_requests versioned first second
  simp only [Piece.uncovered, Piece.run,
    here.context_eq there.toModuleIn (congrArg ClassKey.home keys)] at use ⊢
  exact Context.memberMethod_reindex (readable.name_eq here there keys)
    (facts _ (List.mem_append_left _ (readable.name_mem_ancestors here)))
    (fun owner named => .of_root (facts owner (List.mem_append_right _ named)) root) use

/-- Exported members under one version have the same code if they take the same without cover. -/
theorem exportedMember_eq {key : ClassKey × Nat} {piece other : Piece .trees}
    (first : Requested setting history (.exportedMember key) version piece)
    (second : Requested setting history (.exportedMember key) version other)
    (use : other.uncovered setting naming = piece.uncovered setting naming) :
    other.run setting naming = piece.run setting naming := by
  obtain ⟨here, there, member, keys, rfl, rfl, foreign, root, self, facts⟩ :=
    readable.exportedMember_requests versioned first second
  simp only [Piece.uncovered, Piece.run,
    here.context_eq there.toModuleIn (congrArg ClassKey.home keys)] at use ⊢
  exact Context.exportedMember_reindex (readable.name_eq here there keys) foreign self
    (fun body found owner named => .of_root (facts body found owner named) root) use

/-- Exports under one version have the same code if they take the same without cover. -/
theorem topLevelExports_eq {id : ModuleId} {piece other : Piece .trees}
    (named : NamedModules history)
    (first : Requested setting history (.modulePart id .topLevelExports) version piece)
    (second : Requested setting history (.modulePart id .topLevelExports) version other)
    (use : other.uncovered setting naming = piece.uncovered setting naming) :
    other.run setting naming = piece.run setting naming := by
  refine Tracked.ext' ?_ ?_
  · obtain ⟨here, rfl, rfl, rfl⟩ := first.topLevelExports
    obtain ⟨there, ids, versions, rfl⟩ := second.topLevelExports
    obtain ⟨entries, owners⟩ := readable.topLevelExportsVersion_eq here there ids
      (Version.isSame_of_eq versions versioned)
    have classes : there.unit.exportedClasses = here.unit.exportedClasses := by
      have kinds : there.unit.topLevelExports.map TopLevelExport.kind =
          here.unit.topLevelExports.map TopLevelExport.kind :=
        (map_eq_map_iff.2 (entries.imp (fun _ _ same => same.2.symm))).symm
      have read : ∀ unit : Module, unit.exportedClasses =
          (unit.topLevelExports.map TopLevelExport.kind).filterMap ExportKind.referencedClass? := by
        intro unit
        rw [List.filterMap_map]
        rfl
      rw [read, read, kinds]
    rw [classes] at owners
    have owned := ClassIndex.owners_eq (here.namedOwners named) (there.namedOwners named) owners
    have functions := congrArg Tracked.value use
    simp only [Piece.uncovered, Piece.run, here.context_eq there ids, Tracked.mapM_value,
      Context.topLevelExports, Tracked.map_value'] at functions ⊢
    refine congrArg List.flatten ?_
    rw [map_eq_map_iff] at functions ⊢
    refine List.forall₂_iff_zip.2 ⟨functions.length_eq, fun {other entry} found => ?_⟩
    obtain ⟨name, kind⟩ := List.forall₂_zip (entries.flip) found
    refine Context.topLevelExport_reindex name kind (fun owner read => owned owner ?_)
      (List.forall₂_zip functions found)
    exact List.mem_filterMap.2 ⟨entry, (List.of_mem_zip found).2, read⟩
  · rw [Piece.run_refs, Piece.run_refs]
    exact readable.topLevelExports_hosts versioned first second (congrArg Tracked.refs use)

/-- Initializers under one version have the same code. -/
theorem initializers_eq {id : ModuleId} {piece other : Piece .trees}
    (named : NamedModules history)
    (first : Requested setting history (.modulePart id .initializers) version piece)
    (second : Requested setting history (.modulePart id .initializers) version other) :
    other.run setting naming = piece.run setting naming := by
  obtain ⟨here, rfl, rfl, rfl⟩ := first.initializers
  obtain ⟨there, ids, versions, rfl⟩ := second.initializers
  obtain ⟨calls, owners⟩ := readable.initializersVersion_eq here there ids
    (Version.isSame_of_eq versions versioned)
  rw [calls] at owners
  have owned := ClassIndex.owners_eq (here.namedOwners named) (there.namedOwners named) owners
  simp only [Piece.run, calls, here.context_eq there ids]
  exact congrArg pure (Context.moduleInitializers_reindex
    (fun call found => owned call.owner (List.mem_map_of_mem found)))

end Code

/-- Requests with the same version ask for the same host names if they take the same without
cover. -/
theorem hosts_eq {kind : PieceKind} {place : Place kind} {version : Version}
    (versioned : version.isVersioned = true) {piece other : Piece kind}
    (first : Requested setting history place version piece)
    (second : Requested setting history place version other)
    (refs : (other.uncovered setting naming).refs = (piece.uncovered setting naming).refs) :
    setting.recorded (other.hosts setting.config) =
      setting.recorded (piece.hosts setting.config) := by
  have covered : other.run setting naming = piece.run setting naming →
      setting.recorded (other.hosts setting.config) =
        setting.recorded (piece.hosts setting.config) := by
    intro same
    rw [← Piece.run_refs setting naming, ← Piece.run_refs setting naming, same]
  cases place with
  | function key => exact readable.function_hosts versioned first second refs
  | member key => exact readable.member_hosts versioned first second refs
  | bridge key => exact covered (readable.bridge_eq versioned first second)
  | ctor key => exact covered (readable.ctor_eq versioned first second)
  | exportedMember key => exact readable.exportedMember_hosts versioned first second refs
  | shell key part => exact covered (readable.shell_eq versioned first second)
  | modulePart id part =>
    cases part with
    | imports => exact covered (readable.imports_eq versioned first second)
    | topLevelExports => exact readable.topLevelExports_hosts versioned first second refs
    | initializers =>
      obtain ⟨here, -, -, rfl⟩ := first.initializers
      obtain ⟨there, -, -, rfl⟩ := second.initializers
      rfl

/-- Requests with the same version ask for the same code if they take the same without cover. -/
theorem run_eq (named : NamedModules history) {kind : PieceKind}
    {place : Place kind} {version : Version} (versioned : version.isVersioned = true)
    {piece other : Piece kind} (first : Requested setting history place version piece)
    (second : Requested setting history place version other)
    (use : other.uncovered setting naming = piece.uncovered setting naming) :
    other.run setting naming = piece.run setting naming := by
  cases place with
  | function key => exact readable.function_eq versioned first second use
  | member key => exact readable.member_eq versioned first second use
  | bridge key => exact readable.bridge_eq versioned first second
  | ctor key => exact readable.ctor_eq versioned first second
  | exportedMember key => exact readable.exportedMember_eq versioned first second use
  | shell key part => exact readable.shell_eq versioned first second
  | modulePart id part =>
    cases part with
    | imports => exact readable.imports_eq versioned first second
    | topLevelExports => exact readable.topLevelExports_eq versioned named first second use
    | initializers => exact readable.initializers_eq versioned named first second

end Readable

/-- A history that keeps the code without cover keeps its names. -/
theorem CodeKept.namesKept (kept : CodeKept setting history) : NamesKept setting history :=
  fun place version piece other versioned first second =>
    congrArg Tracked.refs (kept place version piece other versioned first second default)

end JsEmitter
