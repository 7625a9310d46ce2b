import JsEmitter.Emitter

/-!
# Pieces of generated code

Every statement that an emitter gives comes from one call of a generator. A piece is such a call
as data: which generator, at which site, for which part of the program. A piece says nothing about
the names that generated definitions get, so the same piece can be run under different naming
schemes. What the caches hold, and what a module is put together from, are pieces that have been
run.
-/
namespace JsEmitter

open Js (Tree)
open Lowering (Context ConstructorParts Bootstrap)

/-- What stays the same in an emitter over all of its sessions. -/
structure Setting where
  config : Config
  filter : DangerFilter

/-- Where code is generated: the facts about the classes of the program, and the module. -/
structure Site where
  index : ClassIndex
  home : ModuleId

/-- The site of a module of a program. -/
def Program.site (program : Program) (unit : Module) : Site := ⟨.ofProgram program, unit.id⟩

namespace Setting

/-- The context of generation at a site. -/
def context (setting : Setting) (naming : Naming) (site : Site) : Context :=
  ⟨setting.config, naming, site.index, setting.filter, site.home⟩

/-- A context for what does not depend on the naming scheme, such as versions. -/
def neutral (setting : Setting) (site : Site) : Context := setting.context default site

end Setting

/-- What a generator gives. -/
inductive PieceKind where
  | tree
  | trees
  | ctor
  | library

/-- The values of a kind. -/
abbrev PieceKind.Value : PieceKind → Type
  | tree => Tree
  | trees => List Tree
  | ctor => ConstructorParts
  | library => Bootstrap

/-- A call of a generator, by the kind of what it gives. -/
inductive Piece : PieceKind → Type
  | function (site : Site) (linked : LinkedClass) (method : MethodDef) : Piece .tree
  | member (site : Site) (linked : LinkedClass) (method : MethodDef) : Piece .tree
  | bridge (site : Site) (method : MethodName) : Piece .tree
  | jsConstructor (site : Site) (linked : LinkedClass) (ctor : JsConstructorDef) :
    Piece .ctor
  | plainConstructor (site : Site) (linked : LinkedClass) : Piece .ctor
  | exportedMember (site : Site) (linked : LinkedClass) (member : ExportedMember) :
    Piece .trees
  | shell (site : Site) (linked : LinkedClass) (part : ShellPart) : Piece .trees
  | imports (site : Site) (unit : Module) : Piece .trees
  | topLevelExports (site : Site) (entries : List TopLevelExport) : Piece .trees
  | initializers (site : Site) (calls : List Initializer) : Piece .trees
  | library (site : Site) : Piece .library

/-- The piece of a class that depends on it alone. -/
def shellTrees (context : Context) (linked : LinkedClass) : ShellPart → Tracked (List Tree)
  | .moduleAccessor => context.moduleAccessor linked
  | .instanceTests => .untracked (context.instanceTests linked)
  | .typeData => .untracked (context.typeData linked)
  | .staticFields => .untracked (context.staticFields linked)
  | .staticInitializers => .untracked (context.staticInitializers linked)

/-- What a piece gives under a naming scheme. -/
def Piece.run (setting : Setting) (naming : Naming) :
    {kind : PieceKind} → Piece kind → Tracked kind.Value
  | _, .function site linked method => (setting.context naming site).freeFunction linked method
  | _, .member site linked method => (setting.context naming site).memberMethod linked method
  | _, .bridge site method => (setting.context naming site).bridge method
  | _, .jsConstructor site linked ctor =>
    (setting.context naming site).jsConstructorParts linked ctor
  | _, .plainConstructor site linked => (setting.context naming site).plainConstructorParts linked
  | _, .exportedMember site linked entry =>
    (setting.context naming site).exportedMember linked entry
  | _, .shell site linked part => shellTrees (setting.context naming site) linked part
  | _, .imports site unit => (setting.context naming site).imports unit
  | _, .topLevelExports site entries => (setting.context naming site).topLevelExports entries
  | _, .initializers site calls => pure ((setting.context naming site).moduleInitializers calls)
  | _, .library site => (setting.context naming site).bootstrap

/-- The constructor of a class with instances, unless it is foreign and has none. -/
def Site.constructor? (site : Site) (linked : LinkedClass) :
    Except EmitError (Piece .ctor) :=
  if linked.kind.isJsClass then
    match linked.jsConstructor? with
    | some ctor => .ok (.jsConstructor site linked ctor.value)
    | none => .error (.missingJsConstructor linked.name)
  else .ok (.plainConstructor site linked)

/-- The constructor of a class comes from a piece, or from the same failure. -/
theorem Setting.constructorParts_eq (setting : Setting) (naming : Naming) (site : Site)
    (linked : LinkedClass) :
    (setting.context naming site).constructorParts linked =
      (site.constructor? linked).map (Piece.run setting naming) := by
  unfold Context.constructorParts Site.constructor?
  split
  · cases linked.jsConstructor? <;> rfl
  · rfl

/-- A class definition with the pieces that it is put together from. -/
structure Definition where
  site : Site
  linked : LinkedClass
  ctor : Piece .ctor
  members : List (Piece .tree)
  exported : List (Piece .trees)

namespace Definition

/-- What the definition gives from the values of its pieces. -/
def run (setting : Setting) (naming : Naming) (definition : Definition) : Tracked (List Tree) :=
  (setting.context naming definition.site).fullClass definition.linked
    (definition.ctor.run setting naming).value
    (definition.members.map (fun piece => (piece.run setting naming).value))
    (definition.exported.map (fun piece => (piece.run setting naming).value))

/-- The definition with the host names of its pieces. -/
def whole (setting : Setting) (naming : Naming) (definition : Definition) : Tracked (List Tree) :=
  ⟨(definition.run setting naming).value,
    (definition.ctor.run setting naming).refs ∪
      (Tracked.list (definition.members.map (Piece.run setting naming))).refs ∪
      (Tracked.list (definition.exported.map (Piece.run setting naming))).refs ∪
      (definition.run setting naming).refs⟩

end Definition

/-- The pieces of a class. -/
structure ClassPieces where
  name : ClassName
  functions : List (Piece .tree)
  definition? : Option Definition
  shell : ShellPart → Option (Piece .trees)

namespace ClassPieces

/-- The statements of a piece that a class need not have. -/
def shellTrees (setting : Setting) (naming : Naming) (pieces : ClassPieces) (part : ShellPart) :
    Tracked (List Tree) :=
  match pieces.shell part with
  | some piece => piece.run setting naming
  | none => .untracked []

/-- The statements of the definition, if there is one. -/
def definitionTrees (setting : Setting) (naming : Naming) (pieces : ClassPieces) :
    Tracked (List Tree) :=
  match pieces.definition? with
  | some definition => definition.whole setting naming
  | none => .untracked []

/-- The statements of the class by the place where the module puts them. -/
def fragments (setting : Setting) (naming : Naming) (pieces : ClassPieces) :
    Tracked ClassFragments := do
  return {
    name := pieces.name
    main := (← .list (pieces.functions.map (Piece.run setting naming))) ++
      (← pieces.definitionTrees setting naming) ++
      (← pieces.shellTrees setting naming .moduleAccessor)
    typeSupport := (← pieces.shellTrees setting naming .instanceTests) ++
      (← pieces.shellTrees setting naming .typeData)
    staticFields := ← pieces.shellTrees setting naming .staticFields
    staticInitializers := ← pieces.shellTrees setting naming .staticInitializers }

end ClassPieces

/-- The pieces of a module. -/
structure ModulePieces where
  site : Site
  id : ModuleId
  /-- Whether the definitions are exported to other modules of the program. -/
  exported : Bool
  imports : Piece .trees
  library? : Option (Piece .library)
  classes : List ClassPieces
  topLevelExports : Piece .trees
  initializers : Piece .trees

namespace ModulePieces

/-- The bootstrap library, if the module has it. -/
def library (setting : Setting) (naming : Naming) (pieces : ModulePieces) :
    Tracked (Option Bootstrap) :=
  .option (pieces.library?.map (Piece.run setting naming))

/-- The statements of all classes. -/
def fragments (setting : Setting) (naming : Naming) (pieces : ModulePieces) :
    Tracked (List ClassFragments) :=
  .list (pieces.classes.map (ClassPieces.fragments setting naming))

/-- The statements of the classes in their order, with those of the bootstrap library. -/
def statements (setting : Setting) (naming : Naming) (pieces : ModulePieces) : List Tree :=
  Emission.classStatements (setting.context naming pieces.site)
    (pieces.library setting naming).value (pieces.fragments setting naming).value

/-- The exports to other modules of the program. -/
def internalExports (setting : Setting) (naming : Naming) (pieces : ModulePieces) :
    Tracked (List Tree) :=
  Emission.emitInternalExports (setting.context naming pieces.site) pieces.exported
    (pieces.statements setting naming)

/-- The statements of the module after the imports. -/
def body (setting : Setting) (naming : Naming) (pieces : ModulePieces) : List Tree :=
  pieces.statements setting naming ++ (pieces.internalExports setting naming).value ++
    (pieces.topLevelExports.run setting naming).value ++
    (pieces.initializers.run setting naming).value

/-- The output of the module. -/
def output (setting : Setting) (naming : Naming) (pieces : ModulePieces) : ModuleOutput where
  id := pieces.id
  imports := (pieces.imports.run setting naming).value
  body := pieces.body setting naming
  refs := (pieces.imports.run setting naming).refs ∪ (pieces.fragments setting naming).refs ∪
    (pieces.library setting naming).refs ∪ (pieces.internalExports setting naming).refs ∪
    (pieces.topLevelExports.run setting naming).refs ∪
    (pieces.initializers.run setting naming).refs

end ModulePieces

/-- A place in the caches, by the kind of what is kept there. -/
inductive Place : PieceKind → Type
  | function (key : FunctionKey) : Place .tree
  | member (key : MemberKey) : Place .tree
  | bridge (key : MemberKey) : Place .tree
  | ctor (key : ClassKey) : Place .ctor
  | exportedMember (key : ClassKey × Nat) : Place .trees
  | shell (key : ClassKey) (part : ShellPart) : Place .trees
  | modulePart (id : ModuleId) (part : ModulePart) : Place .trees

namespace LinkedClass

/-- The methods of a class for which free functions are requested. -/
def requestedFunctions (linked : LinkedClass) (context : Context) : List (Versioned MethodDef) :=
  if linked.kind = .nativeJsClass then [] else context.freeFunctions linked

/-- The requested functions of a class are among its methods, in the same order. -/
theorem requestedFunctions_sublist (linked : LinkedClass) (context : Context) :
    (linked.requestedFunctions context).Sublist linked.methods := by
  unfold requestedFunctions
  split
  · exact List.nil_sublist _
  · exact List.filter_sublist

/-- Whether a class has a piece that depends on it alone. -/
def hasShellPart (linked : LinkedClass) (part : ShellPart) : Bool :=
  linked.kind ≠ .nativeJsClass &&
    match part with
    | .moduleAccessor => linked.hasModuleAccessor && linked.kind.isModuleLike
    | .instanceTests => !linked.name.isRoot && linked.hasInstanceTests
    | .typeData => !linked.name.isRoot && linked.hasTypeData
    | .staticFields | .staticInitializers => true

end LinkedClass

/-- The pieces that a module asks for, each with the place and the version that it asks under. -/
inductive Request (setting : Setting) (site : Site) (unit : Module) :
    {kind : PieceKind} → Place kind → Version → Piece kind → Prop
  | function {linked : LinkedClass} {method : Versioned MethodDef} :
    linked ∈ unit.classes → method ∈ linked.requestedFunctions (setting.neutral site) →
      Request setting site unit
        (.function (.ofClass site.home linked, method.value.home, method.value.name))
        ((setting.neutral site).methodVersion linked method)
        (.function site linked method.value)
  | member {linked : LinkedClass} {method : Versioned MethodDef} :
    linked ∈ unit.classes → linked.needsDefinition = true → method ∈ Context.memberMethods linked →
      Request setting site unit (.member (.ofClass site.home linked, method.value.name))
        ((setting.neutral site).methodVersion linked method) (.member site linked method.value)
  | bridge {linked : LinkedClass} {method : MethodName} :
    linked ∈ unit.classes → linked.needsDefinition = true →
      method ∈ (setting.neutral site).bridgedMethods linked →
      Request setting site unit (.bridge (.ofClass site.home linked, method))
        (setting.neutral site).bridgeVersion (.bridge site method)
  | ctor {linked : LinkedClass} {piece : Piece .ctor} :
    linked ∈ unit.classes → linked.needsDefinition = true →
      site.constructor? linked = .ok piece →
      Request setting site unit (.ctor (.ofClass site.home linked))
        ((setting.neutral site).constructorVersion linked) piece
  | exportedMember {linked : LinkedClass} {member : Versioned ExportedMember} {position : Nat} :
    linked ∈ unit.classes → linked.needsDefinition = true →
      (member, position) ∈ linked.exportedMembers.zipIdx →
      Request setting site unit (.exportedMember (.ofClass site.home linked, position))
        ((setting.neutral site).exportedMemberVersion linked member)
        (.exportedMember site linked member.value)
  | shell {linked : LinkedClass} {part : ShellPart} :
    linked ∈ unit.classes → linked.hasShellPart part = true →
      Request setting site unit (.shell (.ofClass site.home linked) part)
        ((setting.neutral site).classVersion linked) (.shell site linked part)
  | imports :
    Request setting site unit (.modulePart unit.id .imports)
      ((setting.neutral site).importsVersion unit) (.imports site unit)
  | topLevelExports :
    Request setting site unit (.modulePart unit.id .topLevelExports)
      ((setting.neutral site).topLevelExportsVersion unit)
      (.topLevelExports site unit.topLevelExports)
  | initializers :
    Request setting site unit (.modulePart unit.id .initializers)
      ((setting.neutral site).initializersVersion unit) (.initializers site unit.initializers)

/-- A piece that some program of a history asks for at a place under a version. -/
def Requested (setting : Setting) (history : List Program) {kind : PieceKind} (place : Place kind)
    (version : Version) (piece : Piece kind) : Prop :=
  ∃ program ∈ history, ∃ unit ∈ program.modules,
    Request setting (program.site unit) unit place version piece

/-- What a module gets when it asks for its own piece: a piece that some program of the history asks
for at the same place and under the same version, and its own one if that version has no token. -/
structure Served (setting : Setting) (history : List Program) {kind : PieceKind}
    (place : Place kind) (version : Version) (own piece : Piece kind) : Prop where
  requested : Requested setting history place version piece
  unversioned : version.isVersioned = false → piece = own

/-- Pieces that are served for the same one are read alike if pieces that are asked for under the
same version are. -/
theorem Served.eq_of {setting : Setting} {history : List Program} {kind : PieceKind} {β : Type}
    (read : Piece kind → β) {place : Place kind} {version : Version}
    {own piece other : Piece kind}
    (first : Served setting history place version own piece)
    (second : Served setting history place version own other)
    (agree : version.isVersioned = true → read piece = read other) : read piece = read other := by
  cases versioned : version.isVersioned with
  | true => exact agree versioned
  | false => rw [first.unversioned versioned, second.unversioned versioned]

/-- A definition of a class that some program of a history asks for under a version. -/
def RequestedDefinition (setting : Setting) (history : List Program) (key : ClassKey)
    (version : Version) (definition : Definition) : Prop :=
  ∃ program ∈ history, ∃ unit ∈ program.modules, definition.linked ∈ unit.classes ∧
    definition.linked.needsDefinition = true ∧ definition.site = program.site unit ∧
    key = .ofClass unit.id definition.linked ∧
    version = (setting.neutral definition.site).classVersion definition.linked

end JsEmitter
