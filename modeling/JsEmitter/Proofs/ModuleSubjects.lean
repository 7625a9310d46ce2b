import JsEmitter.Proofs.FirstRuns
import JsEmitter.Proofs.Subjects
import Mathlib.Data.List.Forall2

/-!
# What a module defines

The definitions of a module by their subjects, read off the program: of the imports, of the
bootstrap library, of every class and of the exports. `ModulePieces.MadeFor.about` says that in a
first run the account of a module is about exactly these, in this order.
-/
namespace JsEmitter

open Lowering (Context)

namespace LinkedClass

variable (linked : LinkedClass)

/-- The subjects of the free functions of a class. -/
def functionSubjects (context : Context) : List Subject :=
  (linked.requestedFunctions context).map (fun method =>
    .member (.method method.value.home) linked.name method.value.name.text)

/-- The subjects of the definition of a class. -/
def definitionSubjects (config : Config) : List Subject :=
  if linked.needsDefinition then
    .single .constructor linked.name.text ::
      (if config.classSyntax || linked.kind.isJsClass then []
        else [.single .helper linked.name.text])
  else []

/-- The subjects of a piece that depends on the class alone. -/
def shellSubjects (part : ShellPart) : List Subject :=
  if linked.hasShellPart part then
    match part with
    | .moduleAccessor =>
      [.single .singleton linked.name.text, .single .accessor linked.name.text]
    | .instanceTests => [.single .test linked.name.text, .single .cast linked.name.text]
    | .typeData => [.single .typeData linked.name.text]
    | .staticFields =>
      linked.staticFields.map (fun field => .member .staticField linked.name field.name.text)
    | .staticInitializers => []
  else []

/-- The subjects of the functions, the definition and the accessor of a class. -/
def mainSubjects (context : Context) : List Subject :=
  linked.functionSubjects context ++ linked.definitionSubjects context.config ++
    linked.shellSubjects .moduleAccessor

/-- The subjects of the instance tests and the type data of a class. -/
def typeSupportSubjects : List Subject :=
  linked.shellSubjects .instanceTests ++ linked.shellSubjects .typeData

end LinkedClass

/-- The subjects of an export. -/
def TopLevelExport.subjects (context : Context) (entry : TopLevelExport) : List Subject :=
  (match entry.kind with
    | .method .. => [.single .binding entry.name]
    | _ => []) ++
  match context.config.moduleKind with
  | .esModule =>
    if PieceMarks.exportsReference context.index context.home entry.kind then []
    else [.single .binding entry.name]
  | .commonJs => []
  | .script => [.exported entry.name]

namespace Module

variable (context : Context) (unit : Module)

/-- The subjects of the imports of a module. -/
def importSubjects : List Subject :=
  if context.config.moduleKind = .script then []
  else
    (context.importedModules unit).toList.map (fun id => .single .internalImport id.text) ++
      unit.externalDependencies.toList.map (.single .externalImport)

/-- Subjects of the bootstrap library, in the root module. -/
def librarySubjects (subjects : List Subject) : List Subject :=
  if unit.isRoot then subjects else []

/-- The subjects of the bootstrap library after the root class. -/
def afterRootSubjects : List Subject :=
  [.typeDataClass, .single .test ClassName.root.text, .single .cast ClassName.root.text,
    .single .typeData ClassName.root.text]

/-- The subjects of the bootstrap library after all classes. -/
def primitiveSubjects : List Subject :=
  Lowering.primitiveTypes.map (fun type => .single .typeData type.suffix)

/-- The subjects of the classes of a module and of the bootstrap library in it. -/
def statementSubjects : List Subject :=
  unit.librarySubjects [.castFailure] ++
    (unit.emissionOrder.filter (fun linked => linked.name.isRoot)).flatMap
      (fun linked => linked.mainSubjects context) ++
    unit.librarySubjects afterRootSubjects ++
    (unit.emissionOrder.filter (fun linked => !linked.name.isRoot)).flatMap
      (fun linked => linked.mainSubjects context ++ linked.typeSupportSubjects) ++
    unit.librarySubjects primitiveSubjects ++
    unit.emissionOrder.flatMap (fun linked => linked.shellSubjects .staticFields)

/-- The subjects of a module, in the order of their definitions. -/
def subjects : List Subject :=
  unit.importSubjects context ++
    (unit.librarySubjects [.castFailure] ++
      (unit.emissionOrder.filter (fun linked => linked.name.isRoot)).flatMap
        (fun linked => linked.mainSubjects context) ++
      unit.librarySubjects afterRootSubjects ++
      (unit.emissionOrder.filter (fun linked => !linked.name.isRoot)).flatMap
        (fun linked => linked.mainSubjects context ++ linked.typeSupportSubjects) ++
      unit.librarySubjects primitiveSubjects ++
      unit.emissionOrder.flatMap (fun linked => linked.shellSubjects .staticFields)) ++
    unit.topLevelExports.flatMap (TopLevelExport.subjects context)

/-- The subjects of a module are those of its imports, its statements and its exports. -/
theorem subjects_eq : unit.subjects context =
    unit.importSubjects context ++ unit.statementSubjects context ++
      unit.topLevelExports.flatMap (TopLevelExport.subjects context) := rfl

end Module

namespace Marks

/-- Whether the definitions among the statements are those of some subjects. -/
def About (marks : Marks) (subjects : List Subject) : Prop :=
  marks.definers = subjects.map Subject.definer

/-- Marks of two parts are about their subjects in turn. -/
theorem About.append {left right : Marks} {leftSubjects rightSubjects : List Subject}
    (first : left.About leftSubjects) (second : right.About rightSubjects) :
    About (left ++ right) (leftSubjects ++ rightSubjects) := by
  unfold About definers at *
  rw [List.filterMap_append, List.map_append, first, second]

/-- Marks that are made for subjects are about them. -/
theorem About.map {α : Type} (items : List α) (subject : α → Subject) :
    About (items.map (fun item => some (subject item).definer)) (items.map subject) := by
  simp [About, definers, Function.comp_def]

/-- Statements that define nothing. -/
theorem About.blank {marks : Marks} (blank : ∀ mark ∈ marks, mark = none) : marks.About [] := by
  unfold About definers
  rw [List.map_nil, List.filterMap_eq_nil_iff]
  exact fun mark found => blank mark found

/-- Marks of pieces are about the subjects of the items that they are made for. -/
theorem About.flatMap {α β : Type} {items : List α} {pieces : List β} {Made : α → β → Prop}
    {marks : β → Marks} {subjects : α → List Subject} (made : List.Forall₂ Made items pieces)
    (each : ∀ item piece, Made item piece → (marks piece).About (subjects item)) :
    About (pieces.flatMap marks) (items.flatMap subjects) := by
  induction made with
  | nil => rfl
  | cons head rest ih => exact (each _ _ head).append ih

end Marks

section Pieces

variable {setting : Setting} {program : Program} {unit : Module} {linked : LinkedClass}
  {naming : Naming}

/-- The context of generation in a module of a program. -/
abbrev Module.context (unit : Module) (setting : Setting) (program : Program) : Context :=
  setting.neutral (program.site unit)

variable (checked : program.Checked) (placed : unit ∈ program.modules)

section Classes

variable (there : linked ∈ unit.classes)

include checked placed there

/-- The marks of a part of a class shell are about its subjects. -/
theorem ClassPieces.MadeFor.shell_about {pieces : ClassPieces}
    (made : pieces.MadeFor setting [program] (program.site unit) linked) (part : ShellPart) :
    (pieces.shellMarks setting.config part).About (linked.shellSubjects part) := by
  unfold shellMarks LinkedClass.shellSubjects
  rw [made.shell_eq checked placed there]
  cases linked.hasShellPart part with
  | false => rfl
  | true =>
    cases part with
    | moduleAccessor | instanceTests => rfl
    | typeData =>
      change Marks.About (_ :: if linked.kind.isClass && linked.hasInstances then _ else _) _
      cases linked.kind.isClass && linked.hasInstances <;> rfl
    | staticFields =>
      exact Marks.About.map linked.staticFields (fun field =>
        .member .staticField linked.name field.name.text)
    | staticInitializers =>
      refine .blank (fun mark found => ?_)
      change mark ∈ (linked.staticInitializer?.map (fun _ => none)).toList at found
      obtain ⟨_, _, same⟩ := Option.map_eq_some_iff.1 (Option.mem_toList.1 found)
      exact same.symm

/-- The marks of a class definition are about its subjects. -/
theorem Definition.MadeFor.about {definition : Definition}
    (made : definition.MadeFor setting [program] (program.site unit) linked)
    (defined : linked.needsDefinition = true) :
    (definition.marks setting.config).About (linked.definitionSubjects setting.config) := by
  obtain ⟨-, own⟩ := Requested.own_definition checked placed there made.whole
  have blank : ∀ mark ∈ definition.members.flatMap Piece.treeMarks ++
      definition.exported.flatMap (Piece.marks setting.config), mark = none := by
    intro mark found
    rw [List.mem_append, List.mem_flatMap, List.mem_flatMap] at found
    rcases found with ⟨piece, found, marked⟩ | ⟨piece, found, marked⟩
    · rcases made.of_mem_members checked placed there found with ⟨_, _, rfl⟩ | ⟨_, rfl⟩ <;>
        simpa [Piece.treeMarks] using marked
    · obtain ⟨member, -, rfl⟩ := made.of_mem_exported checked placed there found
      cases shape : member.value with
      | method =>
        rw [shape] at marked
        exact List.mem_singleton.1 marked
      | property name isStatic getter? setter? =>
        rw [shape] at marked
        cases modern : setting.config.classSyntax <;> cases getter? <;> cases setter? <;>
          simp_all [Piece.marks, PieceMarks.ofExportedMember]
  unfold marks PieceMarks.ofDefinition LinkedClass.definitionSubjects
  rw [own, if_pos defined]
  cases setting.config.classSyntax with
  | true => rfl
  | false =>
    have none : ∀ parent : Bool,
        Marks.About (if parent then [Option.none, Option.none] else []) [] := by
      intro parent
      cases parent <;> rfl
    have helper : Marks.About
        (if linked.kind.isJsClass then []
          else [PieceMarks.ofStem (Naming.plainName "$h_" linked.name.text), Option.none])
        (if linked.kind.isJsClass then [] else [.single .helper linked.name.text]) := by
      cases linked.kind.isJsClass <;> rfl
    have all := (((show Marks.About
      [PieceMarks.ofStem (Naming.plainName "$c_" linked.name.text)]
      [.single .constructor linked.name.text] from rfl).append
        (none (definition.ctor.hasParent setting.config))).append helper).append
      (Marks.About.blank blank)
    simpa using all

/-- The marks of the main statements of a class are about its subjects. -/
theorem ClassPieces.MadeFor.main_about {pieces : ClassPieces}
    (made : pieces.MadeFor setting [program] (program.site unit) linked) :
    (pieces.mainMarks setting.config).About
      (linked.mainSubjects (unit.context setting program)) := by
  refine ((Marks.About.append ?_ ?_).append (made.shell_about checked placed there _))
  · rw [LinkedClass.functionSubjects, List.map_eq_flatMap]
    refine Marks.About.flatMap made.functions (fun method piece served => ?_)
    obtain ⟨own, -, home, name, rfl⟩ := served.requested.own_function checked placed there
    simp only [Piece.treeMarks, home, name]
    rfl
  · cases defined : linked.needsDefinition with
    | false =>
      rw [made.undefined defined, LinkedClass.definitionSubjects, defined]
      rfl
    | true =>
      obtain ⟨definition, found, definitionMade⟩ := made.defined defined
      rw [found]
      exact definitionMade.about checked placed there defined

/-- The marks of the statements for type tests of a class are about their subjects. -/
theorem ClassPieces.MadeFor.typeSupport_about {pieces : ClassPieces}
    (made : pieces.MadeFor setting [program] (program.site unit) linked) :
    (pieces.typeSupportMarks setting.config).About linked.typeSupportSubjects :=
  (made.shell_about checked placed there _).append (made.shell_about checked placed there _)

end Classes

/-- The marks of an export are about its subjects. -/
theorem TopLevelExport.subjects_about (context : Context) (entry : TopLevelExport) :
    (PieceMarks.ofExport context.config context.index context.home entry).About
      (entry.subjects context) := by
  unfold PieceMarks.ofExport TopLevelExport.subjects
  cases context.config.moduleKind with
  | script | commonJs => cases entry.kind <;> rfl
  | esModule =>
    cases PieceMarks.exportsReference context.index context.home entry.kind <;>
      cases entry.kind <;> rfl

/-- The marks of imports are about their subjects. -/
theorem Module.importSubjects_about (context : Context) (unit : Module) :
    (PieceMarks.ofImports context.config context.index unit).About
      (unit.importSubjects context) := by
  unfold PieceMarks.ofImports Module.importSubjects
  split
  · rfl
  · exact (Marks.About.map _ (fun id : ModuleId => .single .internalImport id.text)).append
      (.map _ (.single .externalImport))

include checked placed

/-- In a first run the account of the classes of a module is about their subjects. -/
theorem ModulePieces.MadeFor.statements_about {pieces : ModulePieces}
    (made : pieces.MadeFor setting [program] program unit) :
    (pieces.statementMarks setting.config).About
      (unit.statementSubjects (unit.context setting program)) := by
  have classes : List.Forall₂ (fun linked classPieces => linked ∈ unit.classes ∧
      ClassPieces.MadeFor setting [program] (program.site unit) linked classPieces)
      unit.emissionOrder pieces.classes :=
    (List.forall₂_and_left _ _).2 ⟨fun _ found => Module.mem_emissionOrder.1 found, made.classes⟩
  have library : ∀ {marks : Marks} {subjects : List Subject}, marks.About subjects →
      (pieces.libraryMarks marks).About (unit.librarySubjects subjects) := by
    intro marks subjects about
    unfold libraryMarks Module.librarySubjects
    rw [made.library]
    cases unit.isRoot with
    | false => rfl
    | true => exact about
  have main : ∀ linked classPieces, linked ∈ unit.classes ∧
      ClassPieces.MadeFor setting [program] (program.site unit) linked classPieces →
      (classPieces.mainMarks setting.config).About
        (linked.mainSubjects (unit.context setting program)) :=
    fun _ _ both => both.2.main_about checked placed both.1
  have roots := List.rel_filter (p := fun linked : LinkedClass => linked.name.isRoot)
    (q := fun classPieces : ClassPieces => classPieces.name.isRoot)
    (fun _ _ both => iff_of_eq (congrArg (fun name : ClassName => name.isRoot = true)
      both.2.name.symm)) classes
  have others := List.rel_filter (p := fun linked : LinkedClass => !linked.name.isRoot)
    (q := fun classPieces : ClassPieces => !classPieces.name.isRoot)
    (fun _ _ both => iff_of_eq (congrArg (fun name : ClassName => (!name.isRoot) = true)
      both.2.name.symm)) classes
  have beforeRoot : PieceMarks.beforeRoot.About [.castFailure] := rfl
  have afterRoot : (PieceMarks.afterRoot setting.config).About Module.afterRootSubjects := by
    unfold PieceMarks.afterRoot
    cases setting.config.classSyntax <;> rfl
  have primitives : PieceMarks.afterClasses.About Module.primitiveSubjects := by
    unfold Marks.About
    decide
  have link : Marks.About (if pieces.library?.isSome && !pieces.roots.isEmpty &&
      pieces.site.index.rootHasInstances then [none] else []) [] := by
    split <;> rfl
  have initializers : Marks.About (pieces.classes.flatMap (fun classPieces =>
      classPieces.shellMarks setting.config .staticInitializers)) [] := by
    have each := Marks.About.flatMap classes (fun _ _ both =>
      both.2.shell_about checked placed both.1 .staticInitializers)
    have none : unit.emissionOrder.flatMap
        (fun linked => linked.shellSubjects .staticInitializers) = [] := by
      simp [LinkedClass.shellSubjects]
    rwa [none] at each
  have mains := Marks.About.flatMap roots main
  have classesWhole := Marks.About.flatMap others (fun linked classPieces both =>
    (main _ _ both).append (both.2.typeSupport_about checked placed both.1))
  have fields := Marks.About.flatMap classes (fun _ _ both =>
    both.2.shell_about checked placed both.1 .staticFields)
  have all := (((((((library beforeRoot).append mains).append (library afterRoot)).append
    link).append classesWhole).append (library primitives)).append fields).append initializers
  simpa only [List.append_nil, ModulePieces.statementMarks, Module.statementSubjects,
    ModulePieces.roots, ModulePieces.others] using all

/-- In a first run the account of a module is about its subjects. -/
theorem ModulePieces.MadeFor.about {pieces : ModulePieces}
    (made : pieces.MadeFor setting [program] program unit) :
    (pieces.marks setting.config).About (unit.subjects (unit.context setting program)) := by
  have internal : (pieces.internalMarks setting.config).About [] := by
    unfold internalMarks
    split
    · cases setting.config.moduleKind with
      | script | esModule => rfl
      | commonJs => exact .blank (by simp)
    · rfl
  have exports : (pieces.topLevelExports.marks setting.config).About
      (unit.topLevelExports.flatMap (TopLevelExport.subjects (unit.context setting program))) := by
    rw [made.topLevelExports.requested.own_topLevelExports checked placed]
    exact Marks.About.flatMap (List.forall₂_same.2 (fun _ _ => rfl)) (fun entry _ same =>
      same ▸ entry.subjects_about (unit.context setting program))
  have calls : (pieces.initializers.marks setting.config).About [] := by
    rw [made.initializers.requested.own_initializers checked placed]
    exact .blank (by simp [Piece.marks])
  have imports : (pieces.imports.marks setting.config).About
      (unit.importSubjects (unit.context setting program)) := by
    rw [made.imports.requested.own_imports checked placed]
    exact Module.importSubjects_about (unit.context setting program) unit
  have all := imports.append ((((made.statements_about checked placed).append internal).append
    exports).append calls)
  simpa only [List.append_nil, List.append_assoc, marks, bodyMarks, Module.subjects_eq] using all

end Pieces

end JsEmitter
