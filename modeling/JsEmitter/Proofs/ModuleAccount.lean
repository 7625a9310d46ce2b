import JsEmitter.Proofs.DefinedNames

/-!
# Account of a module

What a module uses of the host and what it defines, added up over its pieces. The account does not
depend on the naming scheme. `ModulePieces.output_refs` says that the module records the tracked
ones among the names of the account, and `ModulePieces.trees_marks` that its statements define what
the account says, in this order.
-/
namespace JsEmitter

open Js (Tree)
open Lowering (Context ConstructorParts Bootstrap)

variable (setting : Setting) (naming : Naming)

namespace Piece

open PieceMarks

/-- The marks of a piece that is one statement. -/
def treeMarks : Piece .tree → Marks
  | .function _ linked method =>
    [ofStem (Naming.memberName (Naming.functionMark method.home) linked.name method.name.text)]
  | .member .. | .bridge .. => [none]

/-- The marks of a piece that is a list of statements. -/
def marks (config : Config) : Piece .trees → Marks
  | .exportedMember _ _ entry => ofExportedMember config entry
  | .shell _ linked part => ofShellPart linked part
  | .imports site unit => ofImports config site.index unit
  | .topLevelExports site entries => entries.flatMap (ofExport config site.index site.home)
  | .initializers _ calls => calls.map (fun _ => none)

/-- The marks of a piece with one tree fit its code. -/
theorem run_treeMarks (piece : Piece .tree) :
    piece.treeMarks.Fit naming [(piece.run setting naming).value] := by
  cases piece with
  | function site linked method => rfl
  | member site linked method =>
    by_cases modern : setting.config.classSyntax = true <;>
      simp [Marks.Fit, treeMarks, run, Context.memberMethod, Setting.context, modern,
        Tree.definedName?]
  | bridge site method => rfl

/-- The marks of a piece with several trees fit its code. -/
theorem run_marks (piece : Piece .trees) :
    (piece.marks setting.config).Fit naming (piece.run setting naming).value := by
  cases piece with
  | exportedMember site linked entry => exact Context.exportedMember_marks _ linked entry
  | shell site linked part => exact Context.shellTrees_marks _ linked part
  | imports site unit => exact Context.imports_marks _ unit
  | topLevelExports site entries => exact Context.topLevelExports_marks _ entries
  | initializers site calls => exact Context.moduleInitializers_marks _ calls

/-- The marks of pieces that are one statement each. -/
theorem run_allTreeMarks (pieces : List (Piece .tree)) :
    Marks.Fit naming (pieces.flatMap treeMarks)
      (pieces.map (fun piece => (piece.run setting naming).value)) := by
  have single : pieces.map (fun piece => (piece.run setting naming).value) =
      pieces.flatMap (fun piece => [(piece.run setting naming).value]) := by
    simp [List.map_eq_flatMap]
  rw [single]
  exact Marks.Fit.flatMap (fun piece _ => run_treeMarks setting naming piece)

end Piece

/-- The marks of a class definition. -/
def Definition.marks (config : Config) (definition : Definition) : Marks :=
  PieceMarks.ofDefinition config definition.linked (definition.ctor.hasParent config)
    (definition.members.flatMap Piece.treeMarks ++
      definition.exported.flatMap (Piece.marks config))

/-- The marks of a class definition fit its code. -/
theorem Definition.run_marks (definition : Definition) :
    (definition.marks setting.config).Fit naming (definition.run setting naming).value := by
  unfold marks run
  rw [← Piece.run_parent setting naming definition.ctor]
  refine Context.fullClass_marks _ definition.linked _ (.append ?_ ?_)
  · exact Piece.run_allTreeMarks setting naming definition.members
  · rw [← List.flatMap_def]
    exact Marks.Fit.flatMap (fun piece _ => piece.run_marks setting naming)

namespace ClassPieces

variable (config : Config)

/-- The host names of a piece that a class need not have. -/
def shellHosts (pieces : ClassPieces) (part : ShellPart) : List String :=
  ((pieces.shell part).map (Piece.hosts config)).getD []

/-- The marks of a piece that a class need not have. -/
def shellMarks (pieces : ClassPieces) (part : ShellPart) : Marks :=
  ((pieces.shell part).map (Piece.marks config)).getD []

/-- The host names that a class uses. -/
def hosts (pieces : ClassPieces) : List String :=
  pieces.functions.flatMap (Piece.hosts config) ++
    (pieces.definition?.map (Definition.hosts config)).getD [] ++
    pieces.shellHosts config .moduleAccessor ++ pieces.shellHosts config .instanceTests ++
    pieces.shellHosts config .typeData ++ pieces.shellHosts config .staticFields ++
    pieces.shellHosts config .staticInitializers

/-- The marks of the functions, the definition and the accessor of a class. -/
def mainMarks (pieces : ClassPieces) : Marks :=
  pieces.functions.flatMap Piece.treeMarks ++
    (pieces.definition?.map (Definition.marks config)).getD [] ++
    pieces.shellMarks config .moduleAccessor

/-- The marks of the instance tests and the type data of a class. -/
def typeSupportMarks (pieces : ClassPieces) : Marks :=
  pieces.shellMarks config .instanceTests ++ pieces.shellMarks config .typeData

end ClassPieces

namespace ClassPieces

variable (pieces : ClassPieces)

/-- A part of a class shell records the host names of its pieces. -/
theorem shellTrees_refs (part : ShellPart) :
    (pieces.shellTrees setting naming part).refs =
      setting.recorded (pieces.shellHosts setting.config part) := by
  unfold shellTrees shellHosts
  cases pieces.shell part with
  | none => rfl
  | some piece => exact piece.run_refs setting naming

/-- The marks of a part of a class shell fit its trees. -/
theorem shellTrees_marks (part : ShellPart) :
    (pieces.shellMarks setting.config part).Fit naming
      (pieces.shellTrees setting naming part).value := by
  unfold shellTrees shellMarks
  cases pieces.shell part with
  | none => exact .nil
  | some piece => exact piece.run_marks setting naming

/-- The definition of a class records the host names of its pieces. -/
theorem definitionTrees_refs :
    (pieces.definitionTrees setting naming).refs =
      setting.recorded ((pieces.definition?.map (Definition.hosts setting.config)).getD []) := by
  unfold definitionTrees
  cases pieces.definition? with
  | none => rfl
  | some definition => exact definition.whole_refs setting naming

/-- The marks of the definition of a class fit its trees. -/
theorem definitionTrees_marks :
    Marks.Fit naming ((pieces.definition?.map (Definition.marks setting.config)).getD [])
      (pieces.definitionTrees setting naming).value := by
  unfold definitionTrees
  cases pieces.definition? with
  | none => exact .nil
  | some definition => exact definition.run_marks setting naming

/-- A class records the tracked ones among the host names that its pieces use. -/
theorem fragments_refs :
    (pieces.fragments setting naming).refs = setting.recorded (pieces.hosts setting.config) := by
  have functions := Tracked.list_refs (setting.context naming ⟨default, default⟩)
    (fun piece (_ : piece ∈ pieces.functions) => piece.run_refs setting naming)
  simp [fragments, hosts, shellTrees_refs, definitionTrees_refs, functions,
    Setting.recorded_context]

/-- The trees of a class have its name. -/
theorem fragments_name : (pieces.fragments setting naming).value.name = pieces.name := rfl

/-- The marks of the main statements of a class fit them. -/
theorem main_marks :
    (pieces.mainMarks setting.config).Fit naming
      (pieces.fragments setting naming).value.main := by
  refine ((Marks.Fit.append ?_ (pieces.definitionTrees_marks setting naming)).append
    (pieces.shellTrees_marks setting naming _))
  rw [Tracked.list_value, List.map_map]
  exact Piece.run_allTreeMarks setting naming pieces.functions

/-- The marks of the statements for type tests of a class fit them. -/
theorem typeSupport_marks :
    (pieces.typeSupportMarks setting.config).Fit naming
      (pieces.fragments setting naming).value.typeSupport :=
  (pieces.shellTrees_marks setting naming _).append (pieces.shellTrees_marks setting naming _)

/-- The marks of the static fields of a class fit their statements. -/
theorem staticFields_marks :
    (pieces.shellMarks setting.config .staticFields).Fit naming
      (pieces.fragments setting naming).value.staticFields :=
  pieces.shellTrees_marks setting naming _

/-- The marks of the static initializers of a class fit their statements. -/
theorem staticInitializers_marks :
    (pieces.shellMarks setting.config .staticInitializers).Fit naming
      (pieces.fragments setting naming).value.staticInitializers :=
  pieces.shellTrees_marks setting naming _

end ClassPieces

namespace ModulePieces

open PieceMarks

section

variable (config : Config) (pieces : ModulePieces)

/-- The marks of a part of the bootstrap library, if the module has it. -/
def libraryMarks (marks : Marks) : Marks := if pieces.library?.isSome then marks else []

/-- The pieces of the root class. -/
def roots : List ClassPieces := pieces.classes.filter (fun classPieces => classPieces.name.isRoot)

/-- The pieces of the other classes. -/
def others : List ClassPieces :=
  pieces.classes.filter (fun classPieces => !classPieces.name.isRoot)

/-- The marks of the statements of the classes, with those of the bootstrap library. -/
def statementMarks : Marks :=
  pieces.libraryMarks beforeRoot ++ pieces.roots.flatMap (ClassPieces.mainMarks config) ++
    pieces.libraryMarks (afterRoot config) ++
    (if pieces.library?.isSome && !pieces.roots.isEmpty && pieces.site.index.rootHasInstances
      then [none] else []) ++
    pieces.others.flatMap (fun classPieces =>
      classPieces.mainMarks config ++ classPieces.typeSupportMarks config) ++
    pieces.libraryMarks afterClasses ++
    pieces.classes.flatMap (fun classPieces => classPieces.shellMarks config .staticFields) ++
    pieces.classes.flatMap (fun classPieces => classPieces.shellMarks config .staticInitializers)

/-- Whether the module exports definitions to other modules of the program. -/
def exportsDefinitions : Bool :=
  pieces.exported && !(pieces.statementMarks config).definers.isEmpty

/-- The marks of the exports to other modules of the program. -/
def internalMarks : Marks :=
  if pieces.exportsDefinitions config then
    match config.moduleKind with
    | .script => []
    | .esModule => [none]
    | .commonJs => (pieces.statementMarks config).definers.map (fun _ => none)
  else []

/-- The marks of the statements after the imports. -/
def bodyMarks : Marks :=
  pieces.statementMarks config ++ pieces.internalMarks config ++
    pieces.topLevelExports.marks config ++ pieces.initializers.marks config

/-- The marks of all statements of the module. -/
def marks : Marks := pieces.imports.marks config ++ pieces.bodyMarks config

/-- The definitions of the module at top level, in order. -/
def definers : List Definer := (pieces.marks config).definers

/-- The host names that the module uses. -/
def hosts : List String :=
  pieces.imports.hosts config ++ pieces.classes.flatMap (ClassPieces.hosts config) ++
    (pieces.library?.map (Piece.hosts config)).getD [] ++
    (if pieces.exportsDefinitions config && config.moduleKind = .commonJs then ["exports"]
      else []) ++
    pieces.topLevelExports.hosts config ++ pieces.initializers.hosts config

end

variable (pieces : ModulePieces)

/-- The trees of a module are those of its classes. -/
theorem fragments_value :
    (pieces.fragments setting naming).value =
      pieces.classes.map (fun classPieces => (classPieces.fragments setting naming).value) := by
  simp [fragments]

/-- The classes of a module record the host names of their pieces. -/
theorem fragments_refs :
    (pieces.fragments setting naming).refs =
      setting.recorded (pieces.classes.flatMap (ClassPieces.hosts setting.config)) :=
  Tracked.list_refs (setting.context naming pieces.site)
    (fun classPieces _ => classPieces.fragments_refs setting naming)

/-- The bootstrap library of a module records its host names. -/
theorem library_refs :
    (pieces.library setting naming).refs =
      setting.recorded ((pieces.library?.map (Piece.hosts setting.config)).getD []) := by
  unfold library
  cases pieces.library? with
  | none => rfl
  | some piece => exact piece.run_refs setting naming

/-- The statements of a part of the bootstrap library fit its marks. -/
theorem libraryMarks_fit {part : Bootstrap → List Tree} {marks : Marks}
    (fit : ∀ site, marks.Fit naming (part (Piece.run setting naming (.library site)).value)) :
    (pieces.libraryMarks marks).Fit naming
      (((pieces.library setting naming).value.map part).getD []) := by
  unfold libraryMarks library
  cases pieces.library? with
  | none => exact .nil
  | some piece =>
    cases piece with
    | library site => exact fit site

/-- The statements of the classes and of the bootstrap library fit their marks. -/
theorem statements_marks :
    (pieces.statementMarks setting.config).Fit naming (pieces.statements setting naming) := by
  have present : (pieces.library setting naming).value.isSome = pieces.library?.isSome := by
    unfold library
    cases pieces.library? <;> rfl
  unfold statements Emission.classStatements statementMarks
  rw [fragments_value]
  simp only [List.filter_map, List.flatMap_map, List.isEmpty_map, Function.comp_def,
    ClassPieces.fragments_name, present]
  refine ((((((Marks.Fit.append ?_ ?_).append ?_).append ?_).append ?_).append ?_).append
    ?_).append ?_
  · exact pieces.libraryMarks_fit setting naming (fun site => Context.beforeRoot_marks _)
  · exact Marks.Fit.flatMap (fun classPieces _ => classPieces.main_marks setting naming)
  · exact pieces.libraryMarks_fit setting naming (fun site => Context.afterRoot_marks _)
  · change Marks.Fit naming _ (if (pieces.library?.isSome && !pieces.roots.isEmpty &&
      pieces.site.index.rootHasInstances) = true then _ else _)
    cases pieces.library?.isSome && !pieces.roots.isEmpty && pieces.site.index.rootHasInstances <;>
      rfl
  · exact Marks.Fit.flatMap (fun classPieces _ =>
      (classPieces.main_marks setting naming).append (classPieces.typeSupport_marks setting naming))
  · exact pieces.libraryMarks_fit setting naming (fun site => Context.afterClasses_marks _)
  · exact Marks.Fit.flatMap (fun classPieces _ => classPieces.staticFields_marks setting naming)
  · exact Marks.Fit.flatMap
      (fun classPieces _ => classPieces.staticInitializers_marks setting naming)

/-- Definitions are exported to other modules only if there are any. -/
theorem internalExports_eq :
    pieces.internalExports setting naming =
      if pieces.exportsDefinitions setting.config then
        (setting.context naming pieces.site).internalExports
          ((pieces.statementMarks setting.config).definers.map (Definer.name naming))
      else pure [] := by
  unfold internalExports Emission.emitInternalExports exportsDefinitions
  rw [(pieces.statements_marks setting naming).definedNames]
  cases (pieces.statementMarks setting.config).definers with
  | nil => cases pieces.exported <;> rfl
  | cons first rest => cases pieces.exported <;> rfl

/-- Exports of internal names use the name of the exported object in CommonJS only. -/
theorem internalExports_refs :
    (pieces.internalExports setting naming).refs = setting.recorded
      (if pieces.exportsDefinitions setting.config && setting.config.moduleKind = .commonJs
        then ["exports"] else []) := by
  rw [internalExports_eq]
  cases exporting : pieces.exportsDefinitions setting.config with
  | false => rfl
  | true =>
    have some : (pieces.statementMarks setting.config).definers ≠ [] := by
      intro none
      simp [exportsDefinitions, none] at exporting
    cases modules : setting.config.moduleKind <;>
      simp [Context.internalExports, Setting.context, modules, some, ← Setting.recorded_context
        setting naming pieces.site]

/-- The marks of the exports of internal names fit their statements. -/
theorem internalExports_marks :
    (pieces.internalMarks setting.config).Fit naming
      (pieces.internalExports setting naming).value := by
  rw [internalExports_eq]
  unfold internalMarks
  cases exporting : pieces.exportsDefinitions setting.config with
  | false => exact .nil
  | true =>
    have some : (pieces.statementMarks setting.config).definers ≠ [] := by
      intro none
      simp [exportsDefinitions, none] at exporting
    cases modules : setting.config.moduleKind <;>
      simp [Marks.Fit, Context.internalExports, Setting.context, modules, some,
        Tree.definedName?, Function.comp_def]

/-- The marks of the body of a module fit it. -/
theorem body_marks :
    (pieces.bodyMarks setting.config).Fit naming (pieces.body setting naming) :=
  (((pieces.statements_marks setting naming).append
    (pieces.internalExports_marks setting naming)).append
    (pieces.topLevelExports.run_marks setting naming)).append
    (pieces.initializers.run_marks setting naming)

/-- The statements of a module define what its account says, in this order. -/
theorem trees_marks :
    (pieces.marks setting.config).Fit naming (pieces.output setting naming).trees :=
  (pieces.imports.run_marks setting naming).append (pieces.body_marks setting naming)

/-- The names that a module defines are those of its account. -/
theorem output_definedNames :
    (pieces.output setting naming).definedNames =
      (pieces.definers setting.config).map (Definer.name naming) :=
  (pieces.trees_marks setting naming).definedNames

/-- A module records the tracked ones among the host names that its pieces use. -/
theorem output_refs :
    (pieces.output setting naming).refs = setting.recorded (pieces.hosts setting.config) := by
  simp [output, hosts, Piece.run_refs, fragments_refs, library_refs, internalExports_refs,
    SortedSet.union_assoc]

end ModulePieces

end JsEmitter
