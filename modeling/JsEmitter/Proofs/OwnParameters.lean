import JsEmitter.Proofs.WrittenFunctions

/-!
# Own parameters and host names

The functions of a module are read off its pieces, in the order in which they stand in the output.
The naming scheme has no say in the parameters that generation adds to them, so one of these can
have a name that the scheme avoids. What generation writes by itself in their scope takes nothing
from the host by such a name. The body of a method can, and then its receiver captures the name.
-/
namespace JsEmitter

open Js (Tree FunctionNode)
open Js.Tree (visited visitedAll functions)
open Lowering (Context Bootstrap receiverParam)
open WrittenFunction (Account)

/-- The functions of a class definition. -/
def Definition.writtenFunctions (config : Config) (definition : Definition) :
    List WrittenFunction :=
  .fromProgram definition.ctor.params ::
    (if config.classSyntax || definition.linked.kind.isJsClass then [] else [.fromProgram []]) ++
    definition.members.flatMap (Piece.writtenFunctions config) ++
    definition.exported.flatMap (Piece.writtenFunctions config)

namespace ClassPieces

variable (config : Config) (pieces : ClassPieces)

/-- The functions of a piece that a class need not have. -/
def shellFunctions (part : ShellPart) : List WrittenFunction :=
  ((pieces.shell part).map (Piece.writtenFunctions config)).getD []

/-- The functions among the free functions, the definition and the accessor of a class. -/
def mainFunctions : List WrittenFunction :=
  pieces.functions.flatMap (Piece.writtenFunctions config) ++
    (pieces.definition?.map (Definition.writtenFunctions config)).getD [] ++
    pieces.shellFunctions config .moduleAccessor

/-- The functions among the instance tests and the type data of a class. -/
def typeSupportFunctions : List WrittenFunction :=
  pieces.shellFunctions config .instanceTests ++ pieces.shellFunctions config .typeData

end ClassPieces

namespace ModulePieces

variable (config : Config) (pieces : ModulePieces)

/-- Functions of the bootstrap library, if the module has it. -/
def libraryFunctions (written : List WrittenFunction) : List WrittenFunction :=
  if pieces.library?.isSome then written else []

/-- The functions of the statements of the classes, with those of the bootstrap library. -/
def statementFunctions : List WrittenFunction :=
  pieces.libraryFunctions WrittenFunction.ofCastFailure ++
    pieces.roots.flatMap (ClassPieces.mainFunctions config) ++
    pieces.libraryFunctions WrittenFunction.ofTypeData ++
    pieces.others.flatMap (fun classPieces =>
      classPieces.mainFunctions config ++ classPieces.typeSupportFunctions config) ++
    pieces.classes.flatMap (fun classPieces => classPieces.shellFunctions config .staticFields) ++
    pieces.classes.flatMap (fun classPieces =>
      classPieces.shellFunctions config .staticInitializers)

/-- The functions of a module, in the order in which they stand in its output. -/
def writtenFunctions : List WrittenFunction :=
  pieces.imports.writtenFunctions config ++ (pieces.statementFunctions config ++
    pieces.topLevelExports.writtenFunctions config ++ pieces.initializers.writtenFunctions config)

end ModulePieces

section Accounts

variable (setting : Setting) (naming : Naming)

namespace Piece

/-- The functions of a piece with one tree are accounted for. -/
theorem account_tree (piece : Piece .tree) :
    Account naming (piece.writtenFunctions setting.config)
      (piece.run setting naming).value.visited := by
  cases piece with
  | function site linked method =>
    exact (setting.context naming site).freeFunction_account linked method
  | member site linked method =>
    exact (setting.context naming site).memberMethod_account linked method
  | bridge site method => exact (setting.context naming site).bridge_account method

/-- The functions of a piece with several trees are accounted for. -/
theorem account_trees (piece : Piece .trees) :
    Account naming (piece.writtenFunctions setting.config)
      (visitedAll (piece.run setting naming).value) := by
  cases piece with
  | exportedMember site linked entry =>
    exact (setting.context naming site).exportedMember_account linked entry
  | shell site linked part =>
    exact (setting.context naming site).shellTrees_account linked part
  | imports site unit => exact .nil (Context.imports_functions _ unit)
  | topLevelExports site entries =>
    exact (setting.context naming site).topLevelExports_account entries
  | initializers site calls => exact .nil (Context.moduleInitializers_functions _ calls)

/-- The functions of pieces with one tree each are accounted for. -/
theorem account_allTrees (pieces : List (Piece .tree)) :
    Account naming (pieces.flatMap (writtenFunctions setting.config))
      (visitedAll (pieces.map (fun piece => (piece.run setting naming).value))) := by
  have all := Account.flatMap (fun piece (_ : piece ∈ pieces) =>
    (piece.account_tree setting naming).single)
  simpa [List.map_eq_flatMap] using all

/-- A constructor holds no function. -/
theorem run_plain (piece : Piece .ctor) :
    Context.ConstructorPlain (piece.run setting naming).value := by
  cases piece with
  | jsConstructor site linked ctor => exact Context.jsConstructorParts_plain _ linked ctor
  | plainConstructor site linked => exact Context.plainConstructorParts_plain _ linked

/-- A constructor has the parameters of its piece. -/
theorem run_params (piece : Piece .ctor) :
    (piece.run setting naming).value.params = piece.params := by
  cases piece with
  | jsConstructor site linked ctor => rfl
  | plainConstructor site linked =>
    exact (setting.context naming site).plainConstructorParts_params linked

end Piece

/-- The functions of a class definition are accounted for. -/
theorem Definition.account (definition : Definition) :
    Account naming (definition.writtenFunctions setting.config)
      (visitedAll (definition.run setting naming).value) := by
  unfold writtenFunctions run
  rw [List.append_assoc, ← Piece.run_params setting naming]
  refine (setting.context naming definition.site).fullClass_account
    (definition.ctor.run_plain setting naming) (.append ?_ ?_)
  · exact Piece.account_allTrees setting naming definition.members
  · rw [← List.flatMap_def]
    exact Account.flatMap (fun piece _ => piece.account_trees setting naming)

namespace ClassPieces

variable (pieces : ClassPieces)

/-- The functions of a part of a class shell are accounted for. -/
theorem shellTrees_account (part : ShellPart) :
    Account naming (pieces.shellFunctions setting.config part)
      (visitedAll (pieces.shellTrees setting naming part).value) := by
  unfold shellTrees shellFunctions
  cases pieces.shell part with
  | none => exact .nil rfl
  | some piece => exact piece.account_trees setting naming

/-- The functions of the main statements of a class are accounted for. -/
theorem main_account :
    Account naming (pieces.mainFunctions setting.config)
      (visitedAll (pieces.fragments setting naming).value.main) := by
  have definition : Account naming
      ((pieces.definition?.map (Definition.writtenFunctions setting.config)).getD [])
      (visitedAll (pieces.definitionTrees setting naming).value) := by
    unfold definitionTrees
    cases pieces.definition? with
    | none => exact .nil rfl
    | some definition => exact definition.account setting naming
  refine Account.append (Account.append ?_ definition) (pieces.shellTrees_account setting naming _)
  rw [Tracked.list_value, List.map_map]
  exact Piece.account_allTrees setting naming pieces.functions

/-- The functions of the statements for type tests of a class are accounted for. -/
theorem typeSupport_account :
    Account naming (pieces.typeSupportFunctions setting.config)
      (visitedAll (pieces.fragments setting naming).value.typeSupport) :=
  (pieces.shellTrees_account setting naming _).append (pieces.shellTrees_account setting naming _)

end ClassPieces

namespace ModulePieces

variable (pieces : ModulePieces)

/-- The functions of a part of the bootstrap library. -/
theorem libraryFunctions_account {part : Bootstrap → List Tree} {written : List WrittenFunction}
    (account : ∀ site, Account naming written
      (visitedAll (part (Piece.run setting naming (.library site)).value))) :
    Account naming (pieces.libraryFunctions written)
      (visitedAll (((pieces.library setting naming).value.map part).getD [])) := by
  unfold libraryFunctions library
  cases pieces.library? with
  | none => exact .nil rfl
  | some piece =>
    cases piece with
    | library site => exact account site

/-- The functions of the statements of the classes and of the bootstrap library. -/
theorem statements_account :
    Account naming (pieces.statementFunctions setting.config)
      (visitedAll (pieces.statements setting naming)) := by
  unfold statements Emission.classStatements statementFunctions
  rw [fragments_value]
  simp only [List.filter_map, List.flatMap_map, List.isEmpty_map, Function.comp_def,
    ClassPieces.fragments_name]
  refine ((((((Account.append ?_ ?_).append ?_).append_none ?_).append ?_).append_none ?_).append
    ?_).append ?_
  · exact pieces.libraryFunctions_account setting naming (fun site =>
      (setting.context naming site).castFailure_account)
  · exact Account.flatMap (fun classPieces _ => classPieces.main_account setting naming)
  · exact pieces.libraryFunctions_account setting naming (fun site =>
      (setting.context naming site).typeData_account)
  · split <;> rfl
  · exact Account.flatMap (fun classPieces _ =>
      (classPieces.main_account setting naming).append
        (classPieces.typeSupport_account setting naming))
  · unfold library
    cases pieces.library? with
    | none => rfl
    | some piece =>
      cases piece with
      | library site => exact Context.primitiveTypeData_functions _
  · exact Account.flatMap (fun classPieces _ => classPieces.shellTrees_account setting naming _)
  · exact Account.flatMap (fun classPieces _ => classPieces.shellTrees_account setting naming _)

/-- The functions in the output of a module are those that are read off its pieces, in the same
order. -/
theorem output_account :
    Account naming (pieces.writtenFunctions setting.config)
      (visitedAll (pieces.output setting naming).trees) := by
  have internal : functions (visitedAll (pieces.internalExports setting naming).value) = [] := by
    unfold internalExports Emission.emitInternalExports
    split
    · exact Context.internalExports_functions _ _
    · rfl
  exact (pieces.imports.account_trees setting naming).append
    ((((pieces.statements_account setting naming).append_none internal).append
      (pieces.topLevelExports.account_trees setting naming)).append
      (pieces.initializers.account_trees setting naming))

/-- Every top-level definition of a module has a name that is not avoided, unless it is a variable
that the program exports from a script. -/
theorem definedNames_not_assumed {name : String}
    (found : name ∈ (pieces.output setting naming).definedNames) (avoided : name ∈ naming.assumed) :
    .exported name ∈ pieces.definers setting.config := by
  rw [output_definedNames] at found
  obtain ⟨definer, defined, rfl⟩ := List.mem_map.1 found
  cases definer with
  | generated stem => exact absurd avoided (naming.avoidClash_free stem)
  | exported other => exact defined

/-- The functions of a module are those that are read off its pieces. A parameter that generation
adds to one of them, under whatever name, captures an avoided name that is taken from the host in
its scope only if it is a receiver: exactly if its own name is avoided, and taken from the host by
the body of the method. No definition that generation names has an avoided name. -/
theorem ownParameters_capture_iff :
    List.Forall₂ (fun written node => written.Describes naming node ∧
        (written.Captures naming ↔ receiverParam ∈ naming.assumed ∧ written.TakesReceiver))
      (pieces.writtenFunctions setting.config)
      (functions (visitedAll (pieces.output setting naming).trees)) ∧
    ∀ name ∈ (pieces.output setting naming).definedNames, name ∈ naming.assumed →
      .exported name ∈ pieces.definers setting.config :=
  ⟨(pieces.output_account setting naming).imp
      (fun written _ describes => ⟨describes, written.captures_iff⟩),
    fun _ found avoided => pieces.definedNames_not_assumed setting naming found avoided⟩

end ModulePieces

end Accounts

/-- The receiver parameter of a private method captures the variable of the host that its body
returns, although the name of this variable is avoided. -/
theorem receiverParam_captures_host :
    let context : Context := ⟨.standard, ⟨.single receiverParam⟩, default, .standard, ⟨"main"⟩⟩
    let linked : LinkedClass := .start ⟨"app.A"⟩ .plain
    let method : MethodDef := ⟨⟨"m"⟩, .instancePrivate, [], .globalRef receiverParam⟩
    receiverParam ∈ context.naming.assumed ∧
      context.lower .plain method.body = context.hostRef receiverParam ∧
      (context.freeFunction linked method).value =
        .functionDef (context.naming.freeFunction method.home linked.name method.name)
          [receiverParam] none (.varRef receiverParam) := by
  intro context linked method
  exact ⟨SortedSet.mem_single.2 rfl, rfl, rfl⟩

end JsEmitter
