import JsEmitter.Proofs.PassInStep
import Mathlib.Data.List.Nodup

/-!
# Layout of a module

The body of a module goes through stages in a fixed order. What a class is made of are its parts,
and every part stands at the stage that it belongs to. The layout of a module is the list of all its
parts with their statements: `ModulePieces.MadeFor.body_eq` says that the body is these statements
in this order, and `ModulePieces.labels_nodup` that no part stands there twice.
-/
namespace JsEmitter

open Js (Tree)
open Lowering (Bootstrap)

/-- The stages of the body of a module. -/
inductive Stage where
  | beforeRoot
  | rootClass
  | afterRoot
  | rootLink
  | otherClasses
  | afterClasses
  | staticFields
  | staticInitializers
  | internalExports
  | topLevelExports
  | initializers
deriving DecidableEq

/-- All stages, in the order in which the body goes through them. -/
def Stage.all : List Stage :=
  [beforeRoot, rootClass, afterRoot, rootLink, otherClasses, afterClasses, staticFields,
    staticInitializers, internalExports, topLevelExports, initializers]

/-- All stages are listed. -/
theorem Stage.mem_all (stage : Stage) : stage ∈ all := by
  cases stage <;> decide

/-- A part of the statements of a class. -/
inductive ClassPart where
  | functions
  | definition
  | shell (part : ShellPart)
deriving DecidableEq

/-- The parts that define a class: everything but its static fields and the call of its static
initializer. -/
def ClassPart.defining : List ClassPart :=
  [functions, definition, shell .moduleAccessor, shell .instanceTests, shell .typeData]

/-- A part that does not define its class declares its static fields or calls its static
initializer. -/
theorem ClassPart.mem_defining (part : ClassPart) :
    part ∈ defining ∨ part = .shell .staticFields ∨ part = .shell .staticInitializers := by
  rcases part with _ | _ | part
  · decide
  · decide
  · cases part <;> decide

/-- A part of the body of a module: a part of one class, or all that a stage has of the module
itself or of the bootstrap library. -/
inductive BodyPart where
  | ofModule (stage : Stage)
  | ofClass (owner : ClassName) (part : ClassPart)
deriving DecidableEq

/-- The stage that a part belongs to. The root class comes before all others. -/
def BodyPart.stage : BodyPart → Stage
  | ofModule stage => stage
  | ofClass _ (.shell .staticFields) => .staticFields
  | ofClass _ (.shell .staticInitializers) => .staticInitializers
  | ofClass owner _ => if owner.isRoot then .rootClass else .otherClasses

/-- A defining part of a class stands in the stage of the root class or in that of the others. -/
theorem BodyPart.stage_of_defining {part : ClassPart} (defines : part ∈ ClassPart.defining)
    (owner : ClassName) :
    (ofClass owner part).stage = if owner.isRoot then .rootClass else .otherClasses := by
  simp only [ClassPart.defining, List.mem_cons, List.not_mem_nil, or_false] at defines
  rcases defines with rfl | rfl | rfl | rfl | rfl <;> rfl

/-- Parts of the body of a module with their statements, in order. -/
abbrev BodyLayout : Type := List (BodyPart × List Tree)

namespace BodyLayout

/-- The parts of a layout. -/
def labels (layout : BodyLayout) : List BodyPart := layout.map Prod.fst

/-- The statements of a layout. -/
def trees (layout : BodyLayout) : List Tree := layout.flatMap Prod.snd

end BodyLayout

section

variable (setting : Setting) (naming : Naming)

namespace ClassPieces

variable (pieces : ClassPieces)

/-- The statements of a part of a class. -/
def partTrees : ClassPart → List Tree
  | .functions => pieces.functions.map (fun piece => (piece.run setting naming).value)
  | .definition => (pieces.definitionTrees setting naming).value
  | .shell part => (pieces.shellTrees setting naming part).value

/-- Some parts of a class with their statements. -/
def layout (parts : List ClassPart) : BodyLayout :=
  parts.map (fun part => (.ofClass pieces.name part, pieces.partTrees setting naming part))

/-- A listed part of a class is in the layout of the class. -/
theorem mem_layout {parts : List ClassPart} {part : ClassPart} (found : part ∈ parts) :
    (.ofClass pieces.name part, pieces.partTrees setting naming part) ∈
      pieces.layout setting naming parts :=
  List.mem_map_of_mem found

/-- The defining parts of a class have its main statements and those for type tests. -/
theorem layout_defining :
    (pieces.layout setting naming ClassPart.defining).trees =
      (pieces.fragments setting naming).value.main ++
        (pieces.fragments setting naming).value.typeSupport := by
  simp [layout, BodyLayout.trees, ClassPart.defining, partTrees, fragments, List.map_map,
    Function.comp_def, List.append_assoc]

end ClassPieces

namespace ModulePieces

variable (pieces : ModulePieces)

/-- The statements of a part of the bootstrap library, if the module has it. -/
def libraryTrees (part : Bootstrap → List Tree) : List Tree :=
  ((pieces.library setting naming).value.map part).getD []

/-- The statement that gives instances of the root class their type data, where it is needed. -/
def linkTrees : List Tree :=
  if (pieces.library setting naming).value.isSome && !pieces.roots.isEmpty &&
      pieces.site.index.rootHasInstances then
    [(setting.context naming pieces.site).rootTypeDataLink]
  else []

/-- Some parts of some classes, one class after another. -/
def classLayout (classes : List ClassPieces) (parts : List ClassPart) : BodyLayout :=
  classes.flatMap (fun classPieces => classPieces.layout setting naming parts)

/-- The layout of a stage. -/
def stageLayout (stage : Stage) : BodyLayout :=
  match stage with
  | .rootClass => classLayout setting naming pieces.roots ClassPart.defining
  | .otherClasses => classLayout setting naming pieces.others ClassPart.defining
  | .staticFields => classLayout setting naming pieces.classes [.shell .staticFields]
  | .staticInitializers => classLayout setting naming pieces.classes [.shell .staticInitializers]
  | .beforeRoot => [(.ofModule stage, pieces.libraryTrees setting naming Bootstrap.beforeRoot)]
  | .afterRoot => [(.ofModule stage, pieces.libraryTrees setting naming Bootstrap.afterRoot)]
  | .rootLink => [(.ofModule stage, pieces.linkTrees setting naming)]
  | .afterClasses => [(.ofModule stage, pieces.libraryTrees setting naming Bootstrap.afterClasses)]
  | .internalExports => [(.ofModule stage, (pieces.internalExports setting naming).value)]
  | .topLevelExports => [(.ofModule stage, (pieces.topLevelExports.run setting naming).value)]
  | .initializers => [(.ofModule stage, (pieces.initializers.run setting naming).value)]

/-- The layout of the whole body. -/
def layout : BodyLayout := Stage.all.flatMap (pieces.stageLayout setting naming)

variable {setting naming pieces}

/-- The layout of classes has the listed parts of each of them. -/
theorem mem_classLayout {classes : List ClassPieces} {parts : List ClassPart}
    {entry : BodyPart × List Tree} :
    entry ∈ classLayout setting naming classes parts ↔
      ∃ classPieces ∈ classes, ∃ part ∈ parts,
        entry = (.ofClass classPieces.name part, classPieces.partTrees setting naming part) := by
  simp [classLayout, ClassPieces.layout, eq_comm]

/-- What stands at a stage belongs to it. -/
theorem stage_of_mem {stage : Stage} {entry : BodyPart × List Tree}
    (found : entry ∈ pieces.stageLayout setting naming stage) : entry.1.stage = stage := by
  cases stage with
  | rootClass =>
    obtain ⟨classPieces, there, part, defines, rfl⟩ := mem_classLayout.1 found
    have root := (List.mem_filter.1 there).2
    simp [BodyPart.stage_of_defining defines, root]
  | otherClasses =>
    obtain ⟨classPieces, there, part, defines, rfl⟩ := mem_classLayout.1 found
    have other : classPieces.name.isRoot = false := by simpa using (List.mem_filter.1 there).2
    simp [BodyPart.stage_of_defining defines, other]
  | staticFields | staticInitializers =>
    obtain ⟨classPieces, there, part, own, rfl⟩ := mem_classLayout.1 found
    obtain rfl := List.mem_singleton.1 own
    rfl
  | _ =>
    obtain rfl := List.mem_singleton.1 found
    rfl

/-- Every part of a class of a module stands at its stage. -/
theorem mem_stageLayout {classPieces : ClassPieces} (there : classPieces ∈ pieces.classes)
    (part : ClassPart) :
    (.ofClass classPieces.name part, classPieces.partTrees setting naming part) ∈
      pieces.stageLayout setting naming (BodyPart.ofClass classPieces.name part).stage := by
  rcases part.mem_defining with defines | rfl | rfl
  · rw [BodyPart.stage_of_defining defines]
    cases root : classPieces.name.isRoot with
    | true =>
      have among : classPieces ∈ pieces.roots := List.mem_filter.2 ⟨there, root⟩
      exact mem_classLayout.2 ⟨classPieces, among, part, defines, rfl⟩
    | false =>
      have among : classPieces ∈ pieces.others := List.mem_filter.2 ⟨there, by simp [root]⟩
      exact mem_classLayout.2 ⟨classPieces, among, part, defines, rfl⟩
  · exact mem_classLayout.2 ⟨classPieces, there, _, List.mem_singleton_self _, rfl⟩
  · exact mem_classLayout.2 ⟨classPieces, there, _, List.mem_singleton_self _, rfl⟩

/-- Each part of a class is in the layout of its module. -/
theorem mem_layout {classPieces : ClassPieces} (there : classPieces ∈ pieces.classes)
    (part : ClassPart) :
    (.ofClass classPieces.name part, classPieces.partTrees setting naming part) ∈
      pieces.layout setting naming :=
  List.mem_flatMap.2 ⟨_, Stage.mem_all _, mem_stageLayout there part⟩

/-- The parts of classes with distinct names are distinct. -/
theorem classLayout_nodup {classes : List ClassPieces} {parts : List ClassPart}
    (names : (classes.map ClassPieces.name).Nodup) (distinct : parts.Nodup) :
    (classLayout setting naming classes parts).labels.Nodup := by
  unfold BodyLayout.labels classLayout
  rw [List.map_flatMap, List.nodup_flatMap]
  refine ⟨fun classPieces _ => ?_,
    (List.pairwise_map.1 names).imp (fun differ part here there => ?_)⟩
  · rw [ClassPieces.layout, List.map_map]
    exact distinct.map (fun first second same => (BodyPart.ofClass.inj same).2)
  · simp only [ClassPieces.layout, List.map_map, List.mem_map, Function.comp_apply] at here there
    obtain ⟨first, -, rfl⟩ := here
    obtain ⟨second, -, same⟩ := there
    exact differ (BodyPart.ofClass.inj same).1.symm

/-- The parts of a stage are distinct if the classes of the module have distinct names. -/
theorem stageLayout_nodup (names : (pieces.classes.map ClassPieces.name).Nodup) (stage : Stage) :
    (pieces.stageLayout setting naming stage).labels.Nodup := by
  have some : ∀ {classes : List ClassPieces}, classes.Sublist pieces.classes →
      (classes.map ClassPieces.name).Nodup := fun among => names.sublist (among.map _)
  cases stage with
  | rootClass => exact classLayout_nodup (some List.filter_sublist) (by decide)
  | otherClasses => exact classLayout_nodup (some List.filter_sublist) (by decide)
  | staticFields | staticInitializers => exact classLayout_nodup names (by decide)
  | _ => exact List.nodup_singleton _

/-- No part stands twice in the body. -/
theorem labels_nodup (names : (pieces.classes.map ClassPieces.name).Nodup) :
    (pieces.layout setting naming).labels.Nodup := by
  unfold BodyLayout.labels layout
  rw [List.map_flatMap, List.nodup_flatMap]
  refine ⟨fun stage _ => stageLayout_nodup names stage, ?_⟩
  have distinct : Stage.all.Nodup := by decide
  refine distinct.imp (fun differ part here there => ?_)
  obtain ⟨first, found, rfl⟩ := List.mem_map.1 here
  obtain ⟨second, exist, same⟩ := List.mem_map.1 there
  rw [← stage_of_mem found, ← stage_of_mem exist, same] at differ
  exact differ rfl

/-- The parts that define some classes have the statements that define the classes. -/
theorem classLayout_trees (classes : List ClassPieces) :
    (classLayout setting naming classes ClassPart.defining).trees =
      classes.flatMap (fun classPieces => (classPieces.fragments setting naming).value.main ++
        (classPieces.fragments setting naming).value.typeSupport) := by
  simp only [classLayout, BodyLayout.trees, List.flatMap_assoc]
  exact congrArg (fun trees => classes.flatMap trees)
    (funext fun classPieces => classPieces.layout_defining setting naming)

/-- A layout of one part of the shell has the trees of this part of each class. -/
theorem shellLayout_trees (classes : List ClassPieces) (part : ShellPart) :
    (classLayout setting naming classes [.shell part]).trees =
      classes.flatMap (fun classPieces => (classPieces.shellTrees setting naming part).value) := by
  simp [classLayout, BodyLayout.trees, ClassPieces.layout, ClassPieces.partTrees,
    List.flatMap_assoc]

/-- The body of a module is its layout, if the root class has no type support outside of the
bootstrap library. -/
theorem body_eq (bare : ∀ root ∈ pieces.roots,
      (root.fragments setting naming).value.typeSupport = []) :
    pieces.body setting naming = (pieces.layout setting naming).trees := by
  have roots : (classLayout setting naming pieces.roots ClassPart.defining).trees =
      pieces.roots.flatMap (fun root => (root.fragments setting naming).value.main) := by
    rw [classLayout_trees]
    refine List.flatMap_congr (fun root found => ?_)
    rw [bare root found, List.append_nil]
  have stages : (pieces.layout setting naming).trees =
      Stage.all.flatMap (fun stage => (pieces.stageLayout setting naming stage).trees) := by
    simp only [layout, BodyLayout.trees, List.flatMap_assoc]
  have single : ∀ (part : BodyPart) (trees : List Tree), BodyLayout.trees [(part, trees)] = trees :=
    fun part trees => by simp [BodyLayout.trees]
  rw [stages]
  simp only [Stage.all, List.flatMap_cons, List.flatMap_nil, List.append_nil, stageLayout, roots,
    classLayout_trees, shellLayout_trees, single]
  unfold body statements Emission.classStatements
  rw [fragments_value]
  simp only [List.filter_map, List.flatMap_map, List.isEmpty_map, Function.comp_def,
    ClassPieces.fragments_name, List.append_assoc]
  rfl

end ModulePieces

end

end JsEmitter
