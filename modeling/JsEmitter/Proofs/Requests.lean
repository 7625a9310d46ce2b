import JsEmitter.Proofs.FaithfulHistory

/-!
# Requests of a history

What is asked for at a place, by kind of place, and what follows if two requests of a readable
history at one place have the same version: their definitions are the same as far as the version
covers them, and so are the facts about the classes that it digests.
-/
namespace JsEmitter

open Lowering (Context)

variable {setting : Setting} {history : List Program} {version : Version}

namespace Requested

/-- A requested free function is one of a class of the history, under the version of its method. -/
theorem function {key : ClassKey} {home : MemberNamespace} {name : MethodName}
    {piece : Piece .tree}
    (requested : Requested setting history (.function (key, home, name)) version piece) :
    ∃ (here : ClassIn history) (method : Versioned MethodDef),
      method ∈ here.linked.requestedFunctions (setting.neutral here.site) ∧
      key = here.key ∧ home = method.value.home ∧ name = method.value.name ∧
      version = (setting.neutral here.site).methodVersion here.linked method ∧
      piece = .function here.site here.linked method.value := by
  obtain ⟨program, emitted, unit, placed, request⟩ := requested
  cases request with
  | function there found =>
    exact ⟨⟨⟨program, unit, emitted, placed⟩, _, there⟩, _, found, rfl, rfl, rfl, rfl, rfl⟩

/-- A requested member method is one of a class of the history, under the version of its method. -/
theorem member {key : ClassKey} {name : MethodName} {piece : Piece .tree}
    (requested : Requested setting history (.member (key, name)) version piece) :
    ∃ (here : ClassIn history) (method : Versioned MethodDef),
      method ∈ Context.memberMethods here.linked ∧ key = here.key ∧ name = method.value.name ∧
      version = (setting.neutral here.site).methodVersion here.linked method ∧
      piece = .member here.site here.linked method.value := by
  obtain ⟨program, emitted, unit, placed, request⟩ := requested
  cases request with
  | member there _ found =>
    exact ⟨⟨⟨program, unit, emitted, placed⟩, _, there⟩, _, found, rfl, rfl, rfl, rfl⟩

/-- A requested bridge is one of a class of the history, under the version of bridges. -/
theorem bridge {key : ClassKey} {name : MethodName} {piece : Piece .tree}
    (requested : Requested setting history (.bridge (key, name)) version piece) :
    ∃ here : ClassIn history, key = here.key ∧
      version = (setting.neutral here.site).bridgeVersion ∧
      piece = .bridge here.site name := by
  obtain ⟨program, emitted, unit, placed, request⟩ := requested
  cases request with
  | bridge there =>
    exact ⟨⟨⟨program, unit, emitted, placed⟩, _, there⟩, rfl, rfl, rfl⟩

/-- A requested constructor is that of a class of the history, under the version of constructors. -/
theorem ctor {key : ClassKey} {piece : Piece .ctor}
    (requested : Requested setting history (.ctor key) version piece) :
    ∃ here : ClassIn history, key = here.key ∧ here.linked.needsDefinition = true ∧
      version = (setting.neutral here.site).constructorVersion here.linked ∧
      here.site.constructor? here.linked = .ok piece := by
  obtain ⟨program, emitted, unit, placed, request⟩ := requested
  cases request with
  | ctor there defined made =>
    exact ⟨⟨⟨program, unit, emitted, placed⟩, _, there⟩, rfl, defined, rfl, made⟩

/-- A requested exported member is one of a class of the history, at its position. -/
theorem exportedMember {key : ClassKey} {position : Nat} {piece : Piece .trees}
    (requested : Requested setting history (.exportedMember (key, position)) version piece) :
    ∃ (here : ClassIn history) (member : Versioned ExportedMember),
      (member, position) ∈ here.linked.exportedMembers.zipIdx ∧ key = here.key ∧
      version = (setting.neutral here.site).exportedMemberVersion here.linked member ∧
      piece = .exportedMember here.site here.linked member.value := by
  obtain ⟨program, emitted, unit, placed, request⟩ := requested
  cases request with
  | exportedMember there _ found =>
    exact ⟨⟨⟨program, unit, emitted, placed⟩, _, there⟩, _, found, rfl, rfl, rfl⟩

/-- A requested part of a class shell is one of a class of the history, under the version of the
class. -/
theorem shell {key : ClassKey} {part : ShellPart} {piece : Piece .trees}
    (requested : Requested setting history (.shell key part) version piece) :
    ∃ here : ClassIn history, key = here.key ∧
      version = (setting.neutral here.site).classVersion here.linked ∧
      piece = .shell here.site here.linked part := by
  obtain ⟨program, emitted, unit, placed, request⟩ := requested
  cases request with
  | shell there =>
    exact ⟨⟨⟨program, unit, emitted, placed⟩, _, there⟩, rfl, rfl, rfl⟩

/-- Requested imports are those of a module of the history, under the version of its imports. -/
theorem imports {id : ModuleId} {piece : Piece .trees}
    (requested : Requested setting history (.modulePart id .imports) version piece) :
    ∃ here : ModuleIn history, id = here.unit.id ∧
      version = (setting.neutral here.site).importsVersion here.unit ∧
      piece = .imports here.site here.unit := by
  obtain ⟨program, emitted, unit, placed, request⟩ := requested
  cases request with
  | imports => exact ⟨⟨program, unit, emitted, placed⟩, rfl, rfl, rfl⟩

/-- Requested exports are those of a module of the history, under the version of its exports. -/
theorem topLevelExports {id : ModuleId} {piece : Piece .trees}
    (requested : Requested setting history (.modulePart id .topLevelExports) version piece) :
    ∃ here : ModuleIn history, id = here.unit.id ∧
      version = (setting.neutral here.site).topLevelExportsVersion here.unit ∧
      piece = .topLevelExports here.site here.unit.topLevelExports := by
  obtain ⟨program, emitted, unit, placed, request⟩ := requested
  cases request with
  | topLevelExports => exact ⟨⟨program, unit, emitted, placed⟩, rfl, rfl, rfl⟩

/-- Requested initializers are those of a module of the history, under the version of these. -/
theorem initializers {id : ModuleId} {piece : Piece .trees}
    (requested : Requested setting history (.modulePart id .initializers) version piece) :
    ∃ here : ModuleIn history, id = here.unit.id ∧
      version = (setting.neutral here.site).initializersVersion here.unit ∧
      piece = .initializers here.site here.unit.initializers := by
  obtain ⟨program, emitted, unit, placed, request⟩ := requested
  cases request with
  | initializers => exact ⟨⟨program, unit, emitted, placed⟩, rfl, rfl, rfl⟩

end Requested

/-- A requested class definition is that of a class of the history, under the version of the
class. -/
theorem RequestedDefinition.exists {key : ClassKey} {definition : Definition}
    (requested : RequestedDefinition setting history key version definition) :
    ∃ here : ClassIn history, key = here.key ∧
      version = (setting.neutral here.site).classVersion here.linked ∧
      definition.site = here.site ∧ definition.linked = here.linked := by
  obtain ⟨program, emitted, unit, placed, there, -, site, rfl, rfl⟩ := requested
  refine ⟨⟨⟨program, unit, emitted, placed⟩, _, there⟩, rfl, ?_, site, rfl⟩
  rw [site]
  rfl

namespace ModuleIn

variable (here : ModuleIn history)

/-- The facts about the root class are digested. -/
theorem root_digested : here.index.linkageParts [.root] ∈ here.program.digested :=
  List.mem_cons_self

/-- What the versions of the parts of a module are made of is digested. -/
theorem mem_digested {texts : List String}
    (found : texts ∈ [here.index.importParts here.unit,
      here.unit.topLevelExports.map TopLevelExport.name,
      here.index.ownerParts here.unit.exportedClasses,
      here.index.ownerParts (here.unit.initializers.map Initializer.owner)]) :
    texts ∈ here.program.digested :=
  List.mem_cons_of_mem _ (List.mem_flatMap.2 ⟨_, here.placed, List.mem_append_left _ found⟩)

end ModuleIn

namespace ClassIn

variable (here : ClassIn history)

/-- The facts about the classes that a class refers to are digested. -/
theorem linkage_digested :
    here.index.linkageParts (here.linked.referencedClasses.insert .root).toList ∈
      here.program.digested :=
  List.mem_cons_of_mem _ (List.mem_flatMap.2 ⟨_, here.placed, List.mem_append_right _
    (List.mem_flatMap.2 ⟨_, here.there, List.mem_cons_self⟩)⟩)

/-- The facts about the classes that a method refers to are digested. -/
theorem method_digested {method : Versioned MethodDef} (found : method ∈ here.linked.methods) :
    here.index.linkageParts (Context.methodClasses here.linked method.value).toList ∈
      here.program.digested :=
  List.mem_cons_of_mem _ (List.mem_flatMap.2 ⟨_, here.placed, List.mem_append_right _
    (List.mem_flatMap.2 ⟨_, here.there, List.mem_cons_of_mem _ (List.mem_map_of_mem found)⟩)⟩)

end ClassIn

end JsEmitter
