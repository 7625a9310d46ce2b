import JsEmitter.Linked.Building
import JsEmitter.Proofs.AcceptedPrograms
import JsEmitter.Proofs.BodyVariables
import JsEmitter.Proofs.EmittablePrograms
import JsEmitter.Proofs.ModuleOrder

/-!
# Modules link

In a program whose modules depend on the modules that own what they name, all references between
modules are bound: `Emitter.emit_links`. What a module refers to through an import, it imports; and
what it imports exports all definitions of its classes and of the bootstrap library. That there are
such references is seen at superclasses: `ModulePieces.MadeFor.refersTo_of_superClass`.
-/
namespace JsEmitter

open Js (Tree)
open Lowering (Context)

/-- Whether a module imports what is at a path under a local name. -/
def ModuleOutput.Imports (config : Config) (output : ModuleOutput) (binding path : String) : Prop :=
  match config.moduleKind with
  | .esModule => .importNamespace binding path ∈ output.imports
  | .commonJs =>
    .varDef .constant binding (some (.apply (.varRef "require") [.str path])) ∈ output.imports
  | .script => False

/-- Whether a module lets others use its definition of a name, under the same name. -/
def ModuleOutput.Exports (config : Config) (output : ModuleOutput) (name : String) : Prop :=
  match config.moduleKind with
  | .esModule => ∃ pairs, .exportNames pairs ∈ output.body ∧ (name, name) ∈ pairs
  | .commonJs =>
    .assign (.dotSelect (.varRef "exports") name) (.varRef name) ∈ output.body ∨
      .assign (.bracketSelect (.varRef "exports") (.str name)) (.varRef name) ∈ output.body
  | .script => False

/-- Whether each class that a module names, if it is one of the program, is owned by this module, by
the root module, or by a module that it depends on. -/
def Program.Reaching (program : Program) : Prop :=
  ∀ unit ∈ program.modules, ∀ other ∈ program.modules, ∀ linked ∈ other.classes,
    linked.name ∈ unit.namedClasses →
      other.id = unit.id ∨ other.isRoot = true ∨ other.id ∈ unit.internalDependencies

instance (program : Program) : Decidable program.Reaching :=
  inferInstanceAs (Decidable (∀ unit ∈ program.modules, ∀ other ∈ program.modules,
    ∀ linked ∈ other.classes, linked.name ∈ unit.namedClasses →
      other.id = unit.id ∨ other.isRoot = true ∨ other.id ∈ unit.internalDependencies.toList))

/-- Whether the body of a module refers to another module through an import: it uses the local name
of the import, whatever names a session chooses. A name that the program writes does not change with
the naming scheme, so it is no such reference even if it is the local name of an import. -/
def ModulePieces.RefersTo (setting : Setting) (pieces : ModulePieces) (id : ModuleId) : Prop :=
  ∀ scheme : Naming, ∃ tree ∈ pieces.body setting scheme,
    tree.references (scheme.internalImport id) = true

section Linked

variable (setting : Setting) (program : Program) (parts : Module → ModulePieces)

/-- Whether the references of a module to other modules are bound, where the modules of the program
are made of some parts. -/
structure Module.Linked (naming : Naming) (unit : Module) : Prop where
  /-- A module that the body refers to is imported, up to characters that names do not keep. -/
  bound : ∀ id, (parts unit).RefersTo setting id →
    ∃ source ∈ (unit.context setting program).importedModules unit,
      ∀ scheme : Naming, scheme.internalImport source = scheme.internalImport id
  /-- The local names of imports that the body uses are those of its imports, apart from names that
  the program writes. -/
  covered : ∀ scheme : Naming, ∀ id, ∀ tree ∈ (parts unit).body setting scheme,
    tree.references (scheme.internalImport id) = true →
      scheme.internalImport id ∈ unit.writtenNames (unit.context setting program) ∨
      ∃ source ∈ (unit.context setting program).importedModules unit,
        scheme.internalImport source = scheme.internalImport id
  imported : ∀ source ∈ (unit.context setting program).importedModules unit,
    ((parts unit).output setting naming).Imports setting.config (naming.internalImport source)
      (setting.config.modulePath source)
  exported : ∀ source ∈ (unit.context setting program).importedModules unit,
    ∃ other ∈ program.modules, other.id = source ∧
      ∀ name ∈ Tree.definedNames ((parts other).statements setting naming),
        ((parts other).output setting naming).Exports setting.config name

end Linked

variable {setting : Setting} {program : Program} {unit : Module} {naming : Naming}

section Imports

variable {context : Context}

/-- A module imports the modules that it depends on. -/
theorem Lowering.Context.mem_importedModules_of_dependency {id : ModuleId}
    (depends : id ∈ unit.internalDependencies) : id ∈ context.importedModules unit := by
  unfold importedModules
  split
  · split
    · exact depends
    · exact SortedSet.mem_insert.2 (.inr depends)
  · exact depends

/-- A module imports the root module, if it is another one. -/
theorem Lowering.Context.mem_importedModules_of_root {id : ModuleId}
    (root : context.index.rootModule? = some id) (apart : id ≠ unit.id) :
    id ∈ context.importedModules unit := by
  simp only [importedModules, root, if_neg apart]
  exact SortedSet.mem_insert.2 (.inl rfl)

/-- A module imports nothing else than its dependencies and the root module. -/
theorem Lowering.Context.mem_importedModules {id : ModuleId}
    (found : id ∈ context.importedModules unit) : id ∈ unit.internalDependencies ∨
      context.index.rootModule? = some id ∧ id ≠ unit.id := by
  unfold importedModules at found
  split at found
  · next root isRoot =>
    split at found
    · exact .inl found
    · next apart =>
      rcases SortedSet.mem_insert.1 found with rfl | depends
      · exact .inr ⟨isRoot, apart⟩
      · exact .inl depends
  · exact .inl found

end Imports

/-- A list with two different members has more than one. -/
theorem one_lt_length_of_mem {α : Type} {items : List α} {first second : α}
    (found : first ∈ items) (there : second ∈ items) (apart : first ≠ second) :
    1 < items.length := by
  rcases items with _ | ⟨one, _ | ⟨two, rest⟩⟩
  · cases found
  · exact absurd ((List.mem_singleton.1 found).trans (List.mem_singleton.1 there).symm) apart
  · simp

/-- Modules whose imports have one local name have one under every naming scheme. -/
theorem Naming.internalImport_congr (naming : Naming) {scheme : Naming} {id other : ModuleId}
    (same : scheme.internalImport id = scheme.internalImport other) :
    naming.internalImport id = naming.internalImport other := by
  have unnumbered : ∀ id : ModuleId, Unnumbered (plainName "$j_" id.text).toList := fun id =>
    (Subject.stem_unnumbered (show (Subject.single .internalImport id.text).definer =
      .generated (plainName "$j_" id.text) from rfl)).1
  exact congrArg naming.avoidClash
    (scheme.avoidClash_injective (unnumbered id) (unnumbered other) same)

/-- A module that another one imports is among those whose definitions are used. -/
theorem Emission.mem_importedIds (placed : unit ∈ program.modules) {id : ModuleId}
    (known : id ∈ program.ids)
    (found : id ∈ (unit.context setting program).importedModules unit) :
    id ∈ importedIds program (.ofProgram program) := by
  unfold importedIds
  rcases Context.mem_importedModules found with depends | ⟨root, apart⟩
  · exact List.mem_append_left _ (List.mem_flatMap.2 ⟨unit, placed, depends⟩)
  · obtain ⟨other, there, rfl⟩ := List.mem_map.1 known
    have several : 1 < program.modules.length :=
      one_lt_length_of_mem there placed (fun same => apart (congrArg Module.id same))
    rw [if_pos several]
    exact List.mem_append_right _ (Option.mem_toList.2 root)

namespace Program.Reaching

variable (reaching : program.Reaching) (checked : program.Checked)
  (placed : unit ∈ program.modules)

include reaching checked placed

/-- A module imports the modules of all classes that it names. -/
theorem mem_importedModules {owner : ClassName} (named : owner ∈ unit.namedClasses) {id : ModuleId}
    (owned : (ClassIndex.ofProgram program).owner? owner = some id) (apart : id ≠ unit.id) :
    id ∈ (unit.context setting program).importedModules unit := by
  obtain ⟨info, known, rfl⟩ := Option.map_eq_some_iff.1 owned
  obtain ⟨other, there, linked, held, same⟩ := ClassIndex.exists_of_get? known
  cases same
  rcases reaching unit placed other there linked held named with same | root | depends
  · exact absurd same apart
  · refine Context.mem_importedModules_of_root ?_ apart
    change program.rootModule?.map Module.id = some other.id
    rw [checked.rootModule?_eq there root]
    rfl
  · exact Context.mem_importedModules_of_dependency depends

/-- The code of a module uses names that do not look imported, names that it writes, and the local
names of its imports. -/
theorem moduleWithin : (setting.context naming (program.site unit)).ModuleWithin
    (fun name => ¬Naming.looksImported name ∨
      name ∈ unit.writtenNames (unit.context setting program) ∨
      ∃ source ∈ (unit.context setting program).importedModules unit,
        naming.internalImport source = name) unit where
  allows := {
    other := fun _ apart => .inl apart
    root := fun id root apart =>
      .inr (.inr ⟨id, Context.mem_importedModules_of_root root apart, rfl⟩) }
  reached := fun _ named id owned apart =>
    .inr (.inr ⟨id, reaching.mem_importedModules checked placed named owned apart, rfl⟩)
  written := fun _ there => .inr (.inl there)

/-- The local names of imports that a module uses are those of its imports, apart from names that
the program writes. -/
theorem covered {pieces : ModulePieces}
    (made : pieces.MadeFor setting [program] program unit) {id : ModuleId} {tree : Tree}
    (found : tree ∈ pieces.body setting naming)
    (refers : tree.references (naming.internalImport id) = true) :
    naming.internalImport id ∈ unit.writtenNames (unit.context setting program) ∨
      ∃ source ∈ (unit.context setting program).importedModules unit,
        naming.internalImport source = naming.internalImport id := by
  have looks : Naming.looksImported (naming.internalImport id) :=
    (naming.plainName_looksImported id.text (by decide)).2 (by decide)
  have within : (setting.context naming (program.site unit)).ModuleWithin _ unit :=
    reaching.moduleWithin checked placed
  rcases (made.permitted checked placed within).body_within tree found _ refers with plain | rest
  · exact absurd looks plain
  · exact rest

/-- What a module refers to through an import, it imports. -/
theorem bound {pieces : ModulePieces} (made : pieces.MadeFor setting [program] program unit)
    {id : ModuleId} (refers : pieces.RefersTo setting id) :
    ∃ source ∈ (unit.context setting program).importedModules unit,
      ∀ scheme : Naming, scheme.internalImport source = scheme.internalImport id := by
  -- a session that avoids all names of the program keeps its names apart from those of imports
  obtain ⟨tree, found, uses⟩ :=
    refers ⟨.ofList (unit.writtenNames (unit.context setting program))⟩
  rcases reaching.covered checked placed made found uses with written | ⟨source, imported, same⟩
  · exact absurd (SortedSet.mem_ofList.2 written) (Naming.avoidClash_free _ _)
  · exact ⟨source, imported, fun scheme => scheme.internalImport_congr same⟩

end Program.Reaching

section Made

variable {pieces : ModulePieces} (modular : setting.config.moduleKind ≠ .script)

include modular

/-- A module has a statement for each of its imports. -/
theorem ModulePieces.MadeFor.imported (checked : program.Checked)
    (placed : unit ∈ program.modules) (made : pieces.MadeFor setting [program] program unit)
    {source : ModuleId} (found : source ∈ (unit.context setting program).importedModules unit) :
    (pieces.output setting naming).Imports setting.config (naming.internalImport source)
      (setting.config.modulePath source) := by
  have binding : (naming.internalImport source, setting.config.modulePath source) ∈
      (setting.context naming (program.site unit)).importBindings unit :=
    List.mem_append_left _ (List.mem_map.2 ⟨source, found, rfl⟩)
  have statement : ((setting.context naming (program.site unit)).importStatement
      (naming.internalImport source) (setting.config.modulePath source)).value ∈
      (pieces.output setting naming).imports := by
    change _ ∈ (pieces.imports.run setting naming).value
    rw [made.imports.requested.own_imports checked placed]
    have several : (setting.context naming (program.site unit)).config.moduleKind ≠ .script :=
      modular
    simp only [Piece.run, Context.imports, if_neg several, Tracked.mapM_value]
    exact List.mem_map.2 ⟨_, binding, rfl⟩
  unfold Context.importStatement at statement
  unfold ModuleOutput.Imports
  cases kind : setting.config.moduleKind with
  | script => exact modular kind
  | esModule | commonJs => simpa [Setting.context, kind, Context.hostRef] using statement

/-- A module that is told to export its definitions exports all that its classes and the bootstrap
library define. -/
theorem ModulePieces.exports_of_exported (exported : pieces.exported = true) {name : String}
    (defined : name ∈ Tree.definedNames (pieces.statements setting naming)) :
    (pieces.output setting naming).Exports setting.config name := by
  have among : ∀ {tree : Tree}, tree ∈ (pieces.internalExports setting naming).value →
      tree ∈ (pieces.output setting naming).body := fun found =>
    List.mem_append_left _ (List.mem_append_left _ (List.mem_append_right _ found))
  have some : (Tree.definedNames (pieces.statements setting naming)).isEmpty = false := by
    rw [List.isEmpty_eq_false_iff_exists_mem]
    exact ⟨name, defined⟩
  simp only [ModulePieces.internalExports, Emission.emitInternalExports, exported, if_true,
    Context.internalExports, some, Bool.false_eq_true, if_false] at among
  unfold ModuleOutput.Exports
  cases kind : setting.config.moduleKind with
  | script => exact modular kind
  | esModule =>
    simp only [Setting.context, kind] at among
    exact ⟨_, among (List.mem_singleton_self _), List.mem_map.2 ⟨name, defined, rfl⟩⟩
  | commonJs =>
    simp only [Setting.context, kind] at among
    have statement := among (List.mem_map_of_mem defined)
    unfold Context.propSelect at statement
    split at statement
    · exact .inl statement
    · exact .inr statement

end Made

section Uses

variable {names : String → Prop} {linked : LinkedClass} {parent : ClassName}

/-- An ordinary class with a superclass inherits from its constructor. -/
theorem Lowering.Context.plainConstructorParts_superClass {context : Context}
    (plain : linked.kind.isJsClass = false) (host : context.extendsHostError linked = false)
    (extended : linked.superClass? = some parent) :
    (context.plainConstructorParts linked).value.parent? = some (context.classRef parent) := by
  have ref : (context.parentRef linked).value = some (context.classRef parent) := by
    simp [parentRef, plain, host, extended]
  unfold plainConstructorParts
  cases context.inlinedConstructor? linked <;> exact ref

/-- The definition of an ordinary class refers to its superclass. -/
theorem Lowering.Context.fullClass_superClass {context : Context}
    (plain : linked.kind.isJsClass = false) (extended : linked.superClass? = some parent)
    {ctor : Lowering.ConstructorParts} (inherits : ctor.parent? = some (context.classRef parent))
    {members : List Tree} {exported : List (List Tree)}
    (inside : ∀ tree ∈ (context.fullClass linked ctor members exported).value,
      tree.Within names) :
    (context.classRef parent).Within names ∨ (context.helperRef parent).Within names := by
  unfold fullClass at inside
  split at inside
  · have definition := (Tree.within_classDef _ _).1 (inside _ (List.mem_singleton_self _))
    exact .inl (definition.1 _ inherits)
  · have link : ∀ tree ∈ (context.prototypeLink linked
        (context.naming.classConstructor linked.name) ctor.parent?).value, tree.Within names :=
      fun tree found => inside tree (List.mem_append_left _ (List.mem_append_left _
        (List.mem_cons_of_mem _ found)))
    simp only [inherits, prototypeLink, prototypeValue, plain, extended, Bool.false_eq_true,
      if_false] at link
    have value := (Tree.within_assign.1 (link _ List.mem_cons_self)).2
    exact .inr (Tree.within_new.1 value).1

/-- The functions and the definition of a class are among the statements of its module. -/
theorem Emission.mem_classStatements_of_main {context : Context}
    {library? : Option Lowering.Bootstrap} {classes : List ClassFragments}
    {fragments : ClassFragments} (found : fragments ∈ classes) {tree : Tree}
    (main : tree ∈ fragments.main) : tree ∈ classStatements context library? classes := by
  unfold classStatements
  simp only [List.mem_append, List.mem_flatMap, List.mem_filter]
  cases root : fragments.name.isRoot with
  | true =>
    exact .inl (.inl (.inl (.inl (.inl (.inl (.inr ⟨fragments, ⟨found, root⟩, main⟩))))))
  | false =>
    exact .inl (.inl (.inl (.inr ⟨fragments, ⟨found, by rw [root]; rfl⟩, .inl main⟩)))

/-- A module refers to the module of the superclass of an ordinary class with instances. -/
theorem ModulePieces.MadeFor.refersTo_of_superClass {pieces : ModulePieces}
    (modular : setting.config.moduleKind ≠ .script) (checked : program.Checked)
    (placed : unit ∈ program.modules) (made : pieces.MadeFor setting [program] program unit)
    (there : linked ∈ unit.classes) (defined : linked.needsDefinition = true)
    (plain : linked.kind.isJsClass = false)
    (host : (unit.context setting program).extendsHostError linked = false)
    (extended : linked.superClass? = some parent) {id : ModuleId}
    (owned : (ClassIndex.ofProgram program).owner? parent = some id) (foreign : id ≠ unit.id) :
    pieces.RefersTo setting id := by
  intro scheme
  by_contra absent
  have inside : ∀ tree ∈ pieces.body setting scheme,
      tree.Within (· ≠ scheme.internalImport id) := by
    intro tree found
    by_contra outside
    exact absent ⟨tree, found, Tree.references_of_not_within outside⟩
  obtain ⟨classPieces, among, classMade⟩ :=
    exists_of_forall₂ made.classes.flip (Module.mem_emissionOrder.2 there)
  obtain ⟨definition, given, definitionMade⟩ := classMade.defined defined
  have fragments : (classPieces.fragments setting scheme).value ∈
      (pieces.fragments setting scheme).value := by
    rw [pieces.fragments_value]
    exact List.mem_map_of_mem among
  have trees : ∀ tree ∈ (classPieces.definitionTrees setting scheme).value,
      tree.Within (· ≠ scheme.internalImport id) := fun tree found =>
    inside tree (List.mem_append_left _ (List.mem_append_left _ (List.mem_append_left _
      (Emission.mem_classStatements_of_main fragments
        (List.mem_append_left _ (List.mem_append_right _ found))))))
  obtain ⟨site, same⟩ := Requested.own_definition checked placed there definitionMade.whole
  have ctor : definition.ctor = .plainConstructor (program.site unit) linked := by
    have own := Requested.own_ctor checked placed there definitionMade.ctor
    rw [Site.constructor?, plain] at own
    exact (Except.ok.inj own).symm
  have inherits : (definition.ctor.run setting scheme).value.parent? =
      some ((setting.context scheme (program.site unit)).classRef parent) := by
    rw [ctor]
    exact Context.plainConstructorParts_superClass plain host extended
  unfold ClassPieces.definitionTrees at trees
  rw [given] at trees
  change ∀ tree ∈ (definition.run setting scheme).value, _ at trees
  unfold Definition.run at trees
  rw [site, same] at trees
  have uses : ∀ name, ¬((setting.context scheme (program.site unit)).classMemberRef parent
      name).Within (· ≠ scheme.internalImport id) := by
    intro name
    have qualified : (setting.context scheme (program.site unit)).classMemberRef parent name =
        .dotSelect (.varRef (scheme.internalImport id)) name := by
      change (setting.context scheme (program.site unit)).qualify
        ((ClassIndex.ofProgram program).owner? parent) name = _
      rw [owned]
      exact if_pos ⟨foreign, modular⟩
    simp [qualified]
  rcases Context.fullClass_superClass plain extended inherits trees with whole | helper
  · exact uses _ whole
  · exact uses _ helper

end Uses

/-- A list that is related to one without repetitions is its image under a function. -/
theorem exists_map_of_forall₂ {α β : Type} [Nonempty β] {R : α → β → Prop} {items : List α}
    {values : List β} (related : List.Forall₂ R items values) (distinct : items.Nodup) :
    ∃ choose : α → β, values = items.map choose ∧ ∀ item ∈ items, R item (choose item) := by
  classical
  induction related with
  | nil => exact ⟨fun _ => Classical.arbitrary β, rfl, by simp⟩
  | @cons head value rest others first related ih =>
    obtain ⟨fresh, distinct⟩ := List.nodup_cons.1 distinct
    obtain ⟨choose, rfl, chosen⟩ := ih distinct
    have same : ∀ item ∈ rest, Function.update choose head value item = choose item :=
      fun item found => Function.update_of_ne (fun same => fresh (by rwa [← same])) _ _
    refine ⟨Function.update choose head value, ?_, ?_⟩
    · rw [List.map_cons, Function.update_self, List.map_congr_left same]
    · refine List.forall_mem_cons.2 ⟨?_, fun item found => ?_⟩
      · rwa [Function.update_self]
      · rw [same item found]
        exact chosen item found

instance : Nonempty ModulePieces :=
  ⟨⟨⟨default, default⟩, default, false, .initializers ⟨default, default⟩ [], none, [],
    .initializers ⟨default, default⟩ [], .initializers ⟨default, default⟩ []⟩⟩

namespace Emitter

/-- A successful run of a sound emitter gives the modules of a checked program, each made of pieces
of its own, under the names of the last session. -/
theorem Sound.emit_parts {history : List Program} {emitter : Emitter}
    (sound : Sound setting history emitter) (emitted : program ∈ history)
    {given : EmitResult} {reached : Emitter}
    (done : Emitter.emit program emitter = .ok given reached) :
    program.Checked ∧ ∃ parts : Module → ModulePieces,
      given.modules.Perm (program.modules.map
        (fun unit => (parts unit).output setting reached.session.naming)) ∧
      ∀ unit ∈ program.modules, (parts unit).MadeFor setting history program unit := by
  have checked : program.Checked := by
    cases accepted : emitter.check program with
    | error error =>
      rw [emit_refused accepted] at done
      cases done
    | ok => exact Program.validate_eq_ok_iff.1 (validate_of_check accepted)
  obtain ⟨pieces, passes, holds, -, -, result⟩ := sound.emit_ok emitted done
  have order := program.dependencyOrder_perm
  have distinct : program.dependencyOrder.Nodup :=
    order.nodup_iff.2 (List.Nodup.of_map Module.id checked.ids)
  have each : List.Forall₂ (ModulePieces.MadeFor setting history program)
      program.dependencyOrder pieces.modules := by
    refine List.Forall₂.imp (fun unit value outcome => ?_) holds.forall₂
    cases outcome with
    | made made => exact made
  obtain ⟨parts, modules, made⟩ := exists_map_of_forall₂ each distinct
  refine ⟨checked, parts, ?_, fun unit placed => made unit (order.mem_iff.2 placed)⟩
  rw [result]
  refine (List.mergeSort_perm _ _).trans ?_
  change (pieces.modules.map _).Perm _
  rw [modules, List.map_map]
  exact order.map _

/-- A successful run of a new emitter gives the modules of a checked program, each made of pieces of
its own. -/
theorem emit_fresh_parts {supply : TokenSupply} {given : EmitResult} {reached : Emitter}
    (done : emit program (fresh setting supply) = .ok given reached) :
    program.Checked ∧ ∃ parts : Module → ModulePieces,
      given.modules.Perm (program.modules.map
        (fun unit => (parts unit).output setting reached.session.naming)) ∧
      ∀ unit ∈ program.modules, (parts unit).MadeFor setting [program] program unit :=
  Sound.emit_parts (fresh_sound setting [program] supply) (List.mem_singleton_self program) done

/-- In an emission of modules by a new emitter, all references between modules are bound, if every
module depends on the modules that own what it names. -/
theorem emit_links (setting : Setting) (supply : TokenSupply) (program : Program)
    (modular : setting.config.moduleKind ≠ .script) (reaching : program.Reaching)
    {given : EmitResult} {reached : Emitter}
    (done : emit program (fresh setting supply) = .ok given reached) :
    ∃ parts : Module → ModulePieces,
      given.modules.Perm (program.modules.map
        (fun unit => (parts unit).output setting reached.session.naming)) ∧
      ∀ unit ∈ program.modules, (parts unit).MadeFor setting [program] program unit ∧
        unit.Linked setting program parts reached.session.naming := by
  obtain ⟨checked, parts, modules, made⟩ := emit_fresh_parts done
  refine ⟨parts, modules, fun unit placed => ⟨made unit placed, ?_⟩⟩
  refine ⟨fun id => reaching.bound checked placed (made unit placed),
    fun scheme id tree found => reaching.covered checked placed (made unit placed) found,
    fun source found => (made unit placed).imported modular checked placed found,
    fun source found => ?_⟩
  have known := checked.mem_ids_of_imported rfl placed found
  obtain ⟨other, there, rfl⟩ := List.mem_map.1 known
  have exported : (parts other).exported = true := by
    rw [(made other there).exported]
    exact List.contains_iff_mem.2 (Emission.mem_importedIds placed known found)
  exact ⟨other, there, rfl, fun name => ModulePieces.exports_of_exported modular exported⟩

end Emitter

/-- A class that extends one of a library, makes instances of it and calls a singleton of the
library. It uses a host name that looks like the local name of an import. -/
def heirClass : LinkedClass :=
  { ((LinkedClass.start ⟨"app.A"⟩ .plain).extend ⟨"lib.B"⟩).addPublicMethod ⟨"run"⟩
      (.new ⟨"lib.B"⟩ ⟨"<init>"⟩ [.loadModule ⟨"lib.S"⟩, .globalRef "$j_lib"]) with
    hasInstances := true, hasInstanceTests := true, hasTypeData := true }

/-- The main module of a program with a library. -/
def heirModule : Module := ((Module.start ⟨"main"⟩).dependOn ⟨"lib"⟩).addClass heirClass

/-- A program of a main module, a library, and a module of its own for the root class. -/
def libraryProgram : Program :=
  ⟨[heirModule,
    { Module.start ⟨"lib"⟩ with
      classes := [
        { (LinkedClass.start ⟨"lib.B"⟩ .plain).extend .root with
          hasInstances := true, hasTypeData := true },
        { (LinkedClass.start ⟨"lib.S"⟩ .moduleClass).extend .root with hasInstances := true }] },
    { Module.start ⟨"core"⟩ with
      isRoot := true
      classes := [{ LinkedClass.start .root .plain with
        hasInstances := true, hasTypeData := true }] }]⟩

/-- The modules of a program with a library link, and the main module refers to the library. -/
theorem Emitter.emit_links_library : ∃ given reached,
    Emitter.emit libraryProgram
      (.fresh ⟨{ Config.standard with moduleKind := .esModule }, .standard⟩ default) =
        .ok given reached ∧
    ∃ parts : Module → ModulePieces,
      given.modules.Perm (libraryProgram.modules.map (fun unit => (parts unit).output
        ⟨{ Config.standard with moduleKind := .esModule }, .standard⟩ reached.session.naming)) ∧
      (∀ unit ∈ libraryProgram.modules,
        (parts unit).MadeFor ⟨{ Config.standard with moduleKind := .esModule }, .standard⟩
          [libraryProgram] libraryProgram unit ∧
        unit.Linked ⟨{ Config.standard with moduleKind := .esModule }, .standard⟩ libraryProgram
          parts reached.session.naming) ∧
      (parts heirModule).RefersTo ⟨{ Config.standard with moduleKind := .esModule }, .standard⟩
        ⟨"lib"⟩ := by
  have accepted : (Emitter.fresh ⟨{ Config.standard with moduleKind := .esModule }, .standard⟩
      default).check libraryProgram = .ok () := by decide +kernel
  have checked := Program.validate_eq_ok_iff.1 (Emitter.validate_of_check accepted)
  obtain ⟨given, reached, done⟩ := Emitter.emit_fresh_ok _ default accepted (by decide)
  obtain ⟨parts, modules, links⟩ :=
    Emitter.emit_links _ default libraryProgram (by decide) (by decide +kernel) done
  have main : heirModule ∈ libraryProgram.modules := List.mem_cons_self
  have refers : (parts heirModule).RefersTo _ ⟨"lib"⟩ :=
    (links heirModule main).1.refersTo_of_superClass (by decide) checked main
      (List.mem_singleton_self heirClass) rfl rfl rfl rfl (by decide +kernel) (by decide)
  exact ⟨given, reached, done, parts, modules, links, refers⟩

end JsEmitter
