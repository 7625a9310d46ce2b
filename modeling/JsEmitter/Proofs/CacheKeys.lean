import JsEmitter.Proofs.Statistics
import Mathlib.Data.Finset.Insert

/-!
# Keys of the caches

The end of a run drops what the run has not requested, whatever the caches held before: entries of
earlier programs, of runs that failed, or of other versions. So after a successful run the keys of
the caches are those that its program requests.
-/
namespace JsEmitter

open Lowering (Context)

/-- The keys of the caches of classes and modules. -/
@[ext]
structure CacheKeys where
  shells : Finset ClassKey
  functions : Finset FunctionKey
  members : Finset MemberKey
  bridges : Finset MemberKey
  constructors : Finset ClassKey
  exportedMembers : Finset (ClassKey × Nat)
  definitions : Finset ClassKey
  modules : Finset ModuleId
deriving DecidableEq

/-- The keys that have entries. -/
def Caches.keys (caches : Caches) : CacheKeys where
  shells := caches.classes.shells.keys.toFinset
  functions := caches.classes.functions.table.keys.toFinset
  members := caches.classes.members.table.keys.toFinset
  bridges := caches.classes.bridges.table.keys.toFinset
  constructors := caches.classes.constructors.table.keys.toFinset
  exportedMembers := caches.classes.exportedMembers.table.keys.toFinset
  definitions := caches.classes.fullClasses.table.keys.toFinset
  modules := caches.modules.table.keys.toFinset

namespace Program

/-- The keys of some classes of a program. -/
def classKeys (program : Program) (keep : LinkedClass → Bool) : List ClassKey :=
  (program.classes.filter (fun owned => keep owned.2)).map (fun owned =>
    .ofClass owned.1.id owned.2)

/-- Keys for parts of some classes of a program. -/
def partKeys {α : Type} (program : Program) (config : Config) (keep : LinkedClass → Bool)
    (parts : Context → LinkedClass → List α) : List (ClassKey × α) :=
  (program.classes.filter (fun owned => keep owned.2)).flatMap (fun owned =>
    (parts ((⟨config, .standard⟩ : Setting).neutral (program.site owned.1)) owned.2).map
      (fun part => (.ofClass owned.1.id owned.2, part)))

/-- What is emitted for a program: the shells of the classes that the host does not provide, the
methods that become free functions, the parts of class definitions and the definitions, and the
modules. -/
def cacheKeys (program : Program) (config : Config) : CacheKeys where
  shells := (program.classKeys (fun linked => linked.kind ≠ .nativeJsClass)).toFinset
  functions := (program.partKeys config (fun linked => linked.kind ≠ .nativeJsClass)
    (fun context linked => (context.freeFunctions linked).map (fun method =>
      (method.value.home, method.value.name)))).toFinset
  members := (program.partKeys config LinkedClass.needsDefinition (fun _ linked =>
    (Context.memberMethods linked).map (fun method => method.value.name))).toFinset
  bridges := (program.partKeys config LinkedClass.needsDefinition
    Context.bridgedMethods).toFinset
  constructors := (program.classKeys LinkedClass.needsDefinition).toFinset
  exportedMembers := (program.partKeys config LinkedClass.needsDefinition (fun _ linked =>
    List.range linked.exportedMembers.length)).toFinset
  definitions := (program.classKeys LinkedClass.needsDefinition).toFinset
  modules := program.ids.toFinset

/-- The keys of classes are those of the classes of the program that are kept. -/
theorem mem_classKeys {program : Program} {keep : LinkedClass → Bool} {key : ClassKey} :
    key ∈ program.classKeys keep ↔ ∃ owned ∈ program.classes, keep owned.2 = true ∧
      key = .ofClass owned.1.id owned.2 := by
  simp only [classKeys, List.mem_map, List.mem_filter, and_assoc, eq_comm (a := key)]

/-- The keys of parts pair a kept class with one of its parts. -/
theorem mem_partKeys {α : Type} {program : Program} {config : Config} {keep : LinkedClass → Bool}
    {parts : Context → LinkedClass → List α} {key : ClassKey × α} :
    key ∈ program.partKeys config keep parts ↔ ∃ owned ∈ program.classes, keep owned.2 = true ∧
      ∃ part ∈ parts ((⟨config, .standard⟩ : Setting).neutral (program.site owned.1)) owned.2,
        (.ofClass owned.1.id owned.2, part) = key := by
  simp only [partKeys, List.mem_flatMap, List.mem_map, List.mem_filter, and_assoc]

end Program

namespace Cell

/-- The start of a run forgets what has been requested. -/
theorem isUsed_reset {cell : Cell} (counted : cell.isCounted = true) (held : cell.Content) :
    cell.isUsed (cell.reset held) = false := by
  cases cell with
  | slot | library => cases counted
  | keyed sort key => cases held <;> rfl
  | definition key => cases held <;> rfl
  | shell key => cases held <;> rfl
  | modulePart id part => rfl

end Cell

namespace Caches

variable {caches reached : Caches} {cells : List Cell}

/-- At the end of a run the cells count as used that have been requested. -/
theorem Touched.isUsed_iff (touched : caches.startRun.Touched cells reached) {cell : Cell}
    (counted : cell.isCounted = true) :
    cell.isUsed (reached.content cell) = true ↔ cell ∈ cells := by
  refine ⟨fun used => ?_, touched.used cell⟩
  by_contra absent
  rw [touched.others cell absent, content_startRun, Cell.isUsed_reset counted] at used
  cases used

/-- The keys of a table after the end of a run are those of its used entries. -/
theorem mem_keys_filterValues {κ α : Type} [DecidableEq κ] {table : Table κ α} {keep : α → Bool}
    {key : κ} :
    key ∈ (table.filterValues keep).keys ↔ (table.get? key).any keep = true := by
  have contains := (table.filterValues keep).contains_eq_isSome key
  rw [Table.get?_filterValues] at contains
  rw [← List.contains_iff_mem, ← Table.contains, contains]
  cases table.get? key with
  | none => simp
  | some value => cases kept : keep value <;> simp [Option.filter, kept]

/-- After a run, a keyed cache has the keys of the cells that were used. -/
theorem mem_keyed_endRun {sort : KeyedSort} {key : sort.Key} :
    key ∈ (reached.endRun.keyed sort).table.keys ↔
      (Cell.keyed sort key).isUsed (reached.content (.keyed sort key)) = true := by
  cases sort <;> exact mem_keys_filterValues

/-- After a run, the cache of definitions has the keys of the cells that were used. -/
theorem mem_definitions_endRun {key : ClassKey} :
    key ∈ reached.endRun.classes.fullClasses.table.keys ↔
      (Cell.definition key).isUsed (reached.content (.definition key)) = true :=
  mem_keys_filterValues

/-- After a run, the table of shells has the keys of the shells that were used. -/
theorem mem_shells_endRun {key : ClassKey} :
    key ∈ reached.endRun.classes.shells.keys ↔
      (Cell.shell key).isUsed (reached.content (.shell key)) = true := by
  rw [Cell.isUsed, content, Option.any_map]
  exact mem_keys_filterValues

/-- After a run, the module cache has the modules with a part that was used. -/
theorem mem_modules_endRun {id : ModuleId} :
    id ∈ reached.endRun.modules.table.keys ↔
      ∃ part, (Cell.modulePart id part).isUsed (reached.content (.modulePart id part)) = true := by
  have used : id ∈ reached.endRun.modules.table.keys ↔
      (reached.modules.table.get? id).any ModuleEntries.isUsed = true := mem_keys_filterValues
  rw [used]
  simp only [Cell.isUsed, content, ModuleCaches.entries]
  cases reached.modules.table.get? id with
  | none => simp [ModuleEntries.fresh, CacheEntry.fresh]
  | some entries =>
    simp only [Option.any_some, ModuleEntries.isUsed, Bool.or_eq_true, Option.getD_some]
    constructor
    · rintro ((imports | exports) | initializers)
      · exact ⟨.imports, imports⟩
      · exact ⟨.topLevelExports, exports⟩
      · exact ⟨.initializers, initializers⟩
    · rintro ⟨part, used⟩
      cases part with
      | imports => exact .inl (.inl used)
      | topLevelExports => exact .inl (.inr used)
      | initializers => exact .inr used

end Caches

namespace Emission

variable {contexts : ModuleId → Context} {program : Program} {cell : Cell}

/-- The cells of a program that belong to classes are those of its classes. -/
theorem mem_programCells_of_owner (owned : cell.owner?.isSome = true) :
    cell ∈ programCells contexts program ↔
      ∃ owned ∈ program.classes, cell ∈ classCells (contexts owned.1.id) owned.2 := by
  have units : ∀ unit, cell ∈ unitCells (contexts unit.id) unit ↔
      ∃ linked ∈ unit.classes, cell ∈ classCells (contexts unit.id) linked := by
    intro unit
    have library : cell ≠ .library := by
      rintro rfl
      cases owned
    have parts : ∀ part, cell ≠ .modulePart unit.id part := by
      rintro part rfl
      cases owned
    unfold unitCells moduleCells
    split <;> simp [library, parts, Module.mem_emissionOrder]
  simp only [programCells, List.mem_flatMap, units, program.dependencyOrder_perm.mem_iff,
    Program.classes, List.mem_map]
  constructor
  · rintro ⟨unit, placed, linked, there, found⟩
    exact ⟨(unit, linked), ⟨unit, placed, linked, there, rfl⟩, found⟩
  · rintro ⟨_, ⟨unit, placed, linked, there, rfl⟩, found⟩
    exact ⟨unit, placed, linked, there, found⟩

section Classes

variable {context : Context} {linked : LinkedClass}

/-- A class uses its own shell unless it is native. -/
theorem shell_mem_classCells_iff {key : ClassKey} :
    .shell key ∈ classCells context linked ↔
      linked.kind ≠ .nativeJsClass ∧ key = .ofClass context.home linked := by
  unfold classCells functionCells definitionCells shellCells
  by_cases native : linked.kind = .nativeJsClass
  · simp [native]
  · cases linked.needsDefinition <;> simp [native]

/-- A class uses the cells of its free functions unless it is native. -/
theorem function_mem_classCells_iff {key : FunctionKey} :
    .keyed .functions key ∈ classCells context linked ↔
      linked.kind ≠ .nativeJsClass ∧
      ∃ part ∈ (context.freeFunctions linked).map (fun method =>
          (method.value.home, method.value.name)),
        (.ofClass context.home linked, part) = key := by
  unfold classCells functionCells definitionCells shellCells
  by_cases native : linked.kind = .nativeJsClass
  · simp [native]
  · cases linked.needsDefinition <;> simp [native]

/-- A class has cells for its definition and the parts of it if it has one. -/
theorem mem_classCells_of_definition (part : cell ∉ functionCells context linked)
    (apart : cell ∉ shellCells (.ofClass context.home linked)) :
    cell ∈ classCells context linked ↔
      linked.needsDefinition = true ∧ cell ∈ definitionCells context linked := by
  unfold classCells
  by_cases native : linked.kind = .nativeJsClass
  · have none : linked.needsDefinition = false := by
      simp [LinkedClass.needsDefinition, native, ClassKind.hasDefinition, ClassKind.isClass,
        ClassKind.isJsClass]
    simp [native, none]
  · cases linked.needsDefinition <;> simp [native, part, apart]

/-- A class uses the cells of its member methods if it is defined. -/
theorem member_mem_classCells_iff {key : MemberKey} :
    .keyed .members key ∈ classCells context linked ↔ linked.needsDefinition = true ∧
      ∃ part ∈ (Context.memberMethods linked).map (fun method => method.value.name),
        (.ofClass context.home linked, part) = key := by
  rw [mem_classCells_of_definition (by simp [functionCells]) (by simp [shellCells])]
  simp [definitionCells]

/-- A class uses the cells of its bridges if it is defined. -/
theorem bridge_mem_classCells_iff {key : MemberKey} :
    .keyed .bridges key ∈ classCells context linked ↔ linked.needsDefinition = true ∧
      ∃ part ∈ context.bridgedMethods linked, (.ofClass context.home linked, part) = key := by
  rw [mem_classCells_of_definition (by simp [functionCells]) (by simp [shellCells])]
  simp [definitionCells]

/-- A class uses the cell of its constructor if it is defined. -/
theorem ctor_mem_classCells_iff {key : ClassKey} :
    .keyed .constructors key ∈ classCells context linked ↔
      linked.needsDefinition = true ∧ key = .ofClass context.home linked := by
  rw [mem_classCells_of_definition (by simp [functionCells]) (by simp [shellCells])]
  simp [definitionCells]

/-- A class uses one cell for each position of an exported member if it is defined. -/
theorem exported_mem_classCells_iff {key : ClassKey × Nat} :
    .keyed .exportedMembers key ∈ classCells context linked ↔ linked.needsDefinition = true ∧
      ∃ part ∈ List.range linked.exportedMembers.length,
        (.ofClass context.home linked, part) = key := by
  have positions : List.range linked.exportedMembers.length =
      linked.exportedMembers.zipIdx.map Prod.snd := by
    rw [List.zipIdx_map_snd, List.range_eq_range']
  rw [mem_classCells_of_definition (by simp [functionCells]) (by simp [shellCells]), positions]
  simp only [definitionCells, List.mem_map]
  simp [-List.zipIdx_map_snd]

/-- A class uses the cell of its definition if it is defined. -/
theorem definition_mem_classCells_iff {key : ClassKey} :
    .definition key ∈ classCells context linked ↔
      linked.needsDefinition = true ∧ key = .ofClass context.home linked := by
  rw [mem_classCells_of_definition (by simp [functionCells]) (by simp [shellCells])]
  simp [definitionCells]

end Classes

/-- A module has the cells of its parts. -/
theorem modulePart_mem_programCells_iff {id : ModuleId} :
    (∃ part, .modulePart id part ∈ programCells contexts program) ↔ id ∈ program.ids := by
  have units : ∀ unit part, .modulePart id part ∈ unitCells (contexts unit.id) unit ↔
      id = unit.id := by
    intro unit part
    have classes : ∀ linked ∈ unit.classes,
        .modulePart id part ∉ classCells (contexts unit.id) linked := by
      intro linked _ found
      cases owner_of_mem_classCells found
    unfold unitCells moduleCells
    cases part <;> split <;> simp_all [Module.mem_emissionOrder]
  simp only [programCells, List.mem_flatMap, units, program.dependencyOrder_perm.mem_iff,
    Program.ids, List.mem_map]
  constructor
  · rintro ⟨part, unit, placed, same⟩
    exact ⟨unit, placed, same.symm⟩
  · rintro ⟨unit, placed, same⟩
    exact ⟨.imports, unit, placed, same.symm⟩

variable {config : Config} {filter : DangerFilter} {naming : Naming} {caches last : Caches}

/-- After a successful pass the keys of the caches are those of its program. -/
theorem emitPass_keys {given : Pass}
    (ran : emitPass config filter naming program caches = .ok given last) :
    last.keys = program.cacheKeys config := by
  obtain ⟨reached, accounted, rfl, -⟩ := emitPass_accounted ran
  have requested : ∀ cell : Cell, cell.isCounted = true → cell.owner?.isSome = true →
      (cell.isUsed (reached.content cell) = true ↔ ∃ owned ∈ program.classes, cell ∈
        classCells (Emission.contexts config filter naming program owned.1.id) owned.2) :=
    fun cell counted owned =>
      (accounted.touched.isUsed_iff counted).trans (mem_programCells_of_owner owned)
  ext key
  all_goals simp only [Caches.keys, Program.cacheKeys, List.mem_toFinset, Program.mem_classKeys,
    Program.mem_partKeys, decide_eq_true_eq]
  · refine (Caches.mem_shells_endRun.trans (requested _ rfl rfl)).trans ?_
    simp only [shell_mem_classCells_iff]
    rfl
  · refine (Caches.mem_keyed_endRun.trans (requested (.keyed .functions key) rfl rfl)).trans ?_
    simp only [function_mem_classCells_iff]
    rfl
  · refine (Caches.mem_keyed_endRun.trans (requested (.keyed .members key) rfl rfl)).trans ?_
    simp only [member_mem_classCells_iff]
    rfl
  · refine (Caches.mem_keyed_endRun.trans (requested (.keyed .bridges key) rfl rfl)).trans ?_
    simp only [bridge_mem_classCells_iff]
    rfl
  · refine (Caches.mem_keyed_endRun.trans (requested (.keyed .constructors key) rfl rfl)).trans ?_
    simp only [ctor_mem_classCells_iff]
    rfl
  · refine (Caches.mem_keyed_endRun.trans
      (requested (.keyed .exportedMembers key) rfl rfl)).trans ?_
    simp only [exported_mem_classCells_iff]
    rfl
  · refine (Caches.mem_definitions_endRun.trans (requested _ rfl rfl)).trans ?_
    simp only [definition_mem_classCells_iff]
    rfl
  · have parts : ∀ part, (Cell.modulePart key part).isUsed
        (reached.content (.modulePart key part)) = true ↔ Cell.modulePart key part ∈
          programCells (Emission.contexts config filter naming program) program :=
      fun part => accounted.touched.isUsed_iff rfl
    simp only [Caches.mem_modules_endRun, parts]
    exact modulePart_mem_programCells_iff

end Emission

namespace Emitter

variable {program : Program} {emitter reached : Emitter}

/-- After a successful run the caches have exactly the keys that the program is emitted under,
whatever the emitter has gone through before: the same keys that a new emitter has after emitting
the same program. -/
theorem emit_keys {given : EmitResult} (done : emit program emitter = .ok given reached) :
    reached.session.caches.keys = program.cacheKeys emitter.config ∧
    ∀ (filter : DangerFilter) (supply : TokenSupply) (other : EmitResult) (last : Emitter),
      emit program (fresh ⟨emitter.config, filter⟩ supply) = .ok other last →
        reached.session.caches.keys = last.session.caches.keys := by
  have keys : ∀ {emitter reached : Emitter} {given : EmitResult},
      emit program emitter = .ok given reached →
        reached.session.caches.keys = program.cacheKeys emitter.config := by
    intro emitter reached given done
    obtain ⟨-, start, last, config, -, ran, -, -, -⟩ := emit_lastPass done
    obtain ⟨caches, rfl, ranCaches⟩ := pass_eq_ok ran
    rw [← config]
    exact Emission.emitPass_keys ranCaches
  refine ⟨keys done, fun filter supply other last again => ?_⟩
  rw [keys done, keys again]
  rfl

end Emitter

/-- After two classes with one method and one inlined constructor have been emitted, the method and
the parts of the definitions have entries, and no free function. -/
theorem Emitter.emit_keys_layered : ∃ given reached,
    Emitter.emit layeredProgram (.start { Config.standard with moduleKind := .esModule }) =
      .ok given reached ∧
    reached.session.caches.keys = {
      shells := {⟨⟨"main"⟩, [⟨"app.A"⟩, .root]⟩, ⟨⟨"lib"⟩, [.root]⟩}
      functions := ∅
      members := {(⟨⟨"main"⟩, [⟨"app.A"⟩, .root]⟩, ⟨"run"⟩)}
      bridges := ∅
      constructors := {⟨⟨"main"⟩, [⟨"app.A"⟩, .root]⟩, ⟨⟨"lib"⟩, [.root]⟩}
      exportedMembers := ∅
      definitions := {⟨⟨"main"⟩, [⟨"app.A"⟩, .root]⟩, ⟨⟨"lib"⟩, [.root]⟩}
      modules := {⟨"main"⟩, ⟨"lib"⟩} } := by
  have accepted : (Emitter.fresh ⟨{ Config.standard with moduleKind := .esModule }, .standard⟩
      default).check layeredProgram = .ok () := by decide +kernel
  obtain ⟨given, reached, done⟩ := Emitter.emit_fresh_ok _ default accepted (by decide)
  refine ⟨given, reached, done, (Emitter.emit_keys done).1.trans ?_⟩
  decide +kernel

end JsEmitter
