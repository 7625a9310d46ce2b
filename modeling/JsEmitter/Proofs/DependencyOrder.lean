import JsEmitter.Linked.Building
import JsEmitter.Linked.Validation
import JsEmitter.Proofs.DepthFirst
import JsEmitter.Proofs.Rearrangement

/-!
# Dependency order

What `Program.dependencyOrder` gives for modules with distinct ids. A position in the list of
modules that are sorted by id stands for the id there, and an edge between two positions for a
dependency between their ids, so the graph that is searched has a cycle exactly if some module
depends on itself through others. `Program.dependencyOrder_topological` is the main statement.
-/
namespace JsEmitter

open Relation (TransGen)

namespace Program

/-- Whether a module of a program depends on another module of it, both given by their ids. -/
def DependsOn (program : Program) (id dependency : ModuleId) : Prop :=
  dependency ∈ program.ids ∧
    ∃ unit ∈ program.modules, unit.id = id ∧ dependency ∈ unit.internalDependencies

/-- Whether some module depends on itself, directly or through other modules. -/
def Cyclic (program : Program) : Prop := ∃ id, TransGen program.DependsOn id id

/-- A program has no cycle if every module has a higher level than those that it depends on. -/
theorem not_cyclic_of_levels {program : Program} (level : ModuleId → Nat)
    (higher : ∀ unit ∈ program.modules, ∀ dependency ∈ unit.internalDependencies.toList,
      dependency ∈ program.ids → level dependency < level unit.id) : ¬ program.Cyclic := by
  have lower : ∀ id dependency, program.DependsOn id dependency →
      level dependency < level id := by
    rintro id dependency ⟨known, unit, placed, rfl, found⟩
    exact higher unit placed dependency found known
  rintro ⟨id, cycle⟩
  have falls : ∀ {last}, TransGen program.DependsOn id last → level last < level id := by
    intro last path
    induction path with
    | single step => exact lower _ _ step
    | tail _ step ih => exact Nat.lt_trans (lower _ _ step) ih
  exact Nat.lt_irrefl _ (falls cycle)

/-! ## Positions and ids -/

/-- The position of an id among distinct ids. -/
theorem lastPosition?_eq_some_iff {modules : List Module}
    (distinct : (modules.map Module.id).Nodup) {id : ModuleId} {position : Nat} :
    lastPosition? modules id = some position ↔ (modules.map Module.id)[position]? = some id := by
  have sound : ∀ {found}, lastPosition? modules id = some found →
      (modules.map Module.id)[found]? = some id := by
    intro found last
    obtain ⟨⟨unit, place⟩, there, equal⟩ := List.exists_of_findSome?_eq_some last
    simp only [Option.ite_none_right_eq_some, Option.some.injEq] at equal
    obtain ⟨rfl, rfl⟩ := equal
    rw [List.getElem?_map, List.mem_zipIdx_iff_getElem?.1 (List.mem_reverse.1 there)]
    rfl
  refine ⟨sound, fun here => ?_⟩
  obtain ⟨unit, placed, same⟩ := Option.map_eq_some_iff.1 (List.getElem?_map ▸ here)
  cases last : lastPosition? modules id with
  | none =>
    have pair : (unit, position) ∈ modules.zipIdx.reverse :=
      List.mem_reverse.2 (List.mem_zipIdx_iff_getElem?.2 placed)
    simpa [same] using List.findSome?_eq_none_iff.1 last _ pair
  | some found =>
    have inside := (List.getElem?_eq_some_iff.1 here).1
    rw [(List.getElem?_inj inside distinct).1 (here.trans (sound last).symm)]

section Distinct

variable {program : Program} (distinct : program.ids.Nodup)

/-- Sorting the modules keeps them. -/
theorem sortedModules_perm (program : Program) : program.sortedModules.Perm program.modules :=
  List.mergeSort_perm _ _

include distinct

/-- The sorted modules have different ids. -/
theorem sortedIds_nodup : (program.sortedModules.map Module.id).Nodup :=
  (program.sortedModules_perm.map _).nodup_iff.2 distinct

/-- An edge of the graph goes from the position of a dependency to that of a dependent. -/
theorem edge_iff {node next : Nat} :
    Edge (targets (dependencyEdges program.sortedModules)) node next ↔
      ∃ id dependency, program.DependsOn id dependency ∧
        lastPosition? program.sortedModules dependency = some node ∧
          lastPosition? program.sortedModules id = some next := by
  have sorted := program.sortedModules_perm
  rw [Edge, mem_targets_dependencyEdges]
  constructor
  · rintro ⟨unit, placed, dependency, found, first, last⟩
    have known : dependency ∈ program.ids := (sorted.map Module.id).mem_iff.1
      (List.mem_of_getElem? ((lastPosition?_eq_some_iff (sortedIds_nodup distinct)).1 first))
    exact ⟨unit.id, dependency, ⟨known, unit, sorted.mem_iff.1 placed, rfl, found⟩, first, last⟩
  · rintro ⟨_, dependency, ⟨-, unit, placed, rfl, found⟩, first, last⟩
    exact ⟨unit, sorted.mem_iff.2 placed, dependency, found, first, last⟩

/-- Every id of the program has a position. -/
theorem exists_lastPosition? {id : ModuleId} (known : id ∈ program.ids) :
    ∃ position, lastPosition? program.sortedModules id = some position := by
  obtain ⟨position, here⟩ := List.mem_iff_getElem?.1
    ((program.sortedModules_perm.map Module.id).mem_iff.2 known)
  exact ⟨position, (lastPosition?_eq_some_iff (sortedIds_nodup distinct)).2 here⟩

/-- A module stands at the position of its id. -/
theorem getElem?_of_lastPosition? {unit : Module} {position : Nat}
    (placed : unit ∈ program.modules)
    (found : lastPosition? program.sortedModules unit.id = some position) :
    program.sortedModules[position]? = some unit := by
  have here := (lastPosition?_eq_some_iff (sortedIds_nodup distinct)).1 found
  obtain ⟨another, there, same⟩ := Option.map_eq_some_iff.1 (List.getElem?_map ▸ here)
  have among := program.sortedModules_perm.mem_iff.1 (List.mem_of_getElem? there)
  rw [there, List.inj_on_of_nodup_map distinct among placed same]

/-- The graph of positions has a cycle exactly if the program has one. -/
theorem acyclic_iff :
    Acyclic (targets (dependencyEdges program.sortedModules)) ↔ ¬ program.Cyclic := by
  let sorted := program.sortedModules
  have positions := @lastPosition?_eq_some_iff sorted (sortedIds_nodup distinct)
  constructor
  · rintro acyclic ⟨id, cycle⟩
    refine acyclic ((lastPosition? sorted id).getD 0) (Relation.transGen_swap.1 ?_)
    refine TransGen.lift (fun id => (lastPosition? sorted id).getD 0) ?_ id id cycle
    intro id dependency depends
    have own : id ∈ program.ids := by
      obtain ⟨-, unit, placed, rfl, -⟩ := depends
      exact List.mem_map_of_mem placed
    obtain ⟨node, first⟩ := exists_lastPosition? distinct depends.1
    obtain ⟨next, last⟩ := exists_lastPosition? distinct own
    refine (edge_iff distinct).2 ⟨id, dependency, depends, ?_, ?_⟩ <;> simp [sorted, first, last]
  · intro acyclic node cycle
    refine acyclic ⟨((sorted.map Module.id)[node]?).getD default, Relation.transGen_swap.1 ?_⟩
    refine TransGen.lift (fun node => ((sorted.map Module.id)[node]?).getD default) ?_
      node node cycle
    intro node next edge
    obtain ⟨id, dependency, depends, first, last⟩ := (edge_iff distinct).1 edge
    change program.DependsOn (((sorted.map Module.id)[next]?).getD default)
      (((sorted.map Module.id)[node]?).getD default)
    rw [positions.1 first, positions.1 last]
    exact depends

/-! ## The order -/

/-- Without a cycle, the depth-first order has no backward edge, and with one it has. -/
theorem goesForward_iff_not_cyclic :
    goesForward (targets (dependencyEdges program.sortedModules))
      (depthFirst (targets (dependencyEdges program.sortedModules)) program.sortedModules.length) =
        true ↔ ¬ program.Cyclic := by
  rw [goesForward_depthFirst_iff, acyclic_iff distinct]
  intro node next edge
  obtain ⟨id, dependency, -, first, last⟩ := (edge_iff distinct).1 edge
  exact ⟨lastPosition?_lt first, lastPosition?_lt last⟩

/-- Without a cycle, a module stands after every module that it depends on. -/
theorem pair_sublist_dependencyOrder (acyclic : ¬ program.Cyclic) {unit other : Module}
    (placed : unit ∈ program.modules) (there : other ∈ program.modules)
    (depends : other.id ∈ unit.internalDependencies) :
    [other, unit].Sublist program.dependencyOrder := by
  let sorted := program.sortedModules
  let order := depthFirst (targets (dependencyEdges sorted)) sorted.length
  have forward := (goesForward_iff_not_cyclic distinct).2 acyclic
  have known : other.id ∈ program.ids := List.mem_map_of_mem there
  have own : unit.id ∈ program.ids := List.mem_map_of_mem placed
  obtain ⟨node, first⟩ := exists_lastPosition? distinct known
  obtain ⟨next, last⟩ := exists_lastPosition? distinct own
  have edge : next ∈ targets (dependencyEdges sorted) node :=
    (edge_iff distinct).2 ⟨unit.id, other.id, ⟨known, unit, placed, rfl, depends⟩, first, last⟩
  have inside : node ∈ order := (depthFirst_perm targets_dependencyEdges_lt).mem_iff.2
    (List.mem_range.2 (lastPosition?_lt first))
  have positions : [node, next].Sublist order := pair_sublist_of_goesForward forward inside edge
  have pair := positions.filterMap (fun position => sorted[position]?)
  have one : sorted[node]? = some other := getElem?_of_lastPosition? distinct there first
  have two : sorted[next]? = some unit := getElem?_of_lastPosition? distinct placed last
  rw [dependencyOrder, if_pos forward]
  simpa [one, two] using pair

/-- Modules with distinct ids are sorted by them. -/
theorem sortedModules_increasing :
    program.sortedModules.Pairwise (fun first second => compare first.id second.id = .lt) := by
  have weakly := pairwise_mergeSort_isLE (compareOn Module.id) program.modules
  have apart := List.pairwise_map.1 (sortedIds_nodup distinct)
  refine (weakly.and apart).imp (fun {first second} both => ?_)
  have differ : compare first.id second.id ≠ .eq :=
    fun same => both.2 (Std.LawfulEqOrd.eq_of_compare same)
  have least : (compare first.id second.id).isLE = true := both.1
  revert differ least
  cases compare first.id second.id <;> decide

/-- With a cycle, the modules are sorted by id. -/
theorem dependencyOrder_of_cyclic (cyclic : program.Cyclic) :
    program.dependencyOrder = program.sortedModules := by
  have backward := mt (goesForward_iff_not_cyclic distinct).1 (not_not.2 cyclic)
  rw [dependencyOrder, if_neg backward]

/-- The modules in another order are sorted in the same way. -/
theorem sortedModules_perm_eq {listed : Program} (order : listed.modules.Perm program.modules) :
    listed.sortedModules = program.sortedModules :=
  (mergeSort_perm_eq (compareOn Module.id) order.symm (fun _ placed _ there same =>
    List.inj_on_of_nodup_map distinct placed there (Std.LawfulEqOrd.eq_of_compare same))).symm

end Distinct

/-- Dependency order neither loses nor repeats a module. Every module comes after all modules that
it depends on, or the modules are sorted by id because some module depends on itself, directly or
through others. The order in which the modules are listed makes no difference. -/
theorem dependencyOrder_topological (program : Program) (distinct : program.ids.Nodup) :
    program.dependencyOrder.Perm program.modules ∧
    (¬ program.Cyclic → ∀ unit ∈ program.modules, ∀ other ∈ program.modules,
      other.id ∈ unit.internalDependencies → [other, unit].Sublist program.dependencyOrder) ∧
    (program.Cyclic → program.dependencyOrder.Pairwise
      (fun first second => compare first.id second.id = .lt)) ∧
    ∀ listed : Program, listed.modules.Perm program.modules →
      listed.dependencyOrder = program.dependencyOrder := by
  refine ⟨program.dependencyOrder_perm, fun acyclic unit placed other there depends => ?_,
    fun cyclic => ?_, fun listed order => ?_⟩
  · exact pair_sublist_dependencyOrder distinct acyclic placed there depends
  · rw [dependencyOrder_of_cyclic distinct cyclic]
    exact sortedModules_increasing distinct
  · rw [dependencyOrder, dependencyOrder, sortedModules_perm_eq distinct order]

end Program

/-- Three modules, listed before the ones that they depend on. One of them depends on a module that
the program does not have. -/
def downwardProgram : Program :=
  ⟨[(Module.start ⟨"a"⟩).dependOn ⟨"c"⟩, (Module.start ⟨"c"⟩).dependOn ⟨"b"⟩,
    (Module.start ⟨"b"⟩).dependOn ⟨"z"⟩]⟩

/-- Two modules that depend on each other. -/
def mutualProgram : Program :=
  ⟨[(Module.start ⟨"b"⟩).dependOn ⟨"a"⟩, (Module.start ⟨"a"⟩).dependOn ⟨"b"⟩]⟩

/-- Dependencies come first also where the ids are in another order, and a cycle leaves only the
ids. -/
theorem Program.dependencyOrder_topological_downward :
    (downwardProgram.ids.Nodup ∧ ¬ downwardProgram.Cyclic ∧
      [⟨"b"⟩, ⟨"c"⟩].Sublist (downwardProgram.dependencyOrder.map Module.id) ∧
      [⟨"c"⟩, ⟨"a"⟩].Sublist (downwardProgram.dependencyOrder.map Module.id)) ∧
    mutualProgram.ids.Nodup ∧ mutualProgram.Cyclic ∧
      mutualProgram.dependencyOrder.Pairwise
        (fun first second => compare first.id second.id = .lt) := by
  have distinct : downwardProgram.ids.Nodup := by decide
  have apart : mutualProgram.ids.Nodup := by decide
  have acyclic : ¬ downwardProgram.Cyclic :=
    Program.not_cyclic_of_levels (fun id => ["b", "c", "a"].idxOf id.text) (by decide)
  have cyclic : mutualProgram.Cyclic := by
    refine ⟨⟨"a"⟩, .tail (.single (b := ⟨"b"⟩) ?_) ?_⟩
    · exact ⟨by decide, (Module.start ⟨"a"⟩).dependOn ⟨"b"⟩, by simp [mutualProgram], rfl,
        SortedSet.contains_iff.1 rfl⟩
    · exact ⟨by decide, (Module.start ⟨"b"⟩).dependOn ⟨"a"⟩, by simp [mutualProgram], rfl,
        SortedSet.contains_iff.1 rfl⟩
  obtain ⟨-, ordered, -, -⟩ := Program.dependencyOrder_topological downwardProgram distinct
  obtain ⟨-, -, sorted, -⟩ := Program.dependencyOrder_topological mutualProgram apart
  have lower := ordered acyclic ((Module.start ⟨"c"⟩).dependOn ⟨"b"⟩) (by simp [downwardProgram])
    ((Module.start ⟨"b"⟩).dependOn ⟨"z"⟩) (by simp [downwardProgram]) (SortedSet.contains_iff.1 rfl)
  have upper := ordered acyclic ((Module.start ⟨"a"⟩).dependOn ⟨"c"⟩) (by simp [downwardProgram])
    ((Module.start ⟨"c"⟩).dependOn ⟨"b"⟩) (by simp [downwardProgram]) (SortedSet.contains_iff.1 rfl)
  exact ⟨⟨distinct, acyclic, lower.map Module.id, upper.map Module.id⟩, apart, cyclic,
    sorted cyclic⟩

end JsEmitter
