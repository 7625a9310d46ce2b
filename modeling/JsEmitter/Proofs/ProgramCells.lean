import JsEmitter.Proofs.CheckedPrograms
import JsEmitter.Proofs.Comparison
import JsEmitter.Proofs.ModuleOrder

/-!
# Cells of a program

The cells that are requested for a class belong to it, and the others that are requested for a
module belong to the module. In a checked program whose classes have no two methods of one name, no
cell is requested twice.
-/
namespace JsEmitter

open Lowering (Context)

/-- Whether no class has two methods of one name in one namespace. -/
def Program.UniqueMethods (program : Program) : Prop :=
  ∀ unit ∈ program.modules, ∀ linked ∈ unit.classes,
    (linked.methods.map (fun method => (method.value.home, method.value.name))).Nodup

instance (program : Program) : Decidable program.UniqueMethods :=
  inferInstanceAs (Decidable (∀ unit ∈ program.modules, ∀ linked ∈ unit.classes,
    (linked.methods.map (fun method => (method.value.home, method.value.name))).Nodup))

namespace Emission

variable {context : Context} {linked : LinkedClass} {unit : Module} {cell : Cell}

/-- Images are distinct if they tell others that are. -/
theorem nodup_map_of_map {α β γ : Type} {first : γ → α} {second : γ → β} {items : List γ}
    (distinct : (items.map second).Nodup)
    (tells : ∀ item ∈ items, ∀ other ∈ items, first item = first other →
      second item = second other) : (items.map first).Nodup :=
  (List.Nodup.of_map second distinct).map_on (fun item found other there same =>
    List.inj_on_of_nodup_map distinct found there (tells item found other there same))

/-- Cells of different caches are different. -/
theorem nodup_append_of_sort {cells others : List Cell} {sort : CellSort} (first : cells.Nodup)
    (second : others.Nodup) (own : ∀ cell ∈ cells, cell.sort = sort)
    (apart : ∀ other ∈ others, other.sort ≠ sort) : (cells ++ others).Nodup :=
  List.nodup_append.2 ⟨first, second, fun cell found other there same =>
    apart other there (same ▸ own cell found)⟩

section Classes

variable (unique : (linked.methods.map (fun method =>
  (method.value.home, method.value.name))).Nodup)

include unique

/-- The free functions of a class have different cells. -/
theorem functionCells_nodup : (functionCells context linked).Nodup := by
  have free := unique.sublist (List.Sublist.map _ (List.filter_sublist (p := fun method =>
    !context.isInlined linked method && linked.isFreeFunction method)))
  refine nodup_map_of_map free (fun method _ other _ same => ?_)
  simpa [Prod.ext_iff] using same

/-- The parts of a class definition have different cells. -/
theorem definitionCells_nodup : (definitionCells context linked).Nodup := by
  have members := unique.sublist (List.Sublist.map _ (List.filter_sublist (p := fun method =>
    !linked.isFreeFunction method)))
  have methods : ((Context.memberMethods linked).map (fun method => Cell.keyed .members
      (.ofClass context.home linked, method.value.name))).Nodup := by
    refine nodup_map_of_map members (fun method found other there same => ?_)
    rw [LinkedClass.home_of_mem_memberMethods found, LinkedClass.home_of_mem_memberMethods there]
    simpa [Prod.ext_iff] using same
  have bridged : (context.bridgedMethods linked).Nodup := by
    unfold Context.bridgedMethods
    split
    · exact (context.index.rootMethods.nodup).filter _
    · exact List.nodup_nil
  have bridges : ((context.bridgedMethods linked).map (fun method => Cell.keyed .bridges
      (.ofClass context.home linked, method))).Nodup :=
    bridged.map (fun _ _ same => by simpa using same)
  have positions : (linked.exportedMembers.zipIdx.map Prod.snd).Nodup := by
    rw [List.zipIdx_map_snd]
    exact List.nodup_range'
  have exported : (linked.exportedMembers.zipIdx.map (fun member => Cell.keyed .exportedMembers
      (.ofClass context.home linked, member.2))).Nodup :=
    nodup_map_of_map positions (fun _ _ _ _ same => by simpa using same)
  have last := nodup_append_of_sort exported
    (List.nodup_singleton (Cell.definition (.ofClass context.home linked)))
    (List.forall_mem_map.2 (fun _ _ => rfl)) (by simp [Cell.sort])
  refine nodup_append_of_sort methods (nodup_append_of_sort bridges
    (List.nodup_cons.2 ⟨by simp, last⟩) (List.forall_mem_map.2 (fun _ _ => rfl)) ?_)
    (List.forall_mem_map.2 (fun _ _ => rfl)) ?_
  all_goals
    simp only [List.forall_mem_append, List.forall_mem_cons, List.forall_mem_map]
    simp [Cell.sort]

/-- The pieces of a class have different cells. -/
theorem classCells_nodup : (classCells context linked).Nodup := by
  have shell : (shellCells (.ofClass context.home linked)).Nodup := by
    refine List.nodup_cons.2 ⟨by simp, ?_⟩
    exact (by decide : ShellPart.all.Nodup).map (fun _ _ same => (Cell.slot.inj same).2)
  unfold classCells
  split
  · exact List.nodup_nil
  have definition :
      (if linked.needsDefinition then definitionCells context linked else []).Nodup := by
    split
    · exact definitionCells_nodup unique
    · exact List.nodup_nil
  refine nodup_append_of_sort (functionCells_nodup unique) ?_
    (List.forall_mem_map.2 (fun _ _ => rfl)) ?_
  · refine List.nodup_append.2 ⟨definition, shell, fun cell found other there same => ?_⟩
    subst same
    revert cell
    unfold definitionCells shellCells
    split
    · simp only [List.forall_mem_append, List.forall_mem_cons, List.forall_mem_map]
      simp
    · simp
  · unfold definitionCells shellCells
    split <;>
      simp only [List.forall_mem_append, List.forall_mem_cons, List.forall_mem_map] <;>
      simp [Cell.sort]

end Classes

/-- The cells of a class belong to it. -/
theorem owner_of_mem_classCells (found : cell ∈ classCells context linked) :
    cell.owner? = some (.ofClass context.home linked) := by
  revert cell
  unfold classCells functionCells definitionCells shellCells
  split
  · simp
  split <;>
    simp only [List.forall_mem_append, List.forall_mem_cons, List.forall_mem_map] <;>
    simp [Cell.owner?, KeyedSort.owner]

/-- The cells of a module other than the library belong to it. -/
theorem home_of_mem_moduleCells (here : context.home = unit.id)
    (found : cell ∈ moduleCells context unit) : cell.home? = some unit.id := by
  simp only [moduleCells, List.mem_cons, List.mem_append, List.mem_flatMap, List.not_mem_nil,
    or_false] at found
  rcases found with rfl | ⟨linked, -, there⟩ | rfl | rfl
  · rfl
  · simp [Cell.home?, owner_of_mem_classCells there, ClassKey.ofClass, here]
  · rfl
  · rfl

/-- The cells of a module belong to it, but for the library of the root module. -/
theorem home_of_mem_unitCells (here : context.home = unit.id)
    (found : cell ∈ unitCells context unit) :
    cell.home? = some unit.id ∨ cell = .library ∧ unit.isRoot = true := by
  unfold unitCells at found
  cases root : unit.isRoot with
  | true =>
    rcases List.mem_append.1 found with library | found
    · exact .inr ⟨by simpa [root] using library, rfl⟩
    · exact .inl (home_of_mem_moduleCells here found)
  | false =>
    simp only [root] at found
    exact .inl (home_of_mem_moduleCells here found)

/-- The slots of a class are requested with its shell. -/
theorem shell_mem_classCells {key : ClassKey} {part : ShellPart}
    (found : .slot key part ∈ classCells context linked) :
    .shell key ∈ classCells context linked := by
  obtain rfl := Option.some.inj (owner_of_mem_classCells found)
  unfold classCells at found ⊢
  split
  · next native => simp [native] at found
  · simp [shellCells]

/-- A program that uses a part of a class shell uses the shell. -/
theorem shell_mem_programCells {contexts : ModuleId → Context} {program : Program}
    {key : ClassKey} {part : ShellPart} (found : .slot key part ∈ programCells contexts program) :
    .shell key ∈ programCells contexts program := by
  obtain ⟨unit, placed, there⟩ := List.mem_flatMap.1 found
  refine List.mem_flatMap.2 ⟨unit, placed, ?_⟩
  have slot : .slot key part ∈ unit.emissionOrder.flatMap (classCells (contexts unit.id)) := by
    unfold unitCells moduleCells at there
    split at there <;> simpa using there
  obtain ⟨linked, owned, there⟩ := List.mem_flatMap.1 slot
  exact List.mem_append_right _ (List.mem_cons_of_mem _ (List.mem_append_left _
    (List.mem_flatMap.2 ⟨linked, owned, shell_mem_classCells there⟩)))

section Programs

variable {program : Program} (checked : program.Checked) (unique : program.UniqueMethods)

include checked unique

/-- The parts of a module have different cells. -/
theorem moduleCells_nodup (placed : unit ∈ program.modules) :
    (moduleCells context unit).Nodup := by
  have classes : (unit.emissionOrder.flatMap (classCells context)).Nodup := by
    refine List.nodup_flatMap.2 ⟨fun linked found => classCells_nodup
      (unique unit placed linked (Module.mem_emissionOrder.1 found)), ?_⟩
    have names : (unit.emissionOrder.map LinkedClass.name).Nodup :=
      ((List.mergeSort_perm unit.classes _).map _).nodup_iff.2 (checked.classNames_nodup placed)
    refine (List.pairwise_map.1 names).imp_of_mem (fun first second differ cell here there => ?_)
    have same := (owner_of_mem_classCells here).symm.trans (owner_of_mem_classCells there)
    have ancestors := congrArg ClassKey.ancestors (Option.some.inj same)
    exact differ (congrArg LinkedClass.name (checked.class_eq_of_key placed placed
      (Module.mem_emissionOrder.1 first) (Module.mem_emissionOrder.1 second) ancestors).2)
  have owned : ∀ part, Cell.modulePart unit.id part ∉
      unit.emissionOrder.flatMap (classCells context) := by
    intro part found
    obtain ⟨linked, -, there⟩ := List.mem_flatMap.1 found
    cases owner_of_mem_classCells there
  refine List.nodup_cons.2 ⟨by simpa using owned .imports, ?_⟩
  refine List.nodup_append.2 ⟨classes, by simp, ?_⟩
  rintro cell found other there rfl
  simp only [List.mem_cons, List.not_mem_nil, or_false] at there
  rcases there with rfl | rfl <;> exact owned _ found

/-- A module and its classes have different cells. -/
theorem unitCells_nodup (placed : unit ∈ program.modules) (here : context.home = unit.id) :
    (unitCells context unit).Nodup := by
  refine List.nodup_append.2 ⟨?_, moduleCells_nodup checked unique placed, ?_⟩
  · split <;> simp
  · rintro cell library other found rfl
    have home := home_of_mem_moduleCells here found
    split at library
    · rw [List.mem_singleton.1 library] at home
      cases home
    · cases library

/-- No cell is requested twice for a program. -/
theorem programCells_nodup {contexts : ModuleId → Context}
    (homes : ∀ id, (contexts id).home = id) :
    (programCells contexts program).Nodup := by
  refine List.nodup_flatMap.2 ⟨fun unit found => unitCells_nodup checked unique
    (Program.mem_of_mem_dependencyOrder found) (homes _), ?_⟩
  have units : program.dependencyOrder.Nodup :=
    program.dependencyOrder_perm.nodup_iff.2 (List.Nodup.of_map _ checked.ids)
  refine units.imp_of_mem (fun first second differ cell here there => differ ?_)
  have placed := Program.mem_of_mem_dependencyOrder first
  have found := Program.mem_of_mem_dependencyOrder second
  rcases home_of_mem_unitCells (homes _) here with home | ⟨rfl, root⟩
  · rcases home_of_mem_unitCells (homes _) there with other | ⟨rfl, -⟩
    · exact checked.unit_eq placed found (Option.some.inj (home.symm.trans other))
    · cases home
  · rcases home_of_mem_unitCells (homes _) there with other | ⟨-, too⟩
    · cases other
    · exact checked.root_eq placed found root too

end Programs

end Emission

end JsEmitter
