import JsEmitter.Emitter
import JsEmitter.Proofs.AcceptedPrograms
import JsEmitter.Proofs.CheckedPrograms

/-!
# Revisions of a method

A revision gives one method of a program another body and another version. It leaves the index of
the program, the order of its modules and of their classes, and the rules of well-formed programs as
they are.
-/
namespace JsEmitter

/-- Another body for the method of some name, under another version. -/
structure Revision where
  owner : ClassName
  home : MemberNamespace
  name : MethodName
  body : Expr
  version : Version

namespace Revision

/-- Whether a method of a class is the one that is revised. -/
def hits (revision : Revision) (owner : ClassName) (method : Versioned MethodDef) : Bool :=
  owner = revision.owner && method.value.home = revision.home && method.value.name = revision.name

/-- A method of a class after the revision. -/
def apply (revision : Revision) (owner : ClassName) (method : Versioned MethodDef) :
    Versioned MethodDef :=
  if revision.hits owner method then ⟨{ method.value with body := revision.body }, revision.version⟩
  else method

end Revision

/-- A class after the revision. -/
def LinkedClass.revise (revision : Revision) (linked : LinkedClass) : LinkedClass :=
  { linked with methods := linked.methods.map (revision.apply linked.name) }

/-- A module after the revision. -/
def Module.revise (revision : Revision) (unit : Module) : Module :=
  { unit with classes := unit.classes.map (LinkedClass.revise revision) }

/-- A program after the revision. -/
def Program.revise (revision : Revision) (program : Program) : Program :=
  ⟨program.modules.map (Module.revise revision)⟩

variable (revision : Revision)

namespace Revision

variable {revision} {owner : ClassName} {method : Versioned MethodDef}

/-- A revision concerns the methods of one name in one namespace of its class. -/
theorem hits_iff : revision.hits owner method = true ↔ owner = revision.owner ∧
    method.value.home = revision.home ∧ method.value.name = revision.name := by
  simp only [hits, Bool.and_eq_true, decide_eq_true_eq, and_assoc]

/-- A method that a revision concerns gets the new body and version. -/
theorem apply_of_hits (hit : revision.hits owner method = true) :
    revision.apply owner method =
      ⟨{ method.value with body := revision.body }, revision.version⟩ := if_pos hit

/-- A revision leaves the methods that it does not concern. -/
theorem apply_of_misses (missed : revision.hits owner method = false) :
    revision.apply owner method = method := if_neg (by simp [missed])

/-- A revision leaves the namespaces of methods. -/
@[simp] theorem apply_home : (revision.apply owner method).value.home = method.value.home := by
  unfold apply
  split <;> rfl

/-- A revision leaves the names of methods. -/
@[simp] theorem apply_name : (revision.apply owner method).value.name = method.value.name := by
  unfold apply
  split <;> rfl

end Revision

namespace LinkedClass

variable {revision} (linked : LinkedClass)

/-- The methods of a namespace of a revised class are the revised ones. -/
@[simp] theorem methodsIn_revise (home : MemberNamespace) :
    (linked.revise revision).methodsIn home =
      (linked.methodsIn home).map (revision.apply linked.name) := by
  simp only [methodsIn, revise, List.filter_map, Function.comp_def, Revision.apply_home]

/-- A revision keeps the names of the methods. -/
@[simp] theorem map_name_revise (home : MemberNamespace) :
    ((linked.revise revision).methodsIn home).map (fun method => method.value.name) =
      (linked.methodsIn home).map (fun method => method.value.name) := by
  simp [Function.comp_def]

/-- Methods of a namespace that is not revised stay as they are. -/
theorem methodsIn_revise_of_ne {home : MemberNamespace}
    (apart : linked.name = revision.owner → home ≠ revision.home) :
    (linked.revise revision).methodsIn home = linked.methodsIn home := by
  rw [methodsIn_revise]
  refine (List.map_congr_left (fun method found => ?_)).trans (List.map_id _)
  have own : method.value.home = home := of_decide_eq_true (List.mem_filter.1 found).2
  refine Revision.apply_of_misses (Bool.eq_false_iff.2 (fun hit => ?_))
  obtain ⟨owner, same, -⟩ := Revision.hits_iff.1 hit
  exact apart owner (own.symm.trans same)

end LinkedClass

namespace Module

variable {revision} (unit : Module)

/-- The order of the classes of a revised module is that of the module. -/
theorem emissionOrder_revise : (unit.revise revision).emissionOrder =
    unit.emissionOrder.map (LinkedClass.revise revision) := by
  unfold emissionOrder
  exact (List.map_mergeSort (f := LinkedClass.revise revision) (fun _ _ _ _ => rfl)).symm

end Module

namespace Program

variable {revision} (program : Program)

/-- The classes of a revised program are the revised ones. -/
theorem classes_revise : (program.revise revision).classes =
    program.classes.map (fun owned => (owned.1.revise revision, owned.2.revise revision)) := by
  simp only [classes, revise, List.flatMap_map, List.map_flatMap, Module.revise, List.map_map,
    Function.comp_def]

/-- The sorted modules of a revised program are the revised ones. -/
theorem sortedModules_revise : (program.revise revision).sortedModules =
    program.sortedModules.map (Module.revise revision) := by
  unfold sortedModules
  exact (List.map_mergeSort (f := Module.revise revision) (fun _ _ _ _ => rfl)).symm

/-- A revision leaves the positions of modules. -/
theorem lastPosition?_revise (modules : List Module) (id : ModuleId) :
    lastPosition? (modules.map (Module.revise revision)) id = lastPosition? modules id := by
  unfold lastPosition?
  rw [List.zipIdx_map, ← List.map_reverse, List.findSome?_map]
  rfl

/-- A revision leaves the edges between modules. -/
theorem dependencyEdges_revise (modules : List Module) :
    dependencyEdges (modules.map (Module.revise revision)) = dependencyEdges modules := by
  simp only [dependencyEdges, List.flatMap_map, lastPosition?_revise]
  rfl

/-- The order of the modules of a revised program is that of the program. -/
theorem dependencyOrder_revise : (program.revise revision).dependencyOrder =
    program.dependencyOrder.map (Module.revise revision) := by
  unfold dependencyOrder
  simp only [sortedModules_revise, dependencyEdges_revise, List.length_map]
  split
  · rw [List.map_filterMap]
    simp only [List.getElem?_map]
  · rfl

/-- A revision leaves the ids of modules. -/
theorem ids_revise : (program.revise revision).ids = program.ids := by
  simp [ids, revise, Module.revise, Function.comp_def]

/-- A revision leaves the root modules. -/
theorem rootIds_revise : (program.revise revision).rootIds = program.rootIds := by
  simp [rootIds, revise, List.filter_map, Module.revise, Function.comp_def]

variable {program}

/-- A revised program keeps the rules of well-formed programs. -/
theorem Checked.revise (checked : program.Checked) : (program.revise revision).Checked where
  ids := (program.ids_revise).symm ▸ checked.ids
  roots := by
    rw [rootIds_revise]
    exact checked.roots.imp_left (fun none => by simp [Program.revise, none])
  dependencies := by
    rw [ids_revise]
    exact List.forall_mem_map.2 checked.dependencies
  first := List.forall_mem_map.2 (fun unit placed =>
    List.forall_mem_map.2 (checked.first unit placed))
  distinct := by
    rw [classes_revise, List.map_map]
    exact checked.distinct

end Program

namespace ClassIndex

variable {revision} (program : Program)

/-- A revision leaves which classes are extended. -/
theorem parents_revise : parents (program.revise revision) = parents program := by
  simp only [parents, Program.classes_revise, List.filterMap_map]
  rfl

/-- A revision leaves which constructors can be inlined. -/
theorem canInline_revise (parents : List ClassName) (linked : LinkedClass) :
    canInline parents (linked.revise revision) = canInline parents linked := by
  have same : (linked.revise revision).constructors.length = linked.constructors.length := by
    simp [LinkedClass.constructors]
  unfold canInline
  rw [same]
  rfl

/-- A revision leaves the public methods of a class. -/
theorem publicMethods_revise (linked : LinkedClass) :
    publicMethods (linked.revise revision) = publicMethods linked := by
  rw [publicMethods, publicMethods, LinkedClass.map_name_revise]

/-- A revision keeps the index. -/
theorem ofProgram_revise : ofProgram (program.revise revision) = ofProgram program := by
  have entries : ∀ unit linked,
      entry (parents program) (Module.revise revision unit) (linked.revise revision) =
        entry (parents program) unit linked := by
    intro unit linked
    unfold entry
    rw [canInline_revise]
    rfl
  have root : (program.revise revision).rootModule?.map Module.id =
      program.rootModule?.map Module.id := by
    simp only [Program.rootModule?, Program.revise, List.find?_map, Option.map_map]
    rfl
  have last : (program.revise revision).classes.reverse.find? (fun owned => owned.2.name.isRoot) =
      (program.classes.reverse.find? (fun owned => owned.2.name.isRoot)).map
        (fun owned => (owned.1.revise revision, owned.2.revise revision)) := by
    rw [Program.classes_revise, ← List.map_reverse, List.find?_map]
    rfl
  unfold ofProgram
  rw [last, root, parents_revise, Program.classes_revise, List.map_map]
  simp only [Function.comp_def, entries]
  cases program.classes.reverse.find? (fun owned => owned.2.name.isRoot) with
  | none => rfl
  | some owned => simp only [Option.map_some, publicMethods_revise]

end ClassIndex

/-- A revision leaves which modules are imported. -/
theorem Emission.importedIds_revise (program : Program) (index : ClassIndex) :
    importedIds (program.revise revision) index = importedIds program index := by
  simp only [importedIds, Program.revise, List.flatMap_map, List.length_map]
  rfl

/-- A revised program is checked like the one before. -/
theorem Emitter.check_revise {emitter : Emitter} {program : Program}
    (accepted : emitter.check program = .ok ()) :
    emitter.check (program.revise revision) = .ok () := by
  have before := validate_of_check accepted
  have after : (program.revise revision).validate = .ok () :=
    Program.validate_eq_ok_iff.2 (Program.validate_eq_ok_iff.1 before).revise
  rw [← accepted, check, check, before, after]
  simp only [Program.revise, List.length_map]

end JsEmitter
