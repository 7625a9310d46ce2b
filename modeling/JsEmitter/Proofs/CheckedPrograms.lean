import JsEmitter.Proofs.ValidPrograms

/-!
# Checked programs

The rules that validation checks, as one property of a program: `Program.validate_eq_ok_iff`. None
of them depends on the order of the modules or of the classes of a module. In a checked program a
module is known by its id, and a class by its name.
-/
namespace JsEmitter

namespace Program

/-- The rules of well-formed programs. -/
structure Checked (program : Program) : Prop where
  ids : program.ids.Nodup
  roots : program.modules = [] ∨ ∃ id, program.rootIds = [id]
  dependencies : ∀ unit ∈ program.modules, ∀ id ∈ unit.internalDependencies, id ∈ program.ids
  first : ∀ unit ∈ program.modules, ∀ linked ∈ unit.classes,
    linked.ancestors.head? = some linked.name
  distinct : (program.classes.map (fun owned => owned.2.name)).Nodup

/-- The names of all classes, in the order of the program. -/
theorem map_classes_name (program : Program) :
    program.classes.map (fun owned => owned.2.name) =
      program.modules.flatMap (fun unit => unit.classes.map LinkedClass.name) := by
  simp [classes, List.map_flatMap, Function.comp_def]

/-- The classes of a module of a checked program have distinct names. -/
theorem Checked.classNames_nodup {program : Program} (checked : program.Checked) {unit : Module}
    (placed : unit ∈ program.modules) : (unit.classes.map LinkedClass.name).Nodup := by
  have all := checked.distinct
  rw [program.map_classes_name, List.nodup_flatMap] at all
  exact all.1 unit placed

/-- The check of the ids accepts ids that are all different. -/
theorem checkIds_eq_ok_iff {program : Program} :
    program.checkIds = .ok () ↔ program.ids.Nodup := by
  have none := @firstRepeated?_eq_none_iff _ _ [] program.ids
  unfold checkIds
  split
  · next found => simp_all
  · next found => simp_all

/-- The check of the root modules accepts the empty program and exactly one root module. -/
theorem checkRoots_eq_ok_iff {program : Program} :
    program.checkRoots = .ok () ↔ program.modules = [] ∨ ∃ id, program.rootIds = [id] := by
  have empty : program.modules = [] → program.rootIds = [] := by
    intro none
    simp [rootIds, none]
  unfold checkRoots
  split
  · next none => split <;> simp_all
  · next id one => simp [one]
  · next ids none one =>
    simp only [reduceCtorEq, false_iff, not_or, not_exists]
    exact ⟨fun all => none (empty all), one⟩

/-- The check of the classes of a module succeeds if they are well formed and new. -/
theorem foldlM_checkClass_isOk {unit : ModuleId} {classes : List LinkedClass}
    {owners : List (ClassName × ModuleId)}
    (first : ∀ linked ∈ classes, linked.ancestors.head? = some linked.name)
    (distinct : (classes.map LinkedClass.name).Nodup)
    (fresh : ∀ linked ∈ classes, linked.name ∉ owners.map Prod.fst) :
    ∃ result, classes.foldlM (checkClass unit) owners = .ok result := by
  induction classes generalizing owners with
  | nil => exact ⟨owners, rfl⟩
  | cons linked rest ih =>
    have head : checkClass unit owners linked = .ok ((linked.name, unit) :: owners) := by
      have unknown : owners.lookup linked.name = none := by
        rw [List.lookup_eq_none_iff]
        intro owner found
        have apart := fresh linked List.mem_cons_self
        simp only [List.mem_map, not_exists, not_and] at apart
        simpa using fun same => apart owner found same.symm
      simp [checkClass, first linked List.mem_cons_self, unknown]
    rw [List.foldlM_cons, head]
    refine ih (fun other found => first other (List.mem_cons_of_mem _ found))
      (List.nodup_cons.1 distinct).2 (fun other found => ?_)
    rw [List.map_cons, List.mem_cons, not_or]
    refine ⟨fun same => (List.nodup_cons.1 distinct).1 ?_,
      fresh other (List.mem_cons_of_mem _ found)⟩
    rw [← show other.name = linked.name from same]
    exact List.mem_map_of_mem found

/-- The check of the modules succeeds if they are well formed and own different classes. -/
theorem foldlM_checkModule_isOk {ids : List ModuleId} {modules : List Module}
    {owners : List (ClassName × ModuleId)}
    (dependencies : ∀ unit ∈ modules, ∀ id ∈ unit.internalDependencies, id ∈ ids)
    (first : ∀ unit ∈ modules, ∀ linked ∈ unit.classes,
      linked.ancestors.head? = some linked.name)
    (distinct : (modules.flatMap (fun unit => unit.classes.map LinkedClass.name)).Nodup)
    (known : (owners.map Prod.fst).Nodup)
    (fresh : ∀ unit ∈ modules, ∀ linked ∈ unit.classes, linked.name ∉ owners.map Prod.fst) :
    ∃ result, modules.foldlM (checkModule ids) owners = .ok result := by
  induction modules generalizing owners with
  | nil => exact ⟨owners, rfl⟩
  | cons unit rest ih =>
    rw [List.flatMap_cons, List.nodup_append] at distinct
    obtain ⟨result, classes⟩ := @foldlM_checkClass_isOk unit.id _ owners
      (first unit List.mem_cons_self) distinct.1 (fresh unit List.mem_cons_self)
    have head : checkModule ids owners unit = .ok result := by
      have all : unit.internalDependencies.toList.find?
          (fun dependency => !ids.contains dependency) = none := by
        rw [List.find?_eq_none]
        intro id found
        simpa using dependencies unit List.mem_cons_self id found
      simp only [checkModule, all, classes]
    obtain ⟨-, names, nodup⟩ := foldlM_checkClass_ok classes known
    rw [List.foldlM_cons, head]
    refine ih (fun other found => dependencies other (List.mem_cons_of_mem _ found))
      (fun other found => first other (List.mem_cons_of_mem _ found)) distinct.2.1 nodup
      (fun other found linked there => ?_)
    rw [names, List.mem_append, List.mem_reverse, not_or]
    refine ⟨fun earlier => distinct.2.2 _ earlier _ ?_ rfl,
      fresh other (List.mem_cons_of_mem _ found) linked there⟩
    exact List.mem_flatMap.2 ⟨other, found, List.mem_map_of_mem there⟩

/-- Accepted modules depend on known ones. -/
theorem foldlM_checkModule_dependencies {ids : List ModuleId} {modules : List Module}
    {owners result : List (ClassName × ModuleId)}
    (accepted : modules.foldlM (checkModule ids) owners = .ok result) :
    ∀ unit ∈ modules, ∀ id ∈ unit.internalDependencies, id ∈ ids := by
  induction modules generalizing owners with
  | nil => simp
  | cons unit rest ih =>
    rw [List.foldlM_cons] at accepted
    cases checked : checkModule ids owners unit with
    | error =>
      rw [checked] at accepted
      cases accepted
    | ok middle =>
      rw [checked] at accepted
      refine List.forall_mem_cons.2 ⟨fun id found => ?_, ih accepted⟩
      unfold checkModule at checked
      split at checked
      · cases checked
      · next none => simpa using List.find?_eq_none.1 none id found

/-- Validation accepts exactly the programs that keep the rules. -/
theorem validate_eq_ok_iff {program : Program} : program.validate = .ok () ↔ program.Checked := by
  have stages : program.validate = .ok () ↔ program.checkIds = .ok () ∧
      program.checkRoots = .ok () ∧
      ∃ result, program.modules.foldlM (checkModule program.ids) [] = .ok result := by
    unfold validate
    cases program.checkIds with
    | error => simp [bind, Except.bind]
    | ok =>
      cases program.checkRoots with
      | error => simp [bind, Except.bind]
      | ok =>
        cases program.modules.foldlM (checkModule program.ids) [] <;>
          simp [bind, Except.bind, discard, Functor.discard, Functor.mapConst, Except.map]
  rw [stages, checkIds_eq_ok_iff, checkRoots_eq_ok_iff]
  constructor
  · rintro ⟨ids, roots, result, accepted⟩
    obtain ⟨first, names, distinct⟩ := foldlM_checkModule_ok accepted List.nodup_nil
    refine ⟨ids, roots, foldlM_checkModule_dependencies accepted, first, ?_⟩
    rw [names, List.map_nil, List.append_nil, List.nodup_reverse] at distinct
    rwa [map_classes_name]
  · rintro ⟨ids, roots, dependencies, first, distinct⟩
    rw [map_classes_name] at distinct
    exact ⟨ids, roots, foldlM_checkModule_isOk dependencies first distinct List.nodup_nil
      (by simp)⟩

namespace Checked

variable {program : Program} (checked : program.Checked)

include checked

/-- A checked program is valid. -/
theorem valid : program.Valid := valid_of_validate (validate_eq_ok_iff.2 checked)

/-- A module is known by its id. -/
theorem unit_eq {unit other : Module} (placed : unit ∈ program.modules)
    (there : other ∈ program.modules) (same : unit.id = other.id) : unit = other :=
  List.inj_on_of_nodup_map checked.ids placed there same

/-- There is at most one root module. -/
theorem root_eq {unit other : Module} (placed : unit ∈ program.modules)
    (there : other ∈ program.modules) (root : unit.isRoot = true) (too : other.isRoot = true) :
    unit = other := by
  rcases checked.roots with none | ⟨id, one⟩
  · simp [none] at placed
  · have only : ∀ {unit : Module}, unit ∈ program.modules → unit.isRoot = true → unit.id = id := by
      intro unit placed root
      have among : unit.id ∈ program.rootIds :=
        List.mem_map_of_mem (List.mem_filter.2 ⟨placed, root⟩)
      simpa [one] using among
    exact checked.unit_eq placed there ((only placed root).trans (only there too).symm)

/-- A class is known by its name, and so is its module. -/
theorem class_eq {unit other : Module} {linked another : LinkedClass}
    (placed : unit ∈ program.modules) (there : other ∈ program.modules)
    (owned : linked ∈ unit.classes) (held : another ∈ other.classes)
    (same : linked.name = another.name) : unit = other ∧ linked = another := by
  have one : (unit, linked) ∈ program.classes := mem_classes.2 ⟨placed, owned⟩
  have two : (other, another) ∈ program.classes := mem_classes.2 ⟨there, held⟩
  exact Prod.mk.inj (List.inj_on_of_nodup_map checked.distinct one two same)

/-- A class is known by its key. -/
theorem class_eq_of_key {unit other : Module} {linked another : LinkedClass}
    (placed : unit ∈ program.modules) (there : other ∈ program.modules)
    (owned : linked ∈ unit.classes) (held : another ∈ other.classes)
    (same : linked.ancestors = another.ancestors) : unit = other ∧ linked = another := by
  refine checked.class_eq placed there owned held (Option.some.inj ?_)
  rw [← checked.first unit placed linked owned, same, checked.first other there another held]

/-- The index knows the root module as the one that is marked. -/
theorem rootModule?_eq {unit : Module} (placed : unit ∈ program.modules)
    (root : unit.isRoot = true) : program.rootModule? = some unit := by
  cases found : program.rootModule? with
  | none =>
    have none := List.find?_eq_none.1 found unit placed
    exact (none root).elim
  | some other =>
    rw [checked.root_eq placed (List.mem_of_find?_eq_some found) root
      (List.find?_some (p := Module.isRoot) found)]

end Checked

end Program

end JsEmitter
