import JsEmitter.ClassIndex
import JsEmitter.Linked.Validation
import Mathlib.Data.List.Nodup

/-!
# Valid programs

What validation gives to generation: every class has itself as its first ancestor, classes have
distinct names, so that the index has the facts about each of them, and there is a root module.
-/
namespace JsEmitter

variable {owners result : List (ClassName × ModuleId)}

/-- A name that a list of owners does not have is not among its names. -/
theorem not_mem_of_lookup_eq_none {name : ClassName} (unknown : owners.lookup name = none) :
    name ∉ owners.map Prod.fst := by
  intro found
  obtain ⟨owner, there, rfl⟩ := List.mem_map.1 found
  rw [List.lookup_eq_none_iff] at unknown
  simpa using unknown owner there

namespace Program

/-- The classes of a program are those of its modules. -/
theorem mem_classes {program : Program} {owned : Module × LinkedClass} :
    owned ∈ program.classes ↔ owned.1 ∈ program.modules ∧ owned.2 ∈ owned.1.classes := by
  obtain ⟨unit, linked⟩ := owned
  simp [classes]

/-- A class that is accepted is its own first ancestor, had no owner before, and has one now. -/
theorem checkClass_ok {unit : ModuleId} {linked : LinkedClass}
    (accepted : checkClass unit owners linked = .ok result) :
    linked.ancestors.head? = some linked.name ∧ owners.lookup linked.name = none ∧
      result = (linked.name, unit) :: owners := by
  unfold checkClass at accepted
  split at accepted
  · next first =>
    split at accepted
    · cases accepted
    · next unknown =>
      cases accepted
      exact ⟨first, unknown, rfl⟩
  · cases accepted

/-- Accepted classes have themselves as their first ancestors, and their names are new. -/
theorem foldlM_checkClass_ok {unit : ModuleId} {classes : List LinkedClass}
    (accepted : classes.foldlM (checkClass unit) owners = .ok result)
    (distinct : (owners.map Prod.fst).Nodup) :
    (∀ linked ∈ classes, linked.ancestors.head? = some linked.name) ∧
      result.map Prod.fst = (classes.map LinkedClass.name).reverse ++ owners.map Prod.fst ∧
      (result.map Prod.fst).Nodup := by
  induction classes generalizing owners with
  | nil =>
    cases accepted
    simpa using distinct
  | cons head rest ih =>
    rw [List.foldlM_cons] at accepted
    cases checked : checkClass unit owners head with
    | error =>
      rw [checked] at accepted
      cases accepted
    | ok middle =>
      rw [checked] at accepted
      obtain ⟨first, unknown, rfl⟩ := checkClass_ok checked
      obtain ⟨others, names, nodup⟩ := ih accepted
        (List.nodup_cons.2 ⟨not_mem_of_lookup_eq_none unknown, distinct⟩)
      exact ⟨List.forall_mem_cons.2 ⟨first, others⟩, by simp [names], nodup⟩

/-- Accepted modules have classes with themselves as first ancestors and with new names. -/
theorem foldlM_checkModule_ok {ids : List ModuleId} {modules : List Module}
    (accepted : modules.foldlM (checkModule ids) owners = .ok result)
    (distinct : (owners.map Prod.fst).Nodup) :
    (∀ unit ∈ modules, ∀ linked ∈ unit.classes, linked.ancestors.head? = some linked.name) ∧
      result.map Prod.fst =
        (modules.flatMap (fun unit => unit.classes.map LinkedClass.name)).reverse ++
          owners.map Prod.fst ∧
      (result.map Prod.fst).Nodup := by
  induction modules generalizing owners with
  | nil =>
    cases accepted
    simpa using distinct
  | cons head rest ih =>
    rw [List.foldlM_cons] at accepted
    cases checked : checkModule ids owners head with
    | error =>
      rw [checked] at accepted
      cases accepted
    | ok middle =>
      rw [checked] at accepted
      unfold checkModule at checked
      split at checked
      · cases checked
      · obtain ⟨first, names, nodup⟩ := foldlM_checkClass_ok checked distinct
        obtain ⟨others, moreNames, moreNodup⟩ := ih accepted nodup
        exact ⟨List.forall_mem_cons.2 ⟨first, others⟩, by simp [names, moreNames], moreNodup⟩

/-- What validation gives to generation. -/
structure Valid (program : Program) : Prop where
  first : ∀ unit ∈ program.modules, ∀ linked ∈ unit.classes,
    linked.ancestors.head? = some linked.name
  distinct : (program.classes.map (fun owned => owned.2.name)).Nodup
  root : program.modules ≠ [] → program.rootModule?.isSome

/-- A program that is validated is valid. -/
theorem valid_of_validate {program : Program} (accepted : program.validate = .ok ()) :
    program.Valid := by
  unfold validate at accepted
  cases ids : program.checkIds with
  | error =>
    rw [ids] at accepted
    cases accepted
  | ok =>
    cases roots : program.checkRoots with
    | error =>
      rw [ids, roots] at accepted
      cases accepted
    | ok =>
      cases checked : program.modules.foldlM (checkModule program.ids) [] with
      | error =>
        rw [ids, roots, checked] at accepted
        cases accepted
      | ok owners =>
        obtain ⟨first, names, distinct⟩ := foldlM_checkModule_ok checked List.nodup_nil
        refine ⟨first, ?_, fun some => ?_⟩
        · rw [names, List.map_nil, List.append_nil, List.nodup_reverse] at distinct
          simpa [classes, List.map_flatMap, Function.comp_def] using distinct
        · rw [rootModule?, List.find?_isSome]
          by_contra lacks
          have none : program.rootIds = [] := by
            rw [rootIds, List.map_eq_nil_iff, List.filter_eq_nil_iff]
            exact fun unit found root => lacks ⟨unit, found, root⟩
          simp only [checkRoots, none, List.isEmpty_iff, some, if_false] at roots
          cases roots

end Program

namespace ClassIndex

/-- The facts of an index about a class are those of a class of the program. -/
theorem exists_of_get? {program : Program} {name : ClassName} {info : ClassInfo}
    (known : (ofProgram program).get? name = some info) :
    ∃ unit ∈ program.modules, ∃ linked ∈ unit.classes,
      (name, info) = entry (parents program) unit linked := by
  have found : (name, info) ∈ (ofProgram program).entries := by
    obtain ⟨before, after, there, -⟩ := List.lookup_eq_some_iff.1 known
    rw [there]
    simp
  simp only [ofProgram, List.mem_reverse, List.mem_map] at found
  obtain ⟨owned, among, same⟩ := found
  obtain ⟨placed, there⟩ := Program.mem_classes.1 among
  exact ⟨owned.1, placed, owned.2, there, same.symm⟩

/-- The index of a valid program has the facts about each of its classes. -/
theorem get?_of_valid {program : Program} (valid : program.Valid) {unit : Module}
    (placed : unit ∈ program.modules) {linked : LinkedClass} (there : linked ∈ unit.classes) :
    (ofProgram program).get? linked.name = some (entry (parents program) unit linked).2 := by
  have found : entry (parents program) unit linked ∈ (ofProgram program).entries := by
    simp only [ofProgram, List.mem_reverse, List.mem_map]
    exact ⟨(unit, linked), Program.mem_classes.2 ⟨placed, there⟩, rfl⟩
  have names : ((ofProgram program).entries.map Prod.fst).Nodup := by
    have distinct := List.nodup_reverse.2 valid.distinct
    simpa only [ofProgram, List.map_reverse, List.map_map, Function.comp_def, entry] using distinct
  obtain ⟨before, after, parts⟩ := List.append_of_mem found
  rw [parts, List.map_append, List.map_cons] at names
  refine List.lookup_eq_some_iff.2 ⟨before, after, parts, fun other earlier => ?_⟩
  have apart := (List.nodup_append.1 names).2.2 other.1 (List.mem_map_of_mem earlier) linked.name
    List.mem_cons_self
  simpa using fun same => apart same.symm

/-- The index of a valid program knows which constructors are part of definitions. -/
theorem inlinesConstructor_of_valid {program : Program} (valid : program.Valid) {unit : Module}
    (placed : unit ∈ program.modules) {linked : LinkedClass} (there : linked ∈ unit.classes) :
    (ofProgram program).inlinesConstructor linked.name = canInline (parents program) linked := by
  rw [inlinesConstructor, get?_of_valid valid placed there]
  rfl

/-- A constructor that can be part of the definition is the only one. -/
theorem exists_constructors_eq {parents : List ClassName} {linked : LinkedClass}
    (inlines : canInline parents linked = true) : ∃ ctor, linked.constructors = [ctor] := by
  simp only [canInline, Bool.and_eq_true, decide_eq_true_eq] at inlines
  exact List.length_eq_one_iff.1 inlines.1.2

end ClassIndex

end JsEmitter
