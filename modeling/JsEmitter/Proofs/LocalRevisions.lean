import JsEmitter.Proofs.CacheKeys
import JsEmitter.Proofs.RevisedEmission

/-!
# Local revisions

A revision is local if it replaces one method for which code is generated and that other code does
not depend on: it keeps the names of classes in the body, and it does not change a constructor that
is part of a definition. Then it changes one of the cells that count the requests for methods, and
besides at most the definition of its class.
-/
namespace JsEmitter

open Lowering (Context)

namespace Revision

variable {revision : Revision} {key : ClassKey} {free : Bool} {cells : List Cell}

/-- The cell of the code of a revised method. -/
def cell (revision : Revision) (key : ClassKey) (free : Bool) : Cell :=
  if free then .keyed .functions (key, revision.home, revision.name)
  else .keyed .members (key, revision.name)

/-- The only changed cell that counts requests to a keyed cache is that of the revised method. -/
theorem changes_and_countsFor_iff {sort : KeyedSort} {cell : Cell} :
    (revision.changes key free cell && cell.countsFor (.keyed sort)) = true ↔
      cell = revision.cell key free ∧ cell.sort = .keyed sort := by
  cases cell with
  | keyed own other =>
    cases own <;> cases free <;>
      simp [changes, Revision.cell, Cell.countsFor, Cell.isCounted]
  | definition other => simp [Cell.countsFor, Cell.sort]
  | _ => simp [changes, Cell.sort]

/-- A revision changes one of the cells that count the requests for methods. -/
theorem countP_changes_methods (distinct : cells.Nodup) (found : revision.cell key free ∈ cells) :
    cells.countP (fun cell => revision.changes key free cell &&
        cell.countsFor (.keyed .functions)) +
      cells.countP (fun cell => revision.changes key free cell &&
        cell.countsFor (.keyed .members)) = 1 := by
  have counts : ∀ sort : KeyedSort, cells.countP (fun cell =>
      revision.changes key free cell && cell.countsFor (.keyed sort)) =
        if (revision.cell key free).sort = .keyed sort then 1 else 0 := by
    intro sort
    split
    · next own =>
      rw [← List.count_eq_one_of_mem distinct found, List.count]
      refine List.countP_congr (fun cell _ => changes_and_countsFor_iff.trans ?_)
      rw [beq_iff_eq]
      exact and_iff_left_of_imp (fun same => same ▸ own)
    · next apart =>
      refine List.countP_eq_zero.2 (fun cell _ both => ?_)
      obtain ⟨rfl, own⟩ := changes_and_countsFor_iff.1 both
      exact apart own
  rw [counts, counts]
  cases free <;> rfl

/-- A revision changes no shell. -/
theorem countP_changes_shells : cells.countP (fun cell =>
    revision.changes key free cell && cell.countsFor .shells) = 0 := by
  refine List.countP_eq_zero.2 (fun cell _ both => ?_)
  obtain ⟨changes, counts⟩ := Bool.and_eq_true_iff.1 both
  cases cell with
  | keyed | definition => cases counts
  | _ => cases changes

end Revision

/-- Whether a revision replaces the body and the version of one method of a program, and other code
does not depend on what it changes. -/
structure Revision.Targets (revision : Revision) (program : Program) (unit : Module)
    (linked : LinkedClass) (method : Versioned MethodDef) : Prop where
  placed : unit ∈ program.modules
  there : linked ∈ unit.classes
  found : method ∈ linked.methods
  hit : revision.hits linked.name method = true
  /-- The host does not provide the class. -/
  generated : linked.kind ≠ .nativeJsClass
  /-- Code is generated for the method: as a free function, or in the definition of its class. -/
  emitted : linked.isFreeFunction method = true ∨ linked.needsDefinition = true
  /-- The method is not part of the definition as its constructor. -/
  separate : method.value.home = .constructor →
    ClassIndex.canInline (ClassIndex.parents program) linked = false
  /-- The new version is another one. -/
  differs : revision.version.isSame method.version = false
  /-- The new body names the same classes. -/
  names : ∀ owner, owner ∈ revision.body.classes ↔ owner ∈ method.value.body.classes

namespace Revision.Targets

variable {revision : Revision} {program : Program} {unit other : Module}
  {linked another : LinkedClass} {method : Versioned MethodDef} {context : Context}
  {contexts : ModuleId → Context} (homes : ∀ id, (contexts id).home = id)
  (targets : revision.Targets program unit linked method)

include targets

/-- The revised class is one of the program. -/
theorem owned : (unit, linked) ∈ program.classes :=
  Program.mem_classes.2 ⟨targets.placed, targets.there⟩

/-- There is one method under the name of the revised one. -/
theorem method_eq (unique : program.UniqueMethods) {replaced : Versioned MethodDef}
    (found : replaced ∈ linked.methods)
    (hit : revision.hits linked.name replaced = true) : replaced = method := by
  obtain ⟨-, home, name⟩ := hits_iff.1 hit
  obtain ⟨-, ownHome, ownName⟩ := hits_iff.1 targets.hit
  exact List.inj_on_of_nodup_map (unique unit targets.placed linked targets.there) found
    targets.found (Prod.ext (home.trans ownHome.symm) (name.trans ownName.symm))

include homes in
/-- A definition that is changed is requested in every pass over the program. -/
theorem definition_mem {key : ClassKey}
    (changed : revision.changes (.ofClass unit.id linked) (linked.isFreeFunction method)
      (.definition key) = true) :
    .definition key ∈ Emission.programCells contexts program := by
  simp only [changes, Bool.and_eq_true, Bool.not_eq_true', decide_eq_true_eq] at changed
  obtain ⟨member, rfl⟩ := changed
  refine (Emission.mem_programCells_of_owner rfl).2 ⟨(unit, linked), targets.owned,
    Emission.definition_mem_classCells_iff.2 ⟨targets.emitted.resolve_left (by simp [member]), ?_⟩⟩
  rw [homes]

variable (checked : program.Checked)

include checked

/-- There is one class with the name of the revised one. -/
theorem class_eq (placed : other ∈ program.modules) (there : another ∈ other.classes)
    (named : another.name = revision.owner) : other = unit ∧ another = linked :=
  checked.class_eq placed targets.placed there targets.there
    (named.trans (hits_iff.1 targets.hit).1.symm)

/-- The revised method is not part of the definition of its class. -/
theorem isInlined_eq (index : context.index = .ofProgram program) :
    context.isInlined linked method = false := by
  by_cases ctor : method.value.home = .constructor
  · have apart : context.index.inlinesConstructor linked.name = false := by
      rw [index, ClassIndex.inlinesConstructor_of_valid checked.valid targets.placed targets.there]
      exact targets.separate ctor
    simp [Context.isInlined, Context.inlinedConstructor?, apart]
  · simp [Context.isInlined, ctor]

include homes in
/-- The code of the revised method is requested in every pass over the program. -/
theorem cell_mem (index : ∀ id, (contexts id).index = .ofProgram program) :
    revision.cell (.ofClass unit.id linked) (linked.isFreeFunction method) ∈
      Emission.programCells contexts program := by
  obtain ⟨-, home, name⟩ := hits_iff.1 targets.hit
  have key : ClassKey.ofClass (contexts unit.id).home linked = .ofClass unit.id linked := by
    rw [homes]
  cases free : linked.isFreeFunction method with
  | true =>
    refine (Emission.mem_programCells_of_owner rfl).2 ⟨(unit, linked), targets.owned,
      Emission.function_mem_classCells_iff.2 ⟨targets.generated, _, List.mem_map_of_mem
        (List.mem_filter.2 ⟨targets.found, ?_⟩), ?_⟩⟩
    · simp [targets.isInlined_eq checked (index unit.id), free]
    · rw [key, home, name]
  | false =>
    refine (Emission.mem_programCells_of_owner rfl).2 ⟨(unit, linked), targets.owned,
      Emission.member_mem_classCells_iff.2 ⟨targets.emitted.resolve_left (by simp [free]), _,
        List.mem_map_of_mem (List.mem_filter.2 ⟨targets.found, by simp [free]⟩), ?_⟩⟩
    rw [key, name]

variable (unique : program.UniqueMethods)

include unique

/-- A revision fits all classes of the program. -/
theorem fits (index : context.index = .ofProgram program) (placed : other ∈ program.modules)
    (there : another ∈ other.classes) : revision.Fits context another := by
  have only : ∀ replaced ∈ another.methods, revision.hits another.name replaced = true →
      replaced = method := by
    intro replaced found hit
    obtain ⟨-, rfl⟩ := targets.class_eq checked placed there (hits_iff.1 hit).1
    exact targets.method_eq unique found hit
  refine ⟨fun named home => ?_, fun replaced found hit => ?_, fun replaced found hit => ?_⟩
  · obtain ⟨rfl, rfl⟩ := targets.class_eq checked placed there named
    rw [index, ClassIndex.inlinesConstructor_of_valid checked.valid placed there]
    exact targets.separate ((hits_iff.1 targets.hit).2.1.trans home)
  · rw [only replaced found hit]
    exact targets.names
  · rw [only replaced found hit]
    exact targets.differs

/-- A method of a class is under the key of the revised one and as free as it, exactly if it is the
revised one. -/
theorem hits_iff_key (home : context.home = other.id) (placed : other ∈ program.modules)
    (there : another ∈ other.classes) {replaced : Versioned MethodDef}
    (found : replaced ∈ another.methods) :
    revision.hits another.name replaced = true ↔
      linked.isFreeFunction method = another.isFreeFunction replaced ∧
        .ofClass context.home another = ClassKey.ofClass unit.id linked ∧
        replaced.value.home = revision.home ∧ replaced.value.name = revision.name := by
  constructor
  · intro hit
    obtain ⟨named, rest⟩ := hits_iff.1 hit
    obtain ⟨rfl, rfl⟩ := targets.class_eq checked placed there named
    obtain rfl := targets.method_eq unique found hit
    exact ⟨rfl, by rw [home], rest⟩
  · rintro ⟨-, key, rest⟩
    obtain ⟨rfl, rfl⟩ := checked.class_eq_of_key placed targets.placed there targets.there
      (congrArg ClassKey.ancestors key)
    exact hits_iff.2 ⟨(hits_iff.1 targets.hit).1, rest⟩

/-- A revision marks the cells of its class that it changes. -/
theorem marks (home : context.home = other.id) (placed : other ∈ program.modules)
    (there : another ∈ other.classes) :
    revision.Marks (revision.changes (.ofClass unit.id linked) (linked.isFreeFunction method))
      context another where
  functions replaced found := by
    obtain ⟨own, kept⟩ := List.mem_filter.1 found
    rw [Bool.eq_iff_iff, targets.hits_iff_key checked unique home placed there own,
      (Bool.and_eq_true_iff.1 kept).2]
    simp [Revision.changes, Prod.ext_iff]
  members replaced found := by
    have own := List.mem_of_mem_filter found
    have bound : another.isFreeFunction replaced = false := by
      simpa using (List.mem_filter.1 found).2
    have homes : linked.isFreeFunction method = false → replaced.value.home = revision.home := by
      intro member
      have among : method ∈ Context.memberMethods linked :=
        List.mem_filter.2 ⟨targets.found, by simp [member]⟩
      rw [LinkedClass.home_of_mem_memberMethods found, ← (hits_iff.1 targets.hit).2.1,
        LinkedClass.home_of_mem_memberMethods among]
    rw [Bool.eq_iff_iff, targets.hits_iff_key checked unique home placed there own, bound]
    simp +contextual [Revision.changes, Prod.ext_iff, homes]
  definition := by
    rw [Bool.eq_iff_iff, List.any_eq_true]
    simp only [Revision.changes, Bool.and_eq_true, Bool.not_eq_true', decide_eq_true_eq]
    constructor
    · rintro ⟨member, key⟩
      obtain ⟨rfl, rfl⟩ := checked.class_eq_of_key placed targets.placed there targets.there
        (congrArg ClassKey.ancestors key)
      exact ⟨method, List.mem_filter.2 ⟨targets.found, by simp [member]⟩, targets.hit⟩
    · rintro ⟨replaced, found, hit⟩
      obtain ⟨free, key, -⟩ := (targets.hits_iff_key checked unique home placed there
        (List.mem_of_mem_filter found)).1 hit
      exact ⟨free.trans (by simpa using (List.mem_filter.1 found).2), key⟩

end Revision.Targets

end JsEmitter
