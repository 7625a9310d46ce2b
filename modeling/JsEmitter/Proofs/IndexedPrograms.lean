import JsEmitter.Cache.Classes
import JsEmitter.Linked.Building
import JsEmitter.Proofs.CheckedPrograms

/-!
# Indexed programs

The index of a program answers for the last class of a name, and a search of the program for the
first one. In a program that validation accepts there is only one class of a name, so both tell the
same about it, and a class is known by its key in the caches. `Program.validate_indexed` is the main
statement.
-/
namespace JsEmitter

/-- Whether an index has for every name the facts about the class that a program has under this
name, and none for other names. -/
structure ClassIndex.Describes (index : ClassIndex) (program : Program) : Prop where
  known : ∀ name, (index.get? name).isSome = (program.findClass? name).isSome
  owner : ∀ name, index.owner? name = (program.findClass? name).map (fun owned => owned.1.id)
  kind : ∀ name, index.kind? name = (program.findClass? name).map (fun owned => owned.2.kind)
  superClass : ∀ name, (index.get? name).bind ClassInfo.superClass? =
    (program.findClass? name).bind (fun owned => owned.2.superClass?)
  nativeLoadSpec : ∀ name, index.nativeLoadSpec? name =
    (program.findClass? name).bind (fun owned => owned.2.nativeLoadSpec?)
  root : index.rootModule? = program.rootModule?.map Module.id

namespace Program

variable {program : Program}

/-- The class that is found by a name has this name and stands in its module. -/
theorem of_findClass? {name : ClassName} {owned : Module × LinkedClass}
    (found : program.findClass? name = some owned) :
    owned.1 ∈ program.modules ∧ owned.2 ∈ owned.1.classes ∧ owned.2.name = name := by
  obtain ⟨placed, held⟩ := mem_classes.1 (List.mem_of_find?_eq_some found)
  have named := List.find?_some found
  exact ⟨placed, held, by simpa using named⟩

/-- In a valid program the first class of a name is the one that the index answers for. -/
theorem get?_ofProgram (valid : program.Valid) (name : ClassName) :
    (ClassIndex.ofProgram program).get? name = (program.findClass? name).map (fun owned =>
      (ClassIndex.entry (ClassIndex.parents program) owned.1 owned.2).2) := by
  cases found : program.findClass? name with
  | none =>
    cases known : (ClassIndex.ofProgram program).get? name with
    | none => rfl
    | some info =>
      obtain ⟨unit, placed, linked, held, same⟩ := ClassIndex.exists_of_get? known
      have named : linked.name = name := (congrArg Prod.fst same).symm
      have among : (unit, linked) ∈ program.classes := mem_classes.2 ⟨placed, held⟩
      simpa [named] using List.find?_eq_none.1 found _ among
  | some owned =>
    obtain ⟨placed, held, rfl⟩ := of_findClass? found
    exact ClassIndex.get?_of_valid valid placed held

/-- The index of a valid program describes it. -/
theorem Valid.describes (valid : program.Valid) :
    (ClassIndex.ofProgram program).Describes program := by
  have facts := get?_ofProgram valid
  constructor
  case root => rfl
  all_goals
    intro name
    cases found : program.findClass? name <;>
      simp [ClassIndex.owner?, ClassIndex.kind?, ClassIndex.nativeLoadSpec?, ClassIndex.entry,
        facts, found]

/-- Different classes of a valid program have different keys. -/
theorem Valid.classKeys_nodup (valid : program.Valid) :
    (program.classes.map (fun owned => ClassKey.ofClass owned.1.id owned.2)).Nodup := by
  refine List.Nodup.of_map ClassKey.className? ?_
  -- the first ancestor of a class is the class itself
  have names : (program.classes.map (fun owned => ClassKey.ofClass owned.1.id owned.2)).map
      ClassKey.className? = (program.classes.map (fun owned => owned.2.name)).map some := by
    simp only [List.map_map]
    refine List.map_congr_left (fun owned among => ?_)
    obtain ⟨placed, held⟩ := mem_classes.1 among
    exact valid.first owned.1 placed owned.2 held
  rw [names]
  exact valid.distinct.map (fun _ _ => Option.some.inj)

/-- Validation accepts exactly the programs that keep the rules: module ids are distinct, there is
one root module or no module at all, dependencies are known, every class is its own first ancestor,
and class names are distinct. The index then describes the program, and its classes have different
keys. -/
theorem validate_indexed (program : Program) :
    (program.validate = .ok () ↔
      program.ids.Nodup ∧
      (program.modules = [] ∨ ∃ root, program.modules.filter Module.isRoot = [root]) ∧
      (∀ unit ∈ program.modules, ∀ id ∈ unit.internalDependencies, id ∈ program.ids) ∧
      (∀ unit ∈ program.modules, ∀ linked ∈ unit.classes,
        linked.ancestors.head? = some linked.name) ∧
      (program.classes.map (fun owned => owned.2.name)).Nodup) ∧
    (program.validate = .ok () →
      (ClassIndex.ofProgram program).Describes program ∧
        (program.classes.map (fun owned => ClassKey.ofClass owned.1.id owned.2)).Nodup) := by
  have roots : (∃ id, program.rootIds = [id]) ↔
      ∃ root, program.modules.filter Module.isRoot = [root] := by
    simp only [rootIds, List.map_eq_singleton_iff]
    constructor
    · rintro ⟨_, root, one, _⟩
      exact ⟨root, one⟩
    · rintro ⟨root, one⟩
      exact ⟨root.id, root, one, rfl⟩
  refine ⟨?_, fun accepted => ?_⟩
  · rw [validate_eq_ok_iff, ← roots]
    constructor
    · intro checked
      exact ⟨checked.ids, checked.roots, checked.dependencies, checked.first, checked.distinct⟩
    · rintro ⟨ids, one, dependencies, first, distinct⟩
      exact ⟨ids, one, dependencies, first, distinct⟩
  · have valid := valid_of_validate accepted
    exact ⟨valid.describes, valid.classKeys_nodup⟩

end Program

/-- Two modules, the second of which has a subclass of the root class and a class of the host. -/
def hostedProgram : Program :=
  ⟨[{ Module.start ⟨"main"⟩ with
      isRoot := true
      classes := [LinkedClass.start .root .plain] },
    { (Module.start ⟨"lib"⟩).dependOn ⟨"main"⟩ with
      classes := [
        (LinkedClass.start ⟨"app.A"⟩ .plain).extend .root,
        { LinkedClass.start ⟨"app.N"⟩ .nativeJsClass with
          nativeLoadSpec? := some (.fromGlobal ["Map"]) }] }]⟩

/-- What the index has about classes of the second module, and about a class that is in none. -/
theorem Program.validate_indexed_hosted :
    let index := ClassIndex.ofProgram hostedProgram
    hostedProgram.validate = .ok () ∧
      index.owner? ⟨"app.A"⟩ = some ⟨"lib"⟩ ∧
      (index.get? ⟨"app.A"⟩).bind ClassInfo.superClass? = some .root ∧
      index.kind? ⟨"app.N"⟩ = some .nativeJsClass ∧
      index.nativeLoadSpec? ⟨"app.N"⟩ = some (.fromGlobal ["Map"]) ∧
      (index.get? ⟨"app.B"⟩).isSome = false ∧
      index.rootModule? = some ⟨"main"⟩ := by
  intro index
  have accepted : hostedProgram.validate = .ok () := by decide +kernel
  have describes := ((Program.validate_indexed hostedProgram).2 accepted).1
  refine ⟨accepted, ?_, ?_, ?_, ?_, ?_, ?_⟩
  · exact describes.owner ⟨"app.A"⟩
  · exact describes.superClass ⟨"app.A"⟩
  · exact describes.kind ⟨"app.N"⟩
  · exact describes.nativeLoadSpec ⟨"app.N"⟩
  · exact describes.known ⟨"app.B"⟩
  · exact describes.root

end JsEmitter
