import JsEmitter.Linked.Building
import JsEmitter.Proofs.EmittablePrograms
import JsEmitter.Proofs.ModuleSubjects
import Mathlib.Data.List.Nodup
import Mathlib.Data.List.Perm.Subperm

/-!
# Unique definitions

In a program whose members and exports have names of their own, no two definitions of a module have
the same subject. If the texts of the program can be read back from their encodings, and no class
of the root module takes the type data of a primitive type, no two have the same name then, whatever
host names the session assumes: `Emitter.pass_definedNames_nodup`.
-/
namespace JsEmitter

open Lowering (Context)

/-- A program whose classes have no two methods or static fields of one name, and whose modules have
no two exports of one name, and none that looks generated. -/
structure Program.DistinctMembers (program : Program) : Prop where
  methods : ∀ unit ∈ program.modules, ∀ linked ∈ unit.classes,
    (linked.methods.map (fun method => (method.value.home, method.value.name))).Nodup
  fields : ∀ unit ∈ program.modules, ∀ linked ∈ unit.classes,
    (linked.staticFields.map FieldDef.name).Nodup
  exports : ∀ unit ∈ program.modules, (unit.topLevelExports.map TopLevelExport.name).Nodup
  plain : ∀ unit ∈ program.modules, ∀ entry ∈ unit.topLevelExports,
    ¬ Naming.looksGenerated entry.name

/-- A class whose name, and the names of whose members, can be read back from encodings. -/
structure LinkedClass.Distinguishable (linked : LinkedClass) : Prop where
  name : Decodable linked.name.text
  delimited : linked.name.Delimited
  methods : ∀ method ∈ linked.methods, Decodable method.value.name.text
  fields : ∀ field ∈ linked.staticFields, Decodable field.name.text

/-- A program whose texts can be read back from the names of definitions. -/
structure Program.Distinguishable (program : Program) : Prop where
  ids : ∀ unit ∈ program.modules, Decodable unit.id.text
  sources : ∀ unit ∈ program.modules, ∀ source ∈ unit.externalDependencies, Decodable source
  classes : ∀ unit ∈ program.modules, ∀ linked ∈ unit.classes, linked.Distinguishable
  exports : ∀ unit ∈ program.modules, ∀ entry ∈ unit.topLevelExports, Decodable entry.name
  /-- No class has the type data of a primitive type. -/
  primitives : ∀ unit ∈ program.modules, unit.isRoot = true → ∀ linked ∈ unit.classes,
    linked.hasShellPart .typeData = true →
      linked.name.text ∉ Lowering.primitiveTypes.map Lowering.PrimitiveType.suffix

instance (program : Program) : Decidable program.DistinctMembers :=
  decidable_of_iff
    ((∀ unit ∈ program.modules, ∀ linked ∈ unit.classes,
      (linked.methods.map (fun method => (method.value.home, method.value.name))).Nodup) ∧
    (∀ unit ∈ program.modules, ∀ linked ∈ unit.classes,
      (linked.staticFields.map FieldDef.name).Nodup) ∧
    (∀ unit ∈ program.modules, (unit.topLevelExports.map TopLevelExport.name).Nodup) ∧
    ∀ unit ∈ program.modules, ∀ entry ∈ unit.topLevelExports,
      ¬ Naming.looksGenerated entry.name)
    ⟨fun ⟨methods, fields, exports, plain⟩ => ⟨methods, fields, exports, plain⟩,
      fun ⟨methods, fields, exports, plain⟩ => ⟨methods, fields, exports, plain⟩⟩

instance (linked : LinkedClass) : Decidable linked.Distinguishable :=
  decidable_of_iff
    (Decodable linked.name.text ∧ linked.name.Delimited ∧
      (∀ method ∈ linked.methods, Decodable method.value.name.text) ∧
      ∀ field ∈ linked.staticFields, Decodable field.name.text)
    ⟨fun ⟨name, delimited, methods, fields⟩ => ⟨name, delimited, methods, fields⟩,
      fun ⟨name, delimited, methods, fields⟩ => ⟨name, delimited, methods, fields⟩⟩

namespace Subject

/-- The class of which a subject is a part. -/
def owner? : Subject → Option ClassName
  | single .constructor text | single .helper text | single .test text | single .cast text
  | single .typeData text | single .accessor text | single .singleton text => some ⟨text⟩
  | member _ owner _ => some owner
  | _ => none

/-- The export that a subject is for. -/
def export? : Subject → Option String
  | single .binding name | exported name => some name
  | _ => none

/-- Whether a subject is an import. -/
def isImport : Subject → Bool
  | single .internalImport _ | single .externalImport _ => true
  | _ => false

/-- A part of a class is neither an import nor for an export. -/
theorem of_owner? {subject : Subject} {owner : ClassName} (owned : subject.owner? = some owner) :
    subject.isImport = false ∧ subject.export? = none := by
  rcases subject with ⟨sort, text⟩ | _ | _ | _ | _
  · cases sort <;> first | exact ⟨rfl, rfl⟩ | cases owned
  all_goals first | exact ⟨rfl, rfl⟩ | cases owned

/-- What is for an export is no import. -/
theorem isImport_of_export? {subject : Subject} {name : String}
    (exported : subject.export? = some name) : subject.isImport = false := by
  rcases subject with ⟨sort, text⟩ | _ | _ | _ | _
  · cases sort <;> first | rfl | cases exported
  all_goals rfl

end Subject

namespace LinkedClass

variable (context : Context) (linked : LinkedClass)

/-- The subjects of a class. -/
def subjects : List Subject :=
  linked.mainSubjects context ++ linked.typeSupportSubjects ++ linked.shellSubjects .staticFields

/-- The sorts of the subjects of a class that it has once. -/
def singleSorts (config : Config) : List NameSort :=
  (if linked.needsDefinition then
    .constructor :: (if config.classSyntax || linked.kind.isJsClass then [] else [.helper])
  else []) ++
  (if linked.hasShellPart .moduleAccessor then [.singleton, .accessor] else []) ++
  (if linked.hasShellPart .instanceTests then [.test, .cast] else []) ++
  (if linked.hasShellPart .typeData then [.typeData] else [])

/-- The subjects of a class: its functions, what it has once, and its static fields. -/
theorem subjects_eq : linked.subjects context =
    linked.functionSubjects context ++
      (linked.singleSorts context.config).map (fun sort => .single sort linked.name.text) ++
      linked.shellSubjects .staticFields := by
  unfold subjects mainSubjects typeSupportSubjects definitionSubjects shellSubjects singleSorts
  simp only [List.map_append, List.append_assoc, apply_ite (List.map _), List.map_cons,
    List.map_nil]

/-- A class has no two single subjects of one sort. -/
theorem singleSorts_nodup (config : Config) : (linked.singleSorts config).Nodup := by
  unfold singleSorts
  split_ifs <;> decide

/-- The single subjects of a class are owned by it. -/
theorem mem_singleSorts_owned {config : Config} {sort : NameSort}
    (found : sort ∈ linked.singleSorts config) :
    (Subject.single sort linked.name.text).owner? = some linked.name := by
  unfold singleSorts at found
  cases sort with
  | binding | externalImport | internalImport => split_ifs at found <;> simp_all
  | _ => rfl

/-- The subjects of a class are parts of it. -/
theorem owner?_of_mem_subjects {subject : Subject} (found : subject ∈ linked.subjects context) :
    subject.owner? = some linked.name := by
  rw [subjects_eq, List.mem_append, List.mem_append] at found
  rcases found with (found | found) | found
  · obtain ⟨method, -, rfl⟩ := List.mem_map.1 found
    rfl
  · obtain ⟨sort, among, rfl⟩ := List.mem_map.1 found
    exact linked.mem_singleSorts_owned among
  · unfold shellSubjects at found
    split at found
    · obtain ⟨field, -, rfl⟩ := List.mem_map.1 found
      rfl
    · cases found

/-- The subjects of a class are different. -/
theorem subjects_nodup
    (methods : (linked.methods.map (fun method => (method.value.home, method.value.name))).Nodup)
    (fields : (linked.staticFields.map FieldDef.name).Nodup) :
    (linked.subjects context).Nodup := by
  have functions : (linked.functionSubjects context).Nodup := by
    have requested := linked.requestedFunctions_sublist context
    refine List.Nodup.of_map (fun subject : Subject => match subject with
      | .member (.method home) _ text => some (home, (⟨text⟩ : MethodName))
      | _ => none) ?_
    unfold functionSubjects
    rw [List.map_map]
    have names := ((requested.map (fun method =>
      (method.value.home, method.value.name))).nodup methods).map (fun _ _ => Option.some.inj)
    rwa [List.map_map] at names
  have singles : ((linked.singleSorts context.config).map
      (fun sort => Subject.single sort linked.name.text)).Nodup :=
    (linked.singleSorts_nodup _).map (fun _ _ same => (Subject.single.inj same).1)
  have statics : (linked.shellSubjects .staticFields).Nodup := by
    unfold shellSubjects
    split
    · refine List.Nodup.of_map (fun subject : Subject => match subject with
        | .member _ _ text => some (⟨text⟩ : FieldName)
        | _ => none) ?_
      rw [List.map_map]
      have names := fields.map (fun _ _ => Option.some.inj)
      rwa [List.map_map] at names
    · exact List.nodup_nil
  have inFunctions : ∀ {subject : Subject}, subject ∈ linked.functionSubjects context →
      ∃ home text, subject = .member (.method home) linked.name text := by
    intro subject found
    obtain ⟨method, -, rfl⟩ := List.mem_map.1 found
    exact ⟨_, _, rfl⟩
  have inFields : ∀ {subject : Subject}, subject ∈ linked.shellSubjects .staticFields →
      ∃ text, subject = .member .staticField linked.name text := by
    intro subject found
    unfold shellSubjects at found
    split at found
    · obtain ⟨field, -, rfl⟩ := List.mem_map.1 found
      exact ⟨_, rfl⟩
    · cases found
  rw [subjects_eq, List.nodup_append', List.nodup_append']
  refine ⟨⟨functions, singles, fun subject found single => ?_⟩, statics,
    fun subject found static => ?_⟩
  · obtain ⟨_, _, rfl⟩ := inFunctions found
    simp at single
  · obtain ⟨_, rfl⟩ := inFields static
    rcases List.mem_append.1 found with function | single
    · obtain ⟨_, _, same⟩ := inFunctions function
      cases same
    · simp at single

/-- The single subjects among those of a class have one of its sorts, and its name as their text. -/
theorem single_mem_subjects {sort : NameSort} {text : String}
    (found : .single sort text ∈ linked.subjects context) :
    sort ∈ linked.singleSorts context.config ∧ text = linked.name.text := by
  rw [subjects_eq, List.mem_append, List.mem_append] at found
  rcases found with (found | found) | found
  · obtain ⟨method, -, same⟩ := List.mem_map.1 found
    cases same
  · obtain ⟨other, among, same⟩ := List.mem_map.1 found
    obtain ⟨rfl, rfl⟩ := Subject.single.inj same
    exact ⟨among, rfl⟩
  · unfold shellSubjects at found
    split at found
    · obtain ⟨field, -, same⟩ := List.mem_map.1 found
      cases same
    · cases found

/-- A class with instance tests or type data of its own is not the root class. -/
theorem isRoot_of_mem_singleSorts {config : Config} {sort : NameSort}
    (among : sort ∈ linked.singleSorts config) (support : sort ∈ [.test, .cast, .typeData]) :
    linked.name.isRoot = false := by
  cases root : linked.name.isRoot with
  | false => rfl
  | true =>
    have absent : ∀ part ∈ [ShellPart.instanceTests, .typeData],
        linked.hasShellPart part = false := by
      simp [hasShellPart, root]
    rw [singleSorts, absent .instanceTests (by decide), absent .typeData (by decide)] at among
    revert among support
    cases linked.needsDefinition <;> cases config.classSyntax <;>
      cases linked.kind.isJsClass <;> cases linked.hasShellPart .moduleAccessor <;>
      cases sort <;> decide

/-- A class with the subject of type data has type data of its own. -/
theorem typeData_of_mem_singleSorts {config : Config}
    (among : .typeData ∈ linked.singleSorts config) : linked.hasShellPart .typeData = true := by
  revert among
  unfold singleSorts
  cases linked.hasShellPart .typeData with
  | true => exact fun _ => rfl
  | false =>
    cases linked.needsDefinition <;> cases config.classSyntax <;>
      cases linked.kind.isJsClass <;> cases linked.hasShellPart .moduleAccessor <;>
      cases linked.hasShellPart .instanceTests <;> decide

/-- The root class has its instance tests and its type data from the bootstrap library. -/
theorem typeSupportSubjects_root {linked : LinkedClass} (root : linked.name.isRoot = true) :
    linked.typeSupportSubjects = [] := by
  simp [typeSupportSubjects, shellSubjects, hasShellPart, root]

end LinkedClass

namespace Module

variable (context : Context) (unit : Module)

/-- All subjects of the bootstrap library. -/
def wholeLibrary : List Subject :=
  unit.librarySubjects (.castFailure :: afterRootSubjects ++ primitiveSubjects)

/-- The subjects of a module, put in order by what they are parts of. -/
theorem subjects_perm : (unit.subjects context).Perm
    (unit.importSubjects context ++ (unit.wholeLibrary ++
      (unit.classes.flatMap (LinkedClass.subjects context) ++
        unit.topLevelExports.flatMap (TopLevelExport.subjects context)))) := by
  let whole (linked : LinkedClass) := linked.mainSubjects context ++ linked.typeSupportSubjects
  have roots : (unit.emissionOrder.filter (fun linked => linked.name.isRoot)).flatMap
      (fun linked => linked.mainSubjects context) =
      (unit.emissionOrder.filter (fun linked => linked.name.isRoot)).flatMap whole := by
    refine List.flatMap_congr (fun linked found => ?_)
    simp only [whole]
    rw [LinkedClass.typeSupportSubjects_root (List.mem_filter.1 found).2, List.append_nil]
  have parts : ((unit.emissionOrder.filter (fun linked => linked.name.isRoot)).flatMap whole ++
      (unit.emissionOrder.filter (fun linked => !linked.name.isRoot)).flatMap whole).Perm
      (unit.emissionOrder.flatMap whole) := by
    rw [← List.flatMap_append]
    exact (List.filter_append_perm _ _).flatMap_right whole
  have classes : (unit.emissionOrder.flatMap whole ++
      unit.emissionOrder.flatMap (fun linked => linked.shellSubjects .staticFields)).Perm
      (unit.classes.flatMap (LinkedClass.subjects context)) :=
    (List.flatMap_append_perm _ _ _).trans
      ((List.mergeSort_perm unit.classes comesFirst).flatMap_right _)
  have library : unit.wholeLibrary = unit.librarySubjects [.castFailure] ++
      unit.librarySubjects afterRootSubjects ++ unit.librarySubjects primitiveSubjects := by
    unfold wholeLibrary librarySubjects
    split <;> rfl
  rw [List.perm_iff_count] at parts classes ⊢
  intro subject
  have counted := parts subject
  have owned := classes subject
  unfold subjects
  rw [roots, library]
  simp only [List.count_append, whole] at counted owned ⊢
  omega

/-- A module has no two imports of the same subject. -/
theorem importSubjects_nodup : (unit.importSubjects context).Nodup := by
  unfold importSubjects
  split
  · exact List.nodup_nil
  · refine List.nodup_append'.2 ⟨(context.importedModules unit).nodup.map ?_,
      unit.externalDependencies.nodup.map ?_, ?_⟩
    · rintro ⟨id⟩ ⟨other⟩ same
      exact congrArg Name.mk (Subject.single.inj same).2
    · exact fun _ _ same => (Subject.single.inj same).2
    · intro subject internal external
      obtain ⟨id, -, rfl⟩ := List.mem_map.1 internal
      obtain ⟨source, -, same⟩ := List.mem_map.1 external
      cases same

/-- The subjects of imports are imports. -/
theorem isImport_of_mem_importSubjects {subject : Subject}
    (found : subject ∈ unit.importSubjects context) : subject.isImport = true := by
  unfold importSubjects at found
  split at found
  · cases found
  · rcases List.mem_append.1 found with internal | external
    · obtain ⟨id, -, rfl⟩ := List.mem_map.1 internal
      rfl
    · obtain ⟨source, -, rfl⟩ := List.mem_map.1 external
      rfl

/-- The bootstrap library has no two definitions of the same subject. -/
theorem wholeLibrary_nodup : unit.wholeLibrary.Nodup := by
  unfold wholeLibrary librarySubjects
  split
  · decide
  · exact List.nodup_nil

/-- What belongs to the bootstrap library is neither an import nor for an export. -/
theorem of_mem_wholeLibrary {subject : Subject} (found : subject ∈ unit.wholeLibrary) :
    subject.isImport = false ∧ subject.export? = none := by
  unfold wholeLibrary librarySubjects at found
  split at found
  · revert subject
    decide
  · cases found

/-- The subjects of an export are for the name that it exports. -/
theorem export?_of_mem_subjects {entry : TopLevelExport} {subject : Subject}
    (found : subject ∈ entry.subjects context) : subject.export? = some entry.name := by
  have either : subject = .single .binding entry.name ∨ subject = .exported entry.name := by
    unfold TopLevelExport.subjects at found
    rcases List.mem_append.1 found with first | second
    · split at first
      · exact .inl (List.mem_singleton.1 first)
      · cases first
    · split at second
      · split at second
        · cases second
        · exact .inl (List.mem_singleton.1 second)
      · cases second
      · exact .inr (List.mem_singleton.1 second)
  rcases either with rfl | rfl <;> rfl

/-- An export has no two definitions of the same subject. -/
theorem exportSubjects_nodup (entry : TopLevelExport) : (entry.subjects context).Nodup := by
  unfold TopLevelExport.subjects
  cases context.config.moduleKind with
  | script | commonJs => cases entry.kind <;> simp
  | esModule =>
    cases reference : PieceMarks.exportsReference context.index context.home entry.kind <;>
      cases kind : entry.kind <;> simp_all [PieceMarks.exportsReference]

/-- The subjects of all exports of a module are different. -/
theorem allExportSubjects_nodup (names : (unit.topLevelExports.map TopLevelExport.name).Nodup) :
    (unit.topLevelExports.flatMap (TopLevelExport.subjects context)).Nodup := by
  refine List.nodup_flatMap.2 ⟨fun entry _ => exportSubjects_nodup context entry, ?_⟩
  refine (List.pairwise_map.1 names).imp (fun apart subject first second => apart ?_)
  exact Option.some.inj ((export?_of_mem_subjects context first).symm.trans
    (export?_of_mem_subjects context second))

/-- The subjects of the classes of a module are different. -/
theorem classSubjects_nodup (names : (unit.classes.map LinkedClass.name).Nodup)
    (each : ∀ linked ∈ unit.classes, (linked.subjects context).Nodup) :
    (unit.classes.flatMap (LinkedClass.subjects context)).Nodup := by
  refine List.nodup_flatMap.2 ⟨each, ?_⟩
  refine (List.pairwise_map.1 names).imp (fun apart subject first second => apart ?_)
  exact Option.some.inj ((LinkedClass.owner?_of_mem_subjects context _ first).symm.trans
    (LinkedClass.owner?_of_mem_subjects context _ second))

end Module

section Distinct

variable {program : Program} {unit : Module} (context : Context)

/-- The definitions of the bootstrap library are not of a class of the module. -/
theorem Module.disjoint_library
    (primitives : unit.isRoot = true → ∀ linked ∈ unit.classes,
      linked.hasShellPart .typeData = true →
        linked.name.text ∉ Lowering.primitiveTypes.map Lowering.PrimitiveType.suffix) :
    unit.wholeLibrary.Disjoint (unit.classes.flatMap (LinkedClass.subjects context)) := by
  intro subject library found
  obtain ⟨linked, there, own⟩ := List.mem_flatMap.1 found
  have root : ∀ sort ∈ [NameSort.test, .cast, .typeData],
      subject ≠ .single sort ClassName.root.text := by
    rintro sort support rfl
    obtain ⟨among, text⟩ := linked.single_mem_subjects context own
    have other := linked.isRoot_of_mem_singleSorts among support
    have name : linked.name = .root := congrArg Name.mk text.symm
    simp [ClassName.isRoot, name] at other
  unfold wholeLibrary librarySubjects at library
  split at library
  · next isRoot =>
    simp only [afterRootSubjects, List.cons_append, List.nil_append, List.mem_cons] at library
    rcases library with rfl | rfl | test | cast | data | primitive
    · cases LinkedClass.owner?_of_mem_subjects context linked own
    · cases LinkedClass.owner?_of_mem_subjects context linked own
    · exact root _ (by decide) test
    · exact root _ (by decide) cast
    · exact root _ (by decide) data
    · obtain ⟨type, known, rfl⟩ := List.mem_map.1 primitive
      obtain ⟨among, text⟩ := linked.single_mem_subjects context own
      refine primitives isRoot linked there (linked.typeData_of_mem_singleSorts among) ?_
      exact text ▸ List.mem_map_of_mem known
  · cases library

/-- The subjects of a module are different if its classes, their members and its exports are, and if
no class has the type data of a primitive type. -/
theorem Module.subjects_nodup
    (names : (unit.classes.map LinkedClass.name).Nodup)
    (methods : ∀ linked ∈ unit.classes,
      (linked.methods.map (fun method => (method.value.home, method.value.name))).Nodup)
    (fields : ∀ linked ∈ unit.classes, (linked.staticFields.map FieldDef.name).Nodup)
    (exports : (unit.topLevelExports.map TopLevelExport.name).Nodup)
    (primitives : unit.isRoot = true → ∀ linked ∈ unit.classes,
      linked.hasShellPart .typeData = true →
        linked.name.text ∉ Lowering.primitiveTypes.map Lowering.PrimitiveType.suffix) :
    (unit.subjects context).Nodup := by
  have owned : ∀ {subject : Subject},
      subject ∈ unit.classes.flatMap (LinkedClass.subjects context) →
      subject.isImport = false ∧ subject.export? = none := by
    intro subject found
    obtain ⟨linked, -, own⟩ := List.mem_flatMap.1 found
    exact Subject.of_owner? (linked.owner?_of_mem_subjects context own)
  have exported : ∀ {subject : Subject},
      subject ∈ unit.topLevelExports.flatMap (TopLevelExport.subjects context) →
      ∃ name, subject.export? = some name := by
    intro subject found
    obtain ⟨entry, -, own⟩ := List.mem_flatMap.1 found
    exact ⟨_, export?_of_mem_subjects context own⟩
  rw [(unit.subjects_perm context).nodup_iff, List.nodup_append', List.nodup_append',
    List.nodup_append']
  refine ⟨unit.importSubjects_nodup context, ⟨unit.wholeLibrary_nodup,
    ⟨unit.classSubjects_nodup context names
      (fun linked there => linked.subjects_nodup context (methods _ there) (fields _ there)),
      unit.allExportSubjects_nodup context exports, ?_⟩, ?_⟩, ?_⟩
  · intro subject own outside
    obtain ⟨name, some⟩ := exported outside
    cases some.symm.trans (owned own).2
  · refine List.disjoint_append_right.2 ⟨disjoint_library context primitives, ?_⟩
    intro subject library outside
    obtain ⟨name, some⟩ := exported outside
    cases some.symm.trans (unit.of_mem_wholeLibrary library).2
  · intro subject imported rest
    have yes := unit.isImport_of_mem_importSubjects context imported
    rw [List.mem_append, List.mem_append] at rest
    rcases rest with library | own | outside
    · cases yes.symm.trans (unit.of_mem_wholeLibrary library).1
    · cases yes.symm.trans (owned own).1
    · obtain ⟨name, some⟩ := exported outside
      cases yes.symm.trans (Subject.isImport_of_export? some)

end Distinct

/-- The modules that a module imports are modules of the program. -/
theorem Program.Checked.mem_ids_of_imported {program : Program} (checked : program.Checked)
    {context : Context} (site : context.index = .ofProgram program) {unit : Module}
    (placed : unit ∈ program.modules) {id : ModuleId} (found : id ∈ context.importedModules unit) :
    id ∈ program.ids := by
  have known := checked.dependencies unit placed
  unfold Context.importedModules at found
  split at found
  · next root isRoot =>
    split at found
    · exact known id found
    · rcases SortedSet.mem_insert.1 found with rfl | depends
      · rw [site] at isRoot
        obtain ⟨module, among, rfl⟩ := Option.map_eq_some_iff.1 isRoot
        exact List.mem_map_of_mem (List.mem_of_find?_eq_some among)
      · exact known id depends
  · exact known id found

section Readable

variable {program : Program} {unit : Module} (context : Context)

/-- The texts of the subjects of a class can be read back from their names. -/
theorem LinkedClass.Distinguishable.readable {linked : LinkedClass}
    (distinguishable : linked.Distinguishable) :
    ∀ subject ∈ linked.subjects context, subject.Readable := by
  have owner := And.intro distinguishable.name distinguishable.delimited
  intro subject found
  rw [subjects_eq, List.mem_append, List.mem_append] at found
  rcases found with (found | found) | found
  · obtain ⟨method, requested, rfl⟩ := List.mem_map.1 found
    exact ⟨owner.1, owner.2, distinguishable.methods method
      ((linked.requestedFunctions_sublist context).mem requested)⟩
  · obtain ⟨sort, -, rfl⟩ := List.mem_map.1 found
    exact owner.1
  · unfold shellSubjects at found
    split at found
    · obtain ⟨field, among, rfl⟩ := List.mem_map.1 found
      exact ⟨owner.1, owner.2, distinguishable.fields field among⟩
    · cases found

/-- The texts of the subjects of a module can be read back from their names. -/
theorem Module.subjects_readable (checked : program.Checked) (placed : unit ∈ program.modules)
    (distinguishable : program.Distinguishable)
    (plain : ∀ entry ∈ unit.topLevelExports, ¬ Naming.looksGenerated entry.name)
    (site : context.index = .ofProgram program) :
    ∀ subject ∈ unit.subjects context, subject.Readable := by
  intro subject found
  rw [(unit.subjects_perm context).mem_iff, List.mem_append, List.mem_append,
    List.mem_append] at found
  rcases found with imported | library | own | outside
  · unfold importSubjects at imported
    split at imported
    · cases imported
    · rcases List.mem_append.1 imported with internal | external
      · obtain ⟨id, among, rfl⟩ := List.mem_map.1 internal
        obtain ⟨other, there, rfl⟩ :=
          List.mem_map.1 (checked.mem_ids_of_imported site placed among)
        exact distinguishable.ids other there
      · obtain ⟨source, among, rfl⟩ := List.mem_map.1 external
        exact distinguishable.sources unit placed source among
  · unfold wholeLibrary librarySubjects at library
    split at library
    · simp only [afterRootSubjects, List.cons_append, List.nil_append, List.mem_cons] at library
      rcases library with rfl | rfl | rfl | rfl | rfl | primitive
      · trivial
      · trivial
      all_goals try exact (by decide : Decodable ClassName.root.text)
      obtain ⟨type, known, rfl⟩ := List.mem_map.1 primitive
      have short : ∀ type ∈ Lowering.primitiveTypes, Decodable type.suffix := by decide
      exact short type known
    · cases library
  · obtain ⟨linked, there, part⟩ := List.mem_flatMap.1 own
    exact (distinguishable.classes unit placed linked there).readable context subject part
  · obtain ⟨entry, among, part⟩ := List.mem_flatMap.1 outside
    have named := export?_of_mem_subjects context part
    rcases subject with ⟨sort, text⟩ | _ | _ | _ | name
    · cases sort <;> cases named
      exact distinguishable.exports unit placed entry among
    all_goals cases named
    exact plain entry among

end Readable

/-- In a first run the definitions of a module have different names. -/
theorem ModulePieces.MadeFor.definedNames_nodup {setting : Setting} {program : Program}
    {unit : Module} {pieces : ModulePieces}
    (made : pieces.MadeFor setting [program] program unit) (naming : Naming)
    (checked : program.Checked) (placed : unit ∈ program.modules)
    (distinct : program.DistinctMembers) (distinguishable : program.Distinguishable) :
    (pieces.output setting naming).definedNames.Nodup := by
  have about : pieces.definers setting.config = _ := made.about checked placed
  have names := checked.classNames_nodup placed
  have different := unit.subjects_nodup (unit.context setting program) names
    (distinct.methods unit placed) (distinct.fields unit placed) (distinct.exports unit placed)
    (distinguishable.primitives unit placed)
  have readable := unit.subjects_readable (unit.context setting program) checked placed
    distinguishable (distinct.plain unit placed) rfl
  rw [pieces.output_definedNames, about, List.map_map]
  exact different.map_on (fun first found second there same =>
    Subject.name_injective naming (readable first found) (readable second there) same)

namespace Emitter

/-- A pass over a well-formed program in a new session, whatever host names it assumes, gives every
module definitions with different names, if its members are distinct and its texts can be read back
from their encodings. -/
theorem pass_definedNames_nodup (setting : Setting) (assumed : HostRefs) (supply : TokenSupply)
    (program : Program) (valid : program.validate = .ok ()) (distinct : program.DistinctMembers)
    (distinguishable : program.Distinguishable) {given : Pass} {reached : Emitter}
    (done : pass program ⟨setting.config, setting.filter, .start assumed supply⟩ =
      .ok given reached) :
    ∀ output ∈ given.outputs, output.definedNames.Nodup := by
  have checked := Program.validate_eq_ok_iff.1 valid
  have sound : Sound setting [program] ⟨setting.config, setting.filter, .start assumed supply⟩ :=
    .start (fun _ => assumed) (fun _ => supply) (fun _ => rfl) (fun _ => rfl) (fun _ => rfl)
  obtain ⟨outcome, last, holds, -, -, ends⟩ := sound.pass (List.mem_singleton_self program)
  rw [done] at ends
  cases outcome with
  | error => cases ends
  | ok pieces =>
    cases ends
    intro output found
    obtain ⟨unitPieces, among, rfl⟩ := List.mem_map.1 found
    obtain ⟨unit, ordered, outcome⟩ := Gives.exists_of_mem holds among
    cases outcome with
    | made made =>
      exact made.definedNames_nodup _ checked (Program.mem_of_mem_dependencyOrder ordered)
        distinct distinguishable

end Emitter

/-- A program whose names meet each other in many ways: a class has methods of one name in two
namespaces and a static field of this name, and its name with an underscore for the dot names
another class; a class of a module other than the root is named like a primitive type. -/
def crowdedProgram : Program :=
  ⟨[{ (Module.start ⟨"main"⟩).dependOn ⟨"lib"⟩ with
      isRoot := true
      classes := [
        { LinkedClass.start .root .plain with hasInstances := true, hasTypeData := true },
        { ((((LinkedClass.start ⟨"app.A"⟩ .plain).extend .root).addMethod
            ⟨⟨"run"⟩, .staticPublic, [], .globalRef "$s_app_A__run"⟩ firstVersion).addMethod
            ⟨⟨"run"⟩, .instancePublic, [], .skip⟩ firstVersion).addField ⟨"run"⟩ .int true with
          hasInstances := true, hasInstanceTests := true, hasTypeData := true },
        { (LinkedClass.start ⟨"app_A"⟩ .plain).extend .root with
          hasInstances := true, hasTypeData := true }]
      topLevelExports := [⟨"run", .method [] .skip, firstVersion⟩] },
    { Module.start ⟨"lib"⟩ with
      classes := [{ (LinkedClass.start ⟨"I"⟩ .plain).extend .root with
        hasInstances := true, hasTypeData := true }] }]⟩

/-- A pass over a program whose names meet each other, in a session that assumes two of them. -/
theorem Emitter.pass_definedNames_nodup_crowded : ∃ given reached,
    Emitter.pass crowdedProgram
      ⟨.standard, .standard, .start (.ofList ["$s_app_A__run", "$c_app_A"]) default⟩ =
        .ok given reached ∧
    ∀ output ∈ given.outputs, output.definedNames.Nodup := by
  have sound : Emitter.Sound ⟨.standard, .standard⟩ [crowdedProgram]
      ⟨.standard, .standard, .start (.ofList ["$s_app_A__run", "$c_app_A"]) default⟩ :=
    .start _ (fun _ => default) (fun _ => rfl) (fun _ => rfl) (fun _ => rfl)
  obtain ⟨given, reached, done⟩ := sound.pass_ok (List.mem_singleton_self _) (by decide)
  have distinguishable : crowdedProgram.Distinguishable :=
    ⟨by decide +kernel, by decide +kernel, by decide +kernel, by decide +kernel,
      by decide +kernel⟩
  exact ⟨given, reached, done, Emitter.pass_definedNames_nodup ⟨.standard, .standard⟩
    (.ofList ["$s_app_A__run", "$c_app_A"]) default crowdedProgram (by decide +kernel)
    (by decide +kernel) distinguishable done⟩

end JsEmitter
