import JsEmitter.Proofs.SameVersions

/-!
# Versioned programs

Code without a version is generated anew in every run. In a program in which everything is
versioned, every request is for a version that can be reused.
-/
namespace JsEmitter

open Lowering (Context)

namespace Version

/-- A combined version is versioned if its parts are. -/
theorem isVersioned_combine {versions : List Version}
    (all : ∀ version ∈ versions, version.isVersioned = true) :
    (combine versions).isVersioned = true := by
  have tokens : ∃ tokens, versions.mapM token? = some tokens := by
    induction versions with
    | nil => exact ⟨[], rfl⟩
    | cons head rest ih =>
      obtain ⟨token, here⟩ := Option.isSome_iff_exists.1 (all head List.mem_cons_self)
      obtain ⟨others, there⟩ := ih (fun version found => all version (List.mem_cons_of_mem _ found))
      exact ⟨token :: others, by simp [List.mapM_cons, here, there]⟩
  obtain ⟨tokens, found⟩ := tokens
  simp [combine, isVersioned, found]

end Version

/-- Whether the class and everything in it is versioned. -/
structure LinkedClass.AllVersioned (linked : LinkedClass) : Prop where
  own : linked.version.isVersioned = true
  methods : ∀ method ∈ linked.methods, method.version.isVersioned = true
  ctor : ∀ ctor ∈ linked.jsConstructor?, ctor.version.isVersioned = true
  exportedMembers : ∀ member ∈ linked.exportedMembers, member.version.isVersioned = true

/-- Whether the initializers, the exports and the classes of a module are versioned. -/
structure Module.AllVersioned (unit : Module) : Prop where
  initializers : unit.initializersVersion.isVersioned = true
  exports : ∀ entry ∈ unit.topLevelExports, entry.version.isVersioned = true
  classes : ∀ linked ∈ unit.classes, linked.AllVersioned

/-- Whether every version in a program is versioned. -/
def Program.AllVersioned (program : Program) : Prop :=
  ∀ unit ∈ program.modules, unit.AllVersioned

instance (linked : LinkedClass) : Decidable linked.AllVersioned :=
  decidable_of_iff
    (linked.version.isVersioned = true ∧
      (∀ method ∈ linked.methods, method.version.isVersioned = true) ∧
      (∀ ctor ∈ linked.jsConstructor?, ctor.version.isVersioned = true) ∧
      ∀ member ∈ linked.exportedMembers, member.version.isVersioned = true)
    ⟨fun ⟨own, methods, ctor, members⟩ => ⟨own, methods, ctor, members⟩,
      fun ⟨own, methods, ctor, members⟩ => ⟨own, methods, ctor, members⟩⟩

instance (unit : Module) : Decidable unit.AllVersioned :=
  decidable_of_iff
    (unit.initializersVersion.isVersioned = true ∧
      (∀ entry ∈ unit.topLevelExports, entry.version.isVersioned = true) ∧
      ∀ linked ∈ unit.classes, linked.AllVersioned)
    ⟨fun ⟨initializers, exports, classes⟩ => ⟨initializers, exports, classes⟩,
      fun ⟨initializers, exports, classes⟩ => ⟨initializers, exports, classes⟩⟩

instance (program : Program) : Decidable program.AllVersioned :=
  inferInstanceAs (Decidable (∀ unit ∈ program.modules, unit.AllVersioned))

namespace LinkedClass.AllVersioned

variable {linked : LinkedClass} (versioned : linked.AllVersioned) (context : Context)

include versioned

/-- The version of the code of a method is versioned. -/
theorem methodVersion {method : Versioned MethodDef} (found : method ∈ linked.methods) :
    (context.methodVersion linked method).isVersioned = true :=
  Version.isVersioned_combine (by simp [versioned.methods method found]; rfl)

/-- The version of the code of a class is versioned. -/
theorem classVersion : (context.classVersion linked).isVersioned = true :=
  Version.isVersioned_combine (by simp [versioned.own]; rfl)

/-- The version of the code of an exported member is versioned. -/
theorem exportedMemberVersion {member : Versioned ExportedMember}
    (found : member ∈ linked.exportedMembers) :
    (context.exportedMemberVersion linked member).isVersioned = true :=
  Version.isVersioned_combine (by
    simp [versioned.exportedMembers member found]
    exact ⟨rfl, rfl⟩)

/-- The version of the code of a constructor is versioned. -/
theorem constructorVersion : (context.constructorVersion linked).isVersioned = true := by
  have whole := versioned.classVersion context
  unfold Context.constructorVersion
  split
  · next _ ctor found =>
    have own := versioned.ctor ctor (Option.filter_eq_some_iff.1 found).1
    exact Version.isVersioned_combine (by simp [whole, own])
  · next ctor _ inlined =>
    have there : ctor ∈ linked.methods := by
      unfold Context.inlinedConstructor? at inlined
      split at inlined
      · exact (List.mem_filter.1 (List.mem_of_head? inlined)).1
      · cases inlined
    rw [Context.inlinedVersion_eq inlined]
    exact Version.isVersioned_combine (by simp [whole, versioned.methods ctor there])
  · exact whole

end LinkedClass.AllVersioned

namespace Module.AllVersioned

variable {unit : Module} (versioned : unit.AllVersioned) (context : Context)

include versioned

/-- The version of the code of the exports of a module is versioned. -/
theorem topLevelExportsVersion : (context.topLevelExportsVersion unit).isVersioned = true :=
  Version.isVersioned_combine (by
    simp only [List.mem_append, List.mem_map, List.mem_cons, List.not_mem_nil, or_false]
    rintro version (⟨entry, found, rfl⟩ | rfl | rfl)
    · exact versioned.exports entry found
    · rfl
    · rfl)

/-- The version of the code of the initializers of a module is versioned. -/
theorem initializersVersion : (context.initializersVersion unit).isVersioned = true :=
  Version.isVersioned_combine (by simp [versioned.initializers]; rfl)

end Module.AllVersioned

end JsEmitter
