import JsEmitter.Proofs.OutputVariables
import JsEmitter.Proofs.UniqueDefinitions

/-!
# Variables of first runs

The pieces of a module in a first run are its own, so what generation says about the variables of
the code for a module holds for the body that the module gets, under every naming scheme.
-/
namespace JsEmitter

open Js (Tree)
open Lowering (Context ConstructorParts Bootstrap)

variable {setting : Setting} {program : Program} {unit : Module} {linked : LinkedClass}
  {naming : Naming} {names : String → Prop}

/-- A class of a checked program refers to itself. -/
theorem Program.Checked.name_mem_referencedClasses (checked : program.Checked)
    (placed : unit ∈ program.modules) (there : linked ∈ unit.classes) :
    linked.name ∈ linked.referencedClasses :=
  LinkedClass.mem_referencedClasses_of_ancestor
    (List.mem_of_mem_head? (checked.first unit placed linked there))

section Classes

variable (checked : program.Checked) (placed : unit ∈ program.modules)
  (there : linked ∈ unit.classes)
  (inside : (setting.context naming (program.site unit)).ClassWithin names linked)

include inside

/-- The constructor piece of a class is permitted. -/
theorem Site.constructor?_permitted {piece : Piece .ctor}
    (made : (program.site unit).constructor? linked = .ok piece) :
    piece.Permitted setting naming names := by
  unfold constructor? at made
  split at made
  · cases ctor? : linked.jsConstructor? with
    | none =>
      rw [ctor?] at made
      cases made
    | some ctor =>
      rw [ctor?] at made
      cases made
      exact inside.jsConstructor ctor?
  · cases made
    exact inside.frame.append inside.inlinedBody

include checked placed there

/-- The free functions of a class are permitted. -/
theorem ClassPieces.MadeFor.functions_permitted {pieces : ClassPieces}
    (made : pieces.MadeFor setting [program] (program.site unit) linked) :
    ∀ piece ∈ pieces.functions, piece.Permitted setting naming names := by
  intro piece found
  obtain ⟨method, -, served⟩ := exists_of_forall₂ made.functions found
  obtain ⟨own, requested, -, -, rfl⟩ := served.requested.own_function checked placed there
  exact inside.frame.append (inside.body (LinkedClass.mem_bodies_of_method
    ((linked.requestedFunctions_sublist _).mem requested)))

/-- The members of a class definition are permitted. -/
theorem Definition.MadeFor.members_permitted {definition : Definition}
    (made : definition.MadeFor setting [program] (program.site unit) linked) :
    ∀ piece ∈ definition.members, piece.Permitted setting naming names := by
  intro piece found
  rcases made.of_mem_members checked placed there found with ⟨method, own, rfl⟩ | ⟨method, rfl⟩
  · exact inside.frame.append (inside.body (LinkedClass.mem_bodies_of_method own))
  · exact inside.rootClass

/-- A class definition is permitted with all its parts. -/
theorem Definition.MadeFor.permitted {definition : Definition}
    (made : definition.MadeFor setting [program] (program.site unit) linked) :
    definition.Permitted setting naming names := by
  obtain ⟨site, same⟩ := Requested.own_definition checked placed there made.whole
  refine ⟨Site.constructor?_permitted inside (Requested.own_ctor checked placed there made.ctor),
    made.members_permitted checked placed there inside, fun piece found => ?_, ?_⟩
  · obtain ⟨member, own, rfl⟩ := made.of_mem_exported checked placed there found
    exact inside.exportedMember own
  · rw [site, same]
    refine ⟨inside.allows.supplies, inside.superClass.reached, fun name found => ?_,
      List.forall_mem_nil _⟩
    unfold Definition.ownHosts at found
    split at found
    · rw [List.mem_singleton.1 found]
      exact inside.allows.other _ (by decide)
    · cases found

/-- The pieces of a class in a first run refer to what the class does. -/
theorem ClassPieces.MadeFor.permitted {pieces : ClassPieces}
    (made : pieces.MadeFor setting [program] (program.site unit) linked) :
    pieces.Permitted setting naming names := by
  refine ⟨made.functions_permitted checked placed there inside, fun definition found => ?_,
    fun part piece found => ?_⟩
  · cases defined : linked.needsDefinition with
    | false =>
      rw [made.undefined defined] at found
      cases found
    | true =>
      obtain ⟨other, same, definitionMade⟩ := made.defined defined
      obtain rfl : other = definition := Option.some.inj (same.symm.trans found)
      exact definitionMade.permitted checked placed there inside
  · rw [made.shell_eq checked placed there] at found
    split at found
    · cases found
      exact inside.shell part
    · cases found

end Classes

namespace Subject

/-- The names of parts of classes and of the bootstrap library do not look imported. -/
theorem not_looksImported {subject : Subject} (own : subject.isImport = false)
    (inner : subject.export? = none) : ¬Naming.looksImported (subject.name naming) := by
  cases subject with
  | single sort text =>
    refine mt (naming.plainName_looksImported text (by cases sort <;> decide)).1 ?_
    cases sort <;> first | decide | cases own
  | member sort owner text =>
    have long : 2 ≤ sort.mark.toList.length := by
      rcases sort with home | _
      · cases home <;> decide
      · decide
    refine mt (naming.memberName_looksImported owner text long).1 ?_
    rcases sort with home | _
    · cases home <;> decide
    · decide
  | castFailure | typeDataClass =>
    exact mt (naming.avoidClash_looksImported (by decide)).1 (by decide)
  | exported name => cases inner

end Subject

/-- The subjects of the classes of a module are parts of classes or of the bootstrap library. -/
theorem Module.of_mem_statementSubjects {context : Context} {subject : Subject}
    (found : subject ∈ unit.statementSubjects context) :
    subject.isImport = false ∧ subject.export? = none := by
  have library : ∀ {subjects : List Subject}, (∀ subject ∈ subjects, subject ∈
      .castFailure :: afterRootSubjects ++ primitiveSubjects) →
      subject ∈ unit.librarySubjects subjects → subject ∈ unit.wholeLibrary := by
    intro subjects among there
    unfold librarySubjects at there
    unfold wholeLibrary librarySubjects
    split at there
    · next root =>
      rw [if_pos root]
      exact among subject there
    · cases there
  have owned : ∀ {classes : List LinkedClass} {part : LinkedClass → List Subject},
      (∀ linked subject, subject ∈ part linked → subject ∈ linked.subjects context) →
      subject ∈ classes.flatMap part → subject.isImport = false ∧ subject.export? = none := by
    intro classes part among there
    obtain ⟨linked, -, here⟩ := List.mem_flatMap.1 there
    exact Subject.of_owner? (linked.owner?_of_mem_subjects context (among linked subject here))
  unfold statementSubjects at found
  simp only [List.mem_append] at found
  rcases found with ((((found | found) | found) | found) | found) | found
  · exact unit.of_mem_wholeLibrary (library (by simp) found)
  · exact owned (fun _ _ main => List.mem_append_left _ (List.mem_append_left _ main)) found
  · exact unit.of_mem_wholeLibrary (library (by simp +contextual) found)
  · exact owned (fun _ _ whole => List.mem_append_left _ whole) found
  · exact unit.of_mem_wholeLibrary (library (by simp +contextual) found)
  · exact owned (fun _ _ fields => List.mem_append_right _ fields) found

section Modules

variable (checked : program.Checked) (placed : unit ∈ program.modules) {pieces : ModulePieces}
  (made : pieces.MadeFor setting [program] program unit)

include checked placed made

/-- The definitions of the classes of a module and of the bootstrap library do not look
imported. -/
theorem ModulePieces.MadeFor.definers_apart :
    ∀ definer ∈ (pieces.statementMarks setting.config).definers,
      ¬Naming.looksImported (definer.name naming) := by
  rw [made.statements_about checked placed]
  refine List.forall_mem_map.2 (fun subject found => ?_)
  obtain ⟨own, inner⟩ := Module.of_mem_statementSubjects found
  exact Subject.not_looksImported own inner

variable (within : (setting.context naming (program.site unit)).ModuleWithin names unit)

include within

/-- The pieces of a module in a first run refer to what the module does. -/
theorem ModulePieces.MadeFor.permitted : pieces.Permitted setting naming names where
  provides := within.allows.supplies.toProvides
  imports := by
    rw [made.imports.requested.own_imports checked placed]
    refine ⟨within.allows.supplies, List.forall_mem_nil _, fun name found => ?_,
      List.forall_mem_nil _⟩
    rw [HostNames.eq_require_of_mem_ofImports found]
    exact within.allows.other _ (by decide)
  library := by
    rintro ⟨site⟩ - name found
    rw [List.mem_singleton.1 found]
    exact within.allows.other _ (by decide)
  classes := by
    intro classPieces found
    obtain ⟨linked, ordered, classMade⟩ := exists_of_forall₂ made.classes found
    have there := Module.mem_emissionOrder.1 ordered
    exact classMade.permitted checked placed there
      (within.ofClass there (checked.name_mem_referencedClasses placed there))
  exported _ _ := within.allows.other _ (by decide)
  defined _ definer found :=
    within.allows.other _ (made.definers_apart checked placed definer found)
  topLevelExports := by
    rw [made.topLevelExports.requested.own_topLevelExports checked placed]
    exact within.topLevelExports
  initializers := by
    rw [made.initializers.requested.own_initializers checked placed]
    exact within.initializers

end Modules

end JsEmitter
