import JsEmitter.Proofs.SameParts
import JsEmitter.Proofs.ValidPrograms

/-!
# Faithful histories

The versions of a history are faithful if a definition keeps its version only while it stays the
same. They are legible if what the emitter makes of them can be told apart: versions of classes do
not look combined, names of classes have no `@`, and different texts have different digests.
-/
namespace JsEmitter

open Lowering (Context)

/-- A module of a program of a history. -/
structure ModuleIn (history : List Program) where
  program : Program
  unit : Module
  emitted : program ∈ history
  placed : unit ∈ program.modules

/-- A class of a program of a history. -/
structure ClassIn (history : List Program) extends ModuleIn history where
  linked : LinkedClass
  there : linked ∈ unit.classes

variable {history : List Program}

/-- The index of the program of a module. -/
def ModuleIn.index (here : ModuleIn history) : ClassIndex := .ofProgram here.program

/-- The site of a module. -/
def ModuleIn.site (here : ModuleIn history) : Site := here.program.site here.unit

/-- What the caches know a class by. -/
def ClassIn.key (here : ClassIn history) : ClassKey := .ofClass here.unit.id here.linked

section Valid

variable (valid : ∀ program ∈ history, program.Valid)

include valid

/-- The root modules of valid programs with classes are the same if their texts are. -/
theorem ModuleIn.rootModule?_eq (first second : ModuleIn history)
    (same : first.index.rootText = second.index.rootText) :
    first.index.rootModule? = second.index.rootModule? := by
  obtain ⟨one, here⟩ := Option.isSome_iff_exists.1
    ((valid _ first.emitted).root (List.ne_nil_of_mem first.placed))
  obtain ⟨two, there⟩ := Option.isSome_iff_exists.1
    ((valid _ second.emitted).root (List.ne_nil_of_mem second.placed))
  simp only [ModuleIn.index, ClassIndex.rootText, ClassIndex.ofProgram, here, there,
    Option.map_some, Option.getD_some] at same ⊢
  exact congrArg some (Name.text_injective same)

/-- A class of a history is its own first ancestor. -/
theorem ClassIn.head?_ancestors (here : ClassIn history) :
    here.linked.ancestors.head? = some here.linked.name :=
  (valid _ here.emitted).first _ here.placed _ here.there

/-- Classes of valid programs with the same key have the same name. -/
theorem ClassIn.name_eq {first second : ClassIn history} (key : first.key = second.key) :
    second.linked.name = first.linked.name := by
  have one := first.head?_ancestors valid
  have two := second.head?_ancestors valid
  have ancestors : first.linked.ancestors = second.linked.ancestors :=
    congrArg ClassKey.ancestors key
  rw [ancestors, two] at one
  exact Option.some.inj one

end Valid

/-- Whether definitions keep their versions in a history only while they stay the same. -/
structure Faithful (history : List Program) : Prop where
  outline : ∀ first second : ClassIn history, first.key = second.key →
    first.linked.version.isSame second.linked.version = true →
      first.linked.SameOutline second.linked
  methods : ∀ first second : ClassIn history, first.key = second.key →
    ∀ method ∈ first.linked.methods, ∀ other ∈ second.linked.methods,
      method.value.home = other.value.home → method.value.name = other.value.name →
        method.version.isSame other.version = true → other.value = method.value
  jsConstructor : ∀ first second : ClassIn history, first.key = second.key →
    ∀ ctor ∈ first.linked.jsConstructor?, ∀ other ∈ second.linked.jsConstructor?,
      ctor.version.isSame other.version = true → other.value = ctor.value
  exportedMembers : ∀ first second : ClassIn history, first.key = second.key →
    ∀ member other position, (member, position) ∈ first.linked.exportedMembers.zipIdx →
      (other, position) ∈ second.linked.exportedMembers.zipIdx →
        member.version.isSame other.version = true → other.value = member.value
  natives : ∀ first second : ClassIn history, first.linked.name = second.linked.name →
    first.unit.id = second.unit.id → first.linked.nativeLoadSpec? = second.linked.nativeLoadSpec?
  topLevelExports : ∀ first second : ModuleIn history, first.unit.id = second.unit.id →
    ∀ entry ∈ first.unit.topLevelExports, ∀ other ∈ second.unit.topLevelExports,
      entry.name = other.name → entry.version.isSame other.version = true →
        other.kind = entry.kind
  initializers : ∀ first second : ModuleIn history, first.unit.id = second.unit.id →
    first.unit.initializersVersion.isSame second.unit.initializersVersion = true →
      second.unit.initializers = first.unit.initializers

/-- The texts that the version of the imports of a module digests. -/
def ClassIndex.importParts (index : ClassIndex) (unit : Module) : List String :=
  ("root:" ++ index.rootText) ::
    unit.internalDependencies.toList.map (fun id => "int:" ++ id.text) ++
    unit.externalDependencies.toList.map (fun source => "ext:" ++ source)

/-- The texts that the version of the owners of some classes digests. -/
def ClassIndex.ownerParts (index : ClassIndex) (owners : List ClassName) : List String :=
  owners.map (fun owner => owner.text ++ "@" ++ ((index.owner? owner).map Name.text).getD "")

/-- Whether no class of an index is in a module with an empty id. -/
def ClassIndex.NamedOwners (index : ClassIndex) : Prop :=
  ∀ name id, index.owner? name = some id → id.text ≠ ""

/-- The index of a program with named modules has no class in a module with an empty id. -/
theorem ClassIndex.NamedOwners.ofProgram {program : Program}
    (named : ∀ unit ∈ program.modules, unit.id.text ≠ "") : (ofProgram program).NamedOwners := by
  intro name id owned
  obtain ⟨info, known, rfl⟩ := Option.map_eq_some_iff.1 owned
  obtain ⟨unit, placed, linked, there, facts⟩ := exists_of_get? known
  obtain ⟨-, rfl⟩ := Prod.mk.inj facts
  exact named unit placed

/-- The index of a program has unmarked names if no class has a marked one. -/
theorem ClassIndex.Unmarked.ofProgram {program : Program}
    (names : ∀ unit ∈ program.modules, ∀ linked ∈ unit.classes,
      '@' ∉ linked.name.text.toList) : (ofProgram program).Unmarked := by
  intro name known
  obtain ⟨info, here⟩ := Option.isSome_iff_exists.1 known
  obtain ⟨unit, placed, linked, found, same⟩ := exists_of_get? here
  obtain ⟨rfl, -⟩ := Prod.mk.inj same
  exact names unit placed linked found

/-- Where module ids are not empty, the text of the owner of a class tells the owner. -/
theorem ClassIndex.owners_eq {first second : ClassIndex} (named : first.NamedOwners)
    (clear : second.NamedOwners) {owners : List ClassName}
    (same : first.ownerParts owners = second.ownerParts owners) :
    ∀ owner ∈ owners, first.owner? owner = second.owner? owner := by
  intro owner found
  have texts := (String.append_right_inj _).1 (List.map_inj_left.1 same owner found)
  cases one : first.owner? owner with
  | none =>
    cases two : second.owner? owner with
    | none => rfl
    | some id =>
      rw [one, two] at texts
      exact (clear owner id two texts.symm).elim
  | some id =>
    cases two : second.owner? owner with
    | none =>
      rw [one, two] at texts
      exact (named owner id one texts).elim
    | some another =>
      rw [one, two] at texts
      exact congrArg some (Name.text_injective texts)

/-- The classes whose definitions the exports of a module read. -/
def Module.exportedClasses (unit : Module) : List ClassName :=
  unit.topLevelExports.filterMap (fun entry => entry.kind.referencedClass?)

/-- All lists of texts that the versions of a program digest. -/
def Program.digested (program : Program) : List (List String) :=
  let index := ClassIndex.ofProgram program
  index.linkageParts [.root] :: program.modules.flatMap (fun unit =>
    [index.importParts unit, unit.topLevelExports.map TopLevelExport.name,
      index.ownerParts unit.exportedClasses,
      index.ownerParts (unit.initializers.map Initializer.owner)] ++
    unit.classes.flatMap (fun linked =>
      index.linkageParts (linked.referencedClasses.insert .root).toList ::
        linked.methods.map (fun method =>
          index.linkageParts (Context.methodClasses linked method.value).toList)))

/-- Whether the versions of a history can be told apart. -/
structure Legible (history : List Program) : Prop where
  tokens : ∀ (here : ClassIn history) (tokens : List String),
    here.linked.version.token? ≠ some (Version.combinedToken tokens)
  names : ∀ here : ClassIn history, '@' ∉ here.linked.name.text.toList
  digests : ∀ first ∈ history.flatMap Program.digested, ∀ second ∈ history.flatMap Program.digested,
    Version.fingerprintParts first = Version.fingerprintParts second → first = second

/-- Whether no module of a history has an empty id. -/
def NamedModules (history : List Program) : Prop :=
  ∀ here : ModuleIn history, here.unit.id.text ≠ ""

/-- A history of valid programs with versions that are faithful and legible. -/
structure Readable (history : List Program) : Prop where
  valid : ∀ program ∈ history, program.Valid
  faithful : Faithful history
  legible : Legible history

namespace Readable

variable (readable : Readable history) (first second : ModuleIn history)

include readable

/-- Digests that are the same are digests of the same texts. -/
theorem parts_eq {texts others : List String} (here : texts ∈ first.program.digested)
    (there : others ∈ second.program.digested)
    (same : (Version.fingerprintParts texts).isSame (Version.fingerprintParts others) = true) :
    texts = others :=
  readable.legible.digests texts (List.mem_flatMap.2 ⟨_, first.emitted, here⟩) others
    (List.mem_flatMap.2 ⟨_, second.emitted, there⟩) (Version.eq_of_isSame same)

/-- The indexes of two programs of the history agree in the places of native classes. -/
theorem sameNatives : first.index.SameNatives second.index := by
  intro name info fact here there owner
  obtain ⟨unit, placed, linked, found, same⟩ := ClassIndex.exists_of_get? here
  obtain ⟨other, lies, another, exist, alike⟩ := ClassIndex.exists_of_get? there
  obtain ⟨rfl, rfl⟩ := Prod.mk.inj same
  obtain ⟨names, rfl⟩ := Prod.mk.inj alike
  exact readable.faithful.natives ⟨⟨_, unit, first.emitted, placed⟩, linked, found⟩
    ⟨⟨_, other, second.emitted, lies⟩, another, exist⟩ names owner

/-- The index of a program of the history has unmarked names. -/
theorem unmarked : first.index.Unmarked :=
  .ofProgram (fun unit placed linked found =>
    readable.legible.names ⟨⟨_, unit, first.emitted, placed⟩, linked, found⟩)

/-- The root modules of programs are the same if their texts are. -/
theorem root_eq (same : first.index.rootText = second.index.rootText) :
    first.index.rootModule? = second.index.rootModule? :=
  first.rootModule?_eq readable.valid second same

/-- Programs with the same linkage of some classes agree in the facts about them. -/
theorem sameFacts {names others : List ClassName}
    (here : first.index.linkageParts names ∈ first.program.digested)
    (there : second.index.linkageParts others ∈ second.program.digested)
    (same : (first.index.linkageVersion names).isSame (second.index.linkageVersion others) =
      true) :
    first.index.rootModule? = second.index.rootModule? ∧
      ∀ name ∈ names, first.index.SameFacts second.index name := by
  have parts := readable.parts_eq first second here there same
  obtain ⟨roots, facts⟩ := ClassIndex.sameFacts_of_linkageParts (readable.unmarked first)
    (readable.unmarked second) (readable.sameNatives first second) parts
  exact ⟨readable.root_eq first second roots, facts⟩

end Readable

end JsEmitter
