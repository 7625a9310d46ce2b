import JsEmitter.Proofs.SameVersions

/-!
# Covered code

The code of bridges, constructors, imports and of the parts of a class that depend on it alone is
covered by their versions: in a readable history, requests with the same version ask for the same
code. So is the way in which a class definition is put together from its parts.
-/
namespace JsEmitter

open Lowering (Context)

variable {setting : Setting} {naming : Naming} {history : List Program}

/-- A site in another module's place but for the program is the same context under another index. -/
theorem ModuleIn.context_eq (first second : ModuleIn history)
    (id : first.unit.id = second.unit.id) :
    setting.context naming second.site =
      (setting.context naming first.site).reindex second.index := by
  unfold Setting.context ModuleIn.site Program.site
  rw [id]
  rfl

/-- The bootstrap library is the same for all programs. -/
theorem Piece.run_library (piece other : Piece .library) :
    other.run setting naming = piece.run setting naming := by
  cases piece
  cases other
  rfl

namespace Readable

variable (readable : Readable history)

include readable

section Places

variable {version : Version} (versioned : version.isVersioned = true)

include versioned

/-- Bridges under one version have the same code. -/
theorem bridge_eq {key : MemberKey} {piece other : Piece .tree}
    (first : Requested setting history (.bridge key) version piece)
    (second : Requested setting history (.bridge key) version other) :
    other.run setting naming = piece.run setting naming := by
  obtain ⟨key, name⟩ := key
  obtain ⟨here, rfl, rfl, rfl⟩ := first.bridge
  obtain ⟨there, keys, versions, rfl⟩ := second.bridge
  have parts := Version.isSame_of_combine (Version.isSame_of_eq versions versioned)
  cases parts with
  | cons own rest =>
    cases rest with
    | cons linkage =>
      obtain ⟨-, facts⟩ := readable.sameFacts here.toModuleIn there.toModuleIn
        here.root_digested there.root_digested linkage
      simp only [Piece.run, here.context_eq there.toModuleIn (congrArg ClassKey.home keys)]
      exact Context.bridge_reindex (facts .root List.mem_cons_self) name

/-- Parts of a class shell under one version have the same code. -/
theorem shell_eq {key : ClassKey} {part : ShellPart} {piece other : Piece .trees}
    (first : Requested setting history (.shell key part) version piece)
    (second : Requested setting history (.shell key part) version other) :
    other.run setting naming = piece.run setting naming := by
  obtain ⟨here, rfl, rfl, rfl⟩ := first.shell
  obtain ⟨there, keys, versions, rfl⟩ := second.shell
  simp only [Piece.run, here.context_eq there.toModuleIn (congrArg ClassKey.home keys)]
  exact Context.shellTrees_reindex
    (readable.classVersion_eq here there keys (Version.isSame_of_eq versions versioned)) part

/-- Constructors under one version have the same code. -/
theorem ctor_eq {key : ClassKey} {piece other : Piece .ctor}
    (first : Requested setting history (.ctor key) version piece)
    (second : Requested setting history (.ctor key) version other) :
    other.run setting naming = piece.run setting naming := by
  obtain ⟨here, rfl, -, rfl, made⟩ := first.ctor
  obtain ⟨there, keys, -, versions, alike⟩ := second.ctor
  obtain ⟨classes, owns⟩ := readable.constructorVersion_same here there made alike
    (Version.isSame_of_eq versions versioned)
  have same : (setting.context naming here.site).SameClass there.index here.linked there.linked :=
    readable.classVersion_eq here there keys classes
  have context : setting.context naming there.site =
      (setting.context naming here.site).reindex there.index :=
    here.context_eq there.toModuleIn (congrArg ClassKey.home keys)
  unfold Context.ownVersion? at owns
  unfold Site.constructor? at made alike
  rw [same.outline.kind] at alike owns
  cases foreign : here.linked.kind.isJsClass with
  | true =>
    simp only [foreign, if_true] at made alike owns
    cases one : here.linked.jsConstructor? with
    | none =>
      rw [one] at made
      cases made
    | some ctor =>
      cases two : there.linked.jsConstructor? with
      | none =>
        rw [two] at alike
        cases alike
      | some another =>
        rw [one] at made owns
        rw [two] at alike owns
        cases made
        cases alike
        have values := readable.faithful.jsConstructor here there keys ctor one another two
          (owns _ rfl _ rfl)
        simp only [Piece.run, values, context]
        exact Context.jsConstructorParts_reindex same one
  | false =>
    simp only [foreign, Bool.false_eq_true, if_false] at made alike owns
    cases made
    cases alike
    simp only [Piece.run, context]
    exact Context.plainConstructorParts_reindex same
      (readable.inlinedConstructor_eq here there keys same owns)

/-- Imports under one version have the same code. -/
theorem imports_eq {id : ModuleId} {piece other : Piece .trees}
    (first : Requested setting history (.modulePart id .imports) version piece)
    (second : Requested setting history (.modulePart id .imports) version other) :
    other.run setting naming = piece.run setting naming := by
  obtain ⟨here, rfl, rfl, rfl⟩ := first.imports
  obtain ⟨there, ids, versions, rfl⟩ := second.imports
  obtain ⟨root, internal, external⟩ := readable.importsVersion_eq here there
    (Version.isSame_of_eq versions versioned)
  simp only [Piece.run, here.context_eq there ids]
  exact Context.imports_reindex ids.symm root internal external

/-- Definitions of classes with the same version are put together in the same way. -/
theorem definition_eq {key : ClassKey} {definition other : Definition}
    (first : RequestedDefinition setting history key version definition)
    (second : RequestedDefinition setting history key version other)
    (ctors : other.ctor.run setting naming = definition.ctor.run setting naming)
    (members : other.members.map (Piece.run setting naming) =
      definition.members.map (Piece.run setting naming))
    (exported : other.exported.map (Piece.run setting naming) =
      definition.exported.map (Piece.run setting naming)) :
    other.whole setting naming = definition.whole setting naming := by
  obtain ⟨here, rfl, rfl, site, linked⟩ := first.exists
  obtain ⟨there, keys, versions, sites, classes⟩ := second.exists
  have same : (setting.context naming here.site).SameClass there.index here.linked there.linked :=
    readable.classVersion_eq here there keys (Version.isSame_of_eq versions versioned)
  have values : other.run setting naming = definition.run setting naming := by
    have memberValues := congrArg (List.map Tracked.value) members
    have exportedValues := congrArg (List.map Tracked.value) exported
    simp only [List.map_map, Function.comp_def] at memberValues exportedValues
    unfold Definition.run
    rw [ctors, memberValues, exportedValues, site, sites, linked, classes,
      here.context_eq there.toModuleIn (congrArg ClassKey.home keys)]
    exact Context.fullClass_reindex same _ _ _
  unfold Definition.whole
  rw [ctors, members, exported, values]

end Places

end Readable

end JsEmitter
