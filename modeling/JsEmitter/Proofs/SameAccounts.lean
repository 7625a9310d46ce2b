import JsEmitter.Proofs.Coverage
import JsEmitter.Proofs.EmitterRuns
import JsEmitter.Proofs.SamePieces

/-!
# Same accounts

In a readable history, what a pass over a program uses of the host and what it defines does not
depend on the pieces that it is served, as long as the host names that these take without cover stay
the same while their versions do.
-/
namespace JsEmitter

open Js (Tree)
open Lowering (Context)

variable {setting : Setting} {history : List Program}

/-- Lists whose elements correspond to elements with the same recorded names have the same recorded
names. -/
theorem Setting.recorded_flatMap {γ δ : Type} (setting : Setting) {items : List γ} {others : List δ}
    {hosts : γ → List String} {another : δ → List String}
    (related : List.Forall₂ (fun item other =>
      setting.recorded (hosts item) = setting.recorded (another other)) items others) :
    setting.recorded (items.flatMap hosts) = setting.recorded (others.flatMap another) := by
  induction related with
  | nil => rfl
  | cons first _ ih => simp only [List.flatMap_cons, recorded_append, first, ih]

/-- The marks of a class, by the place where the module puts its statements, with its name. -/
def ClassPieces.account (config : Config) (pieces : ClassPieces) :
    ClassName × Marks × (ShellPart → Marks) :=
  (pieces.name, pieces.mainMarks config, pieces.shellMarks config)

/-- The marks of the classes of a module are decided by the accounts of the classes. -/
theorem ModulePieces.statementMarks_congr {config : Config} {pieces others : ModulePieces}
    (site : pieces.site = others.site)
    (library : pieces.library?.isSome = others.library?.isSome)
    (classes : pieces.classes.map (ClassPieces.account config) =
      others.classes.map (ClassPieces.account config)) :
    pieces.statementMarks config = others.statementMarks config := by
  have filtered : ∀ keep : ClassName → Bool,
      (pieces.classes.filter (fun classPieces => keep classPieces.name)).map
          (ClassPieces.account config) =
        (others.classes.filter (fun classPieces => keep classPieces.name)).map
          (ClassPieces.account config) := by
    intro keep
    have same := congrArg (List.filter (fun account => keep account.1)) classes
    rwa [List.filter_map, List.filter_map] at same
  have kept : ∀ (keep : ClassName → Bool) (marks : ClassName × Marks × (ShellPart → Marks) → Marks),
      (pieces.classes.filter (fun classPieces => keep classPieces.name)).flatMap
          (fun classPieces => marks (classPieces.account config)) =
        (others.classes.filter (fun classPieces => keep classPieces.name)).flatMap
          (fun classPieces => marks (classPieces.account config)) := by
    intro keep marks
    have read := fun items : List ClassPieces =>
      @List.flatMap_map _ _ _ (ClassPieces.account config) marks items
    exact (read _).symm.trans ((congrArg (List.flatMap marks) (filtered keep)).trans (read _))
  have all : ∀ marks : ClassName × Marks × (ShellPart → Marks) → Marks,
      pieces.classes.flatMap (fun classPieces => marks (classPieces.account config)) =
        others.classes.flatMap (fun classPieces => marks (classPieces.account config)) := by
    intro marks
    simpa only [List.filter_true] using kept (fun _ => true) marks
  have roots : pieces.roots.flatMap (ClassPieces.mainMarks config) =
      others.roots.flatMap (ClassPieces.mainMarks config) :=
    kept ClassName.isRoot (fun account => account.2.1)
  have rest := kept (fun name => !name.isRoot)
    (fun account => account.2.1 ++ (account.2.2 .instanceTests ++ account.2.2 .typeData))
  have empty : pieces.roots.isEmpty = others.roots.isEmpty := by
    have same := congrArg List.isEmpty (filtered ClassName.isRoot)
    rwa [List.isEmpty_map, List.isEmpty_map] at same
  have libraries : ∀ marks, pieces.libraryMarks marks = others.libraryMarks marks := by
    simp only [libraryMarks, library, implies_true]
  have fields := all (fun account => account.2.2 .staticFields)
  have initializers := all (fun account => account.2.2 .staticInitializers)
  unfold statementMarks
  rw [roots, empty, libraries, libraries, libraries, library, site]
  refine congrArg₂ (· ++ ·) (congrArg₂ (· ++ ·) (congrArg (· ++ _) ?_) fields) initializers
  exact congrArg _ rest

namespace Readable

variable (readable : Readable history)

include readable

/-- The marks of a method are decided by the place that it is asked for at. -/
theorem treeMarks_eq {place : Place .tree} {version another : Version} {piece other : Piece .tree}
    (first : Requested setting history place version piece)
    (second : Requested setting history place another other) :
    piece.treeMarks = other.treeMarks := by
  cases place with
  | function key =>
    obtain ⟨key, home, name⟩ := key
    obtain ⟨here, method, -, rfl, rfl, rfl, -, rfl⟩ := first.function
    obtain ⟨there, other, -, keys, homes, names, -, rfl⟩ := second.function
    simp only [Piece.treeMarks, homes, names, readable.name_eq here there keys]
  | member key =>
    obtain ⟨-, -, -, -, -, -, rfl⟩ := first.member
    obtain ⟨-, -, -, -, -, -, rfl⟩ := second.member
    rfl
  | bridge key =>
    obtain ⟨-, -, -, rfl⟩ := first.bridge
    obtain ⟨-, -, -, rfl⟩ := second.bridge
    rfl

section Places

variable {version : Version} (versioned : version.isVersioned = true)

include versioned

/-- Exported members under one version define the same. -/
theorem exportedMember_marks {key : ClassKey × Nat} {piece other : Piece .trees}
    (first : Requested setting history (.exportedMember key) version piece)
    (second : Requested setting history (.exportedMember key) version other) :
    piece.marks setting.config = other.marks setting.config := by
  obtain ⟨-, -, member, -, rfl, rfl, -⟩ := readable.exportedMember_requests versioned first second
  rfl

/-- Parts of a class shell under one version define the same. -/
theorem shell_marks {key : ClassKey} {part : ShellPart} {piece other : Piece .trees}
    (first : Requested setting history (.shell key part) version piece)
    (second : Requested setting history (.shell key part) version other) :
    piece.marks setting.config = other.marks setting.config := by
  obtain ⟨here, rfl, rfl, rfl⟩ := first.shell
  obtain ⟨there, keys, versions, rfl⟩ := second.shell
  have same : (setting.neutral here.site).SameClass there.index here.linked there.linked :=
    readable.classVersion_eq here there keys (Version.isSame_of_eq versions versioned)
  unfold Piece.marks PieceMarks.ofShellPart
  cases part with
  | moduleAccessor | instanceTests => simp only [same.name]
  | typeData => simp only [same.name, same.outline.kind, same.outline.hasInstances]
  | staticFields => simp only [LinkedClass.staticFields, same.name, same.outline.fields]
  | staticInitializers =>
    have first := congrArg Option.isSome (same.outline.firstName .staticConstructor)
    simp only [Option.isSome_map] at first
    simp only [LinkedClass.staticInitializer?]
    cases one : (here.linked.methodsIn .staticConstructor).head? <;>
      cases two : (there.linked.methodsIn .staticConstructor).head? <;>
        simp [one, two] at first ⊢

end Places

/-- What is served for the same method has the same marks. -/
theorem served_treeMarks {place : Place .tree} {version : Version} {own piece other : Piece .tree}
    (first : Served setting history place version own piece)
    (second : Served setting history place version own other) :
    piece.treeMarks = other.treeMarks :=
  readable.treeMarks_eq first.requested second.requested

/-- Constructors of the same class have a parent or not. -/
theorem ctor_hasParent {site : Site} {linked : LinkedClass} {definition other : Definition}
    (first : definition.MadeFor setting history site linked)
    (second : other.MadeFor setting history site linked) :
    definition.ctor.hasParent setting.config = other.ctor.hasParent setting.config := by
  refine first.ctor_eq_of second (Piece.hasParent setting.config) (fun versioned => ?_)
  rw [← Piece.run_parent setting default, ← Piece.run_parent setting default,
    readable.ctor_eq versioned second.ctor first.ctor]

/-- Definitions of the same class are of classes with the same name and kind. -/
theorem definition_name_kind {site : Site} {linked : LinkedClass} {definition other : Definition}
    (first : definition.MadeFor setting history site linked)
    (second : other.MadeFor setting history site linked) :
    definition.linked.name = other.linked.name ∧ definition.linked.kind = other.linked.kind := by
  cases versioned : ((setting.neutral site).classVersion linked).isVersioned with
  | true =>
    obtain ⟨here, keys, versions, -, linkeds⟩ := first.whole.exists
    obtain ⟨there, moreKeys, moreVersions, -, moreLinkeds⟩ := second.whole.exists
    have same : (setting.neutral there.site).SameClass here.index there.linked here.linked :=
      readable.classVersion_eq there here (moreKeys.symm.trans keys)
        (Version.isSame_of_eq (moreVersions.symm.trans versions) (moreVersions ▸ versioned))
    rw [linkeds, moreLinkeds]
    exact ⟨same.name, same.outline.kind⟩
  | false =>
    obtain ⟨-, classes⟩ := first.ownWhole versioned
    obtain ⟨-, moreClasses⟩ := second.ownWhole versioned
    rw [classes, moreClasses]
    exact ⟨rfl, rfl⟩

/-- Definitions that are emitted for the same class have the same marks. -/
theorem definition_marks {site : Site} {linked : LinkedClass} {definition other : Definition}
    (first : definition.MadeFor setting history site linked)
    (second : other.MadeFor setting history site linked) :
    definition.marks setting.config = other.marks setting.config := by
  obtain ⟨name, kind⟩ := readable.definition_name_kind first second
  have members : definition.members.flatMap Piece.treeMarks =
      other.members.flatMap Piece.treeMarks :=
    flatMap_eq_flatMap (first.members_forall₂ second readable.served_treeMarks)
  have exported : definition.exported.flatMap (Piece.marks setting.config) =
      other.exported.flatMap (Piece.marks setting.config) := by
    refine flatMap_eq_flatMap
      (forall₂_of_common first.exported second.exported (fun _ _ _ _ one two => ?_))
    exact Served.eq_of (Piece.marks setting.config) one two (fun versioned =>
      readable.exportedMember_marks versioned one.requested two.requested)
  simp only [Definition.marks, PieceMarks.ofDefinition, name, kind,
    readable.ctor_hasParent first second, members, exported]

/-- What is emitted for the same class has the same marks. -/
theorem class_account {site : Site} {linked : LinkedClass} {pieces others : ClassPieces}
    (first : pieces.MadeFor setting history site linked)
    (second : others.MadeFor setting history site linked) :
    pieces.account setting.config = others.account setting.config := by
  have functions : pieces.functions.flatMap Piece.treeMarks =
      others.functions.flatMap Piece.treeMarks :=
    flatMap_eq_flatMap (forall₂_of_common first.functions second.functions
      (fun _ _ _ _ => readable.served_treeMarks))
  have definitions : (pieces.definition?.map (Definition.marks setting.config)).getD [] =
      (others.definition?.map (Definition.marks setting.config)).getD [] :=
    first.definition_eq_of second
      (fun definition? => (definition?.map (Definition.marks setting.config)).getD [])
      (fun _ _ made again => readable.definition_marks made again)
  have shells : pieces.shellMarks setting.config = others.shellMarks setting.config := by
    funext part
    refine first.shell_eq_of second part
      (fun piece? => (piece?.map (Piece.marks setting.config)).getD []) (fun _ _ made again => ?_)
    exact Served.eq_of (Piece.marks setting.config) made again (fun versioned =>
      readable.shell_marks versioned made.requested again.requested)
  simp only [ClassPieces.account, ClassPieces.mainMarks, first.name, second.name, functions,
    definitions, shells]

/-- What is emitted for the same module has the same marks for its classes. -/
theorem module_statementMarks {program : Program} {unit : Module} {pieces others : ModulePieces}
    (first : pieces.MadeFor setting history program unit)
    (second : others.MadeFor setting history program unit) :
    pieces.statementMarks setting.config = others.statementMarks setting.config :=
  ModulePieces.statementMarks_congr (first.site.trans second.site.symm)
    (first.library.trans second.library.symm)
    (map_eq_map_iff.2 (forall₂_of_common first.classes second.classes
      (fun _ _ _ _ one two => readable.class_account one two)))

section Kept

variable (kept : NamesKept setting history)

include kept

/-- What is served for the same piece uses the same host names. -/
theorem served_hosts {kind : PieceKind} {place : Place kind} {version : Version}
    {own piece other : Piece kind} (first : Served setting history place version own piece)
    (second : Served setting history place version own other) :
    setting.recorded (piece.hosts setting.config) =
      setting.recorded (other.hosts setting.config) := by
  refine Served.eq_of (fun piece => setting.recorded (piece.hosts setting.config)) first second
    (fun versioned => ?_)
  exact readable.hosts_eq versioned second.requested first.requested
    (kept place version other piece versioned second.requested first.requested)

/-- What is served for the same list of pieces uses the same host names. -/
theorem served_allHosts {γ : Type} {kind : PieceKind} {place : γ → Place kind}
    {version : γ → Version} {own : γ → Piece kind} {items : List γ}
    {pieces others : List (Piece kind)}
    (first : List.Forall₂ (fun item piece =>
      Served setting history (place item) (version item) (own item) piece) items pieces)
    (second : List.Forall₂ (fun item piece =>
      Served setting history (place item) (version item) (own item) piece) items others) :
    setting.recorded (pieces.flatMap (Piece.hosts setting.config)) =
      setting.recorded (others.flatMap (Piece.hosts setting.config)) :=
  setting.recorded_flatMap (forall₂_of_common first second
    (fun _ _ _ _ one two => readable.served_hosts kept one two))

/-- Definitions that are emitted for the same class use the same host names. -/
theorem definition_hosts {site : Site} {linked : LinkedClass} {definition other : Definition}
    (first : definition.MadeFor setting history site linked)
    (second : other.MadeFor setting history site linked) :
    setting.recorded (definition.hosts setting.config) =
      setting.recorded (other.hosts setting.config) := by
  have ctors : setting.recorded (definition.ctor.hosts setting.config) =
      setting.recorded (other.ctor.hosts setting.config) := by
    refine first.ctor_eq_of second (fun ctor => setting.recorded (ctor.hosts setting.config))
      (fun versioned => ?_)
    exact readable.hosts_eq versioned second.ctor first.ctor
      (kept _ _ _ _ versioned second.ctor first.ctor)
  have members : setting.recorded (definition.members.flatMap (Piece.hosts setting.config)) =
      setting.recorded (other.members.flatMap (Piece.hosts setting.config)) :=
    setting.recorded_flatMap (first.members_forall₂ second (readable.served_hosts kept))
  have exported := readable.served_allHosts kept first.exported second.exported
  have own : definition.ownHosts setting.config = other.ownHosts setting.config := by
    simp only [Definition.ownHosts, (readable.definition_name_kind first second).2,
      readable.ctor_hasParent first second]
  simp only [Definition.hosts, setting.recorded_append, ctors, members, exported, own]

/-- What is emitted for the same class uses the same host names. -/
theorem class_hosts {site : Site} {linked : LinkedClass} {pieces others : ClassPieces}
    (first : pieces.MadeFor setting history site linked)
    (second : others.MadeFor setting history site linked) :
    setting.recorded (pieces.hosts setting.config) =
      setting.recorded (others.hosts setting.config) := by
  have functions := readable.served_allHosts kept first.functions second.functions
  have definitions :
      setting.recorded ((pieces.definition?.map (Definition.hosts setting.config)).getD []) =
        setting.recorded ((others.definition?.map (Definition.hosts setting.config)).getD []) :=
    first.definition_eq_of second
      (fun definition? =>
        setting.recorded ((definition?.map (Definition.hosts setting.config)).getD []))
      (fun _ _ made again => readable.definition_hosts kept made again)
  have shells : ∀ part, setting.recorded (pieces.shellHosts setting.config part) =
      setting.recorded (others.shellHosts setting.config part) := by
    intro part
    exact first.shell_eq_of second part
      (fun piece? => setting.recorded ((piece?.map (Piece.hosts setting.config)).getD []))
      (fun _ _ made again => readable.served_hosts kept made again)
  simp only [ClassPieces.hosts, setting.recorded_append, functions, definitions, shells]

/-- What is emitted for the same module uses the same host names. -/
theorem module_hosts {program : Program} {unit : Module} {pieces others : ModulePieces}
    (first : pieces.MadeFor setting history program unit)
    (second : others.MadeFor setting history program unit) :
    setting.recorded (pieces.hosts setting.config) =
      setting.recorded (others.hosts setting.config) := by
  have imports := readable.served_hosts kept first.imports second.imports
  have exports := readable.served_hosts kept first.topLevelExports second.topLevelExports
  have initializers := readable.served_hosts kept first.initializers second.initializers
  have classes := setting.recorded_flatMap (forall₂_of_common first.classes second.classes
    (fun _ _ _ _ one two => readable.class_hosts kept one two))
  have library : (pieces.library?.map (Piece.hosts setting.config)).getD [] =
      (others.library?.map (Piece.hosts setting.config)).getD [] := by
    refine first.library_eq_of second
      (fun library? => (library?.map (Piece.hosts setting.config)).getD []) ?_
    rintro ⟨⟩ ⟨⟩
    rfl
  have exporting : pieces.exportsDefinitions setting.config =
      others.exportsDefinitions setting.config := by
    simp only [ModulePieces.exportsDefinitions, first.exported, second.exported,
      readable.module_statementMarks first second]
  simp only [ModulePieces.hosts, setting.recorded_append, imports, exports, initializers, classes,
    library, exporting]

/-- Passes over the same program that succeed find the same dangerous names. -/
theorem passes_dangerous {program : Program} {pieces others : PassPieces}
    (first : PassOutcome setting history program (.ok pieces))
    (second : PassOutcome setting history program (.ok others)) :
    pieces.dangerous setting = others.dangerous setting := by
  have hosts : setting.recorded (pieces.hosts setting.config) =
      setting.recorded (others.hosts setting.config) := by
    refine setting.recorded_flatMap (forall₂_of_common (Gives.forall₂ first) (Gives.forall₂ second)
      (fun _ _ _ _ one two => ?_))
    cases one with
    | made made _ =>
      cases two with
      | made again _ => exact readable.module_hosts kept made again
  simp only [PassPieces.dangerous, hosts]

end Kept

end Readable

end JsEmitter
