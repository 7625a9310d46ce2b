import JsEmitter.Proofs.ModuleAccount
import JsEmitter.Proofs.ModuleVariables

/-!
# Variables of outputs

What a piece refers to is read off the piece: classes, names of the host and local variables. If
that is among some names for every piece that a module is put together from, and what generation
adds by itself is too, then so are all variables of the output, whatever runs the pieces come from.
-/
namespace JsEmitter

open Js (Tree)
open Lowering (Context ConstructorParts Bootstrap)

/-- Whether a value of a kind only uses some names. -/
def PieceKind.Within (names : String → Prop) : (kind : PieceKind) → kind.Value → Prop
  | .tree, code => code.Within names
  | .trees, code => ∀ tree ∈ (code : List Tree), tree.Within names
  | .ctor, parts => parts.Within names
  | .library, parts => parts.Within names

namespace Piece

/-- Where the code of a piece is generated. -/
def site : {kind : PieceKind} → Piece kind → Site
  | _, .function site _ _ | _, .member site _ _ | _, .bridge site _ | _, .jsConstructor site _ _
  | _, .plainConstructor site _ | _, .exportedMember site _ _ | _, .shell site _ _
  | _, .imports site _ | _, .topLevelExports site _ | _, .initializers site _
  | _, .library site => site

/-- The classes that a piece refers to. -/
def classes : {kind : PieceKind} → Piece kind → List ClassName
  | _, .function _ linked method | _, .member _ linked method =>
    linked.frameClasses ++ method.body.classes
  | _, .bridge _ _ => [.root]
  | _, .jsConstructor _ linked ctor =>
    linked.frameClasses ++ Expr.classesOfAll ctor.beforeSuper ++
      Expr.classesOfAll ctor.superArgs ++ Expr.classesOfAll ctor.afterSuper
  | _, .plainConstructor site linked =>
    linked.frameClasses ++ Expr.classesOfOption (HostNames.inlinedBody? site.index linked)
  | _, .exportedMember _ linked entry => linked.frameClasses ++ entry.classes
  | _, .shell _ linked _ => [linked.name]
  | _, .imports _ _ => []
  | _, .topLevelExports _ entries => .root :: entries.flatMap TopLevelExport.classes
  | _, .initializers _ calls => calls.map Initializer.owner
  | _, .library _ => []

/-- The local variables that a piece reads or assigns. -/
def locals : {kind : PieceKind} → Piece kind → List String
  | _, .function _ linked method | _, .member _ linked method =>
    linked.parentLocals ++ method.body.locals
  | _, .jsConstructor _ linked ctor =>
    linked.parentLocals ++ Expr.localsOfAll ctor.beforeSuper ++
      Expr.localsOfAll ctor.superArgs ++ Expr.localsOfAll ctor.afterSuper
  | _, .plainConstructor site linked =>
    linked.parentLocals ++ Expr.localsOfOption (HostNames.inlinedBody? site.index linked)
  | _, .exportedMember _ linked entry => linked.parentLocals ++ entry.locals
  | _, .topLevelExports _ entries => entries.flatMap TopLevelExport.locals
  | _, .bridge _ _ | _, .shell _ _ _ | _, .imports _ _ | _, .initializers _ _
  | _, .library _ => []

variable (setting : Setting) (naming : Naming) (names : String → Prop)

/-- Whether what a piece refers to is among some names. -/
def Permitted {kind : PieceKind} (piece : Piece kind) : Prop :=
  (setting.context naming piece.site).Permits names piece.classes (piece.hosts setting.config)
    piece.locals

variable {setting naming names}

/-- The code of a piece refers to nothing else than the piece does. -/
theorem Permitted.run_within {kind : PieceKind} {piece : Piece kind}
    (permitted : piece.Permitted setting naming names) :
    kind.Within names (piece.run setting naming).value := by
  cases piece with
  | function site linked method =>
    obtain ⟨frame, code⟩ := Context.Permits.append_iff.1 permitted
    exact Context.freeFunction_within frame code
  | member site linked method =>
    obtain ⟨frame, code⟩ := Context.Permits.append_iff.1 permitted
    exact Context.memberMethod_within frame code
  | bridge site method => exact Context.bridge_within permitted method
  | jsConstructor site linked ctor => exact Context.jsConstructorParts_within permitted
  | plainConstructor site linked => exact Context.plainConstructorParts_within permitted
  | exportedMember site linked entry => exact Context.exportedMember_within permitted
  | shell site linked part => exact Context.shellTrees_within permitted
  | imports site unit => exact Context.imports_within permitted.taken
  | topLevelExports site entries => exact Context.topLevelExports_within permitted
  | initializers site calls => exact Context.moduleInitializers_within permitted
  | library site =>
    exact Context.bootstrap_within permitted.supplies.toProvides
      (permitted.taken _ List.mem_cons_self)

end Piece

variable (setting : Setting) (naming : Naming) (names : String → Prop)

/-- Whether what a class definition refers to is among some names. -/
structure Definition.Permitted (definition : Definition) : Prop where
  ctor : definition.ctor.Permitted setting naming names
  members : ∀ piece ∈ definition.members, piece.Permitted setting naming names
  exported : ∀ piece ∈ definition.exported, piece.Permitted setting naming names
  own : (setting.context naming definition.site).Permits names
    definition.linked.superClass?.toList (definition.ownHosts setting.config) []

/-- Whether what the pieces of a class refer to is among some names. -/
structure ClassPieces.Permitted (pieces : ClassPieces) : Prop where
  functions : ∀ piece ∈ pieces.functions, piece.Permitted setting naming names
  definition : ∀ definition ∈ pieces.definition?, definition.Permitted setting naming names
  shell : ∀ part, ∀ piece ∈ pieces.shell part, piece.Permitted setting naming names

/-- Whether what the pieces of a module refer to is among some names, and what generation adds to
the module by itself. -/
structure ModulePieces.Permitted (pieces : ModulePieces) : Prop where
  provides : naming.Provides names
  imports : pieces.imports.Permitted setting naming names
  library : ∀ piece ∈ pieces.library?, ∀ name ∈ piece.hosts setting.config, names name
  classes : ∀ classPieces ∈ pieces.classes, classPieces.Permitted setting naming names
  exported : pieces.exportsDefinitions setting.config = true →
    setting.config.moduleKind = .commonJs → names "exports"
  defined : setting.config.moduleKind ≠ .script →
    ∀ definer ∈ (pieces.statementMarks setting.config).definers, names (definer.name naming)
  topLevelExports : pieces.topLevelExports.Permitted setting naming names
  initializers : pieces.initializers.Permitted setting naming names

/-- Whether the statements of a class only use some names. -/
structure ClassFragments.Within (fragments : ClassFragments) : Prop where
  main : ∀ tree ∈ fragments.main, tree.Within names
  typeSupport : ∀ tree ∈ fragments.typeSupport, tree.Within names
  staticFields : ∀ tree ∈ fragments.staticFields, tree.Within names
  staticInitializers : ∀ tree ∈ fragments.staticInitializers, tree.Within names

variable {setting naming names}

/-- A permitted class definition uses permitted names. -/
theorem Definition.Permitted.whole_within {definition : Definition}
    (permitted : definition.Permitted setting naming names) :
    ∀ tree ∈ (definition.whole setting naming).value, tree.Within names := by
  have own := permitted.own
  unfold Definition.ownHosts at own
  rw [← definition.ctor.run_parent setting naming] at own
  have members := List.forall_mem_map.2
    (fun piece found => (permitted.members piece found).run_within)
  have exported := List.forall_mem_map.2
    (fun piece found => (permitted.exported piece found).run_within)
  exact Context.fullClass_within own permitted.ctor.run_within members exported

/-- The trees of permitted pieces of a class use permitted names. -/
theorem ClassPieces.Permitted.fragments_within {pieces : ClassPieces}
    (permitted : pieces.Permitted setting naming names) :
    (pieces.fragments setting naming).value.Within names := by
  have functions : ∀ tree ∈ pieces.functions.map (fun piece => (piece.run setting naming).value),
      tree.Within names :=
    List.forall_mem_map.2 (fun piece found => (permitted.functions piece found).run_within)
  have definition : ∀ tree ∈ (pieces.definitionTrees setting naming).value,
      tree.Within names := by
    unfold definitionTrees
    cases there : pieces.definition? with
    | none => exact List.forall_mem_nil _
    | some definition => exact (permitted.definition definition there).whole_within
  have shell : ∀ part, ∀ tree ∈ (pieces.shellTrees setting naming part).value,
      tree.Within names := by
    intro part
    unfold shellTrees
    cases there : pieces.shell part with
    | none => exact List.forall_mem_nil _
    | some piece => exact (permitted.shell part piece there).run_within
  refine ⟨?_, List.forall_mem_append.2 ⟨shell .instanceTests, shell .typeData⟩,
    shell .staticFields, shell .staticInitializers⟩
  refine List.forall_mem_append.2 ⟨List.forall_mem_append.2 ⟨?_, definition⟩,
    shell .moduleAccessor⟩
  simpa using functions

/-- The statements of a class, wherever the module puts them. -/
def ClassFragments.trees (fragments : ClassFragments) : List Tree :=
  fragments.main ++ fragments.typeSupport ++ fragments.staticFields ++
    fragments.staticInitializers

/-- The statements of the bootstrap library, wherever the module puts them. -/
def Lowering.Bootstrap.trees (library : Bootstrap) : List Tree :=
  library.beforeRoot ++ library.afterRoot ++ library.afterClasses

/-- A statement of the classes of a module is one of its classes or of the bootstrap library, or the
link from the root class to its type data. -/
theorem Emission.of_mem_classStatements {context : Context} {library? : Option Bootstrap}
    {classes : List ClassFragments} {tree : Tree}
    (found : tree ∈ classStatements context library? classes) :
    (∃ library ∈ library?, tree ∈ library.trees) ∨ tree = context.rootTypeDataLink ∨
      ∃ fragments ∈ classes, tree ∈ fragments.trees := by
  have part {part : Bootstrap → List Tree} (among : ∀ library, part library ⊆ library.trees)
      (there : tree ∈ (library?.map part).getD []) :
      ∃ library ∈ library?, tree ∈ library.trees := by
    cases library? with
    | none => cases there
    | some library => exact ⟨library, rfl, among library there⟩
  have every {part : ClassFragments → List Tree} {some : List ClassFragments}
      (among : some ⊆ classes) (inside : ∀ fragments, part fragments ⊆ fragments.trees)
      (there : tree ∈ some.flatMap part) : ∃ fragments ∈ classes, tree ∈ fragments.trees := by
    obtain ⟨fragments, given, here⟩ := List.mem_flatMap.1 there
    exact ⟨fragments, among given, inside fragments here⟩
  unfold classStatements at found
  simp only [List.mem_append] at found
  rcases found with ((((((found | found) | found) | found) | found) | found) | found) | found
  · exact .inl (part (by simp [Bootstrap.trees]) found)
  · exact .inr (.inr (every (fun _ => List.mem_of_mem_filter)
      (fun _ _ here => by simp [ClassFragments.trees, here]) found))
  · exact .inl (part (by simp [Bootstrap.trees]) found)
  · split at found
    · exact .inr (.inl (List.mem_singleton.1 found))
    · cases found
  · exact .inr (.inr (every (fun _ => List.mem_of_mem_filter)
      (fun _ _ here => List.mem_append_left _ (List.mem_append_left _ here)) found))
  · exact .inl (part (by simp [Bootstrap.trees]) found)
  · exact .inr (.inr (every (List.Subset.refl _)
      (fun _ _ here => List.mem_append_left _ (List.mem_append_right _ here)) found))
  · exact .inr (.inr (every (List.Subset.refl _)
      (fun _ _ here => List.mem_append_right _ here) found))

/-- The statements of the classes of a module use no more names than its classes and the bootstrap
library do. -/
theorem Emission.classStatements_within {context : Context} {library? : Option Bootstrap}
    {classes : List ClassFragments} (provides : context.naming.Provides names)
    (library : ∀ library ∈ library?, library.Within names)
    (inside : ∀ fragments ∈ classes, fragments.Within names) :
    ∀ tree ∈ classStatements context library? classes, tree.Within names := by
  intro tree found
  rcases of_mem_classStatements found with ⟨given, there, here⟩ | rfl | ⟨fragments, there, here⟩
  · obtain ⟨before, after, last⟩ := library given there
    simp only [Bootstrap.trees, List.mem_append] at here
    rcases here with (here | here) | here
    · exact before tree here
    · exact after tree here
    · exact last tree here
  · exact Context.rootTypeDataLink_within provides
  · obtain ⟨main, support, fields, initializers⟩ := inside fragments there
    simp only [ClassFragments.trees, List.mem_append] at here
    rcases here with ((here | here) | here) | here
    · exact main tree here
    · exact support tree here
    · exact fields tree here
    · exact initializers tree here

namespace ModulePieces.Permitted

variable {pieces : ModulePieces} (permitted : pieces.Permitted setting naming names)

include permitted

/-- The statements of a module use permitted names. -/
theorem statements_within : ∀ tree ∈ pieces.statements setting naming, tree.Within names := by
  unfold ModulePieces.statements
  refine Emission.classStatements_within permitted.provides ?_ ?_
  · unfold ModulePieces.library
    cases there : pieces.library? with
    | none => exact fun _ found => by cases found
    | some piece =>
      cases piece with
      | library site =>
        rintro library ⟨⟩
        exact Context.bootstrap_within permitted.provides
          (permitted.library _ there _ List.mem_cons_self)
  · rw [pieces.fragments_value]
    exact List.forall_mem_map.2
      (fun classPieces found => (permitted.classes classPieces found).fragments_within)

/-- Exports of internal names use permitted names. -/
theorem internalExports_within :
    ∀ tree ∈ (pieces.internalExports setting naming).value, tree.Within names := by
  rw [pieces.internalExports_eq]
  split
  · next exporting =>
    by_cases script : setting.config.moduleKind = .script
    · have none : ∀ defined, ((setting.context naming pieces.site).internalExports
          defined).value = [] := by
        intro defined
        unfold Context.internalExports
        rw [show (setting.context naming pieces.site).config.moduleKind = .script from script]
        split <;> rfl
      rw [none]
      exact List.forall_mem_nil _
    · exact Context.internalExports_within (fun _ => permitted.exported exporting)
        (List.forall_mem_map.2 (permitted.defined script))
  · exact List.forall_mem_nil _

/-- The body of a module uses permitted names. -/
theorem body_within : ∀ tree ∈ pieces.body setting naming, tree.Within names := by
  unfold ModulePieces.body
  simp only [List.forall_mem_append]
  exact ⟨⟨⟨permitted.statements_within, permitted.internalExports_within⟩,
    permitted.topLevelExports.run_within⟩, permitted.initializers.run_within⟩

/-- The variables of a module, in its imports and in its body, are among the names that its pieces
may use. -/
theorem output_within : ∀ tree ∈ (pieces.output setting naming).trees, tree.Within names :=
  List.forall_mem_append.2 ⟨permitted.imports.run_within, permitted.body_within⟩

end ModulePieces.Permitted

end JsEmitter
