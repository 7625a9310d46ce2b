import JsEmitter.Proofs.Coverage
import JsEmitter.Proofs.SamePieces

/-!
# Same passes

In a readable history, what a pass over a program gives does not depend on the pieces that it is
served, as long as what these take without cover stays the same while their versions do: all passes
over the program give the same modules under every naming scheme, or fail with the same error.
-/
namespace JsEmitter

open Js (Tree)
open Lowering (Context)

/-- Lists that give outcomes which are read alike for each element are read alike. -/
theorem Gives.map_eq {ε γ δ β : Type} {post : γ → Except ε δ → Prop} {read : δ → β}
    {items : List γ} {first second : Except ε (List δ)}
    (each : ∀ item ∈ items, ∀ one two, post item one → post item two →
      Except.map read one = Except.map read two)
    (one : Gives post items first) (two : Gives post items second) :
    Except.map (List.map read) first = Except.map (List.map read) second := by
  induction items generalizing first second with
  | nil =>
    cases one
    cases two
    rfl
  | cons head rest ih =>
    have heads := each head List.mem_cons_self
    have rests := fun {first second : Except ε (List δ)} => @ih first second
      (fun item found => each item (List.mem_cons_of_mem _ found))
    cases one with
    | cons here others =>
      cases two with
      | cons there more =>
        have values := Except.ok.inj (heads _ _ here there)
        have lists := Except.ok.inj (rests others more)
        exact congrArg Except.ok (by simp only [List.map_cons, values, lists])
      | here failed => cases heads _ _ here failed
      | later _ failed => cases rests others failed
    | here failed =>
      cases two with
      | cons there _ => cases heads _ _ failed there
      | here again => exact congrArg Except.error (Except.error.inj (heads _ _ failed again))
      | later there _ => cases heads _ _ failed there
    | later here failed =>
      cases two with
      | cons _ more => cases rests failed more
      | here again => cases heads _ _ here again
      | later _ again => exact congrArg Except.error (Except.error.inj (rests failed again))

variable {setting : Setting} {naming : Naming} {history : List Program}

/-- What a definition gives depends on its site, its class and the code of its pieces. -/
theorem Definition.whole_congr {definition other : Definition} (site : definition.site = other.site)
    (linked : definition.linked = other.linked)
    (ctors : definition.ctor.run setting naming = other.ctor.run setting naming)
    (members : definition.members.map (Piece.run setting naming) =
      other.members.map (Piece.run setting naming))
    (exported : definition.exported.map (Piece.run setting naming) =
      other.exported.map (Piece.run setting naming)) :
    definition.whole setting naming = other.whole setting naming := by
  have memberValues := congrArg (List.map Tracked.value) members
  have exportedValues := congrArg (List.map Tracked.value) exported
  simp only [List.map_map, Function.comp_def] at memberValues exportedValues
  unfold whole run
  rw [site, linked, ctors, members, exported, memberValues, exportedValues]

/-- The outcome of a module that has pieces: an error if they have no statements. -/
def ModulePieces.verdict (setting : Setting) (unit : Module) (pieces : ModulePieces) :
    Except EmitError ModulePieces :=
  if (pieces.bodyMarks setting.config).isEmpty then
    .error (.emptyModule unit.id (unit.classes.map LinkedClass.name))
  else .ok pieces

/-- A module gets pieces, or one of its classes fails. -/
theorem ModuleOutcome.made_or_failed {program : Program} {unit : Module}
    {outcome : Except EmitError ModulePieces}
    (ends : ModuleOutcome setting history program unit outcome) :
    (∃ pieces, ModulePieces.MadeFor setting history program unit pieces ∧
        outcome = pieces.verdict setting unit) ∨
      ∃ error, Gives (ClassOutcome setting history (program.site unit)) unit.emissionOrder
        (.error error) ∧ outcome = .error error := by
  cases ends with
  | made parts some =>
    exact .inl ⟨_, parts, by simp only [ModulePieces.verdict, some, Bool.false_eq_true, if_false]⟩
  | failed classes => exact .inr ⟨_, classes, rfl⟩
  | blank parts none => exact .inl ⟨_, parts, by simp only [ModulePieces.verdict, none, if_true]⟩

namespace Readable

variable (readable : Readable history)

include readable

/-- The version of the constructor of a foreign class without one is the version of the class. -/
theorem constructorVersion_eq_classVersion (here : ClassIn history)
    (foreign : here.linked.kind.isJsClass = true) (missing : here.linked.jsConstructor? = none) :
    (setting.neutral here.site).constructorVersion here.linked =
      (setting.neutral here.site).classVersion here.linked := by
  have known := ClassIndex.get?_of_valid (readable.valid _ here.emitted) here.placed here.there
  have other : here.linked.kind.isClass = false := by
    cases kind : here.linked.kind <;> simp_all [ClassKind.isClass, ClassKind.isJsClass]
  have inlines : here.index.inlinesConstructor here.linked.name = false := by
    simp [ModuleIn.index, ClassIndex.inlinesConstructor, known, ClassIndex.entry,
      ClassIndex.canInline, other]
  have inlined : (setting.neutral here.site).inlinedConstructor? here.linked = none := by
    change (if here.index.inlinesConstructor here.linked.name = true then _ else _) = _
    rw [inlines]
    rfl
  simp [Context.constructorVersion, missing, inlined]

/-- A foreign class that is served a constructor has one. -/
theorem constructor?_isOk (here : ClassIn history) {piece : Piece .ctor}
    (requested : Requested setting history (.ctor here.key)
      ((setting.neutral here.site).constructorVersion here.linked) piece)
    (versioned : ((setting.neutral here.site).constructorVersion here.linked).isVersioned = true) :
    ∃ own, here.site.constructor? here.linked = .ok own := by
  obtain ⟨there, keys, -, versions, made⟩ := requested.ctor
  by_cases foreign : here.linked.kind.isJsClass = true
  swap
  · exact ⟨.plainConstructor here.site here.linked, by simp [Site.constructor?, foreign]⟩
  cases found : here.linked.jsConstructor? with
  | some ctor =>
    exact ⟨.jsConstructor here.site here.linked ctor.value, by
      simp [Site.constructor?, foreign, found]⟩
  | none =>
    exfalso
    have same := Version.isSame_of_eq versions versioned
    rw [readable.constructorVersion_eq_classVersion here foreign found,
      Context.constructorVersion_eq made] at same
    cases own : (setting.neutral there.site).ownVersion? there.linked with
    | some version =>
      rw [own] at same
      cases Version.isSame_of_combine same with
      | cons classes =>
        exact readable.version_ne_classVersion here _ _ (Version.isSame_symm classes)
    | none =>
      rw [own] at same
      have classes : (setting.neutral here.site).SameClass there.index here.linked there.linked :=
        readable.classVersion_eq here there keys same
      have outline := classes.outline
      unfold Context.ownVersion? at own
      unfold Site.constructor? at made
      simp only [outline.kind, foreign, if_true] at own made
      rw [Option.map_eq_none_iff.1 own] at made
      cases made

section Kept

variable (kept : CodeKept setting history)
  (named : NamedModules history)

include kept named

/-- What is served for the same piece gives the same code. -/
theorem served_run {kind : PieceKind} {place : Place kind} {version : Version}
    {own piece other : Piece kind} (first : Served setting history place version own piece)
    (second : Served setting history place version own other) :
    piece.run setting naming = other.run setting naming := by
  refine Served.eq_of (Piece.run setting naming) first second (fun versioned => ?_)
  exact readable.run_eq named versioned second.requested first.requested
    (kept place version other piece versioned second.requested first.requested naming)

/-- What is served for the same list of pieces gives the same list of code. -/
theorem served_runs {γ : Type} {kind : PieceKind} {place : γ → Place kind} {version : γ → Version}
    {own : γ → Piece kind} {items : List γ} {pieces others : List (Piece kind)}
    (first : List.Forall₂ (fun item piece =>
      Served setting history (place item) (version item) (own item) piece) items pieces)
    (second : List.Forall₂ (fun item piece =>
      Served setting history (place item) (version item) (own item) piece) items others) :
    pieces.map (Piece.run setting naming) = others.map (Piece.run setting naming) :=
  map_eq_map_iff.2 (forall₂_of_common first second
    (fun _ _ _ _ one two => readable.served_run kept named one two))

/-- Definitions that are emitted for the same class give the same code. -/
theorem definition_whole {site : Site} {linked : LinkedClass} {definition other : Definition}
    (first : definition.MadeFor setting history site linked)
    (second : other.MadeFor setting history site linked) :
    definition.whole setting naming = other.whole setting naming := by
  have ctors : definition.ctor.run setting naming = other.ctor.run setting naming := by
    refine first.ctor_eq_of second (Piece.run setting naming) (fun versioned => ?_)
    exact readable.run_eq named versioned second.ctor first.ctor
      (kept _ _ _ _ versioned second.ctor first.ctor naming)
  have members : definition.members.map (Piece.run setting naming) =
      other.members.map (Piece.run setting naming) :=
    map_eq_map_iff.2 (first.members_forall₂ second (readable.served_run kept named))
  have exported : definition.exported.map (Piece.run setting naming) =
      other.exported.map (Piece.run setting naming) :=
    readable.served_runs kept named first.exported second.exported
  cases versioned : ((setting.neutral site).classVersion linked).isVersioned with
  | true => exact readable.definition_eq versioned second.whole first.whole ctors members exported
  | false =>
    obtain ⟨sites, classes⟩ := first.ownWhole versioned
    obtain ⟨others, moreClasses⟩ := second.ownWhole versioned
    exact Definition.whole_congr (sites.trans others.symm) (classes.trans moreClasses.symm) ctors
      members exported

/-- What is emitted for the same class gives the same statements. -/
theorem class_fragments {site : Site} {linked : LinkedClass} {pieces others : ClassPieces}
    (first : pieces.MadeFor setting history site linked)
    (second : others.MadeFor setting history site linked) :
    pieces.fragments setting naming = others.fragments setting naming := by
  have functions : pieces.functions.map (Piece.run setting naming) =
      others.functions.map (Piece.run setting naming) :=
    readable.served_runs kept named first.functions second.functions
  have definitions : pieces.definitionTrees setting naming =
      others.definitionTrees setting naming :=
    first.definition_eq_of second
      (fun definition? => { pieces with definition? := definition? }.definitionTrees setting naming)
      (fun _ _ made again => readable.definition_whole kept named made again)
  have shells : ∀ part, pieces.shellTrees setting naming part =
      others.shellTrees setting naming part := by
    intro part
    exact first.shell_eq_of second part
      (fun piece? => { pieces with shell := fun _ => piece? }.shellTrees setting naming part)
      (fun _ _ made again => readable.served_run kept named made again)
  simp only [ClassPieces.fragments, first.name, second.name, functions, definitions, shells]

/-- What the emission of the same class ends with gives the same. -/
theorem classOutcome_fragments (here : ClassIn history)
    {first second : Except EmitError ClassPieces}
    (one : ClassOutcome setting history here.site here.linked first)
    (two : ClassOutcome setting history here.site here.linked second) :
    first.map (ClassPieces.fragments setting naming) =
      second.map (ClassPieces.fragments setting naming) := by
  have failing : ∀ {pieces : ClassPieces} {error : EmitError},
      ClassOutcome setting history here.site here.linked (.ok pieces) →
        ¬ ClassOutcome setting history here.site here.linked (.error error) := by
    rintro pieces error made ⟨defined, failed⟩
    obtain ⟨definition, -, parts⟩ := made.defined defined
    cases versioned :
      ((setting.neutral here.site).constructorVersion here.linked).isVersioned with
    | true =>
      obtain ⟨own, found⟩ := readable.constructor?_isOk here parts.ctor versioned
      rw [found] at failed
      cases failed
    | false =>
      rw [parts.ownCtor versioned] at failed
      cases failed
  cases first with
  | ok pieces =>
    cases second with
    | ok others => exact congrArg Except.ok (readable.class_fragments kept named one two)
    | error error => exact (failing one two).elim
  | error error =>
    cases second with
    | ok others => exact (failing two one).elim
    | error other => exact congrArg Except.error (Except.error.inj (one.2.symm.trans two.2))

/-- What is emitted for the same module gives the same output. -/
theorem module_output (here : ModuleIn history) {pieces others : ModulePieces}
    (first : pieces.MadeFor setting history here.program here.unit)
    (second : others.MadeFor setting history here.program here.unit) :
    pieces.output setting naming = others.output setting naming := by
  have imports : pieces.imports.run setting naming = others.imports.run setting naming :=
    readable.served_run kept named first.imports second.imports
  have exports : pieces.topLevelExports.run setting naming =
      others.topLevelExports.run setting naming :=
    readable.served_run kept named first.topLevelExports second.topLevelExports
  have initializers : pieces.initializers.run setting naming =
      others.initializers.run setting naming :=
    readable.served_run kept named first.initializers second.initializers
  have library : pieces.library setting naming = others.library setting naming := by
    refine first.library_eq_of second
      (fun library? => Tracked.option (library?.map (Piece.run setting naming)))
      (fun piece other => ?_)
    simp only [Option.map_some, piece.run_library other]
  have classes : pieces.fragments setting naming = others.fragments setting naming :=
    congrArg Tracked.list (map_eq_map_iff.2 (forall₂_of_common first.classes second.classes
      (fun _ _ _ _ one two => readable.class_fragments kept named one two)))
  have statements : pieces.statements setting naming = others.statements setting naming := by
    simp only [ModulePieces.statements, first.site, second.site, library, classes]
  have internal : pieces.internalExports setting naming =
      others.internalExports setting naming := by
    simp only [ModulePieces.internalExports, first.site, second.site, first.exported,
      second.exported, statements]
  simp only [ModulePieces.output, ModulePieces.body, first.id, second.id, imports, exports,
    initializers, library, classes, statements, internal]

/-- What the emission of the same module ends with gives the same. -/
theorem moduleOutcome_output (here : ModuleIn history)
    {first second : Except EmitError ModulePieces}
    (one : ModuleOutcome setting history here.program here.unit first)
    (two : ModuleOutcome setting history here.program here.unit second) :
    first.map (fun pieces naming => pieces.output setting naming) =
      second.map (fun pieces naming => pieces.output setting naming) := by
  have classes := fun {first second : Except EmitError (List ClassPieces)} =>
    @Gives.map_eq _ _ _ _ (ClassOutcome setting history here.site)
      (ClassPieces.fragments setting default) here.unit.emissionOrder first second
      (fun linked found _ _ => readable.classOutcome_fragments kept named
        ⟨here, linked, Module.mem_emissionOrder.1 found⟩)
  rcases one.made_or_failed with ⟨pieces, made, rfl⟩ | ⟨error, failed, rfl⟩
  · rcases two.made_or_failed with ⟨others, again, rfl⟩ | ⟨error, failed, rfl⟩
    · have outputs : ∀ naming, pieces.output setting naming = others.output setting naming :=
        fun naming => readable.module_output kept named here made again
      have blank : (pieces.bodyMarks setting.config).isEmpty =
          (others.bodyMarks setting.config).isEmpty := by
        rw [← (pieces.body_marks setting default).isEmpty,
          ← (others.body_marks setting default).isEmpty]
        exact congrArg (fun output => output.body.isEmpty) (outputs default)
      unfold ModulePieces.verdict
      rw [blank]
      split
      · rfl
      · exact congrArg Except.ok (funext outputs)
    · cases classes (Gives.of_forall₂ made.classes) failed
  · rcases two.made_or_failed with ⟨others, again, rfl⟩ | ⟨another, again, rfl⟩
    · cases classes failed (Gives.of_forall₂ again.classes)
    · exact congrArg Except.error (Except.error.inj (classes failed again))

/-- What passes over the same program end with gives the same. -/
theorem passOutcome_outputs {program : Program} (emitted : program ∈ history)
    {first second : Except EmitError PassPieces}
    (one : PassOutcome setting history program first)
    (two : PassOutcome setting history program second) :
    first.map (fun pieces => pieces.modules.map
        (fun pieces naming => pieces.output setting naming)) =
      second.map (fun pieces => pieces.modules.map
        (fun pieces naming => pieces.output setting naming)) := by
  have modules := fun {first second : Except EmitError (List ModulePieces)} =>
    @Gives.map_eq _ _ _ _ (ModuleOutcome setting history program)
      (fun pieces naming => pieces.output setting naming) program.dependencyOrder first second
      (fun unit found _ _ => readable.moduleOutcome_output kept named
        ⟨program, unit, emitted, Program.mem_of_mem_dependencyOrder found⟩)
  cases first with
  | ok pieces =>
    cases second with
    | ok others => exact congrArg Except.ok (Except.ok.inj (modules one two))
    | error error => cases modules one two
  | error error =>
    cases second with
    | ok others => cases modules one two
    | error other => exact congrArg Except.error (Except.error.inj (modules one two))

end Kept

end Readable

end JsEmitter
