import JsEmitter.Proofs.PassInStep
import JsEmitter.Proofs.VersionedPrograms
import JsEmitter.Proofs.Visits

/-!
# Comparison of emissions

Emissions of one program from different states are compared request by request. A comparison says
what is compared and proves it of single requests and of steps one after another. What it says then
holds of every function of the emission, which is shown here once for all comparisons.

Each statement names the cells that are requested, in the order of the requests.
-/
namespace JsEmitter

open Js (Tree)
open Lowering (Context ConstructorParts Bootstrap)

/-- Whether artifacts have the same result, and tokens that correspond. -/
def Artifact.Matches {α : Type} (token : Token → Token → Prop) (first second : Artifact α) : Prop :=
  first.tracked = second.tracked ∧ token first.token second.token

/-- Whether the parts of definitions have tokens that correspond. -/
structure DefinitionParts.Matches (token : Token → Token → Prop)
    (first second : DefinitionParts) : Prop where
  ctor : Option.Rel token first.ctor? second.ctor?
  members : List.Forall₂ token first.members second.members
  exported : List.Forall₂ token first.exported second.exported

/-- The cells of the shell of a class. -/
def shellCells (key : ClassKey) : List Cell := .shell key :: ShellPart.all.map (Cell.slot key)

/-- Every slot of a class is a cell of its shell. -/
theorem slot_mem_shellCells {key : ClassKey} (part : ShellPart) :
    Cell.slot key part ∈ shellCells key :=
  List.mem_cons_of_mem _ (List.mem_map_of_mem (by cases part <;> decide))

/-- The slots of some parts are cells of the shell of their class. -/
theorem map_slot_subset_shellCells {key : ClassKey} (parts : List ShellPart) :
    parts.map (Cell.slot key) ⊆ shellCells key := by
  intro cell found
  obtain ⟨part, -, rfl⟩ := List.mem_map.1 found
  exact slot_mem_shellCells part

/-- A comparison of two runs of the same requests. -/
structure Comparison where
  /-- How the tokens of artifacts correspond. -/
  token : Token → Token → Prop
  /-- Whether steps are only compared if no cell is requested twice. -/
  exclusive : Prop
  /-- Whether steps are only compared if all requested versions can be reused. -/
  quiet : Prop
  /-- What is compared of two steps that request some cells: that their results are related. -/
  Holds : {α : Type} → List Cell → (first second : Step EmitError Caches α) →
    (related : α → α → Prop) → Prop
  token_refl : exclusive → ∀ number, token number number
  done : ∀ {α : Type} {related : α → α → Prop} {value other : α}, related value other →
    Holds [] (pure value) (pure other) related
  failed : ∀ {α : Type} (error : EmitError) (related : α → α → Prop),
    Holds [] (throw error) (throw error) related
  andThen : ∀ {α β : Type} {cells others : List Cell} {first second : Step EmitError Caches α}
    {next following : α → Step EmitError Caches β} {given : α → α → Prop}
    {related : β → β → Prop},
    Holds cells first second given →
    (exclusive → (cells ++ others).Nodup ∧ ∀ value, given value value) →
    (∀ value other, given value other → Holds others (next value) (following other) related) →
    Holds (cells ++ others) (first >>= next) (second >>= following) related
  keyed : ∀ (sort : KeyedSort) (key : sort.Key) {version : Version}
    (own : Except EmitError (Tracked sort.Value)), (quiet → version.isVersioned = true) →
    Holds [.keyed sort key] (Caches.requestKeyed sort key version (fun _ => own))
      (Caches.requestKeyed sort key version (fun _ => own)) (Artifact.Matches token)
  definition : ∀ (key : ClassKey) {version : Version} {parts others : DefinitionParts}
    (tracked : Tracked (List Tree)), (quiet → version.isVersioned = true) →
    parts.Matches token others →
    Holds [.definition key] (Caches.requestFullClass key version parts (fun _ => .ok tracked))
      (Caches.requestFullClass key version others (fun _ => .ok tracked))
      (fun value other => value.tracked = other.tracked)
  slot : ∀ (key : ClassKey) (part : ShellPart) (tracked : Tracked (List Tree)),
    Holds [.slot key part] (Caches.requestShellPart key part (fun _ => .ok tracked))
      (Caches.requestShellPart key part (fun _ => .ok tracked))
      (fun value other => value.tracked = other.tracked)
  /-- A shell is opened before its pieces are requested. -/
  opened : ∀ {α : Type} (key : ClassKey) {version : Version} {parts : List ShellPart}
    {first second : Step EmitError Caches α} {related : α → α → Prop},
    (quiet → version.isVersioned = true) →
    Holds (parts.map (Cell.slot key)) first second related →
    Holds (shellCells key) (Caches.openShell key version >>= fun _ => first)
      (Caches.openShell key version >>= fun _ => second) related
  modulePart : ∀ (id : ModuleId) (part : ModulePart) {version : Version}
    (tracked : Tracked (List Tree)), (quiet → version.isVersioned = true) →
    Holds [.modulePart id part] (Caches.requestModulePart id part version (fun _ => .ok tracked))
      (Caches.requestModulePart id part version (fun _ => .ok tracked))
      (fun value other => value.tracked = other.tracked)
  library : ∀ tracked : Tracked Bootstrap,
    Holds [.library] (Caches.requestBootstrap (fun _ => .ok tracked))
      (Caches.requestBootstrap (fun _ => .ok tracked))
      (fun value other => value.tracked = other.tracked)

namespace Artifact

variable {α : Type} {token : Token → Token → Prop} {firsts seconds : List (Artifact α)}

/-- Artifacts that match have the same results. -/
theorem tracked_eq_of_matches (related : List.Forall₂ (Matches token) firsts seconds) :
    firsts.map Artifact.tracked = seconds.map Artifact.tracked :=
  map_eq_map_iff.2 (related.imp (fun _ _ matching => matching.1))

/-- Artifacts that match have the same values. -/
theorem value_eq_of_matches (related : List.Forall₂ (Matches token) firsts seconds) :
    firsts.map Artifact.value = seconds.map Artifact.value :=
  map_eq_map_iff.2 (related.imp (fun _ _ matching => congrArg Tracked.value matching.1))

/-- Artifacts that match have tokens that correspond. -/
theorem token_of_matches (related : List.Forall₂ (Matches token) firsts seconds) :
    List.Forall₂ token (firsts.map Artifact.token) (seconds.map Artifact.token) :=
  List.forall₂_map_left_iff.2 (List.forall₂_map_right_iff.2
    (related.imp (fun _ _ matching => matching.2)))

end Artifact

namespace Emission

section Cells

variable (context : Context) (linked : LinkedClass) (unit : Module)

/-- The cells of the free functions of a class. -/
def functionCells : List Cell :=
  (context.freeFunctions linked).map (fun method => .keyed .functions
    (.ofClass context.home linked, method.value.home, method.value.name))

/-- The cells of the parts of the definition of a class, and of the definition itself. -/
def definitionCells : List Cell :=
  let key := ClassKey.ofClass context.home linked
  (Context.memberMethods linked).map (fun method => .keyed .members (key, method.value.name)) ++
  ((context.bridgedMethods linked).map (fun method => .keyed .bridges (key, method)) ++
  (.keyed .constructors key ::
  (linked.exportedMembers.zipIdx.map (fun member => .keyed .exportedMembers (key, member.2)) ++
  [.definition key])))

/-- The cells of a class. -/
def classCells : List Cell :=
  if linked.kind = .nativeJsClass then []
  else functionCells context linked ++
    ((if linked.needsDefinition then definitionCells context linked else []) ++
    shellCells (.ofClass context.home linked))

/-- The cells of a module apart from the library. -/
def moduleCells : List Cell :=
  .modulePart unit.id .imports ::
  (unit.emissionOrder.flatMap (classCells context) ++
  [.modulePart unit.id .topLevelExports, .modulePart unit.id .initializers])

/-- The cells of a module. -/
def unitCells : List Cell :=
  (if unit.isRoot then [.library] else []) ++ moduleCells context unit

/-- The cells of the modules of a program, in the order of their dependencies. -/
def programCells (contexts : ModuleId → Context) (program : Program) : List Cell :=
  program.dependencyOrder.flatMap (fun unit => unitCells (contexts unit.id) unit)

end Cells

/-- Only the code of the library is read, not its token. -/
theorem bootstrapOf_congr (unit : Module) {first second : Option (Artifact Bootstrap)}
    (same : first.map Artifact.tracked = second.map Artifact.tracked) :
    bootstrapOf unit first = bootstrapOf unit second := by
  unfold bootstrapOf
  cases first <;> cases second <;> simp_all [Option.filter]

end Emission

namespace Comparison

open Emission

variable (comparison : Comparison)

/-- How the artifacts of cells correspond in which parts of definitions are kept. -/
abbrev Same {α : Type} : Artifact α → Artifact α → Prop := Artifact.Matches comparison.token

variable {comparison} {α β γ : Type} {cells : List Cell}
  {first second : Step EmitError Caches α}

/-- An artifact is the same as itself, if tokens are compared at all. -/
theorem same_refl (exclusive : comparison.exclusive) (artifact : Artifact α) :
    comparison.Same artifact artifact :=
  ⟨rfl, comparison.token_refl exclusive _⟩

/-- Artifacts are the same as themselves, if tokens are compared at all. -/
theorem same_list_refl (exclusive : comparison.exclusive) (artifacts : List (Artifact α)) :
    List.Forall₂ comparison.Same artifacts artifacts :=
  List.forall₂_same.2 (fun artifact _ => same_refl exclusive artifact)

/-- A step whose result is read. -/
theorem map {given : α → α → Prop} {related : β → β → Prop} {read reading : α → β}
    (holds : comparison.Holds cells first second given)
    (distinct : comparison.exclusive → cells.Nodup ∧ ∀ value, given value value)
    (reads : ∀ value other, given value other → related (read value) (reading other)) :
    comparison.Holds cells (do let value ← first; return read value)
      (do let value ← second; return reading value) related := by
  have last := comparison.andThen holds (by simpa using distinct)
    (fun value other given => comparison.done (reads value other given))
  simpa using last

/-- A request, and others after it. -/
theorem request {cell : Cell} {others : List Cell} {next following : α → Step EmitError Caches β}
    {given : α → α → Prop} {related : β → β → Prop}
    (holds : comparison.Holds [cell] first second given)
    (distinct : comparison.exclusive → (cell :: others).Nodup ∧ ∀ value, given value value)
    (rest : ∀ value other, given value other →
      comparison.Holds others (next value) (following other) related) :
    comparison.Holds (cell :: others) (first >>= next) (second >>= following) related :=
  comparison.andThen holds distinct rest

/-- A step for every element of a list. -/
theorem mapM {items : List γ} {cellsOf : γ → List Cell} {step : γ → Step EmitError Caches α}
    {related : α → α → Prop}
    (distinct : comparison.exclusive → (items.flatMap cellsOf).Nodup ∧
      ∀ value, related value value)
    (each : ∀ item ∈ items, comparison.Holds (cellsOf item) (step item) (step item) related) :
    comparison.Holds (items.flatMap cellsOf) (items.mapM step) (items.mapM step)
      (List.Forall₂ related) := by
  induction items with
  | nil => exact comparison.done .nil
  | cons head rest ih =>
    simp only [List.mapM_cons, List.flatMap_cons]
    refine comparison.andThen (each head List.mem_cons_self) distinct (fun value other here => ?_)
    have rests : comparison.exclusive → (rest.flatMap cellsOf).Nodup ∧
        ∀ value, related value value := fun exclusive =>
      ⟨(List.nodup_append.1 (distinct exclusive).1).2.1, (distinct exclusive).2⟩
    exact map (ih rests (fun item found => each item (List.mem_cons_of_mem _ found)))
      (fun exclusive => ⟨(rests exclusive).1, fun values =>
        List.forall₂_same.2 (fun value _ => (rests exclusive).2 value)⟩)
      (fun values others there => .cons here there)

/-- A request to a keyed cache for every element of a list. -/
theorem mapM_keyed (sort : KeyedSort) {items : List γ} {key : γ → sort.Key}
    {version : γ → Version} {own : γ → Tracked sort.Value}
    (distinct : comparison.exclusive →
      (items.map (fun item => Cell.keyed sort (key item))).Nodup)
    (versioned : comparison.quiet → ∀ item ∈ items, (version item).isVersioned = true) :
    comparison.Holds (items.map (fun item => .keyed sort (key item)))
      (items.mapM (fun item => Caches.requestKeyed sort (key item) (version item)
        (fun _ => .ok (own item))))
      (items.mapM (fun item => Caches.requestKeyed sort (key item) (version item)
        (fun _ => .ok (own item))))
      (List.Forall₂ comparison.Same) := by
  rw [List.map_eq_flatMap] at distinct ⊢
  exact mapM (fun exclusive => ⟨distinct exclusive, same_refl exclusive⟩)
    (fun item found => comparison.keyed sort _ _ (fun quiet => versioned quiet item found))

section Classes

variable (context : Context) {linked : LinkedClass}
  (versioned : comparison.quiet → linked.AllVersioned)

include versioned

/-- The free functions of a class compare. -/
theorem emitFunctions_holds
    (distinct : comparison.exclusive → (functionCells context linked).Nodup) :
    comparison.Holds (functionCells context linked) (emitFunctions context linked)
      (emitFunctions context linked) (List.Forall₂ comparison.Same) :=
  mapM_keyed .functions distinct (fun quiet _ found =>
    (versioned quiet).methodVersion context (List.mem_filter.1 found).1)

/-- The definition of a class compares. -/
theorem emitDefinition_holds
    (distinct : comparison.exclusive → (definitionCells context linked).Nodup) :
    comparison.Holds (definitionCells context linked) (emitDefinition context linked)
      (emitDefinition context linked) Eq := by
  have parts := fun exclusive => List.nodup_append.1 (distinct exclusive)
  have bridged := fun exclusive => List.nodup_append.1 (parts exclusive).2.1
  have built := fun exclusive => List.nodup_cons.1 (bridged exclusive).2.1
  unfold emitDefinition definitionCells
  refine comparison.andThen
    (mapM_keyed .members (fun exclusive => (parts exclusive).1) (fun quiet _ found =>
      (versioned quiet).methodVersion context (List.mem_filter.1 found).1))
    (fun exclusive => ⟨distinct exclusive, same_list_refl exclusive⟩)
    (fun methods otherMethods sameMethods => ?_)
  refine comparison.andThen
    (mapM_keyed .bridges (fun exclusive => (bridged exclusive).1) (fun _ _ _ => rfl))
    (fun exclusive => ⟨(parts exclusive).2.1, same_list_refl exclusive⟩)
    (fun bridges otherBridges sameBridges => ?_)
  have sameMembers : List.Forall₂ comparison.Same (methods ++ bridges)
    (otherMethods ++ otherBridges) := List.rel_append sameMethods sameBridges
  refine request
    (comparison.keyed .constructors _ _ (fun quiet => (versioned quiet).constructorVersion context))
    (fun exclusive => ⟨(bridged exclusive).2.1, same_refl exclusive⟩)
    (fun ctor otherCtor sameCtor => ?_)
  refine comparison.andThen
    (mapM_keyed .exportedMembers
      (fun exclusive => (List.nodup_append.1 (built exclusive).2).1) (fun quiet member found =>
        (versioned quiet).exportedMemberVersion context (List.fst_mem_of_mem_zipIdx found)))
    (fun exclusive => ⟨(built exclusive).2, same_list_refl exclusive⟩)
    (fun exported otherExported sameExported => ?_)
  have results : ctor.value = otherCtor.value ∧ ctor.refs = otherCtor.refs :=
    ⟨congrArg Tracked.value sameCtor.1, congrArg Tracked.refs sameCtor.1⟩
  rw [results.1, results.2, collect, collect, Artifact.value_eq_of_matches sameMembers,
    Artifact.value_eq_of_matches sameExported, Artifact.tracked_eq_of_matches sameMembers,
    Artifact.tracked_eq_of_matches sameExported]
  refine map (comparison.definition _ _ (fun quiet => (versioned quiet).classVersion context)
      ⟨.some sameCtor.2, Artifact.token_of_matches sameMembers,
        Artifact.token_of_matches sameExported⟩)
    (fun _ => ⟨List.nodup_singleton _, fun _ => rfl⟩) (fun full other same => ?_)
  have whole : full.value = other.value ∧ full.refs = other.refs :=
    ⟨congrArg Tracked.value same, congrArg Tracked.refs same⟩
  rw [whole.1, whole.2]
  rfl

/-- A piece of a class that need not have it. -/
def optionalPart (part : ShellPart) (present : Bool) : List ShellPart :=
  if present then [part] else []

omit versioned in
/-- A part of a class shell compares. -/
theorem emitShellPart_holds (part : ShellPart) (present : Bool)
    (trees : Unit → Tracked (List Tree)) :
    comparison.Holds ((optionalPart part present).map (Cell.slot (.ofClass context.home linked)))
      (emitShellPart context linked part present trees)
      (emitShellPart context linked part present trees) Eq := by
  unfold emitShellPart
  cases present with
  | true =>
    exact map (comparison.slot _ part (trees ()))
      (fun _ => ⟨List.nodup_singleton _, fun _ => rfl⟩) (fun _ _ same => same)
  | false => exact comparison.done rfl

omit versioned in
/-- A piece of a class, and others after it. -/
theorem emitShellPart_andThen_holds {part : ShellPart} {present : Bool}
    {trees : Unit → Tracked (List Tree)} {others : List ShellPart}
    {next : Tracked (List Tree) → Step EmitError Caches α}
    (distinct : (optionalPart part present ++ others).Nodup)
    (rest : ∀ piece, comparison.Holds (others.map (Cell.slot (.ofClass context.home linked)))
      (next piece) (next piece) Eq) :
    comparison.Holds
      ((optionalPart part present ++ others).map (Cell.slot (.ofClass context.home linked)))
      (emitShellPart context linked part present trees >>= next)
      (emitShellPart context linked part present trees >>= next) Eq := by
  have apart : Function.Injective (Cell.slot (.ofClass context.home linked)) :=
    fun _ _ same => (Cell.slot.inj same).2
  rw [List.map_append]
  refine comparison.andThen (emitShellPart_holds context part present trees)
    (fun _ => ⟨?_, fun _ => rfl⟩) (fun piece other same => same ▸ rest piece)
  rw [← List.map_append]
  exact distinct.map apart

/-- The shell of a class compares. -/
theorem emitShell_holds :
    comparison.Holds (shellCells (.ofClass context.home linked)) (emitShell context linked)
      (emitShell context linked) Eq := by
  have distinct : ∀ accessor tests data : Bool,
      (optionalPart .moduleAccessor accessor ++ (optionalPart .instanceTests tests ++
        (optionalPart .typeData data ++ (optionalPart .staticFields true ++
          (optionalPart .staticInitializers true ++ []))))).Nodup := by decide
  have all := distinct (linked.hasModuleAccessor && linked.kind.isModuleLike)
    (!linked.name.isRoot && linked.hasInstanceTests) (!linked.name.isRoot && linked.hasTypeData)
  have tests := (List.nodup_append.1 all).2.1
  have data := (List.nodup_append.1 tests).2.1
  have fields := (List.nodup_append.1 data).2.1
  have initializers := (List.nodup_append.1 fields).2.1
  unfold emitShell
  refine comparison.opened _ (fun quiet => (versioned quiet).classVersion context)
    (emitShellPart_andThen_holds context all (fun accessor => ?_))
  refine emitShellPart_andThen_holds context tests (fun tests => ?_)
  refine emitShellPart_andThen_holds context data (fun data => ?_)
  refine emitShellPart_andThen_holds context fields (fun fields => ?_)
  refine emitShellPart_andThen_holds context initializers (fun initializers => ?_)
  exact comparison.done rfl

/-- The definition of a class that may have none compares. -/
theorem emitOptionalDefinition_holds
    (distinct : comparison.exclusive →
      (if linked.needsDefinition then definitionCells context linked else []).Nodup) :
    comparison.Holds (if linked.needsDefinition then definitionCells context linked else [])
      (emitOptionalDefinition context linked) (emitOptionalDefinition context linked) Eq := by
  unfold emitOptionalDefinition
  by_cases defined : linked.needsDefinition = true
  · simp only [defined, if_true] at distinct ⊢
    exact emitDefinition_holds context versioned distinct
  · simp only [defined]
    exact comparison.done rfl

/-- A class compares. -/
theorem emitClass_holds (distinct : comparison.exclusive → (classCells context linked).Nodup) :
    comparison.Holds (classCells context linked) (emitClass context linked)
      (emitClass context linked) Eq := by
  unfold classCells at distinct ⊢
  by_cases native : linked.kind = .nativeJsClass
  · unfold emitClass
    simp only [native, if_true]
    exact comparison.done rfl
  simp only [native, if_false] at distinct ⊢
  have parts := fun exclusive => List.nodup_append.1 (distinct exclusive)
  have rests := fun exclusive => List.nodup_append.1 (parts exclusive).2.1
  rw [emitClass_eq context native]
  refine comparison.andThen
    (emitFunctions_holds context versioned (fun exclusive => (parts exclusive).1))
    (fun exclusive => ⟨distinct exclusive, same_list_refl exclusive⟩)
    (fun functions others same => ?_)
  rw [collect, Artifact.tracked_eq_of_matches same]
  refine comparison.andThen
    (emitOptionalDefinition_holds context versioned (fun exclusive => (rests exclusive).1))
    (fun exclusive => ⟨(parts exclusive).2.1, fun _ => rfl⟩) ?_
  rintro definition _ rfl
  refine map (emitShell_holds context versioned)
    (fun exclusive => ⟨(rests exclusive).2.1, fun _ => rfl⟩) ?_
  rintro shell _ rfl
  rfl

end Classes

section Modules

variable (context : Context) {unit : Module}
  (versioned : comparison.quiet → unit.AllVersioned)

include versioned

/-- Modules are emitted with libraries that have the same result. -/
theorem emitModule_holds {library? other? : Option (Artifact Bootstrap)} (exported : Bool)
    (distinct : comparison.exclusive → (moduleCells context unit).Nodup)
    (same : library?.map Artifact.tracked = other?.map Artifact.tracked) :
    comparison.Holds (moduleCells context unit) (emitModule context library? unit exported)
      (emitModule context other? unit exported) Eq := by
  have parts := fun exclusive => List.nodup_cons.1 (distinct exclusive)
  have rests := fun exclusive => List.nodup_append.1 (parts exclusive).2
  have reads : ∀ {first second : Artifact (List Tree)}, first.tracked = second.tracked →
      first.value = second.value ∧ first.refs = second.refs :=
    fun same => ⟨congrArg Tracked.value same, congrArg Tracked.refs same⟩
  unfold emitModule moduleCells
  rw [bootstrapOf_congr unit same]
  refine request (comparison.modulePart unit.id .imports _ (fun _ => rfl))
    (fun exclusive => ⟨distinct exclusive, fun _ => rfl⟩) (fun imports _ sameImports => ?_)
  refine comparison.andThen (mapM (fun exclusive => ⟨(rests exclusive).1, fun _ => rfl⟩)
      (fun linked found => emitClass_holds context
        (fun quiet => (versioned quiet).classes linked (Module.mem_emissionOrder.1 found)) ?_))
    (fun exclusive => ⟨(parts exclusive).2, fun _ => List.forall₂_eq_eq_eq ▸ rfl⟩) ?_
  · exact fun exclusive => (List.nodup_flatMap.1 (rests exclusive).1).1 linked found
  rintro classes _ same
  obtain rfl := List.forall₂_eq_eq_eq ▸ same
  refine request (comparison.modulePart unit.id .topLevelExports _
      (fun quiet => (versioned quiet).topLevelExportsVersion context))
    (fun exclusive => ⟨(rests exclusive).2.1, fun _ => rfl⟩) (fun exports _ sameExports => ?_)
  refine request (comparison.modulePart unit.id .initializers _
      (fun quiet => (versioned quiet).initializersVersion context))
    (fun _ => ⟨List.nodup_singleton _, fun _ => rfl⟩) (fun initializers _ same => ?_)
  simp only [(reads sameImports).1, (reads sameImports).2, (reads sameExports).1,
    (reads sameExports).2, (reads same).1, (reads same).2]
  split
  · exact comparison.failed _ _
  · exact comparison.done rfl

/-- The module of a unit compares. -/
theorem emitUnit_holds {contexts : ModuleId → Context} (imported : List ModuleId)
    (distinct : comparison.exclusive → (unitCells (contexts unit.id) unit).Nodup) :
    comparison.Holds (unitCells (contexts unit.id) unit) (emitUnit contexts imported unit)
      (emitUnit contexts imported unit) Eq := by
  unfold emitUnit emitBootstrap unitCells
  cases root : unit.isRoot with
  | true =>
    simp only [unitCells, root, if_true] at distinct ⊢
    simp only [bind_assoc, pure_bind]
    refine request (comparison.library _) (fun exclusive => ⟨distinct exclusive, fun _ => rfl⟩)
      (fun library other same => ?_)
    exact emitModule_holds _ versioned _
      (fun exclusive => (List.nodup_cons.1 (distinct exclusive)).2) (congrArg some same)
  | false =>
    simp only [unitCells, root] at distinct ⊢
    exact emitModule_holds _ versioned _ distinct rfl

end Modules

/-- All modules of a program compare. -/
theorem mapM_emitUnit_holds (contexts : ModuleId → Context) (imported : List ModuleId)
    {program : Program} (versioned : comparison.quiet → program.AllVersioned)
    (distinct : comparison.exclusive → (programCells contexts program).Nodup) :
    comparison.Holds (programCells contexts program)
      (program.dependencyOrder.mapM (emitUnit contexts imported))
      (program.dependencyOrder.mapM (emitUnit contexts imported)) Eq := by
  rw [← List.forall₂_eq_eq_eq]
  exact mapM (fun exclusive => ⟨distinct exclusive, fun _ => rfl⟩) (fun unit found =>
    emitUnit_holds
      (fun quiet => versioned quiet unit (Program.mem_of_mem_dependencyOrder found)) imported
      (fun exclusive => (List.nodup_flatMap.1 (distinct exclusive)).1 unit found))

end Comparison

end JsEmitter
