import JsEmitter.Proofs.ColdRequests
import JsEmitter.Proofs.EmittablePrograms
import JsEmitter.Proofs.MemberLayouts
import JsEmitter.Proofs.ProgramCells
import JsEmitter.Proofs.StableReemission
import JsEmitter.Proofs.Statistics

/-!
# Class definitions of new emitters

In a run of a new emitter every class definition starts cold, and stands in one piece in the body of
its module. So what it defines is known from the class alone, with class syntax and without, and the
two layouts define the same members: `Emitter.emit_sameMembers`.
-/
namespace JsEmitter

open Js (Tree)
open Lowering (Context ConstructorParts)

/-- A successful step for every element of a list reaches each of them after those before it. -/
theorem Step.exists_of_mapM {ε σ α γ : Type} {step : γ → Step ε σ α} {items : List γ}
    {start last : σ} {values : List α} (ran : items.mapM step start = .ok values last) {item : γ}
    (found : item ∈ items) :
    ∃ first rest earlier value before after, items = first ++ item :: rest ∧
      first.mapM step start = .ok earlier before ∧ step item before = .ok value after ∧
      value ∈ values := by
  induction items generalizing start values with
  | nil => cases found
  | cons head rest ih =>
    rw [List.mapM_cons] at ran
    obtain ⟨value, middle, here, ran⟩ := Step.bind_eq_ok ran
    obtain ⟨others, final, there, done⟩ := Step.bind_eq_ok ran
    cases done
    rcases List.mem_cons.1 found with rfl | later
    · exact ⟨[], rest, [], value, start, middle, rfl, rfl, here, List.mem_cons_self⟩
    · obtain ⟨first, after, earlier, result, before, reached, rfl, ranFirst, ranItem, among⟩ :=
        ih there later
      refine ⟨head :: first, after, value :: earlier, result, before, reached, rfl, ?_, ranItem,
        List.mem_cons_of_mem _ among⟩
      rw [List.mapM_cons, Step.bind_ok _ here, Step.bind_ok _ ranFirst]
      rfl

namespace Emission

variable {context : Context} {linked : LinkedClass} {unit : Module} {program : Program}
  {before after : Caches}

/-- Whether statements are the definition of a class, made by caches that held nothing of it. -/
def IsDefinition (context : Context) (linked : LinkedClass) (statements : List Tree) : Prop :=
  ∃ (before after : Caches) (given : Tracked (List Tree)), Cold context linked before ∧
    emitDefinition context linked before = .ok given after ∧ given.value = statements

/-- Requests to other cells leave a definition cold. -/
theorem Cold.of_touched {cells : List Cell} (cold : Cold context linked before)
    (touched : before.Touched cells after)
    (apart : ∀ cell ∈ definitionCells context linked, cell ∉ cells) :
    Cold context linked after := fun cell found => by
  rw [touched.others cell (apart cell found)]
  exact cold cell found

/-- The cells of a definition are not those of free functions. -/
theorem not_mem_functionCells {cell : Cell} (found : cell ∈ definitionCells context linked) :
    cell ∉ functionCells context linked := by
  intro there
  obtain ⟨method, -, rfl⟩ := List.mem_map.1 there
  simp [definitionCells] at found

/-- The cells of a definition belong to its class. -/
theorem owner_of_mem_definitionCells {cell : Cell}
    (found : cell ∈ definitionCells context linked) :
    cell.owner? = some (.ofClass context.home linked) := by
  revert cell
  unfold definitionCells
  simp only [List.forall_mem_append, List.forall_mem_cons, List.forall_mem_map]
  simp [Cell.owner?, KeyedSort.owner]

/-- Requests to cells that do not belong to a class leave its definition cold. -/
theorem Cold.of_others {cells : List Cell} (cold : Cold context linked before)
    (touched : before.Touched cells after)
    (apart : ∀ cell ∈ cells, cell.owner? ≠ some (.ofClass context.home linked)) :
    Cold context linked after :=
  cold.of_touched touched
    (fun cell found again => apart cell again (owner_of_mem_definitionCells found))

section Steps

variable (defined : linked.needsDefinition = true) (cold : Cold context linked before)

include defined cold

/-- The definition of a class that starts cold is part of its statements. -/
theorem emitClass_defines {given : Tracked ClassFragments}
    (ran : emitClass context linked before = .ok given after) :
    ∃ statements, IsDefinition context linked statements ∧ statements <:+: given.value.main := by
  have generated : linked.kind ≠ .nativeJsClass := by
    intro native
    rw [LinkedClass.needsDefinition, native] at defined
    cases defined
  rw [emitClass_eq context generated] at ran
  obtain ⟨functions, middle, ranFunctions, ran⟩ := Step.bind_eq_ok ran
  obtain ⟨definition, reached, ranDefinition, ran⟩ := Step.bind_eq_ok ran
  obtain ⟨shell, last, -, done⟩ := Step.bind_eq_ok ran
  cases done
  have touched : before.Touched (functionCells context linked) middle :=
    ((Comparison.account.emitFunctions_holds context False.elim False.elim : Accounts _ _ _ _)
      before functions middle ranFunctions).1.touched
  rw [emitOptionalDefinition, if_pos defined] at ranDefinition
  refine ⟨definition.value, ⟨middle, reached, definition,
    cold.of_touched touched (fun _ => not_mem_functionCells), ranDefinition, rfl⟩, ?_⟩
  exact ⟨(collect functions).value, (shell .moduleAccessor).value, rfl⟩

end Steps

/-- The functions and the definition of a class are in the body of its module, in one piece. -/
theorem main_infix_classStatements {library? : Option Lowering.Bootstrap}
    {classes : List ClassFragments} {fragments : ClassFragments} (found : fragments ∈ classes) :
    fragments.main <:+: classStatements context library? classes := by
  have part : ∀ {among : List ClassFragments} (trees : ClassFragments → List Tree),
      fragments ∈ among → trees fragments <:+: among.flatMap trees := fun trees found => by
    rw [List.flatMap_def]
    exact List.infix_of_mem_flatten (List.mem_map_of_mem found)
  have more : ∀ {trees others : List Tree} (rest : List Tree),
      trees <:+: others → trees <:+: others ++ rest :=
    fun rest here => here.trans (List.prefix_append _ rest).isInfix
  have last : ∀ {trees others : List Tree} (rest : List Tree),
      trees <:+: others → trees <:+: rest ++ others :=
    fun rest here => here.trans (List.suffix_append rest _).isInfix
  unfold classStatements
  cases root : fragments.name.isRoot with
  | true =>
    have among : fragments ∈ classes.filter (fun fragments => fragments.name.isRoot) :=
      List.mem_filter.2 ⟨found, root⟩
    exact more _ (more _ (more _ (more _ (more _ (more _ (last _
      (part ClassFragments.main among)))))))
  | false =>
    have among : fragments ∈ classes.filter (fun fragments => !fragments.name.isRoot) :=
      List.mem_filter.2 ⟨found, by simp [root]⟩
    exact more _ (more _ (more _ (last _ ((List.prefix_append _ fragments.typeSupport).isInfix.trans
      (part (fun fragments => fragments.main ++ fragments.typeSupport) among)))))

/-- No class of a module of a checked program is emitted twice. -/
theorem emissionOrder_nodup (checked : program.Checked) (placed : unit ∈ program.modules) :
    unit.emissionOrder.Nodup :=
  (List.mergeSort_perm unit.classes _).nodup_iff.2 (.of_map _ (checked.classNames_nodup placed))

section Modules

variable (checked : program.Checked) (placed : unit ∈ program.modules)
  (there : linked ∈ unit.classes) (defined : linked.needsDefinition = true)

include checked placed there defined

/-- The definition of a class of a module that starts cold is part of the body. -/
theorem emitModule_defines {library? : Option (Artifact Lowering.Bootstrap)} {exported : Bool}
    {output : ModuleOutput} (cold : Cold context linked before)
    (ran : emitModule context library? unit exported before = .ok output after) :
    output.id = unit.id ∧
      ∃ statements, IsDefinition context linked statements ∧ statements <:+: output.body := by
  obtain ⟨imports, afterImports, ranImports, ran⟩ := Step.bind_eq_ok ran
  obtain ⟨classes, afterClasses, ranClasses, ran⟩ := Step.bind_eq_ok ran
  obtain ⟨exports, afterExports, -, ran⟩ := Step.bind_eq_ok ran
  obtain ⟨initializers, last, -, ran⟩ := Step.bind_eq_ok ran
  have touchedImports : before.Touched [.modulePart unit.id .imports] afterImports :=
    (Accounts.modulePart unit.id .imports (context.imports unit) before imports afterImports
      ranImports).1.touched
  obtain ⟨first, rest, earlier, value, now, reached, order, ranFirst, ranClass, among⟩ :=
    Step.exists_of_mapM ranClasses (Module.mem_emissionOrder.2 there)
  have touchedFirst : afterImports.Touched (first.flatMap (classCells context)) now :=
    ((Comparison.account.mapM False.elim (fun other _ =>
      Comparison.emitClass_holds context False.elim False.elim) : Accounts _ _ _ _)
      afterImports earlier now ranFirst).1.touched
  have others : ∀ cell ∈ first.flatMap (classCells context),
      cell.owner? ≠ some (.ofClass context.home linked) := by
    intro cell again same
    obtain ⟨other, earlierThere, here⟩ := List.mem_flatMap.1 again
    have owners := same.symm.trans (owner_of_mem_classCells here)
    have otherThere : other ∈ unit.classes := Module.mem_emissionOrder.1
      (order ▸ List.mem_append_left _ earlierThere)
    obtain ⟨-, rfl⟩ := checked.class_eq_of_key placed placed there otherThere
      (congrArg ClassKey.ancestors (Option.some.inj owners))
    have distinct := emissionOrder_nodup checked placed
    rw [order] at distinct
    exact (List.nodup_append.1 distinct).2.2 _ earlierThere _ List.mem_cons_self rfl
  have coldNow : Cold context linked now :=
    (cold.of_others touchedImports (by simp [Cell.owner?])).of_others touchedFirst others
  obtain ⟨statements, definition, within⟩ := emitClass_defines defined coldNow ranClass
  have main : value.value.main <:+: classStatements context (bootstrapOf unit library?).value
      (Tracked.list classes).value := by
    refine main_infix_classStatements ?_
    rw [Tracked.list_value]
    exact List.mem_map_of_mem among
  dsimp only at ran
  split at ran
  · cases ran
  · cases ran
    refine ⟨rfl, statements, definition, (within.trans main).trans ?_⟩
    exact (((List.prefix_append _ _).trans (List.prefix_append _ _)).trans
      (List.prefix_append _ _)).isInfix

variable {contexts : ModuleId → Context} {imported : List ModuleId}

/-- The definition of a class of a module is part of its body, also where the module has the
bootstrap library. -/
theorem emitUnit_defines {output : ModuleOutput}
    (cold : Cold (contexts unit.id) linked before)
    (ran : emitUnit contexts imported unit before = .ok output after) :
    output.id = unit.id ∧ ∃ statements, IsDefinition (contexts unit.id) linked statements ∧
      statements <:+: output.body := by
  obtain ⟨library?, middle, ranLibrary, ran⟩ := Step.bind_eq_ok ran
  refine emitModule_defines checked placed there defined ?_ ran
  unfold emitBootstrap at ranLibrary
  split at ranLibrary
  · obtain ⟨library, reached, ranLibrary, done⟩ := Step.bind_eq_ok ranLibrary
    cases done
    have touched : before.Touched [.library] middle :=
      (Accounts.library _ before library middle ranLibrary).1.touched
    exact cold.of_others touched (by simp [Cell.owner?])
  · cases ranLibrary
    exact cold

/-- The definition of a class of a program is part of the body of its module. -/
theorem mapM_emitUnit_defines (homes : ∀ id, (contexts id).home = id)
    {outputs : List ModuleOutput} (cold : Cold (contexts unit.id) linked before)
    (ran : program.dependencyOrder.mapM (emitUnit contexts imported) before =
      .ok outputs after) :
    ∃ output ∈ outputs, output.id = unit.id ∧
      ∃ statements, IsDefinition (contexts unit.id) linked statements ∧
        statements <:+: output.body := by
  have order := program.dependencyOrder_perm
  obtain ⟨first, rest, earlier, output, now, reached, split, ranFirst, ranUnit, among⟩ :=
    Step.exists_of_mapM ran (order.mem_iff.2 placed)
  have touched : before.Touched (first.flatMap (fun unit => unitCells (contexts unit.id) unit))
      now :=
    ((Comparison.account.mapM False.elim (fun other _ =>
      Comparison.emitUnit_holds False.elim imported False.elim) : Accounts _ _ _ _)
      before earlier now ranFirst).1.touched
  refine ⟨output, among, emitUnit_defines checked placed there defined
    (cold.of_touched touched (fun cell found again => ?_)) ranUnit⟩
  obtain ⟨other, earlierThere, here⟩ := List.mem_flatMap.1 again
  have owner := owner_of_mem_definitionCells found
  have home : cell.home? = some unit.id := by
    simp [Cell.home?, owner, ClassKey.ofClass, homes]
  rcases home_of_mem_unitCells (homes other.id) here with otherHome | ⟨rfl, -⟩
  · have otherPlaced : other ∈ program.modules :=
      order.mem_iff.1 (split ▸ List.mem_append_left _ earlierThere)
    obtain rfl := checked.unit_eq placed otherPlaced (Option.some.inj (home.symm.trans otherHome))
    have distinct := order.nodup_iff.2 (List.Nodup.of_map _ checked.ids)
    rw [split] at distinct
    exact (List.nodup_append.1 distinct).2.2 _ earlierThere _ List.mem_cons_self rfl
  · cases home

end Modules

end Emission

namespace Emitter

variable {program : Program} {unit : Module} {linked : LinkedClass}

/-- A new emitter makes the definitions of all classes cold, each in one piece in the body of its
module, under the naming scheme that it ends with. -/
theorem emit_defines {setting : Setting} {supply : TokenSupply} {given : EmitResult}
    {reached : Emitter} (done : emit program (fresh setting supply) = .ok given reached)
    (placed : unit ∈ program.modules) (there : linked ∈ unit.classes)
    (defined : linked.needsDefinition = true) :
    ∃ output ∈ given.modules, output.id = unit.id ∧ ∃ statements,
      Emission.IsDefinition (setting.context reached.session.naming (program.site unit)) linked
        statements ∧ statements <:+: output.body := by
  obtain ⟨accepted, start, last, config, filter, ran, -, same, origin⟩ := emit_lastPass done
  have checked := Program.validate_eq_ok_iff.1 (validate_of_check accepted)
  have new : ∃ supply, start.session.caches = .withSupply supply := by
    rcases origin with ⟨-, rfl⟩ | ⟨-, assumed, supply, session⟩
    · exact ⟨supply, rfl⟩
    · exact ⟨supply, by rw [session]; rfl⟩
  obtain ⟨first, new⟩ := new
  obtain ⟨caches, rfl, emitted⟩ := pass_eq_ok ran
  rw [config, filter, Emission.emitPass_eq, new] at emitted
  split at emitted
  · next outputs middle units =>
    cases emitted
    obtain ⟨output, among, defines⟩ := Emission.mapM_emitUnit_defines checked placed there defined
      (fun _ => rfl) (fun cell _ => Emission.withSupply_vacant first cell) units
    refine ⟨output, ?_, defines⟩
    rw [same]
    exact (List.mergeSort_perm outputs _).mem_iff.2 among
  · cases emitted

/-- In a checked program a class refers to its constructor by its name. -/
theorem classRef_own (checked : program.Checked) (placed : unit ∈ program.modules)
    (there : linked ∈ unit.classes) (setting : Setting) (naming : Naming) :
    (setting.context naming (program.site unit)).classRef linked.name =
      .varRef (naming.classConstructor linked.name) := by
  have owner : (ClassIndex.ofProgram program).owner? linked.name = some unit.id := by
    rw [ClassIndex.owner?, ClassIndex.get?_of_valid checked.valid placed there]
    rfl
  change Context.qualify _ ((ClassIndex.ofProgram program).owner? linked.name) _ = _
  rw [owner]
  exact if_neg (fun other => other.1 rfl)

/-- With class syntax and without, the emissions of a program by new emitters define the same
members of each class that has a definition and does not extend the error type of the host, apart
from exported properties with neither a getter nor a setter, which only the statements define. -/
theorem emit_sameMembers (config : Config) (filter : DangerFilter) (supply another : TokenSupply)
    (program : Program) {given alternative : EmitResult} {reached last : Emitter}
    (modern : emit program (fresh ⟨{ config with classSyntax := true }, filter⟩ supply) =
      .ok given reached)
    (classic : emit program (fresh ⟨{ config with classSyntax := false }, filter⟩ another) =
      .ok alternative last) :
    ∀ unit ∈ program.modules, ∀ linked ∈ unit.classes, linked.needsDefinition = true →
      ¬(linked.name.isThrowable = true ∧ linked.kind = .plain) →
      ∃ output ∈ given.modules, ∃ other ∈ alternative.modules,
        output.id = unit.id ∧ other.id = unit.id ∧ ∃ trees statements,
          Emission.IsDefinition (Setting.context ⟨{ config with classSyntax := true }, filter⟩
            reached.session.naming (program.site unit)) linked trees ∧
          trees <:+: output.body ∧
          Emission.IsDefinition (Setting.context ⟨{ config with classSyntax := false }, filter⟩
            last.session.naming (program.site unit)) linked statements ∧
          statements <:+: other.body ∧
          SameMembers (last.session.naming.classConstructor linked.name) linked.bareMembers
            trees statements := by
  intro unit placed linked there defined ordinary
  have checked := Program.validate_eq_ok_iff.1 (validate_of_check (emit_lastPass modern).1)
  obtain ⟨output, among, id, trees, definition, within⟩ := emit_defines modern placed there defined
  obtain ⟨other, amongOther, otherId, statements, otherDefinition, otherWithin⟩ :=
    emit_defines classic placed there defined
  refine ⟨output, among, other, amongOther, id, otherId, trees, statements, definition, within,
    otherDefinition, otherWithin, ?_⟩
  have plain : ∀ context : Context, context.bridgedMethods linked = [] := by
    intro context
    refine if_neg (fun rewired => ordinary ?_)
    simp only [Context.extendsHostError, Bool.and_eq_true, decide_eq_true_eq] at rewired
    exact ⟨rewired.1.1, rewired.2⟩
  obtain ⟨before, after, value, cold, ran, rfl⟩ := definition
  obtain ⟨start, final, result, coldToo, ranToo, rfl⟩ := otherDefinition
  obtain ⟨ctor, value⟩ := Emission.emitDefinition_cold (plain _) cold ran
  obtain ⟨otherCtor, result⟩ := Emission.emitDefinition_cold (plain _) coldToo ranToo
  rw [value, result]
  -- The versions do not depend on the layout, so the same methods serve the members.
  exact Context.fullClass_sameMembers rfl rfl (classRef_own checked placed there _ _) ctor otherCtor
    _

end Emitter

/-- A foreign class with a public method, a static one, a property that is read and written, and a
property without code. -/
def exportingClass : LinkedClass :=
  { (((((LinkedClass.start ⟨"app.J"⟩ .jsClass).extend .root).addPublicMethod ⟨"run"⟩ .skip
      ).addExportedMember (.method "of" true ["from"] .skip) firstVersion
      ).addExportedMember (.property "a-b" false (some .skip) (some ("given", .skip))) firstVersion
      ).addExportedMember (.property "value" false none none) firstVersion with
    hasInstances := true
    jsConstructor? := some ⟨⟨[], [], [], []⟩, firstVersion⟩ }

/-- A program of the root class and a foreign class. -/
def exportingProgram : Program :=
  ⟨[{ Module.start ⟨"main"⟩ with
      isRoot := true
      classes := [{ LinkedClass.start .root .plain with hasInstances := true }, exportingClass] }]⟩

/-- The layouts of a foreign class define the same, but for its property without code. -/
theorem Emitter.emit_sameMembers_exporting : ∃ given reached alternative last,
    Emitter.emit exportingProgram (.fresh ⟨{ Config.standard with classSyntax := true },
      .standard⟩ default) = .ok given reached ∧
    Emitter.emit exportingProgram (.fresh ⟨{ Config.standard with classSyntax := false },
      .standard⟩ default) = .ok alternative last ∧
    ∃ output ∈ given.modules, ∃ other ∈ alternative.modules, ∃ trees statements,
      trees <:+: output.body ∧ statements <:+: other.body ∧
      SameMembers (last.session.naming.classConstructor ⟨"app.J"⟩) [⟨false, "value", none⟩] trees
        statements := by
  have accepted : (Emitter.fresh ⟨{ Config.standard with classSyntax := true }, .standard⟩
      default).check exportingProgram = .ok () := by decide +kernel
  have acceptedToo : (Emitter.fresh ⟨{ Config.standard with classSyntax := false }, .standard⟩
      default).check exportingProgram = .ok () := by decide +kernel
  obtain ⟨given, reached, modern⟩ := Emitter.emit_fresh_ok _ default accepted (by decide)
  obtain ⟨alternative, last, classic⟩ := Emitter.emit_fresh_ok _ default acceptedToo (by decide)
  obtain ⟨output, among, other, amongOther, -, -, trees, statements, -, within, -, withinToo,
      same⟩ :=
    Emitter.emit_sameMembers Config.standard .standard default default exportingProgram modern
      classic _ List.mem_cons_self exportingClass (by simp) rfl (by decide)
  exact ⟨given, reached, alternative, last, modern, classic, output, among, other, amongOther,
    trees, statements, within, withinToo, same⟩

end JsEmitter
