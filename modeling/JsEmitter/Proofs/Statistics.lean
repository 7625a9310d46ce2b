import JsEmitter.Proofs.RequestCounts
import JsEmitter.Proofs.StableReemission
import Mathlib.Algebra.BigOperators.Group.List.Basic
import Mathlib.Algebra.GroupWithZero.Nat

/-!
# Statistics of a run

The statistics of a run are the counters of its last pass. Every class that the host does not
provide is counted once, by its shell. Every method is counted once, as a free function or as a
member of its class, unless it is the constructor in the definition of its class, or a public
method of a class that is emitted without a definition.
-/
namespace JsEmitter

open Lowering (Context)

namespace Program

/-- The classes that are emitted: all but those that the host provides. -/
def emittedClasses (program : Program) : List LinkedClass :=
  (program.classes.map Prod.snd).filter (fun linked => linked.kind ≠ .nativeJsClass)

/-- The constructors that are part of class definitions. -/
def inlinedConstructors (program : Program) : List (Versioned MethodDef) :=
  (program.emittedClasses.filter (ClassIndex.canInline (ClassIndex.parents program))).flatMap
    LinkedClass.constructors

/-- The public methods for which no code is generated, because their class has no definition. -/
def unusedMethods (program : Program) : List (Versioned MethodDef) :=
  (program.emittedClasses.filter (fun linked =>
    !linked.kind.isStaticLike && !linked.needsDefinition)).flatMap
      (fun linked => linked.methodsIn .instancePublic)

end Program

/-- The images of selected elements, counted one element at a time. -/
theorem length_flatMap_filter {α β : Type} (items : List α) (keep : α → Bool) (image : α → List β) :
    ((items.filter keep).flatMap image).length =
      (items.map (fun item => if keep item then (image item).length else 0)).sum := by
  induction items with
  | nil => rfl
  | cons head rest ih =>
    rw [List.filter_cons, List.map_cons, List.sum_cons, ← ih]
    split <;> simp

namespace Program

variable (program : Program)

/-- The elements that some of the emitted classes give, counted over all classes. -/
theorem length_flatMap_emittedClasses {β : Type} (keep : LinkedClass → Bool)
    (image : LinkedClass → List β) :
    ((program.emittedClasses.filter keep).flatMap image).length =
      (program.classes.map (fun owned => if owned.2.kind = .nativeJsClass then 0
        else if keep owned.2 then (image owned.2).length else 0)).sum := by
  rw [emittedClasses, List.filter_filter, length_flatMap_filter, List.map_map]
  refine congrArg List.sum (List.map_congr_left (fun owned _ => ?_))
  by_cases native : owned.2.kind = .nativeJsClass <;> simp [native]

/-- The emitted classes, counted over all classes. -/
theorem length_emittedClasses : program.emittedClasses.length =
    (program.classes.map (fun owned => if owned.2.kind = .nativeJsClass then 0 else 1)).sum := by
  have each := program.length_flatMap_emittedClasses (fun _ => true) (fun linked => [linked])
  simpa using each

end Program

namespace LinkedClass

/-- The methods that are not free functions are public ones, unless the class is static-like. -/
theorem memberMethods_eq (linked : LinkedClass) :
    Context.memberMethods linked =
      if linked.kind.isStaticLike then [] else linked.methodsIn .instancePublic := by
  unfold Context.memberMethods isFreeFunction methodsIn
  cases linked.kind.isStaticLike <;> simp

end LinkedClass

namespace Lowering.Context

variable {context : Context} {linked : LinkedClass} {parents : List ClassName}

/-- The methods that are part of the definition are the constructors of a class that inlines. -/
theorem countP_isInlined
    (known : context.index.inlinesConstructor linked.name = ClassIndex.canInline parents linked) :
    linked.methods.countP (context.isInlined linked) =
      if ClassIndex.canInline parents linked then linked.constructors.length else 0 := by
  unfold isInlined inlinedConstructor?
  rw [known]
  cases inlines : ClassIndex.canInline parents linked with
  | false => simp
  | true =>
    obtain ⟨ctor, only⟩ := ClassIndex.exists_constructors_eq inlines
    have named : ∀ method ∈ linked.methods, method.value.home = .constructor →
        method.value.name = ctor.value.name := by
      intro method found home
      have among : method ∈ linked.constructors := List.mem_filter.2 ⟨found, by simp [home]⟩
      rw [only, List.mem_singleton] at among
      rw [among]
    have counted : linked.constructors.length =
        linked.methods.countP (fun method => decide (method.value.home = .constructor)) := by
      rw [LinkedClass.constructors, LinkedClass.methodsIn, ← List.countP_eq_length_filter]
    rw [if_pos rfl, counted]
    refine List.countP_congr (fun method found => ?_)
    simp only [only, List.head?_cons, Option.any_some, Bool.and_eq_true,
      decide_eq_true_eq]
    exact ⟨fun both => both.1, fun home => ⟨home, named method found home⟩⟩

/-- Every method is a free function, a member, or part of the definition. -/
theorem length_methods
    (known : context.index.inlinesConstructor linked.name = ClassIndex.canInline parents linked) :
    (context.freeFunctions linked).length + (memberMethods linked).length +
      (if ClassIndex.canInline parents linked then linked.constructors.length else 0) =
        linked.methods.length := by
  have inlined : linked.methods.countP (context.isInlined linked) =
      linked.methods.countP (fun method =>
        linked.isFreeFunction method && context.isInlined linked method) := by
    refine List.countP_congr (fun method _ => ?_)
    cases own : context.isInlined linked method with
    | false => simp
    | true =>
      have home : method.value.home = .constructor := by simpa using (Bool.and_eq_true_iff.1 own).1
      simp [LinkedClass.isFreeFunction, home]
  have free := List.countP_eq_countP_filter_add linked.methods linked.isFreeFunction
    (context.isInlined linked)
  have all := List.length_eq_countP_add_countP linked.isFreeFunction (l := linked.methods)
  have placed : (context.freeFunctions linked).length = linked.methods.countP (fun method =>
      linked.isFreeFunction method && !context.isInlined linked method) := by
    rw [freeFunctions, ← List.countP_eq_length_filter]
    exact List.countP_congr (fun method _ => by rw [Bool.and_comm])
  have members : (memberMethods linked).length = linked.methods.countP (fun method =>
      !linked.isFreeFunction method) := by
    rw [memberMethods, ← List.countP_eq_length_filter]
  simp only [List.countP_filter] at free
  rw [← countP_isInlined known, inlined, placed, members]
  simp only [Bool.not_eq_true, Bool.decide_eq_false] at all
  omega

/-- Every method is a free function, a member of a definition or its constructor, unless it is a
public method of a class that is emitted without a definition. -/
theorem length_methods_emitted
    (known : context.index.inlinesConstructor linked.name = ClassIndex.canInline parents linked) :
    (context.freeFunctions linked).length +
      (if linked.needsDefinition then (memberMethods linked).length else 0) +
      (if ClassIndex.canInline parents linked then linked.constructors.length else 0) +
      (if !linked.kind.isStaticLike && !linked.needsDefinition then
        (linked.methodsIn .instancePublic).length else 0) = linked.methods.length := by
  have all := length_methods known
  rw [LinkedClass.memberMethods_eq] at all ⊢
  cases shape : linked.kind.isStaticLike <;> cases defined : linked.needsDefinition <;>
    simp [shape] at all ⊢ <;> omega

end Lowering.Context

namespace Emission

variable {config : Config} {filter : DangerFilter} {naming : Naming} {program : Program}
  {context : Context} {linked : LinkedClass}

/-- A class counts once among the shells, unless it is native. -/
theorem countP_shells_classCells :
    (classCells context linked).countP (Cell.countsFor .shells) =
      if linked.kind = .nativeJsClass then 0 else 1 := by
  unfold classCells functionCells definitionCells shellCells
  split
  · rfl
  · split <;> simp [List.countP_map, Function.comp_def, Cell.countsFor, Cell.isCounted, Cell.sort]

/-- The functions of a class count as often as it has free functions, unless it is native. -/
theorem countP_functions_classCells :
    (classCells context linked).countP (Cell.countsFor (.keyed .functions)) =
      if linked.kind = .nativeJsClass then 0 else (context.freeFunctions linked).length := by
  unfold classCells functionCells definitionCells shellCells
  split
  · rfl
  · split <;> simp [List.countP_map, Function.comp_def, Cell.countsFor, Cell.isCounted, Cell.sort]

/-- The members of a class count as often as it has member methods, if it is defined. -/
theorem countP_members_classCells :
    (classCells context linked).countP (Cell.countsFor (.keyed .members)) =
      if linked.kind = .nativeJsClass then 0
      else if linked.needsDefinition then (Context.memberMethods linked).length else 0 := by
  unfold classCells functionCells definitionCells shellCells
  split
  · rfl
  · split <;> simp [List.countP_map, Function.comp_def, Cell.countsFor, Cell.isCounted, Cell.sort]

/-- The requests to a cache of classes are those that are made for the classes. -/
theorem countP_programCells (contexts : ModuleId → Context) {sort : CellSort}
    (classes : sort ≠ .modules) :
    (programCells contexts program).countP (Cell.countsFor sort) =
      (program.classes.map (fun owned =>
        (classCells (contexts owned.1.id) owned.2).countP (Cell.countsFor sort))).sum := by
  have units : ∀ unit, (unitCells (contexts unit.id) unit).countP (Cell.countsFor sort) =
      (unit.classes.flatMap (classCells (contexts unit.id))).countP (Cell.countsFor sort) := by
    intro unit
    have order := (List.mergeSort_perm unit.classes Module.comesFirst).flatMap_right
      (classCells (contexts unit.id))
    rw [← order.countP_eq]
    unfold unitCells moduleCells
    have parts : CellSort.modules ≠ sort := fun same => classes same.symm
    split <;> simp [Cell.countsFor, Cell.isCounted, Cell.sort, parts, Module.emissionOrder]
  have classwise : program.modules.flatMap (fun unit =>
        unit.classes.flatMap (classCells (contexts unit.id))) =
      program.classes.flatMap (fun owned => classCells (contexts owned.1.id) owned.2) := by
    simp only [Program.classes, List.flatMap_assoc, List.flatMap_map]
  calc (programCells contexts program).countP (Cell.countsFor sort)
    _ = (program.modules.flatMap (fun unit => unitCells (contexts unit.id) unit)).countP
          (Cell.countsFor sort) := (program.dependencyOrder_perm.flatMap_right _).countP_eq _
    _ = (program.modules.flatMap (fun unit =>
          unit.classes.flatMap (classCells (contexts unit.id)))).countP (Cell.countsFor sort) := by
      rw [List.countP_flatMap, List.countP_flatMap]
      simp only [Function.comp_def, units]
    _ = _ := by
      rw [classwise, List.countP_flatMap]
      rfl

/-- A successful pass accounts for the requests of its program. -/
theorem emitPass_accounted {caches last : Caches} {given : Pass}
    (ran : emitPass config filter naming program caches = .ok given last) :
    ∃ reached, caches.startRun.Accounted
        (programCells (contexts config filter naming program) program) reached ∧
      last = reached.endRun ∧ given.stats = .ofCaches reached.classes := by
  have accounts : Accounts (programCells (contexts config filter naming program) program)
      (emitUnits config filter naming program) (emitUnits config filter naming program) Eq :=
    Comparison.account.mapM_emitUnit_holds _ _ False.elim False.elim
  rw [emitPass_eq] at ran
  cases made : emitUnits config filter naming program caches.startRun with
  | error error reached =>
    rw [made] at ran
    cases ran
  | ok outputs reached =>
    rw [made] at ran
    cases ran
    exact ⟨reached, (accounts caches.startRun outputs reached made).1, rfl, rfl⟩

/-- New caches have nothing that could be reused. -/
theorem withSupply_vacant (supply : TokenSupply) (cell : Cell) :
    cell.Vacant ((Caches.withSupply supply).startRun.content cell) := by
  cases cell with
  | keyed sort key => cases sort <;> rfl
  | slot | library => trivial
  | _ => rfl

/-- A pass from new caches reuses nothing. -/
theorem emitPass_cold (checked : program.Checked) (unique : program.UniqueMethods)
    {supply : TokenSupply} {given : Pass} {last : Caches}
    (ran : emitPass config filter naming program (.withSupply supply) = .ok given last) :
    given.stats.classesReused = 0 ∧ given.stats.methodsReused = 0 := by
  obtain ⟨reached, accounted, -, stats⟩ := emitPass_accounted ran
  have distinct := programCells_nodup checked unique
    (fun id => show (contexts config filter naming program id).home = id from rfl)
  have none := accounted.cold (distinct.filter _) (fun cell _ => withSupply_vacant supply cell)
  have shells := none .shells
  have functions := none (.keyed .functions)
  have members := none (.keyed .members)
  rw [Caches.counters_startRun] at shells functions members
  simp only [Caches.counters, Caches.keyed, CacheCounters.zero] at shells functions members
  rw [stats]
  simp only [EmitStats.ofCaches, ClassCaches.methodCounters, CacheCounters.add]
  omega

end Emission

/-- The requests for methods in a program, together with the methods that none is made for, are
all methods of the classes that are emitted. -/
theorem Program.methods_accounted {program : Program} (valid : program.Valid)
    (contexts : ModuleId → Context) (index : ∀ id, (contexts id).index = .ofProgram program) :
    (program.classes.map (fun owned => if owned.2.kind = .nativeJsClass then 0
        else ((contexts owned.1.id).freeFunctions owned.2).length)).sum +
      (program.classes.map (fun owned => if owned.2.kind = .nativeJsClass then 0
        else if owned.2.needsDefinition then (Context.memberMethods owned.2).length else 0)).sum +
      program.inlinedConstructors.length + program.unusedMethods.length =
        (program.emittedClasses.flatMap LinkedClass.methods).length := by
  have methods := program.length_flatMap_emittedClasses (fun _ => true) LinkedClass.methods
  rw [List.filter_eq_self.2 (fun _ _ => rfl)] at methods
  rw [methods, inlinedConstructors, unusedMethods, length_flatMap_emittedClasses,
    length_flatMap_emittedClasses, ← List.sum_map_add, ← List.sum_map_add, ← List.sum_map_add]
  refine congrArg List.sum (List.map_congr_left (fun owned found => ?_))
  obtain ⟨unit, placed, owns⟩ := List.mem_flatMap.1 found
  obtain ⟨linked, there, rfl⟩ := List.mem_map.1 owns
  have known : (contexts unit.id).index.inlinesConstructor linked.name =
      ClassIndex.canInline (ClassIndex.parents program) linked := by
    rw [index, ClassIndex.inlinesConstructor_of_valid valid placed there]
  have all := Context.length_methods_emitted known
  by_cases native : linked.kind = .nativeJsClass
  · simp [native]
  · simpa [native] using all

namespace Emitter

variable {program : Program} {emitter reached : Emitter}

/-- The statistics of a run account for every class and every method once: the classes that are
emitted, and their methods but for constructors that are part of definitions and public methods that
no code is generated for. If there was a second pass, nothing has been reused. -/
theorem emit_stats {given : EmitResult} (done : emit program emitter = .ok given reached) :
    given.stats.classesReused + given.stats.classesInvalidated = program.emittedClasses.length ∧
    given.stats.methodsReused + given.stats.methodsInvalidated +
        program.inlinedConstructors.length + program.unusedMethods.length =
      (program.emittedClasses.flatMap LinkedClass.methods).length ∧
    (given.passes = 2 → program.UniqueMethods →
      given.stats.classesReused = 0 ∧ given.stats.methodsReused = 0) := by
  obtain ⟨accepted, start, last, -, -, ran, -, same, origin⟩ := emit_lastPass done
  have checked := Program.validate_eq_ok_iff.1 (validate_of_check accepted)
  obtain ⟨caches, rfl, ranCaches⟩ := pass_eq_ok ran
  obtain ⟨final, accounted, -, stats⟩ := Emission.emitPass_accounted ranCaches
  have shown : given.stats = .ofCaches final.classes := by
    rw [same, result, stats]
  let contexts := Emission.contexts start.config start.filter start.session.naming program
  have counts : ∀ sort, (final.counters sort).total =
      (Emission.programCells contexts program).countP (Cell.countsFor sort) := by
    intro sort
    rw [accounted.counted, Caches.counters_startRun]
    simp [CacheCounters.total, CacheCounters.zero, contexts]
  have classes := counts .shells
  have functions := counts (.keyed .functions)
  have members := counts (.keyed .members)
  rw [Emission.countP_programCells contexts (by simp)] at classes functions members
  simp only [Emission.countP_shells_classCells] at classes
  simp only [Emission.countP_functions_classCells] at functions
  simp only [Emission.countP_members_classCells] at members
  rw [shown]
  simp only [EmitStats.ofCaches, ClassCaches.methodCounters, CacheCounters.add]
  refine ⟨?_, ?_, ?_⟩
  · rw [Program.length_emittedClasses, ← classes]
    rfl
  · have all := program.methods_accounted checked.valid contexts (fun _ => rfl)
    simp only [CacheCounters.total, Caches.counters, Caches.keyed] at functions members
    rw [← functions, ← members] at all
    omega
  · intro second unique
    obtain ⟨assumed, supply, fresh⟩ : ∃ assumed supply, start.session = .start assumed supply := by
      rcases origin with ⟨first, -⟩ | ⟨-, fresh⟩
      · omega
      · exact fresh
    rw [fresh] at ranCaches
    have cold := Emission.emitPass_cold checked unique ranCaches
    rw [stats] at cold
    simpa only [EmitStats.ofCaches, ClassCaches.methodCounters, CacheCounters.add] using cold

/-- The bootstrap library of the root module reads a name of the host. -/
theorem mem_dangerous_of_root {setting : Setting} {supply : TokenSupply} {given : EmitResult}
    (done : emit program (fresh setting supply) = .ok given reached)
    {unit : Module} (placed : unit ∈ program.modules) (root : unit.isRoot = true)
    (dangerous : setting.filter "TypeError" = true) :
    "TypeError" ∈ given.refs.dangerous setting.filter := by
  obtain ⟨pieces, passes, holds, -, -, same⟩ :=
    (fresh_sound _ [program] supply).emit_ok (List.mem_singleton_self program) done
  have refs : given.refs = setting.recorded (pieces.hosts setting.config) := by
    rw [same]
    exact PassPieces.pass_refs _ _ pieces
  obtain ⟨made, among, outcome⟩ := exists_of_forall₂ (List.Forall₂.flip holds.forall₂)
    (program.dependencyOrder_perm.mem_iff.2 placed)
  have library : made.library?.isSome = true := by
    cases outcome with
    | made made => rw [made.library, root]
  obtain ⟨piece, found⟩ := Option.isSome_iff_exists.1 library
  have host : "TypeError" ∈ pieces.hosts setting.config := by
    refine List.mem_flatMap.2 ⟨made, among, ?_⟩
    cases piece
    simp [ModulePieces.hosts, found, Piece.hosts]
  rw [refs]
  simp only [HostRefs.dangerous, SortedSet.mem_filter, Setting.recorded, SortedSet.mem_ofList,
    List.mem_filter]
  refine ⟨⟨host, ?_⟩, dangerous⟩
  cases setting.config.tracking with
  | all => rfl
  | dangerous => exact dangerous

/-- A new emitter for which that name is dangerous makes two passes over a program with a root
module. -/
theorem emit_fresh_twice {setting : Setting} {supply : TokenSupply} {given : EmitResult}
    (done : emit program (fresh setting supply) = .ok given reached)
    {unit : Module} (placed : unit ∈ program.modules) (root : unit.isRoot = true)
    (dangerous : setting.filter "TypeError" = true) : given.passes = 2 := by
  have recorded := mem_dangerous_of_root done placed root dangerous
  rw [emit_fresh_passes done]
  refine if_neg (fun none => ?_)
  rw [none] at recorded
  exact SortedSet.not_mem_empty recorded

end Emitter

/-- A program of two classes with one method that is no constructor is emitted in two passes, the
second of which reuses nothing. -/
theorem Emitter.emit_stats_layered : ∃ given reached,
    Emitter.emit layeredProgram
      (.fresh ⟨{ Config.standard with moduleKind := .esModule }, fun _ => true⟩ default) =
        .ok given reached ∧
    given.passes = 2 ∧ given.stats = ⟨0, 2, 0, 1⟩ := by
  have accepted : (Emitter.fresh ⟨{ Config.standard with moduleKind := .esModule },
      fun _ => true⟩ default).check layeredProgram = .ok () := by decide +kernel
  obtain ⟨given, reached, done⟩ := Emitter.emit_fresh_ok _ default accepted (by decide)
  have passes : given.passes = 2 :=
    Emitter.emit_fresh_twice done (List.mem_cons_of_mem _ List.mem_cons_self) rfl rfl
  have unique : layeredProgram.UniqueMethods := by decide
  obtain ⟨classes, methods, fresh⟩ := Emitter.emit_stats done
  obtain ⟨reusedClasses, reusedMethods⟩ := fresh passes unique
  have emitted : layeredProgram.emittedClasses.length = 2 := by decide
  have inlined : layeredProgram.inlinedConstructors.length = 1 := by decide
  have unused : layeredProgram.unusedMethods.length = 0 := by decide
  have all : (layeredProgram.emittedClasses.flatMap LinkedClass.methods).length = 2 := by decide
  refine ⟨given, reached, done, passes, ?_⟩
  generalize given.stats = stats at *
  obtain ⟨classesReused, classesInvalidated, methodsReused, methodsInvalidated⟩ := stats
  simp only [EmitStats.mk.injEq] at *
  omega

end JsEmitter
