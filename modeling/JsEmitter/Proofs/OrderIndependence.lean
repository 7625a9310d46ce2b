import JsEmitter.Proofs.SameEmission
import JsEmitter.Proofs.StableReemission
import JsEmitter.Proofs.UnitOrder

/-!
# Order independence

Neither the order in which a pass emits the modules nor the order in which a program lists its
modules and their classes changes what a run gives. Only the report that a module is empty lists the
classes in the order of the program, so programs in another order are compared by their success.
-/
namespace JsEmitter

open Lowering (Context)

namespace Step

variable {ε σ α β γ δ : Type}

/-- Whether a step is successful whenever another one is, and then does the same. -/
def Follows (first second : Step ε σ α) : Prop :=
  ∀ state value last, first state = .ok value last → second state = .ok value last

/-- A step follows itself. -/
theorem Follows.refl (step : Step ε σ α) : step.Follows step := fun _ _ _ ran => ran

/-- Steps one after the other follow others if each of them does. -/
theorem Follows.bind {first second : Step ε σ α} {next following : α → Step ε σ β}
    (follows : first.Follows second) (rest : ∀ value, (next value).Follows (following value)) :
    (first >>= next).Follows (second >>= following) := by
  intro state value last ran
  obtain ⟨given, middle, start, later⟩ := bind_eq_ok ran
  rw [bind_ok _ (follows state given middle start)]
  exact rest given middle value last later

/-- Steps for related items follow each other if each of them does. -/
theorem Follows.mapM {items : List γ} {others : List δ} {step : γ → Step ε σ α}
    {other : δ → Step ε σ α}
    {relation : γ → δ → Prop} (related : List.Forall₂ relation items others)
    (each : ∀ item ∈ items, ∀ another, relation item another →
      (step item).Follows (other another)) : (items.mapM step).Follows (others.mapM other) := by
  induction related with
  | nil => exact .refl _
  | cons here _ ih =>
    rw [List.mapM_cons, List.mapM_cons]
    refine (each _ List.mem_cons_self _ here).bind (fun value => ?_)
    exact (ih (fun item found => each item (List.mem_cons_of_mem _ found))).bind
      (fun values => .refl _)

/-- The values of steps have what every single step gives. -/
theorem forall₂_of_mapM {items : List γ} {step : γ → Step ε σ α} {holds : γ → α → Prop}
    {state last : σ} {values : List α} (ran : items.mapM step state = .ok values last)
    (each : ∀ item ∈ items, ∀ state value last, step item state = .ok value last →
      holds item value) : List.Forall₂ holds items values := by
  induction items generalizing state values with
  | nil =>
    cases ran
    exact .nil
  | cons head rest ih =>
    rw [List.mapM_cons] at ran
    obtain ⟨value, middle, start, later⟩ := bind_eq_ok ran
    obtain ⟨others, between, ranRest, done⟩ := bind_eq_ok later
    cases done
    exact .cons (each head List.mem_cons_self _ _ _ start)
      (ih ranRest (fun item found => each item (List.mem_cons_of_mem _ found)))

end Step

namespace Emission

section Modules

variable {context : Context} {unit other : Module}

/-- A module with its classes in another order is emitted in the same way, unless it is empty. -/
theorem emitModule_rearranged (rearranged : unit.Rearranged other)
    (distinct : (unit.classes.map LinkedClass.name).Nodup)
    (bootstrap? : Option (Artifact Lowering.Bootstrap)) (exported : Bool) :
    (emitModule context bootstrap? unit exported).Follows
      (emitModule context bootstrap? other exported) := by
  have order := rearranged.emissionOrder_eq distinct
  have library : bootstrapOf other bootstrap? = bootstrapOf unit bootstrap? := by
    rw [rearranged.rest]
    rfl
  unfold emitModule
  rw [order, library, rearranged.rest]
  refine (Step.Follows.refl _).bind (fun imports => ?_)
  refine (Step.Follows.refl _).bind (fun classes => ?_)
  refine (Step.Follows.refl _).bind (fun exports => ?_)
  refine (Step.Follows.refl _).bind (fun initializers => ?_)
  intro state value last ran
  dsimp only at ran ⊢
  split at ran
  · cases ran
  · next filled =>
    rw [if_neg filled]
    exact ran

end Modules

section Programs

variable {config : Config} {filter : DangerFilter} {naming : Naming} {program other : Program}
  (rearranged : program.Rearranged other) (checked : program.Checked)

include rearranged

/-- The same modules are imported by other modules. -/
theorem importedIds_rearranged (alike : (ClassIndex.ofProgram program).Alike (.ofProgram other))
    (id : ModuleId) : (importedIds other (.ofProgram other)).contains id =
      (importedIds program (.ofProgram program)).contains id := by
  have needed := rearranged.map_perm (fun unit => unit.internalDependencies.toList) (fun _ _ => rfl)
  have dependencies := needed.flatten.symm
  rw [← List.flatMap_def, ← List.flatMap_def] at dependencies
  have count : other.modules.length = program.modules.length := by
    simpa using needed.length_eq.symm
  unfold importedIds
  rw [count, alike.root]
  exact (dependencies.append_right _).contains_eq

include checked

/-- A module of a program in another order is emitted in the same way, unless it is empty. -/
theorem emitUnit_rearranged {unit another : Module} (placed : unit ∈ program.modules)
    (same : unit.Rearranged another) :
    (emitUnit (contexts config filter naming program)
        (importedIds program (.ofProgram program)) unit).Follows
      (emitUnit (contexts config filter naming other)
        (importedIds other (.ofProgram other)) another) := by
  have alike := rearranged.index_alike checked
  have distinct := checked.classNames_nodup placed
  have id : another.id = unit.id := by rw [same.rest]
  have root : another.isRoot = unit.isRoot := by rw [same.rest]
  unfold emitUnit
  rw [importedIds_rearranged rearranged alike, id]
  refine Step.Follows.bind (fun state value last ran => ?_) (fun bootstrap? => ?_)
  · unfold emitBootstrap at ran ⊢
    rw [root]
    exact ran
  · have context : contexts config filter naming other unit.id =
        (contexts config filter naming program unit.id).reindex (.ofProgram other) := rfl
    rw [context, emitModule_alike alike]
    exact emitModule_rearranged same distinct _ _

omit rearranged checked in
/-- The output of a module has its id. -/
theorem emitUnit_id {contexts : ModuleId → Context} {imported : List ModuleId} {unit : Module}
    {state last : Caches} {output : ModuleOutput}
    (ran : emitUnit contexts imported unit state = .ok output last) : output.id = unit.id := by
  obtain ⟨bootstrap?, _, _, ran⟩ := Step.bind_eq_ok ran
  obtain ⟨imports, _, _, ran⟩ := Step.bind_eq_ok ran
  obtain ⟨classes, _, _, ran⟩ := Step.bind_eq_ok ran
  obtain ⟨exports, _, _, ran⟩ := Step.bind_eq_ok ran
  obtain ⟨initializers, _, _, ran⟩ := Step.bind_eq_ok ran
  dsimp only at ran
  split at ran
  · cases ran
  · cases ran
    rfl

/-- A pass over a program in another order gives the same modules, in some order, and reuses as
much. -/
theorem emitPass_rearranged {before after : Caches} (bounded : before.Bounded) {given : Pass}
    (ran : emitPass config filter naming program before = .ok given after) :
    ∃ (pass : Pass) (last : Caches),
      emitPass config filter naming other before = .ok pass last ∧
      given.outputs.Perm pass.outputs ∧ (given.outputs.map ModuleOutput.id).Nodup ∧
      pass.stats = given.stats ∧ last.supply = after.supply := by
  rw [emitPass_eq] at ran
  cases first : emitUnits config filter naming program before.startRun with
  | error error reached =>
    rw [first] at ran
    cases ran
  | ok outputs reached =>
    rw [first] at ran
    obtain ⟨rfl, rfl⟩ := EStateM.Result.ok.inj ran
    have start : before.startRun.Bounded := bounded.startRun
    obtain ⟨order, same, related⟩ :=
      rearranged.exists_order other.dependencyOrder_perm.symm
    rcases @emitUnit_perm _ (contexts config filter naming program) checked (fun _ => rfl)
      (importedIds program (.ofProgram program)) _ start _ _ program.dependencyOrder_perm
      same.symm with
      ⟨error, _, failed, _, emitted, -⟩ | ⟨output, middle, last, emitted, ranOther, alike⟩
    · rw [emitUnits, emitted] at first
      cases first
    · rw [emitUnits, emitted] at first
      obtain ⟨rfl, rfl⟩ := EStateM.Result.ok.inj first
      have follows : emitUnits config filter naming other before.startRun =
          .ok (order.map output) last :=
        Step.Follows.mapM related (fun unit found another there => emitUnit_rearranged rearranged
          checked (same.mem_iff.2 found) there) _ _ _ ranOther
      refine ⟨_, last.endRun, by rw [emitPass_eq, follows], ?_, ?_, ?_, alike.supply.symm⟩
      · exact (program.dependencyOrder_perm.trans same).map output
      · have related := Step.forall₂_of_mapM emitted (fun unit _ _ _ _ => emitUnit_id)
        rw [map_eq_map_iff.2 (related.flip.imp (fun _ _ same => same))]
        exact (program.dependencyOrder_perm.map _).nodup_iff.2 checked.ids
      · have shells := alike.counters .shells
        have functions := alike.counters (.keyed .functions)
        have members := alike.counters (.keyed .members)
        simp only [Caches.counters, Caches.keyed] at shells functions members
        simp only [EmitStats.ofCaches, ClassCaches.methodCounters, shells, functions, members]

end Programs

end Emission

namespace Emitter

variable {program other : Program} {emitter reached : Emitter}

/-- A program in another order is checked alike. -/
theorem check_rearranged (rearranged : program.Rearranged other)
    (accepted : emitter.check program = .ok ()) : emitter.check other = .ok () := by
  have valid := Program.validate_eq_ok_iff.2
    (rearranged.checked (Program.validate_eq_ok_iff.1 (validate_of_check accepted)))
  have count : other.modules.length = program.modules.length := by
    simpa [Program.ids] using rearranged.ids_perm.length_eq.symm
  rw [← accepted, check, check, count, valid, validate_of_check accepted]

/-- A pass over a program in another order has the same results for a run. -/
theorem pass_rearranged (rearranged : program.Rearranged other) (checked : program.Checked)
    (bounded : emitter.session.caches.Bounded) {given : Pass}
    (done : pass program emitter = .ok given reached) :
    ∃ (again : Pass) (last : Emitter), pass other emitter = .ok again last ∧
      again.refs = given.refs ∧ last.config = reached.config ∧ last.filter = reached.filter ∧
      last.session.assumed = reached.session.assumed ∧
      (∀ assumed, last.assume assumed = reached.assume assumed) ∧
      ∀ dangerous passes, result last.config again dangerous passes =
        result reached.config given dangerous passes := by
  obtain ⟨caches, rfl, ran⟩ := pass_eq_ok done
  obtain ⟨again, last, ranOther, order, ids, stats, supply⟩ :=
    Emission.emitPass_rearranged rearranged checked bounded ran
  have refs : again.refs = given.refs := (Pass.refs_perm order).symm
  refine ⟨again, emitter.withCaches last, ?_, refs, rfl, rfl, rfl, fun assumed => ?_,
    fun dangerous passes => ?_⟩
  · unfold pass Step.onPart
    rw [ranOther]
  · simp only [assume, withCaches, supply]
  · have modules := mergeSort_perm_eq (compareOn ModuleOutput.id) order
      (fun output here other there same => List.inj_on_of_nodup_map ids here there
        (Std.LawfulEqOrd.eq_of_compare same))
    simp only [result, refs, stats, EmitResult.mk.injEq, and_true]
    exact ⟨rfl, modules.symm⟩

/-- The second pass over a program in another order gives the same. -/
theorem emitAgain_rearranged (rearranged : program.Rearranged other) (checked : program.Checked)
    {assumed : HostRefs} {given : EmitResult}
    (done : emitAgain program assumed emitter = .ok given reached) {start : Emitter}
    (same : start.assume assumed = emitter.assume assumed) :
    ∃ last, emitAgain other assumed start = .ok given last := by
  rw [emitAgain_eq] at done ⊢
  cases ran : pass program (emitter.assume assumed) with
  | error error middle =>
    rw [ran] at done
    cases done
  | ok settled middle =>
    obtain ⟨again, last, ranOther, refs, -, filter, -, -, results⟩ :=
      pass_rearranged rearranged checked (withSupply_bounded _) ran
    rw [ran] at done
    rw [same, ranOther]
    dsimp only at done ⊢
    rw [refs, filter]
    split at done
    · next stable =>
      cases done
      exact ⟨last, by rw [if_pos stable, results]⟩
    · cases done

/-- A run over a program in another order gives the same. -/
theorem emit_rearranged (rearranged : program.Rearranged other)
    (bounded : emitter.session.caches.Bounded) {given : EmitResult}
    (done : emit program emitter = .ok given reached) :
    ∃ last, emit other emitter = .ok given last := by
  obtain ⟨accepted, -⟩ := emit_eq_ok bounded done
  have checked := Program.validate_eq_ok_iff.1 (validate_of_check accepted)
  rw [emit_checked accepted] at done
  rw [emit_checked (check_rearranged rearranged accepted)]
  cases ran : pass program emitter with
  | error error middle =>
    rw [ran] at done
    cases done
  | ok started middle =>
    obtain ⟨again, last, ranOther, refs, -, filter, assumed, assume, results⟩ :=
      pass_rearranged rearranged checked bounded ran
    rw [ran] at done
    rw [ranOther]
    dsimp only at done ⊢
    rw [refs, filter, assumed]
    split at done
    · next stable =>
      cases done
      exact ⟨last, by rw [if_pos stable, results]⟩
    · next unstable =>
      rw [if_neg unstable]
      exact emitAgain_rearranged rearranged checked done (assume _)

/-- The order in which a pass emits the modules of an accepted program makes no difference but for
tokens, and the order in which a program lists its modules and their classes makes no difference for
a successful run. This holds in every state whose caches have taken their tokens from the supply, as
those of every reachable emitter have: `Reachable.bounded`. -/
theorem order_independent (bounded : emitter.session.caches.Bounded)
    (accepted : program.validate = .ok ()) :
    (∀ first second : List Module, first.Perm program.modules → second.Perm program.modules →
      let emitUnit := Emission.emitUnit
        (Emission.contexts emitter.config emitter.filter emitter.session.naming program)
        (Emission.importedIds program (.ofProgram program))
      (∃ error cause reached last,
        first.mapM emitUnit emitter.session.caches = .error error reached ∧
        second.mapM emitUnit emitter.session.caches = .error cause last) ∨
      ∃ (output : Module → ModuleOutput) (reached last : Caches),
        first.mapM emitUnit emitter.session.caches = .ok (first.map output) reached ∧
        second.mapM emitUnit emitter.session.caches = .ok (second.map output) last ∧
        (Pass.mk (first.map output) (.ofCaches reached.classes)).refs =
          (Pass.mk (second.map output) (.ofCaches last.classes)).refs ∧
        reached.SameButTokens last) ∧
    ∀ (other : Program) (given : EmitResult) (reached : Emitter), program.Rearranged other →
      emit program emitter = .ok given reached → ∃ last, emit other emitter = .ok given last := by
  refine ⟨fun first second one two => ?_, fun other given reached rearranged done =>
    emit_rearranged rearranged bounded done⟩
  refine (Emission.emitUnit_perm (Program.validate_eq_ok_iff.1 accepted) (fun _ => rfl) _ bounded
    one two).imp_right ?_
  rintro ⟨output, reached, last, ran, ranOther, alike⟩
  exact ⟨output, reached, last, ran, ranOther, Pass.refs_perm ((one.trans two.symm).map output),
    alike⟩

end Emitter

/-- A program with its modules and their classes in reverse order. -/
def Program.reversed (program : Program) : Program :=
  ⟨(program.modules.map (fun unit => { unit with classes := unit.classes.reverse })).reverse⟩

/-- A program with everything in reverse order is a rearrangement. -/
theorem Program.rearranged_reversed (program : Program) : program.Rearranged program.reversed :=
  ⟨_, List.forall₂_map_right_iff.2 (List.forall₂_same.2 (fun unit _ =>
    ⟨(List.reverse_perm unit.classes).symm, rfl⟩)), (List.reverse_perm _).symm⟩

/-- Two modules, one of which has two classes that extend the root class of the other. -/
def siblingProgram : Program :=
  ⟨[{ (Module.start ⟨"main"⟩).dependOn ⟨"lib"⟩ with
      classes := [
        { (LinkedClass.start ⟨"app.B"⟩ .plain).extend .root with hasInstances := true },
        { ((LinkedClass.start ⟨"app.A"⟩ .plain).extend .root).addPublicMethod ⟨"run"⟩
            (.globalRef "console") with hasInstances := true }] },
    { Module.start ⟨"lib"⟩ with
      isRoot := true
      classes := [{ LinkedClass.start .root .plain with hasInstances := true }] }]⟩

/-- A program and the same program in reverse order give the same in a first run. -/
theorem Emitter.order_independent_siblings : ∃ given reached last,
    Emitter.emit siblingProgram (.start { Config.standard with moduleKind := .esModule }) =
      .ok given reached ∧
    Emitter.emit siblingProgram.reversed
      (.start { Config.standard with moduleKind := .esModule }) = .ok given last := by
  have accepted : (Emitter.fresh ⟨{ Config.standard with moduleKind := .esModule }, .standard⟩
      default).check siblingProgram = .ok () := by decide +kernel
  obtain ⟨given, reached, done⟩ := Emitter.emit_fresh_ok _ default accepted (by decide)
  obtain ⟨last, same⟩ := (Emitter.order_independent (Emitter.Reachable.start _).bounded
    (by decide +kernel)).2 _ given reached siblingProgram.rearranged_reversed done
  exact ⟨given, reached, last, done, same⟩

end JsEmitter
