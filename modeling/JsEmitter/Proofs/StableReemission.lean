import JsEmitter.Linked.Building
import JsEmitter.Proofs.AcceptedPrograms
import JsEmitter.Proofs.EmittablePrograms
import JsEmitter.Proofs.ProgramCells
import JsEmitter.Proofs.ReachableEmitters
import JsEmitter.Proofs.Resumption

/-!
# Stable re-emission

A program that has been emitted is emitted again at once: with one pass and the same modules,
whatever the emitter has gone through before. If everything in the program is versioned, no cache
computes anything.
-/
namespace JsEmitter

open Lowering (Context)

/-- The end of a run keeps the cells that have been requested for a program. -/
theorem Caches.Touched.content_endRun {contexts : ModuleId → Context} {program : Program}
    {before after : Caches}
    (touched : before.Touched (Emission.programCells contexts program) after)
    {cell : Cell} (found : cell ∈ Emission.programCells contexts program) :
    after.endRun.content cell = after.content cell :=
  Caches.content_endRun _ (touched.used cell found)
    (fun _ _ slot => touched.used _ (Emission.shell_mem_programCells (slot ▸ found)))

namespace Emission

variable {config : Config} {filter : DangerFilter} {naming : Naming} {program : Program}

/-- The contexts of the modules of a program. -/
def contexts (config : Config) (filter : DangerFilter) (naming : Naming) (program : Program)
    (home : ModuleId) : Context :=
  ⟨config, naming, .ofProgram program, filter, home⟩

/-- The modules of a pass. -/
def emitUnits (config : Config) (filter : DangerFilter) (naming : Naming) (program : Program) :
    Step EmitError Caches (List ModuleOutput) :=
  program.dependencyOrder.mapM
    (emitUnit (contexts config filter naming program) (importedIds program (.ofProgram program)))

/-- A pass emits the modules between the start and the end of a run. -/
theorem emitPass_eq (caches : Caches) :
    emitPass config filter naming program caches =
      match emitUnits config filter naming program caches.startRun with
      | .ok outputs reached => .ok ⟨outputs, .ofCaches reached.classes⟩ reached.endRun
      | .error error reached => .error error reached := by
  change EStateM.bind (emitUnits config filter naming program) _ caches.startRun = _
  unfold EStateM.bind
  cases emitUnits config filter naming program caches.startRun <;> rfl

/-- A pass after a successful one over the same program is successful, and gives the same modules.
It computes nothing if everything in the program is versioned. -/
theorem emitPass_again (checked : program.Checked) (unique : program.UniqueMethods)
    {before after : Caches} (bounded : before.Bounded) {given : Pass}
    (ran : emitPass config filter naming program before = .ok given after) :
    ∃ again last, emitPass config filter naming program after = .ok again last ∧
      again.outputs = given.outputs ∧ again.stats = .ofCaches last.classes ∧
      (program.AllVersioned → ∀ sort, (last.counters sort).invalidated = 0) := by
  have resumes : Resumes before.supply.next program.AllVersioned
      (programCells (contexts config filter naming program) program)
      (emitUnits config filter naming program) (emitUnits config filter naming program) Eq :=
    (Comparison.resumption before.supply.next program.AllVersioned).mapM_emitUnit_holds _ _ id
      (fun _ => programCells_nodup checked unique (fun _ => rfl))
  rw [emitPass_eq] at ran
  cases first : emitUnits config filter naming program before.startRun with
  | error error reached =>
    rw [first] at ran
    cases ran
  | ok outputs reached =>
    rw [first] at ran
    obtain ⟨rfl, rfl⟩ := EStateM.Result.ok.inj ran
    obtain ⟨touched, again⟩ := resumes before.startRun outputs reached (Nat.le_refl _)
      (fun cell _ => bounded.startRun cell) first
    have ready : ∀ cell ∈ programCells (contexts config filter naming program) program,
        cell.Ready (before.startRun.content cell) (reached.content cell)
          (reached.endRun.startRun.content cell) := by
      intro cell found
      rw [Caches.content_startRun reached.endRun, touched.content_endRun found]
      exact cell.ready_reset _ _
    obtain ⟨result, last, second, same, -, still⟩ := again reached.endRun.startRun
      touched.supply ready
    refine ⟨_, last.endRun, by rw [emitPass_eq, second], same.symm, rfl, fun versioned sort => ?_⟩
    rw [Caches.counters_endRun, still versioned, Caches.counters_startRun]
    rfl

end Emission

namespace Emitter

variable {program : Program} {emitter reached : Emitter}

/-- A successful pass of an emitter is one through its caches. -/
theorem pass_eq_ok {given : Pass} (done : pass program emitter = .ok given reached) :
    ∃ caches, reached = emitter.withCaches caches ∧
      Emission.emitPass emitter.config emitter.filter emitter.session.naming program
        emitter.session.caches = .ok given caches := by
  unfold pass Step.onPart at done
  cases ran : Emission.emitPass emitter.config emitter.filter emitter.session.naming program
      emitter.session.caches with
  | ok value caches =>
    rw [ran] at done
    cases done
    exact ⟨caches, rfl, rfl⟩
  | error error caches =>
    rw [ran] at done
    cases done

/-- New caches hold no tokens. -/
theorem withSupply_bounded (supply : TokenSupply) : (Caches.withSupply supply).Bounded := by
  intro cell token found
  cases cell with
  | keyed sort key => cases sort <;> cases found
  | _ => cases found

/-- A successful run ends with a pass that uses the dangerous names that its session assumes: the
pass of the emitter itself, or a second one in a new session. -/
theorem emit_lastPass {given : EmitResult} (done : emit program emitter = .ok given reached) :
    emitter.check program = .ok () ∧ ∃ (start : Emitter) (last : Pass),
      start.config = emitter.config ∧ start.filter = emitter.filter ∧
      pass program start = .ok last reached ∧
      last.refs.dangerous reached.filter = reached.session.assumed ∧
      given = result reached.config last reached.session.assumed given.passes ∧
      (given.passes = 1 ∧ start = emitter ∨
        given.passes = 2 ∧ ∃ assumed supply, start.session = .start assumed supply) := by
  cases checked : emitter.check program with
  | error error =>
    rw [emit_refused checked] at done
    cases done
  | ok =>
    refine ⟨rfl, ?_⟩
    rw [emit_checked checked] at done
    cases first : pass program emitter with
    | error error middle =>
      rw [first] at done
      cases done
    | ok started middle =>
      rw [first] at done
      dsimp only at done
      split at done
      · next stable =>
        cases done
        exact ⟨emitter, started, rfl, rfl, first, stable, by rw [stable]; rfl, .inl ⟨rfl, rfl⟩⟩
      · obtain ⟨caches, rfl, -⟩ := pass_eq_ok first
        rw [emitAgain_eq] at done
        split at done
        · cases done
        · next last final second =>
          split at done
          · next settled =>
            cases done
            obtain ⟨others, rfl, -⟩ := pass_eq_ok second
            exact ⟨(emitter.withCaches caches).assume _, last, rfl, rfl, second, settled, rfl,
              .inr ⟨rfl, _, _, rfl⟩⟩
          · cases done

/-- The last pass of a successful run starts from caches that hold tokens of their supply. -/
theorem emit_eq_ok {given : EmitResult} (bounded : emitter.session.caches.Bounded)
    (done : emit program emitter = .ok given reached) :
    emitter.check program = .ok () ∧ ∃ (start : Emitter) (last : Pass) (passes : Nat),
      start.session.caches.Bounded ∧ start.config = emitter.config ∧
      pass program start = .ok last reached ∧
      last.refs.dangerous reached.filter = reached.session.assumed ∧
      given = result reached.config last reached.session.assumed passes := by
  obtain ⟨checked, start, last, config, -, ran, stable, same, origin⟩ := emit_lastPass done
  refine ⟨checked, start, last, _, ?_, config, ran, stable, same⟩
  rcases origin with ⟨-, rfl⟩ | ⟨-, assumed, supply, fresh⟩
  · exact bounded
  · rw [fresh]
    exact withSupply_bounded supply

/-- A program that has been emitted is emitted again at once, with one pass and the same modules,
in every state that an emitter can reach. If everything in the program is versioned, then no cache
computes anything. -/
theorem emit_again (reachable : emitter.Reachable) (unique : program.UniqueMethods)
    {given : EmitResult} (done : emit program emitter = .ok given reached) :
    ∃ (again : EmitResult) (last : Emitter), emit program reached = .ok again last ∧
      again.passes = 1 ∧ again.modules = given.modules ∧ again.refs = given.refs ∧
      again.dangerousRefs = given.dangerousRefs ∧
      (program.AllVersioned → again.stats.classesInvalidated = 0 ∧
        again.stats.methodsInvalidated = 0 ∧
        ∀ sort, (last.session.caches.counters sort).invalidated = 0) := by
  obtain ⟨accepted, start, given, passes, bounded, config, ran, stable, rfl⟩ :=
    emit_eq_ok reachable.bounded done
  obtain ⟨caches, rfl, ranCaches⟩ := pass_eq_ok ran
  have checked := Program.validate_eq_ok_iff.1 (validate_of_check accepted)
  obtain ⟨again, last, ranAgain, outputs, stats, quiet⟩ :=
    Emission.emitPass_again checked unique bounded ranCaches
  have acceptedAgain : (start.withCaches caches).check program = .ok () := by
    rw [← accepted, check, check]
    simp only [withCaches, config]
  have passAgain : pass program (start.withCaches caches) =
      .ok again ((start.withCaches caches).withCaches last) := by
    unfold pass Step.onPart
    simp only [withCaches] at ranAgain ⊢
    rw [show Session.naming { start.session with caches := caches } = start.session.naming from rfl,
      ranAgain]
  have refs : again.refs = given.refs := by rw [Pass.refs, Pass.refs, outputs]
  have stableAgain : again.refs.dangerous start.filter = start.session.assumed := by
    rw [refs]
    exact stable
  have emitted : emit program (start.withCaches caches) =
      .ok (result start.config again start.session.assumed 1)
        ((start.withCaches caches).withCaches last) := by
    rw [emit_checked acceptedAgain, passAgain]
    exact (if_pos stableAgain).trans (by rw [← stableAgain]; rfl)
  refine ⟨_, _, emitted, rfl, ?_, refs, rfl, fun versioned => ⟨?_, ?_, quiet versioned⟩⟩
  · simp only [result, outputs]
  · simp only [result, stats]
    exact quiet versioned .shells
  · have functions := quiet versioned (.keyed .functions)
    have members := quiet versioned (.keyed .members)
    simp only [result, stats, EmitStats.ofCaches, ClassCaches.methodCounters, CacheCounters.add]
    simp only [Caches.counters, Caches.keyed] at functions members
    omega

end Emitter

/-- Two modules, one of which has a class that extends the root class of the other. A method reads a
host name that looks generated, so the first run takes two passes. -/
def layeredProgram : Program :=
  ⟨[{ (Module.start ⟨"main"⟩).dependOn ⟨"lib"⟩ with
      classes := [{ (((LinkedClass.start ⟨"app.A"⟩ .plain).extend .root).addPublicMethod ⟨"run"⟩
          (.globalRef "$c_O")).addConstructor ⟨"<init>"⟩ [] .skip with
        hasInstances := true, hasInstanceTests := true, hasTypeData := true }] },
    { Module.start ⟨"lib"⟩ with
      isRoot := true
      classes := [{ LinkedClass.start .root .plain with
        hasInstances := true, hasTypeData := true }] }]⟩

/-- A versioned program is emitted by a new emitter, and again. -/
theorem Emitter.emit_again_layered : ∃ given reached,
    Emitter.emit layeredProgram (.start { Config.standard with moduleKind := .esModule }) =
      .ok given reached ∧
    ∃ again last, Emitter.emit layeredProgram reached = .ok again last ∧
      again.passes = 1 ∧ again.modules = given.modules ∧ again.stats.classesInvalidated = 0 := by
  have accepted : (Emitter.fresh ⟨{ Config.standard with moduleKind := .esModule }, .standard⟩
      default).check layeredProgram = .ok () := by decide +kernel
  obtain ⟨given, reached, done⟩ := Emitter.emit_fresh_ok _ default accepted (by decide)
  have unique : layeredProgram.UniqueMethods := by decide
  obtain ⟨again, last, emitted, passes, modules, -, -, quiet⟩ :=
    Emitter.emit_again (.start _) unique done
  exact ⟨given, reached, done, again, last, emitted, passes, modules,
    (quiet (by decide +kernel)).1⟩

end JsEmitter
