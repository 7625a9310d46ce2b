import JsEmitter.Emission.Module
import JsEmitter.Linked.Order

/-!
# The emitter

A run emits every module of a program through the caches of the session. Generated names avoid
the host names that the session assumes, but which host names are dangerous is known only when
the code has been generated. If a pass finds other dangerous names than the session assumes, a
new session starts with the names that were found, and the pass is repeated once. A run that
fails gives no output and keeps the caches as far as it came.
-/
namespace JsEmitter

open Lowering (Context Bootstrap)

/-- How much of the last pass of a run was reused. -/
structure EmitStats where
  classesReused : Nat
  classesInvalidated : Nat
  methodsReused : Nat
  methodsInvalidated : Nat
deriving DecidableEq, Repr

/-- The counters of the caches. -/
def EmitStats.ofCaches (caches : ClassCaches) : EmitStats where
  classesReused := caches.shellCounters.reused
  classesInvalidated := caches.shellCounters.invalidated
  methodsReused := caches.methodCounters.reused
  methodsInvalidated := caches.methodCounters.invalidated

/-- What one pass gives: the modules in the order of emission, and the counters. -/
structure Pass where
  outputs : List ModuleOutput
  stats : EmitStats

/-- The host names that the modules of a pass use. -/
def Pass.refs (pass : Pass) : HostRefs :=
  pass.outputs.foldl (fun refs output => refs ∪ output.refs) ∅

/-- What a successful run gives. -/
structure EmitResult where
  header : String
  /-- The modules in the order of their ids. -/
  modules : List ModuleOutput
  /-- The recorded host names of all modules. -/
  refs : HostRefs
  dangerousRefs : HostRefs
  stats : EmitStats
  /-- One, or two if the dangerous names were not those that were assumed. -/
  passes : Nat

namespace Emission

/-- The modules whose definitions other modules use: those that others depend on, and the root
module if there is another module. -/
def importedIds (program : Program) (index : ClassIndex) : List ModuleId :=
  program.modules.flatMap (fun unit => unit.internalDependencies.toList) ++
  (if 1 < program.modules.length then index.rootModule?.toList else [])

/-- The bootstrap library for a module, which only the root module has. -/
def emitBootstrap (context : Context) (unit : Module) :
    Step EmitError Caches (Option (Artifact Bootstrap)) :=
  if unit.isRoot then do
    let artifact ← Caches.requestBootstrap (fun _ => .ok context.bootstrap)
    return some artifact
  else return none

/-- The output of one module of a program. -/
def emitUnit (context : ModuleId → Context) (imported : List ModuleId) (unit : Module) :
    Step EmitError Caches ModuleOutput := do
  let bootstrap? ← emitBootstrap (context unit.id) unit
  emitModule (context unit.id) bootstrap? unit (imported.contains unit.id)

/-- One pass over a program. -/
def emitPass (config : Config) (filter : DangerFilter) (naming : Naming) (program : Program) :
    Step EmitError Caches Pass := do
  modify Caches.startRun
  let index := ClassIndex.ofProgram program
  let outputs ← program.dependencyOrder.mapM
    (emitUnit (fun home => ⟨config, naming, index, filter, home⟩) (importedIds program index))
  let stats := EmitStats.ofCaches (← get).classes
  modify Caches.endRun
  return ⟨outputs, stats⟩

end Emission

/-- An emitter: its configuration, the filter for dangerous names, and the current session. -/
structure Emitter where
  config : Config
  filter : DangerFilter
  session : Session

namespace Emitter

/-- A new emitter with the standard filter. -/
def start (config : Config) : Emitter := ⟨config, .standard, .start ∅ default⟩

/-- The emitter with another filter and a new session. -/
def withFilter (emitter : Emitter) (filter : DangerFilter) : Emitter :=
  { emitter with filter := filter, session := .start ∅ emitter.session.caches.supply }

/-- The emitter with other caches. -/
def withCaches (emitter : Emitter) (caches : Caches) : Emitter :=
  { emitter with session := { emitter.session with caches := caches } }

/-- The emitter with a new session that assumes some host names. -/
def assume (emitter : Emitter) (assumed : HostRefs) : Emitter :=
  { emitter with session := .start assumed emitter.session.caches.supply }

/-- The check that a program can be emitted. -/
def check (emitter : Emitter) (program : Program) : Except EmitError Unit := do
  emitter.config.validate.mapError EmitError.invalidConfig
  (emitter.config.validateModuleCount program.modules.length).mapError EmitError.invalidConfig
  program.validate.mapError EmitError.invalidProgram

/-- One pass over a program in the current session. -/
def pass (program : Program) : Step EmitError Emitter Pass := fun emitter =>
  Step.onPart (fun emitter => emitter.session.caches) withCaches
    (Emission.emitPass emitter.config emitter.filter emitter.session.naming program) emitter

/-- What a pass gives as the result of a run. -/
def result (config : Config) (pass : Pass) (dangerous : HostRefs) (passes : Nat) : EmitResult where
  header := config.header
  modules := pass.outputs.mergeSort (fun first second => (compare first.id second.id).isLE)
  refs := pass.refs
  dangerousRefs := dangerous
  stats := pass.stats
  passes := passes

/-- The second pass, under the dangerous names that the first one found. -/
def emitAgain (program : Program) (assumed : HostRefs) : Step EmitError Emitter EmitResult := do
  modify (fun emitter => emitter.assume assumed)
  let pass ← pass program
  let emitter ← get
  let observed := pass.refs.dangerous emitter.filter
  if observed = assumed then return result emitter.config pass observed 2
  else throw (.refsDiverged assumed observed)

/-- Emit all modules of a program, reusing what earlier runs have cached. -/
def emit (program : Program) : Step EmitError Emitter EmitResult := do
  match (← get).check program with
  | .error error => throw error
  | .ok () =>
    let pass ← pass program
    let emitter ← get
    let dangerous := pass.refs.dangerous emitter.filter
    if dangerous = emitter.session.assumed then
      return result emitter.config pass dangerous 1
    else emitAgain program dangerous

end Emitter

end JsEmitter
