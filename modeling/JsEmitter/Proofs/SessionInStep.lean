import JsEmitter.Proofs.CachesInStep

/-!
# Sessions in step

The requests to the caches of a session, for a family of runs. Each request works on one of the
caches and on the supply of tokens; the rest stays as it is. The pieces of a shell are requested
while the shell is open for the version of its class.
-/
namespace JsEmitter

open Js (Tree)
open Lowering (ConstructorParts Bootstrap)

variable {ε ι : Type} {family : Family ι} {world : Ledger ι} {version : Version}

namespace CachesInStep

variable {ledger later : Ledger ι} {caches : ι → Caches}

/-- Caches in step stay so when the ledger grows. -/
theorem mono (inStep : CachesInStep family ledger caches) (order : ledger ≤ later) :
    CachesInStep family later caches where
  functions := inStep.functions.mono order
  members := inStep.members.mono order
  bridges := inStep.bridges.mono order
  constructors := inStep.constructors.mono order
  exportedMembers := inStep.exportedMembers.mono order
  definitions := inStep.definitions.mono order
  shells := inStep.shells
  shellCounters := inStep.shellCounters
  modules := inStep.modules.mono order
  library := inStep.library

/-- Caches without entries are in step, whatever their supplies. -/
theorem withSupply (family : Family ι) (ledger : Ledger ι) (supplies : ι → TokenSupply) :
    CachesInStep family ledger (fun side => .withSupply (supplies side)) where
  functions := .empty
  members := .empty
  bridges := .empty
  constructors := .empty
  exportedMembers := .empty
  definitions := TablesInStep.empty
  shells := TablesInStep.empty
  shellCounters := ⟨_, fun _ => rfl⟩
  modules := ⟨TablesInStep.empty, _, fun _ => rfl⟩
  library := ⟨none, fun _ => rfl⟩

/-- The start of a run keeps caches in step. -/
theorem startRun (inStep : CachesInStep family ledger caches) :
    CachesInStep family ledger (fun side => (caches side).startRun) where
  functions := inStep.functions.startRun
  members := inStep.members.startRun
  bridges := inStep.bridges.startRun
  constructors := inStep.constructors.startRun
  exportedMembers := inStep.exportedMembers.startRun
  definitions := inStep.definitions.mapValues (fun plan => { plan with used := false })
    (fun _ _ => rfl) (fun _ _ sound => sound)
  shells := inStep.shells.mapValues (fun plan => { plan with used := false })
    (fun _ _ => rfl) (fun _ _ sound => sound)
  shellCounters := ⟨_, fun _ => rfl⟩
  modules := ⟨inStep.modules.table.mapValues
    (fun plan part => { plan part with used := false })
    (fun _ _ => rfl) (fun _ _ sound part => sound part), _, fun _ => rfl⟩
  library := inStep.library

/-- The end of a run keeps caches in step. -/
theorem endRun (inStep : CachesInStep family ledger caches) :
    CachesInStep family ledger (fun side => (caches side).endRun) where
  functions := inStep.functions.endRun
  members := inStep.members.endRun
  bridges := inStep.bridges.endRun
  constructors := inStep.constructors.endRun
  exportedMembers := inStep.exportedMembers.endRun
  definitions := inStep.definitions.filterValues DefinitionPlan.used (fun _ _ => rfl)
  shells := inStep.shells.filterValues ShellPlan.used (fun _ _ => rfl)
  shellCounters := inStep.shellCounters
  modules := ⟨inStep.modules.table.filterValues
    (fun plan => (plan .imports).used || (plan .topLevelExports).used ||
      (plan .initializers).used) (fun _ _ => rfl), inStep.modules.counters⟩
  library := inStep.library

/-- The counters of runs in step are equal. -/
theorem stats (inStep : CachesInStep family ledger caches) :
    ∃ stats, ∀ side, EmitStats.ofCaches (caches side).classes = stats := by
  obtain ⟨shells, shellsSame⟩ := inStep.shellCounters
  obtain ⟨functions, functionsSame⟩ := inStep.functions.counters
  obtain ⟨members, membersSame⟩ := inStep.members.counters
  refine ⟨⟨shells.reused, shells.invalidated, (functions.add members).reused,
    (functions.add members).invalidated⟩, fun side => ?_⟩
  simp only [EmitStats.ofCaches, ClassCaches.methodCounters, shellsSame side, functionsSame side,
    membersSame side]

end CachesInStep

/-- The caches of a family of runs in step, with a ledger that fits their supplies. -/
structure SessionInStep (family : Family ι) (ledger : Ledger ι) (caches : ι → Caches) : Prop where
  sound : ledger.Sound (fun side => (caches side).supply)
  caches : CachesInStep family ledger caches

namespace Caches

/-- Free functions are requested in step. -/
theorem requestFunction_lockstep {key : FunctionKey} {own : Except ε (Piece .tree)}
    (admitted : ∀ piece, own = .ok piece →
      family.Keeps (.function key) version piece) :
    Lockstep (SessionInStep family) world family.artifact
      (family.Issued (.function key) version own)
      (fun side => requestFunction key version (fun _ => own.map (family.run side))) := by
  refine Lockstep.onPart _ ?_ ?_ (KeyedCache.request_lockstep .function admitted)
  · exact fun _ _ related => ⟨related.sound, related.caches.functions⟩
  · rintro _ _ _ _ order related ⟨sound, functions⟩
    exact ⟨sound, { related.caches.mono order with functions := functions }⟩

/-- Member methods are requested in step. -/
theorem requestMember_lockstep {key : MemberKey} {own : Except ε (Piece .tree)}
    (admitted : ∀ piece, own = .ok piece → family.Keeps (.member key) version piece) :
    Lockstep (SessionInStep family) world family.artifact
      (family.Issued (.member key) version own)
      (fun side => requestMember key version (fun _ => own.map (family.run side))) := by
  refine Lockstep.onPart _ ?_ ?_ (KeyedCache.request_lockstep .member admitted)
  · exact fun _ _ related => ⟨related.sound, related.caches.members⟩
  · rintro _ _ _ _ order related ⟨sound, members⟩
    exact ⟨sound, { related.caches.mono order with members := members }⟩

/-- Bridges are requested in step. -/
theorem requestBridge_lockstep {key : MemberKey} {own : Except ε (Piece .tree)}
    (admitted : ∀ piece, own = .ok piece → family.Keeps (.bridge key) version piece) :
    Lockstep (SessionInStep family) world family.artifact
      (family.Issued (.bridge key) version own)
      (fun side => requestBridge key version (fun _ => own.map (family.run side))) := by
  refine Lockstep.onPart _ ?_ ?_ (KeyedCache.request_lockstep .bridge admitted)
  · exact fun _ _ related => ⟨related.sound, related.caches.bridges⟩
  · rintro _ _ _ _ order related ⟨sound, bridges⟩
    exact ⟨sound, { related.caches.mono order with bridges := bridges }⟩

/-- Constructors are requested in step. -/
theorem requestConstructor_lockstep {key : ClassKey} {own : Except ε (Piece .ctor)}
    (admitted : ∀ piece, own = .ok piece → family.Keeps (.ctor key) version piece) :
    Lockstep (SessionInStep family) world family.artifact
      (family.Issued (.ctor key) version own)
      (fun side => requestConstructor key version (fun _ => own.map (family.run side))) := by
  refine Lockstep.onPart _ ?_ ?_ (KeyedCache.request_lockstep .ctor admitted)
  · exact fun _ _ related => ⟨related.sound, related.caches.constructors⟩
  · rintro _ _ _ _ order related ⟨sound, constructors⟩
    exact ⟨sound, { related.caches.mono order with constructors := constructors }⟩

/-- Exported members are requested in step. -/
theorem requestExportedMember_lockstep {key : ClassKey × Nat}
    {own : Except ε (Piece .trees)}
    (admitted : ∀ piece, own = .ok piece →
      family.Keeps (.exportedMember key) version piece) :
    Lockstep (SessionInStep family) world family.artifact
      (family.Issued (.exportedMember key) version own)
      (fun side => requestExportedMember key version (fun _ => own.map (family.run side))) := by
  refine Lockstep.onPart _ ?_ ?_ (KeyedCache.request_lockstep .exportedMember admitted)
  · exact fun _ _ related => ⟨related.sound, related.caches.exportedMembers⟩
  · rintro _ _ _ _ order related ⟨sound, exportedMembers⟩
    exact ⟨sound, { related.caches.mono order with exportedMembers := exportedMembers }⟩

/-- Class definitions are requested in step. -/
theorem requestFullClass_lockstep {key : ClassKey} {site : Site} {linked : LinkedClass}
    {issues : PartIssues ι} (held : issues.Held world)
    (admitted : RequestedDefinition family.setting family.history key version
      (issues.definition site linked)) :
    Lockstep (SessionInStep family) world family.definitionArtifact
      (fun _ outcome => ∃ definition token, outcome = .ok (definition, token) ∧
        definition = issues.definition definition.site definition.linked ∧
        RequestedDefinition family.setting family.history key version definition ∧
        (version.isVersioned = false → definition = issues.definition site linked))
      (fun side => (requestFullClass key version (issues.parts side) (fun _ =>
        .ok ((issues.definition site linked).run family.setting (family.naming side))) :
        Step ε _ _)) := by
  refine Lockstep.onPart _ ?_ ?_ (FullClassCache.request_lockstep held admitted)
  · exact fun _ _ related => ⟨related.sound, related.caches.definitions⟩
  · rintro _ _ _ _ order related ⟨sound, definitions⟩
    exact ⟨sound, { related.caches.mono order with definitions := definitions }⟩

/-- Parts of a module are requested in step. -/
theorem requestModulePart_lockstep {id : ModuleId} {part : ModulePart}
    {own : Except ε (Piece .trees)}
    (admitted : ∀ piece, own = .ok piece →
      family.Keeps (.modulePart id part) version piece) :
    Lockstep (SessionInStep family) world family.artifact
      (family.Issued (.modulePart id part) version own)
      (fun side => requestModulePart id part version (fun _ => own.map (family.run side))) := by
  refine Lockstep.onPart _ ?_ ?_ (ModuleCaches.request_lockstep admitted)
  · exact fun _ _ related => ⟨related.sound, related.caches.modules⟩
  · rintro _ _ _ _ order related ⟨sound, modules⟩
    exact ⟨sound, { related.caches.mono order with modules := modules }⟩

/-- The bootstrap library is requested in step. -/
theorem requestBootstrap_lockstep {site : Site} :
    Lockstep (SessionInStep family) world
      (fun side (issue : Issue ι .library) => family.artifact side issue)
      (fun _ outcome => ∃ issue, outcome = .ok issue ∧ True)
      (fun side => (requestBootstrap (fun _ =>
        .ok (family.run side (.library site))) : Step ε _ _)) := by
  refine Lockstep.onPart _ ?_ ?_ (OneTimeSlot.request_lockstep
    (fun _ : Piece .library => True) trivial)
  · intro _ _ related
    obtain ⟨issue?, same⟩ := related.caches.library
    exact ⟨related.sound, issue?, fun _ _ => trivial, same⟩
  · rintro _ _ _ _ order related ⟨sound, issue?, -, same⟩
    exact ⟨sound, { related.caches.mono order with library := ⟨issue?, same⟩ }⟩

end Caches

/-- A session in step in which the shell of a class is open for a version and for the pieces that
the class itself asks for. -/
structure ShellOpen (family : Family ι) (key : ClassKey) (version : Version)
    (own : ShellPart → Piece .trees) (ledger : Ledger ι) (caches : ι → Caches) : Prop where
  session : SessionInStep family ledger caches
  shell : ∃ plan : ShellPlan ι, plan.version = version ∧
    (∀ part, ∀ issue ∈ plan.issue? part,
      family.Serves (.shell key part) version (own part) issue.piece) ∧
    ∀ side, (caches side).classes.shells.get? key = some (plan.shell family side)

/-- Opening a shell leaves an open shell. -/
theorem SessionInStep.openShell {ledger : Ledger ι} {caches : ι → Caches} {key : ClassKey}
    (own : ShellPart → Piece .trees) (inStep : SessionInStep family ledger caches) :
    ShellOpen family key version own ledger (fun side =>
      { caches side with classes := (caches side).classes.openShell key version }) := by
  obtain ⟨plan?, planSound, shells⟩ := inStep.caches.shells key
  obtain ⟨counters, counted⟩ := inStep.caches.shellCounters
  have opens : ∃ (plan : ShellPlan ι) (counters : CacheCounters), plan.version = version ∧
      plan.Sound family key ∧
      (∀ part, ∀ issue ∈ plan.issue? part,
        family.Serves (.shell key part) version (own part) issue.piece) ∧
      ∀ side, (caches side).classes.openShell key version =
        { (caches side).classes with
          shells := (caches side).classes.shells.put key (plan.shell family side)
          shellCounters := counters } := by
    by_cases reusable : ∃ plan ∈ plan?, plan.version.isSame version = true
    · obtain ⟨plan, found, same⟩ := reusable
      have there : plan? = some plan := found
      subst there
      have versions := Version.eq_of_isSame same
      refine ⟨{ plan with used := true }, counters.countReused, versions, planSound plan rfl,
        fun part issue found => ⟨versions ▸ planSound plan rfl part issue found,
          fun unversioned => (Version.isVersioned_of_isSame same unversioned).elim⟩,
        fun side => ?_⟩
      have fits : (plan.shell family side).version.isSame version = true := same
      simp only [ClassCaches.openShell, shells side, Option.map_some, Option.filter, fits,
        if_true, counted side]
      rfl
    · refine ⟨⟨version, true, fun _ => none⟩, counters.countInvalidated, rfl, ?_, ?_,
        fun side => ?_⟩
      · intro part issue found
        cases found
      · intro part issue found
        cases found
      · have none : ((caches side).classes.shells.get? key).filter
            (fun shell => shell.version.isSame version) = none := by
          rw [shells side]
          cases plan? with
          | none => rfl
          | some plan =>
            have unfit : (plan.shell family side).version.isSame version ≠ true :=
              fun fits => reusable ⟨plan, rfl, fits⟩
            simp [Option.filter, unfit]
        simp only [ClassCaches.openShell, none, counted side]
        rfl
  obtain ⟨plan, counters, versions, sound, serves, opens⟩ := opens
  have put := inStep.caches.shells.put plan sound
  simp only [opens]
  exact ⟨⟨inStep.sound, { inStep.caches with shells := put, shellCounters := ⟨_, fun _ => rfl⟩ }⟩,
    plan, versions, serves, fun side => Table.get?_put_self _ _ _⟩

/-- A request for a piece of a class whose shell is open. -/
theorem Caches.requestShellPart_lockstep {key : ClassKey} {part : ShellPart}
    (own : ShellPart → Piece .trees)
    (admitted : family.Keeps (.shell key part) version (own part)) :
    Lockstep (ShellOpen family key version own) world family.artifact
      (fun _ outcome => ∃ issue, outcome = .ok issue ∧
        family.Serves (.shell key part) version (own part) issue.piece)
      (fun side => (requestShellPart key part (fun _ => .ok (family.run side (own part))) :
        Step ε _ _)) := by
  refine Lockstep.onPart _ ?_ ?_ (OneTimeSlot.request_lockstep
    (family.Serves (.shell key part) version (own part)) ⟨admitted, fun _ => rfl⟩)
  · rintro _ caches ⟨inStep, plan, rfl, serves, shells⟩
    refine ⟨inStep.sound, plan.issue? part, serves part, fun side => ?_⟩
    simp only [ClassCaches.slot, shells side]
    rfl
  · rintro _ last caches reached order ⟨inStep, plan, rfl, serves, shells⟩
      ⟨supply, issue?, good, same⟩
    let changed : ShellPlan ι :=
      { plan with issue? := fun other => if other = part then issue? else plan.issue? other }
    have changedServes : ∀ other, ∀ issue ∈ changed.issue? other,
        family.Serves (.shell key other) plan.version (own other) issue.piece := by
      intro other issue found
      by_cases here : other = part
      · subst here
        exact good issue (by simpa [changed] using found)
      · exact serves other issue (by simpa [changed, here] using found)
    have changedSound : changed.Sound family key :=
      fun other issue found => (changedServes other issue found).requested
    have reads : ∀ side, (plan.shell family side).withSlot part (reached side).1 =
        changed.shell family side := by
      intro side
      rw [same side]
      simp only [ClassShell.withSlot, ShellPlan.shell, ClassShell.mk.injEq, changed, true_and]
      funext other
      by_cases here : other = part <;> simp [here]
    have put := inStep.caches.shells.put changed changedSound
    simp only [ClassCaches.withSlot, shells, reads]
    exact ⟨⟨supply, { inStep.caches.mono order with shells := put }⟩, changed, rfl, changedServes,
      fun side => Table.get?_put_self _ _ _⟩

end JsEmitter
