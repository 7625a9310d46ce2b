import JsEmitter.Proofs.Issues

/-!
# Caches in step

The caches of a family of runs are in step when each of their tables is. A request, the opening
of a shell, the start of a run and its end keep them in step, and what the runs get is one issue.
A definition is reused only for the same parts; since tokens tell issues, those are the same
pieces.
-/
namespace JsEmitter

open Js (Tree)
open Lowering (ConstructorParts Bootstrap)

variable {ε ι κ : Type} {kind : PieceKind} {family : Family ι} {world : Ledger ι}

/-- Keyed caches in step. -/
structure KeyedInStep [DecidableEq κ] (family : Family ι) (place : κ → Place kind)
    (ledger : Ledger ι) (caches : ι → KeyedCache κ kind.Value) : Prop where
  table : TablesInStep (fun side plan => EntryPlan.entry family side plan)
    (fun key plan => plan.Sound family (place key) ledger) (fun side => (caches side).table)
  counters : ∃ counters, ∀ side, (caches side).counters = counters

namespace KeyedInStep

variable [DecidableEq κ] {place : κ → Place kind} {ledger later : Ledger ι}
  {caches : ι → KeyedCache κ kind.Value}

/-- Empty caches are in step. -/
theorem empty : KeyedInStep family place ledger (fun _ => KeyedCache.empty) :=
  ⟨TablesInStep.empty, _, fun _ => rfl⟩

/-- Keyed caches in step stay so when the ledger grows. -/
theorem mono (inStep : KeyedInStep family place ledger caches) (order : ledger ≤ later) :
    KeyedInStep family place later caches :=
  ⟨inStep.table.imp (fun _ _ sound => sound.mono order), inStep.counters⟩

/-- The start of a run keeps keyed caches in step. -/
theorem startRun (inStep : KeyedInStep family place ledger caches) :
    KeyedInStep family place ledger (fun side => (caches side).startRun) :=
  ⟨inStep.table.mapValues (fun plan => { plan with used := false })
    (fun _ _ => rfl) (fun _ _ sound => sound), _, fun _ => rfl⟩

/-- The end of a run keeps keyed caches in step. -/
theorem endRun (inStep : KeyedInStep family place ledger caches) :
    KeyedInStep family place ledger (fun side => (caches side).endRun) :=
  ⟨inStep.table.filterValues EntryPlan.used (fun _ _ => rfl), inStep.counters⟩

/-- The entries of a key are readings of one plan. -/
theorem entry (inStep : KeyedInStep family place ledger caches) (key : κ) :
    ∃ plan : EntryPlan ι kind, plan.Sound family (place key) ledger ∧
      ∀ side, (caches side).entry key = plan.entry family side := by
  obtain ⟨plan?, sound, same⟩ := inStep.table key
  cases plan? with
  | none =>
    exact ⟨.fresh, EntryPlan.fresh_sound _ _ _, fun side => by simp [KeyedCache.entry, same side]⟩
  | some plan =>
    exact ⟨plan, sound plan rfl, fun side => by simp [KeyedCache.entry, same side]⟩

end KeyedInStep

/-- A request to keyed caches in step. -/
theorem KeyedCache.request_lockstep [DecidableEq κ] (place : κ → Place kind) {key : κ}
    {version : Version} {own : Except ε (Piece kind)}
    (admitted : ∀ piece, own = .ok piece → family.Keeps (place key) version piece) :
    Lockstep
      (fun ledger (states : ι → KeyedCache κ kind.Value × TokenSupply) =>
        ledger.Sound (fun side => (states side).2) ∧
          KeyedInStep family place ledger (fun side => (states side).1))
      world family.artifact (family.Issued (place key) version own)
      (fun side => KeyedCache.request key version (fun _ => own.map (family.run side))) := by
  refine Lockstep.onPart (EntriesInStep family (place key)) ?_ ?_
    (CacheEntry.request_lockstep admitted)
  · rintro now states ⟨sound, inStep⟩
    exact ⟨sound, inStep.entry key, inStep.counters⟩
  · rintro now last states reached order ⟨-, inStep⟩ ⟨sound, ⟨plan, planSound, entries⟩, counted⟩
    refine ⟨sound, ?_, counted⟩
    have put := (inStep.mono order).table.put plan planSound
    simpa only [KeyedCache.withEntry, entries] using put

/-- The issues that a class definition is put together from. -/
structure PartIssues (ι : Type) where
  ctor : Issue ι .ctor
  members : List (Issue ι .tree)
  exported : List (Issue ι .trees)

namespace PartIssues

/-- The tokens of the parts in one of the runs. -/
def parts (issues : PartIssues ι) (side : ι) : DefinitionParts :=
  ⟨some (issues.ctor.token side), issues.members.map (fun issue => issue.token side),
    issues.exported.map (fun issue => issue.token side)⟩

/-- The definition of a class from the pieces of the issues. -/
def definition (issues : PartIssues ι) (site : Site) (linked : LinkedClass) : Definition :=
  ⟨site, linked, issues.ctor.piece, issues.members.map Issue.piece,
    issues.exported.map Issue.piece⟩

/-- All issues are in the ledger. -/
structure Held (issues : PartIssues ι) (ledger : Ledger ι) : Prop where
  ctor : ledger.holds issues.ctor
  members : ∀ issue ∈ issues.members, ledger.holds issue
  exported : ∀ issue ∈ issues.exported, ledger.holds issue

/-- Issues that a ledger holds are held by every later ledger. -/
theorem Held.mono {issues : PartIssues ι} {ledger later : Ledger ι} (held : issues.Held ledger)
    (order : ledger ≤ later) : issues.Held later where
  ctor := order _ _ held.ctor
  members issue found := order _ _ (held.members issue found)
  exported issue found := order _ _ (held.exported issue found)

/-- The tokens of the parts in one run tell the issues. -/
theorem Held.eq_of_parts {first second : PartIssues ι} {ledger : Ledger ι}
    {supplies : ι → TokenSupply} (sound : ledger.Sound supplies) (firstHeld : first.Held ledger)
    (secondHeld : second.Held ledger) (side : ι) (same : first.parts side = second.parts side) :
    first = second := by
  simp only [parts, DefinitionParts.mk.injEq, Option.some.injEq] at same
  obtain ⟨ctors, members, exported⟩ := same
  cases first
  cases second
  congr
  · exact sound.unique side firstHeld.ctor secondHeld.ctor ctors
  · exact sound.eq_of_tokens side firstHeld.members secondHeld.members members
  · exact sound.eq_of_tokens side firstHeld.exported secondHeld.exported exported

end PartIssues

/-- A class definition that every run has. -/
structure DefinitionPlan (ι : Type) where
  version : Version
  site : Site
  linked : LinkedClass
  issues : PartIssues ι
  token : ι → Token
  used : Bool

/-- The artifact of a definition in one of the runs. -/
def Family.definitionArtifact (family : Family ι) (side : ι)
    (made : Definition × (ι → Token)) : Artifact (List Tree) :=
  ⟨made.2 side, (made.1.run family.setting (family.naming side)).value,
    (made.1.run family.setting (family.naming side)).refs⟩

namespace DefinitionPlan

/-- The definition. -/
def definition (plan : DefinitionPlan ι) : Definition :=
  plan.issues.definition plan.site plan.linked

/-- The cached definition in one of the runs. -/
def entry (family : Family ι) (side : ι) (plan : DefinitionPlan ι) : FullClassEntry :=
  ⟨plan.version, plan.issues.parts side,
    family.definitionArtifact side (plan.definition, plan.token), plan.used⟩

/-- The parts are in the ledger, and the definition may be kept under the version. -/
def Sound (family : Family ι) (ledger : Ledger ι) (key : ClassKey) (plan : DefinitionPlan ι) :
    Prop :=
  plan.issues.Held ledger ∧
    RequestedDefinition family.setting family.history key plan.version plan.definition

end DefinitionPlan

/-- Caches of definitions in step. -/
def DefinitionsInStep (family : Family ι) (ledger : Ledger ι) (caches : ι → FullClassCache) :
    Prop :=
  TablesInStep (fun side plan => DefinitionPlan.entry family side plan)
    (DefinitionPlan.Sound family ledger) (fun side => (caches side).table)

/-- Caches of definitions in step stay so when the ledger grows. -/
theorem DefinitionsInStep.mono {ledger later : Ledger ι} {caches : ι → FullClassCache}
    (inStep : DefinitionsInStep family ledger caches) (order : ledger ≤ later) :
    DefinitionsInStep family later caches :=
  inStep.imp (fun _ _ sound => ⟨sound.1.mono order, sound.2⟩)

/-- A request for a definition: either all runs reuse one that was put together from the same
pieces, or all compute. -/
theorem FullClassCache.request_lockstep {key : ClassKey} {version : Version} {site : Site}
    {linked : LinkedClass} {issues : PartIssues ι} (held : issues.Held world)
    (admitted : RequestedDefinition family.setting family.history key version
      (issues.definition site linked)) :
    Lockstep
      (fun ledger (states : ι → FullClassCache × TokenSupply) =>
        ledger.Sound (fun side => (states side).2) ∧
          DefinitionsInStep family ledger (fun side => (states side).1))
      world family.definitionArtifact
      (fun _ outcome => ∃ definition token, outcome = .ok (definition, token) ∧
        definition = issues.definition definition.site definition.linked ∧
        RequestedDefinition family.setting family.history key version definition ∧
        (version.isVersioned = false → definition = issues.definition site linked))
      (fun side => (FullClassCache.request key version (issues.parts side) (fun _ =>
        .ok ((issues.definition site linked).run family.setting (family.naming side))) :
        Step ε _ _)) := by
  rintro now order states ⟨sound, inStep⟩
  obtain ⟨plan?, planSound, entries⟩ := inStep key
  have heldNow := held.mono order
  by_cases reusable : ∃ plan ∈ plan?, plan.version.isSame version = true ∧ plan.issues = issues
  · obtain ⟨plan, there, same, parts⟩ := reusable
    have found : plan? = some plan := there
    subst found
    have versions := Version.eq_of_isSame same
    have holds := (planSound plan rfl).2
    rw [versions] at holds
    have valid : ∀ side, (states side).1.valid? key version (issues.parts side) =
        some (plan.entry family side) := by
      intro side
      have fits : (plan.entry family side).isValid version (issues.parts side) = true := by
        simp [FullClassEntry.isValid, DefinitionPlan.entry, same, parts]
      simp [FullClassCache.valid?, entries side, Option.filter, fits]
    refine ⟨now, le_rfl, .ok (plan.definition, plan.token), fun side =>
      ({ (states side).1.markUsed key with
        counters := (states side).1.counters.countReused }, (states side).2),
      ⟨_, _, rfl, ?_, holds, fun unversioned =>
        (Version.isVersioned_of_isSame same unversioned).elim⟩, ⟨sound, ?_⟩, fun side => ?_⟩
    · rw [← parts]
      rfl
    · have marked : DefinitionsInStep family now (fun side => (states side).1.markUsed key) := by
        have put := inStep.put { plan with used := true } (planSound plan rfl)
        simp only [FullClassCache.markUsed, entries, Option.map_some]
        exact put
      exact marked
    · simp only [FullClassCache.request, valid side]
      rfl
  · have invalid : ∀ side, (states side).1.valid? key version (issues.parts side) = none := by
      intro side
      cases plan? with
      | none => simp [FullClassCache.valid?, entries side]
      | some plan =>
        have unfit : (plan.entry family side).isValid version (issues.parts side) ≠ true := by
          intro fits
          simp only [FullClassEntry.isValid, DefinitionPlan.entry, Bool.and_eq_true] at fits
          exact reusable ⟨plan, rfl, fits.1, PartIssues.Held.eq_of_parts sound
            (planSound plan rfl).1 heldNow side (of_decide_eq_true fits.2)⟩
        simp [FullClassCache.valid?, entries side, Option.filter, unfit]
    let plan : DefinitionPlan ι :=
      ⟨version, site, linked, issues, fun side => ⟨(states side).2.next⟩, true⟩
    refine ⟨now, le_rfl, .ok (plan.definition, plan.token), fun side =>
      (⟨(states side).1.table.put key (plan.entry family side),
        (states side).1.counters.countInvalidated⟩, (states side).2.advance),
      ⟨_, _, rfl, rfl, admitted, fun _ => rfl⟩,
      ⟨sound.advance, inStep.put plan ⟨heldNow, admitted⟩⟩,
      fun side => ?_⟩
    simp only [FullClassCache.request, invalid side]
    rfl

/-- The pieces that depend on a class alone, as every run has them. -/
structure ShellPlan (ι : Type) where
  version : Version
  used : Bool
  issue? : ShellPart → Option (Issue ι .trees)

namespace ShellPlan

/-- The shell in one of the runs. -/
def shell (family : Family ι) (side : ι) (plan : ShellPlan ι) : ClassShell :=
  ⟨plan.version, plan.used, fun part => ⟨(plan.issue? part).map (family.artifact side)⟩⟩

/-- The pieces may be kept under the version. -/
def Sound (family : Family ι) (key : ClassKey) (plan : ShellPlan ι) : Prop :=
  ∀ part, ∀ issue ∈ plan.issue? part,
    family.Keeps (.shell key part) plan.version issue.piece

end ShellPlan

/-- The parts of a module, as every run has them. -/
abbrev ModulePlan (ι : Type) : Type := ModulePart → EntryPlan ι .trees

/-- The entries of a module in one of the runs. -/
def ModulePlan.entries (family : Family ι) (side : ι) (plan : ModulePlan ι) : ModuleEntries :=
  ⟨fun part => (plan part).entry family side⟩

/-- The caches of modules in step. -/
structure ModulesInStep (family : Family ι) (ledger : Ledger ι) (caches : ι → ModuleCaches) :
    Prop where
  table : TablesInStep (fun side plan => ModulePlan.entries family side plan)
    (fun id plan => ∀ part, (plan part).Sound family (.modulePart id part) ledger)
    (fun side => (caches side).table)
  counters : ∃ counters, ∀ side, (caches side).counters = counters

namespace ModulesInStep

variable {ledger later : Ledger ι} {caches : ι → ModuleCaches}

/-- Caches of modules in step stay so when the ledger grows. -/
theorem mono (inStep : ModulesInStep family ledger caches) (order : ledger ≤ later) :
    ModulesInStep family later caches :=
  ⟨inStep.table.imp (fun _ _ sound part => (sound part).mono order), inStep.counters⟩

/-- The entries of a module are readings of one plan. -/
theorem entries (inStep : ModulesInStep family ledger caches) (id : ModuleId) :
    ∃ plan : ModulePlan ι, (∀ part, (plan part).Sound family (.modulePart id part) ledger) ∧
      ∀ side, (caches side).entries id = plan.entries family side := by
  obtain ⟨plan?, sound, same⟩ := inStep.table id
  cases plan? with
  | none =>
    exact ⟨fun _ => .fresh, fun _ => EntryPlan.fresh_sound _ _ _,
      fun side => by simp [ModuleCaches.entries, same side, ModuleEntries.fresh,
        ModulePlan.entries]⟩
  | some plan =>
    exact ⟨plan, sound plan rfl, fun side => by simp [ModuleCaches.entries, same side]⟩

end ModulesInStep

/-- A request to the caches of modules in step. -/
theorem ModuleCaches.request_lockstep {id : ModuleId} {part : ModulePart} {version : Version}
    {own : Except ε (Piece .trees)}
    (admitted : ∀ piece, own = .ok piece →
      family.Keeps (.modulePart id part) version piece) :
    Lockstep
      (fun ledger (states : ι → ModuleCaches × TokenSupply) =>
        ledger.Sound (fun side => (states side).2) ∧
          ModulesInStep family ledger (fun side => (states side).1))
      world family.artifact (family.Issued (.modulePart id part) version own)
      (fun side => ModuleCaches.request id part version (fun _ => own.map (family.run side))) := by
  refine Lockstep.onPart (EntriesInStep family (.modulePart id part)) ?_ ?_
    (CacheEntry.request_lockstep admitted)
  · rintro now states ⟨sound, inStep⟩
    obtain ⟨plan, planSound, same⟩ := inStep.entries id
    exact ⟨sound, ⟨plan part, planSound part,
      fun side => congrArg (fun entries => entries.entry part) (same side)⟩, inStep.counters⟩
  · rintro now last states reached order ⟨-, inStep⟩ ⟨sound, ⟨plan, planSound, same⟩, counted⟩
    obtain ⟨modulePlan, moduleSound, entries⟩ := (inStep.mono order).entries id
    refine ⟨sound, ?_, counted⟩
    let changed : ModulePlan ι := fun other => if other = part then plan else modulePlan other
    have changedSound : ∀ other, (changed other).Sound family (.modulePart id other) last := by
      intro other
      by_cases here : other = part
      · subst here
        simpa [changed] using planSound
      · simpa [changed, here] using moduleSound other
    have put := (inStep.mono order).table.put changed changedSound
    have reads : ∀ side, ((states side).1.entries id).withEntry part (reached side).entry =
        changed.entries family side := by
      intro side
      rw [entries side, same side]
      simp only [ModuleEntries.withEntry, ModulePlan.entries, ModuleEntries.mk.injEq]
      funext other
      by_cases here : other = part <;> simp [changed, here]
    simpa only [ModuleCaches.withEntry, reads] using put

/-- Caches in step: every table of them is. -/
structure CachesInStep (family : Family ι) (ledger : Ledger ι) (caches : ι → Caches) : Prop where
  functions : KeyedInStep family .function ledger (fun side => (caches side).classes.functions)
  members : KeyedInStep family .member ledger (fun side => (caches side).classes.members)
  bridges : KeyedInStep family .bridge ledger (fun side => (caches side).classes.bridges)
  constructors : KeyedInStep family .ctor ledger (fun side => (caches side).classes.constructors)
  exportedMembers : KeyedInStep family .exportedMember ledger
    (fun side => (caches side).classes.exportedMembers)
  definitions : DefinitionsInStep family ledger (fun side => (caches side).classes.fullClasses)
  shells : TablesInStep (fun side plan => ShellPlan.shell family side plan)
    (ShellPlan.Sound family) (fun side => (caches side).classes.shells)
  shellCounters : ∃ counters, ∀ side, (caches side).classes.shellCounters = counters
  modules : ModulesInStep family ledger (fun side => (caches side).modules)
  library : ∃ issue? : Option (Issue ι .library),
    ∀ side, (caches side).bootstrap = ⟨issue?.map (family.artifact side)⟩

end JsEmitter
