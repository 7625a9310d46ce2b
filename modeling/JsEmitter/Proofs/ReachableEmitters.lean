import JsEmitter.Proofs.Cells
import JsEmitter.Proofs.EmitterRuns

/-!
# Reachable emitters

An emitter is reached from a new one by runs, be they successful or not, and by changes of the
filter. The caches of a reachable emitter hold only tokens that have been taken from the supply.
-/
namespace JsEmitter

variable {ι : Type} {family : Family ι} {ledger : Ledger ι} {caches : ι → Caches}

/-- The token of an issue that an entry holds is in the supply. -/
theorem EntryPlan.Sound.token_lt {kind : PieceKind} {place : Place kind}
    {plan : EntryPlan ι kind} (sound : plan.Sound family place ledger)
    {supplies : ι → TokenSupply} (fits : ledger.Sound supplies) (side : ι) {token : Token}
    (found : token ∈ (((some (plan.entry family side)).bind CacheEntry.artifact?).map
      Artifact.token).toList) : token.number < (supplies side).next := by
  cases held : plan.issue? with
  | none => simp [EntryPlan.entry, held] at found
  | some issue =>
    obtain rfl : token = issue.token side := by simpa [EntryPlan.entry, held] using found
    exact fits.bounded side (sound issue held).1

/-- The tokens of a keyed cache in step are in the supply. -/
theorem KeyedInStep.token_lt {κ : Type} [DecidableEq κ] {kind : PieceKind}
    {place : κ → Place kind} {keyed : ι → KeyedCache κ kind.Value}
    (inStep : KeyedInStep family place ledger keyed) {supplies : ι → TokenSupply}
    (fits : ledger.Sound supplies) (side : ι) (key : κ) {token : Token}
    (found : token ∈ ((((keyed side).table.get? key).bind CacheEntry.artifact?).map
      Artifact.token).toList) : token.number < (supplies side).next := by
  obtain ⟨plan?, sound, same⟩ := inStep.table key
  rw [same side] at found
  cases plan? with
  | none => simp at found
  | some plan => exact (sound plan rfl).token_lt fits side found

/-- The tokens of the parts of definitions in step are in the supply. -/
theorem PartIssues.Held.token_lt {issues : PartIssues ι} (held : issues.Held ledger)
    {supplies : ι → TokenSupply} (fits : ledger.Sound supplies) (side : ι) {token : Token}
    (found : token ∈ (issues.parts side).tokens) : token.number < (supplies side).next := by
  simp only [DefinitionParts.tokens, parts, Option.toList_some, List.mem_append, List.mem_map,
    List.mem_singleton] at found
  rcases found with (rfl | ⟨issue, there, rfl⟩) | ⟨issue, there, rfl⟩
  · exact fits.bounded side held.ctor
  · exact fits.bounded side (held.members issue there)
  · exact fits.bounded side (held.exported issue there)

/-- The caches of a session in step hold tokens from the supply. -/
theorem SessionInStep.bounded (inStep : SessionInStep family ledger caches) (side : ι) :
    (caches side).Bounded := by
  intro cell token found
  cases cell with
  | keyed sort key =>
    cases sort with
    | functions => exact inStep.caches.functions.token_lt inStep.sound side key found
    | members => exact inStep.caches.members.token_lt inStep.sound side key found
    | bridges => exact inStep.caches.bridges.token_lt inStep.sound side key found
    | constructors => exact inStep.caches.constructors.token_lt inStep.sound side key found
    | exportedMembers => exact inStep.caches.exportedMembers.token_lt inStep.sound side key found
  | definition key =>
    obtain ⟨plan?, sound, same⟩ := inStep.caches.definitions key
    simp only [Cell.tokens, Caches.content, same side] at found
    cases plan? with
    | none => simp at found
    | some plan => exact (sound plan rfl).1.token_lt inStep.sound side found
  | _ => simp [Cell.tokens] at found

namespace Emitter

/-- What can be reached from new emitters. -/
inductive Reachable : Emitter → Prop
  | start (config : Config) : Reachable (start config)
  | withFilter {emitter : Emitter} (filter : DangerFilter) :
    Reachable emitter → Reachable (emitter.withFilter filter)
  | after {emitter : Emitter} (program : Program) :
    Reachable emitter → Reachable (emitter.after program)

namespace Reachable

variable {emitter : Emitter}

/-- The last change of the filter is followed by runs. -/
theorem exists_runs (reachable : emitter.Reachable) :
    ∃ setting supply programs, emitter = (fresh setting supply).afterAll programs := by
  induction reachable with
  | start config => exact ⟨⟨config, .standard⟩, default, [], rfl⟩
  | @withFilter emitter filter _ _ =>
    exact ⟨⟨emitter.config, filter⟩, emitter.session.caches.supply, [], rfl⟩
  | after program _ ih =>
    obtain ⟨setting, supply, programs, rfl⟩ := ih
    exact ⟨setting, supply, programs ++ [program], by simp [afterAll]⟩

/-- A reachable emitter is sound for every further program. -/
theorem exists_sound (reachable : emitter.Reachable) (program : Program) :
    ∃ setting history, program ∈ history ∧ Sound setting history emitter := by
  obtain ⟨setting, supply, programs, rfl⟩ := reachable.exists_runs
  exact ⟨setting, program :: programs, List.mem_cons_self,
    (fresh_sound setting _ supply).afterAll (fun _ found _ => List.mem_cons_of_mem _ found)⟩

/-- The caches of a reachable emitter hold tokens from its supply. -/
theorem bounded (reachable : emitter.Reachable) : emitter.session.caches.Bounded := by
  obtain ⟨_, _, -, sound⟩ := reachable.exists_sound default
  obtain ⟨_, inStep⟩ := sound.session
  exact inStep.bounded ()

end Reachable

end Emitter

end JsEmitter
