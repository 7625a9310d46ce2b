import JsEmitter.Proofs.Visits

/-!
# Lookups

Every lookup in the caches of a session is answered in one of two ways: by what is there, whatever
the computation, or by what the computation gives. Only a computation that succeeds takes a token,
and it takes one that no earlier computation has taken.
-/
namespace JsEmitter

open Js (Tree)
open Lowering (ConstructorParts Bootstrap)

variable {ε σ τ α : Type}

/-- A lookup up to its computation, in a state that has a supply of tokens. -/
abbrev Query (σ α : Type) : Type 1 :=
  (ε : Type) → (Unit → Except ε (Tracked α)) → Step ε σ (Artifact α)

/-- The artifact that a lookup gives without a computation: what it gives when the computation
fails. -/
def Query.served? (query : Query σ α) (before : σ) : Option (Artifact α) :=
  match query Unit (fun _ => .error ()) before with
  | .ok artifact _ => some artifact
  | .error _ _ => none

/-- Whether a lookup is answered by an artifact that is there, or by its computation if there is
none. -/
structure Query.Answers (query : Query σ α) (supply : σ → TokenSupply) (before : σ)
    (served? : Option (Artifact α)) : Prop where
  served : ∀ artifact, served? = some artifact →
    ∀ (ε : Type) (compute : Unit → Except ε (Tracked α)),
      ∃ after, query ε compute before = .ok artifact after ∧ supply after = supply before
  computed : served? = none →
    ∀ (ε : Type) (compute : Unit → Except ε (Tracked α)) (tracked : Tracked α),
      compute () = .ok tracked →
        ∃ after, query ε compute before = .ok ((supply before).make tracked) after ∧
          supply after = (supply before).advance
  failed : served? = none →
    ∀ (ε : Type) (compute : Unit → Except ε (Tracked α)) (error : ε),
      compute () = .error error →
        ∃ after, query ε compute before = .error error after ∧ supply after = supply before

namespace Query.Answers

variable {query : Query σ α} {supply : σ → TokenSupply} {before : σ}
  {served? : Option (Artifact α)}

/-- What answers a lookup is what it gives when the computation fails. -/
theorem served?_eq (answers : query.Answers supply before served?) :
    query.served? before = served? := by
  unfold Query.served?
  cases found : served? with
  | some artifact =>
    obtain ⟨after, ran, -⟩ := answers.served artifact found Unit (fun _ => .error ())
    rw [ran]
  | none =>
    obtain ⟨after, ran, -⟩ := answers.failed found Unit (fun _ => .error ()) () rfl
    rw [ran]

/-- A lookup in a part of a state is answered as in the part. -/
theorem onPart {query : Query τ α} {part : σ → τ} {withPart : σ → τ → σ}
    (inner : τ → TokenSupply) (kept : inner (part before) = supply before)
    (updated : ∀ reached, supply (withPart before reached) = inner reached)
    (answers : query.Answers inner (part before) served?) :
    Answers (fun ε compute => Step.onPart part withPart (query ε compute)) supply before
      served? where
  served artifact found ε compute := by
    obtain ⟨reached, ran, same⟩ := answers.served artifact found ε compute
    refine ⟨withPart before reached, ?_, ?_⟩
    · simp only [Step.onPart, ran]
    · rw [updated, same, kept]
  computed missed ε compute tracked done := by
    obtain ⟨reached, ran, same⟩ := answers.computed missed ε compute tracked done
    rw [kept] at ran same
    refine ⟨withPart before reached, ?_, ?_⟩
    · simp only [Step.onPart, ran]
    · rw [updated, same]
  failed missed ε compute error done := by
    obtain ⟨reached, ran, same⟩ := answers.failed missed ε compute error done
    refine ⟨withPart before reached, ?_, ?_⟩
    · simp only [Step.onPart, ran]
    · rw [updated, same, kept]

end Query.Answers

/-! ## Single caches -/

/-- A request of an entry answers with what is valid. -/
theorem CacheEntry.request_answers (version : Version) (state : EntryState α) :
    Query.Answers (fun _ => CacheEntry.request version) EntryState.supply state
      (state.entry.valid? version) where
  served artifact found ε compute := by simp [CacheEntry.request, found]
  computed missed ε compute tracked done := by simp [CacheEntry.request, missed, done]
  failed missed ε compute error done := by simp [CacheEntry.request, missed, done]

/-- A request of a slot answers with what is there. -/
theorem OneTimeSlot.request_answers (slot : OneTimeSlot α) (supply : TokenSupply) :
    Query.Answers (fun _ => OneTimeSlot.request) Prod.snd (slot, supply) slot.artifact? where
  served artifact found ε compute := by simp [OneTimeSlot.request, found]
  computed missed ε compute tracked done := by simp [OneTimeSlot.request, missed, done]
  failed missed ε compute error done := by simp [OneTimeSlot.request, missed, done]

/-- A request of a keyed cache answers with the valid entry of the key. -/
theorem KeyedCache.request_answers {κ : Type} [DecidableEq κ] (key : κ) (version : Version)
    (cache : KeyedCache κ α) (supply : TokenSupply) :
    Query.Answers (fun _ => KeyedCache.request key version) Prod.snd (cache, supply)
      ((cache.entry key).valid? version) := by
  refine Query.Answers.onPart EntryState.supply ?_ (fun _ => ?_)
    (CacheEntry.request_answers version ⟨cache.entry key, cache.counters, supply⟩)
  · rfl
  · rfl

/-- A request of a part of a module answers with the valid entry of the part. -/
theorem ModuleCaches.request_answers (id : ModuleId) (part : ModulePart) (version : Version)
    (caches : ModuleCaches) (supply : TokenSupply) :
    Query.Answers (fun _ => ModuleCaches.request id part version) Prod.snd (caches, supply)
      (((caches.entries id).entry part).valid? version) := by
  refine Query.Answers.onPart EntryState.supply ?_ (fun _ => ?_)
    (CacheEntry.request_answers version ⟨(caches.entries id).entry part, caches.counters, supply⟩)
  · rfl
  · rfl

/-- A request of a class definition answers with the valid one. -/
theorem FullClassCache.request_answers (key : ClassKey) (version : Version)
    (parts : DefinitionParts) (cache : FullClassCache) (supply : TokenSupply) :
    Query.Answers (fun _ => FullClassCache.request key version parts) Prod.snd (cache, supply)
      ((cache.valid? key version parts).map FullClassEntry.artifact) where
  served artifact found ε compute := by
    obtain ⟨entry, valid, rfl⟩ := Option.map_eq_some_iff.1 found
    simp [FullClassCache.request, valid]
  computed missed ε compute tracked done := by
    simp [FullClassCache.request, Option.map_eq_none_iff.1 missed, done]
  failed missed ε compute error done := by
    simp [FullClassCache.request, Option.map_eq_none_iff.1 missed, done]

/-! ## Caches of a session -/

namespace Cell

/-- The values of the artifacts in a cell. -/
abbrev Value : Cell → Type
  | keyed sort _ => sort.Value
  | definition _ | shell _ | slot _ _ | modulePart _ _ => List Tree
  | library => Bootstrap

/-- The artifact in a cell. Those of a shell are in its slots. -/
def artifact? : (cell : Cell) → cell.Content → Option (Artifact cell.Value)
  | keyed _ _, held => held.bind CacheEntry.artifact?
  | definition _, held => held.map FullClassEntry.artifact
  | shell _, _ => none
  | slot _ _, slot? => slot?.bind OneTimeSlot.artifact?
  | modulePart _ _, entry => entry.artifact?
  | library, kept => kept.artifact?

end Cell

/-- What a class definition is put together from. -/
structure PartArtifacts where
  ctor? : Option (Artifact ConstructorParts)
  members : List (Artifact Tree)
  exported : List (Artifact (List Tree))

/-- The tokens of the parts, in their order. -/
def PartArtifacts.parts (given : PartArtifacts) : DefinitionParts :=
  ⟨given.ctor?.map Artifact.token, given.members.map Artifact.token,
    given.exported.map Artifact.token⟩

namespace Caches

/-- A lookup in the caches of a session, up to its computation. It is for the artifact of one
cell. -/
inductive Lookup where
  | keyed (sort : KeyedSort) (key : sort.Key) (version : Version)
  | definition (key : ClassKey) (version : Version) (given : PartArtifacts)
  | slot (key : ClassKey) (part : ShellPart)
  | modulePart (id : ModuleId) (part : ModulePart) (version : Version)
  | library

namespace Lookup

/-- The cell that a lookup is for. -/
abbrev cell : Lookup → Cell
  | keyed sort key _ => .keyed sort key
  | definition key _ _ => .definition key
  | slot key part => .slot key part
  | modulePart id part _ => .modulePart id part
  | library => .library

/-- The values that a lookup gives. -/
abbrev Value (lookup : Lookup) : Type := lookup.cell.Value

/-- The request that a lookup makes. -/
def request : (lookup : Lookup) → Query Caches lookup.Value
  | keyed sort key version => fun _ => requestKeyed sort key version
  | definition key version given => fun _ => requestFullClass key version given.parts
  | slot key part => fun _ => requestShellPart key part
  | modulePart id part version => fun _ => requestModulePart id part version
  | library => fun _ => requestBootstrap

/-- The artifact that the caches have for a lookup. -/
def valid? : (lookup : Lookup) → Caches → Option (Artifact lookup.Value)
  | keyed sort key version, caches => ((caches.keyed sort).entry key).valid? version
  | definition key version given, caches =>
    (caches.classes.fullClasses.valid? key version given.parts).map FullClassEntry.artifact
  | slot key part, caches => (caches.classes.slot key part).artifact?
  | modulePart id part version, caches => ((caches.modules.entries id).entry part).valid? version
  | library, caches => caches.bootstrap.artifact?

/-- Every lookup in the caches of a session is answered by an artifact that is there, or by its
computation. -/
theorem answers (lookup : Lookup) (before : Caches) :
    lookup.request.Answers Caches.supply before (lookup.valid? before) := by
  cases lookup with
  | keyed sort key version =>
    refine Query.Answers.onPart Prod.snd rfl (fun _ => ?_)
      (KeyedCache.request_answers key version (before.keyed sort) before.supply)
    cases sort <;> rfl
  | definition key version given =>
    exact Query.Answers.onPart Prod.snd rfl (fun _ => rfl)
      (FullClassCache.request_answers key version given.parts before.classes.fullClasses
        before.supply)
  | slot key part =>
    exact Query.Answers.onPart Prod.snd rfl (fun _ => rfl)
      (OneTimeSlot.request_answers (before.classes.slot key part) before.supply)
  | modulePart id part version =>
    exact Query.Answers.onPart Prod.snd rfl (fun _ => rfl)
      (ModuleCaches.request_answers id part version before.modules before.supply)
  | library =>
    exact Query.Answers.onPart Prod.snd rfl (fun _ => rfl)
      (OneTimeSlot.request_answers before.bootstrap before.supply)

/-- A lookup is served by what is valid for it. -/
theorem served?_eq (lookup : Lookup) (before : Caches) :
    lookup.request.served? before = lookup.valid? before :=
  (lookup.answers before).served?_eq

/-- Whether a lookup is for a class definition. -/
def isDefinition : Lookup → Bool
  | definition .. => true
  | _ => false

/-- Only lookups for class definitions change the cache of class definitions. -/
theorem fullClasses_reached (lookup : Lookup) (other : lookup.isDefinition = false)
    (compute : Unit → Except ε (Tracked lookup.Value)) (before : Caches) :
    ((lookup.request ε compute).reached before).classes.fullClasses =
      before.classes.fullClasses := by
  cases lookup with
  | keyed sort key version =>
    simp only [request, requestKeyed, Step.reached_onPart]
    cases sort <;> rfl
  | definition key version given => cases other
  | slot key part =>
    simp only [request, requestShellPart, Step.reached_onPart, ClassCaches.withSlot]
    cases before.classes.shells.get? key <;> rfl
  | modulePart id part version =>
    simp only [request, requestModulePart, Step.reached_onPart]
  | library => simp only [request, requestBootstrap, Step.reached_onPart]

end Lookup

end Caches

end JsEmitter
