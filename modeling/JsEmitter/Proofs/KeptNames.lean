import JsEmitter.Proofs.Cells
import JsEmitter.Proofs.Lockstep
import JsEmitter.Proofs.TrackingModes
import Mathlib.Order.CompleteBooleanAlgebra
import Mathlib.Order.CompletePartialOrder

/-!
# Caches with some of their host names

Runs that keep different host names have the same caches but for the names recorded in them. No
request looks at these names: it reuses and computes the same in all runs, and the caches differ
by no more than before.
-/
namespace JsEmitter

open Js (Tree)
open Lowering (ConstructorParts Bootstrap)

namespace Table

variable {κ α β : Type}

/-- Tables with the same entries are equal. -/
theorem eq_of_entries {first second : Table κ α} (same : first.entries = second.entries) :
    first = second := by
  cases first
  cases second
  cases same
  rfl

/-- Functions on values that commute may be applied in both orders. -/
theorem mapValues_comm (first second : α → α) (commute : ∀ value,
    first (second value) = second (first value)) (table : Table κ α) :
    (table.mapValues second).mapValues first = (table.mapValues first).mapValues second := by
  refine eq_of_entries ?_
  simp only [mapValues, List.map_map]
  refine List.map_congr_left (fun entry _ => ?_)
  simp only [Function.comp_apply, commute]

/-- A function on values goes through a selection that does not depend on it. -/
theorem filterValues_mapValues (transform : α → α) (keep : α → Bool)
    (same : ∀ value, keep (transform value) = keep value) (table : Table κ α) :
    (table.mapValues transform).filterValues keep =
      (table.filterValues keep).mapValues transform := by
  refine eq_of_entries ?_
  simp only [filterValues, mapValues, List.filter_map]
  congr 1
  exact List.filter_congr (fun entry _ => same entry.2)

variable [DecidableEq κ]

/-- A function on values goes through a new value. -/
theorem put_mapValues (transform : α → β) (table : Table κ α) (key : κ) (value : α) :
    (table.mapValues transform).put key (transform value) =
      (table.put key value).mapValues transform := by
  have keys : (table.mapValues transform).keys = table.keys := by
    simp [Table.keys, mapValues]
  refine eq_of_entries ?_
  by_cases found : key ∈ table.keys
  · have there : key ∈ (table.mapValues transform).keys := keys ▸ found
    rw [put, put, dif_pos there, dif_pos found]
    simp only [mapValues, List.map_map]
    refine List.map_congr_left (fun entry _ => ?_)
    simp only [Function.comp_apply, replaceIn]
    split <;> rfl
  · have absent : ¬ key ∈ (table.mapValues transform).keys := keys ▸ found
    rw [put, put, dif_neg absent, dif_neg found]
    simp [mapValues]

end Table

variable {ε ι σ τ α β κ : Type}

/-! ## What is kept -/

section Only

variable (kept : String → Bool)

/-- The artifact with those of its host names that are kept. -/
def Artifact.only (artifact : Artifact α) : Artifact α :=
  { artifact with refs := artifact.refs.filter kept }

/-- Forgetting recorded names keeps the token of an artifact. -/
@[simp] theorem Artifact.only_token (artifact : Artifact α) :
    (artifact.only kept).token = artifact.token := rfl

/-- Forgetting recorded names keeps the value of an artifact. -/
@[simp] theorem Artifact.only_value (artifact : Artifact α) :
    (artifact.only kept).value = artifact.value := rfl

/-- Of the recorded names of an artifact those that are kept remain. -/
@[simp] theorem Artifact.only_refs (artifact : Artifact α) :
    (artifact.only kept).refs = artifact.refs.filter kept := rfl

/-- The entry with the host names that are kept. -/
def CacheEntry.only (entry : CacheEntry α) : CacheEntry α :=
  { entry with artifact? := entry.artifact?.map (Artifact.only kept) }

/-- The slot with the host names that are kept. -/
def OneTimeSlot.only (slot : OneTimeSlot α) : OneTimeSlot α :=
  ⟨slot.artifact?.map (Artifact.only kept)⟩

/-- The cache with the host names that are kept. -/
def KeyedCache.only (cache : KeyedCache κ α) : KeyedCache κ α :=
  { cache with table := cache.table.mapValues (CacheEntry.only kept) }

/-- The definition with the host names that are kept. -/
def FullClassEntry.only (entry : FullClassEntry) : FullClassEntry :=
  { entry with artifact := entry.artifact.only kept }

/-- The cache with the host names that are kept. -/
def FullClassCache.only (cache : FullClassCache) : FullClassCache :=
  { cache with table := cache.table.mapValues (FullClassEntry.only kept) }

/-- The shell with the host names that are kept. -/
def ClassShell.only (shell : ClassShell) : ClassShell :=
  { shell with slot := fun part => (shell.slot part).only kept }

/-- The entries with the host names that are kept. -/
def ModuleEntries.only (entries : ModuleEntries) : ModuleEntries :=
  ⟨fun part => (entries.entry part).only kept⟩

/-- The caches with the host names that are kept. -/
def ModuleCaches.only (caches : ModuleCaches) : ModuleCaches :=
  { caches with table := caches.table.mapValues (ModuleEntries.only kept) }

/-- The caches with the host names that are kept. -/
def ClassCaches.only (caches : ClassCaches) : ClassCaches where
  shells := caches.shells.mapValues (ClassShell.only kept)
  shellCounters := caches.shellCounters
  functions := caches.functions.only kept
  members := caches.members.only kept
  bridges := caches.bridges.only kept
  constructors := caches.constructors.only kept
  exportedMembers := caches.exportedMembers.only kept
  fullClasses := caches.fullClasses.only kept

/-- The caches with the host names that are kept. -/
def Caches.only (caches : Caches) : Caches where
  classes := caches.classes.only kept
  modules := caches.modules.only kept
  bootstrap := caches.bootstrap.only kept
  supply := caches.supply

/-- Forgetting recorded names does not change when an entry is valid. -/
theorem CacheEntry.valid?_only (entry : CacheEntry α) (version : Version) :
    (entry.only kept).valid? version = (entry.valid? version).map (Artifact.only kept) := by
  unfold valid?
  change (if entry.version.isSame version = true then _ else _) = _
  split <;> rfl

/-- Forgetting recorded names can be done entry by entry. -/
theorem KeyedCache.entry_only [DecidableEq κ] (cache : KeyedCache κ α) (key : κ) :
    (cache.only kept).entry key = (cache.entry key).only kept := by
  simp only [KeyedCache.entry, KeyedCache.only, Table.get?_mapValues]
  cases cache.table.get? key <;> rfl

/-- Forgetting recorded names can be done module by module. -/
theorem ModuleCaches.entries_only (caches : ModuleCaches) (id : ModuleId) :
    (caches.only kept).entries id = (caches.entries id).only kept := by
  simp only [ModuleCaches.entries, ModuleCaches.only, Table.get?_mapValues]
  cases caches.table.get? id <;> rfl

/-- Forgetting recorded names and the start of a run of a keyed cache can be exchanged. -/
theorem KeyedCache.only_startRun (cache : KeyedCache κ α) :
    (cache.only kept).startRun = cache.startRun.only kept :=
  congrArg (fun table => (⟨table, .zero⟩ : KeyedCache κ α))
    (Table.mapValues_comm CacheEntry.resetUsed (CacheEntry.only kept) (fun _ => rfl) cache.table)

/-- Forgetting recorded names and the end of a run of a keyed cache can be exchanged. -/
theorem KeyedCache.only_endRun (cache : KeyedCache κ α) :
    (cache.only kept).endRun = cache.endRun.only kept :=
  congrArg (fun table => (⟨table, cache.counters⟩ : KeyedCache κ α))
    (Table.filterValues_mapValues (CacheEntry.only kept) CacheEntry.used (fun _ => rfl) cache.table)

/-- Forgetting recorded names and the start of a run of the class caches can be exchanged. -/
theorem ClassCaches.only_startRun (caches : ClassCaches) :
    (caches.only kept).startRun = caches.startRun.only kept := by
  have shells := Table.mapValues_comm (fun shell => { shell with used := false })
    (ClassShell.only kept) (fun _ => rfl) caches.shells
  have definitions := Table.mapValues_comm (fun entry => { entry with used := false })
    (FullClassEntry.only kept) (fun _ => rfl) caches.fullClasses.table
  simp only [startRun, only, KeyedCache.only_startRun, FullClassCache.startRun,
    FullClassCache.only, shells, definitions]

/-- Forgetting recorded names and the end of a run of the class caches can be exchanged. -/
theorem ClassCaches.only_endRun (caches : ClassCaches) :
    (caches.only kept).endRun = caches.endRun.only kept := by
  have shells := Table.filterValues_mapValues (ClassShell.only kept) ClassShell.used
    (fun _ => rfl) caches.shells
  have definitions := Table.filterValues_mapValues (FullClassEntry.only kept) FullClassEntry.used
    (fun _ => rfl) caches.fullClasses.table
  simp only [endRun, only, KeyedCache.only_endRun, FullClassCache.endRun,
    FullClassCache.only, shells, definitions]

/-- Forgetting recorded names and the start of a run of the module caches can be exchanged. -/
theorem ModuleCaches.only_startRun (caches : ModuleCaches) :
    (caches.only kept).startRun = caches.startRun.only kept :=
  congrArg (fun table => (⟨table, .zero⟩ : ModuleCaches))
    (Table.mapValues_comm ModuleEntries.resetUsed (ModuleEntries.only kept) (fun _ => rfl)
      caches.table)

/-- Forgetting recorded names and the end of a run of the module caches can be exchanged. -/
theorem ModuleCaches.only_endRun (caches : ModuleCaches) :
    (caches.only kept).endRun = caches.endRun.only kept :=
  congrArg (fun table => (⟨table, caches.counters⟩ : ModuleCaches))
    (Table.filterValues_mapValues (ModuleEntries.only kept) ModuleEntries.isUsed (fun _ => rfl)
      caches.table)

/-- What is kept is the same before and after the start of a run. -/
theorem Caches.only_startRun (caches : Caches) :
    (caches.only kept).startRun = caches.startRun.only kept := by
  simp only [startRun, only, ClassCaches.only_startRun, ModuleCaches.only_startRun]

/-- What is kept is the same before and after the end of a run. -/
theorem Caches.only_endRun (caches : Caches) :
    (caches.only kept).endRun = caches.endRun.only kept := by
  simp only [endRun, only, ClassCaches.only_endRun, ModuleCaches.only_endRun]

end Only

/-! ## Runs that keep different names -/

/-- States that are the same but for the host names that each of them keeps. -/
def SameButNames (only : (String → Bool) → σ → σ) (kept : ι → String → Bool) (_ : Unit)
    (states : ι → σ) : Prop :=
  ∃ full, ∀ side, states side = only (kept side) full

/-- Steps that do the same but for the host names that each of them keeps. -/
abbrev KeepNames (only : (String → Bool) → σ → σ) (onlyValue : (String → Bool) → α → α)
    (kept : ι → String → Bool) (steps : ι → Step ε σ α) : Prop :=
  Lockstep (SameButNames only kept) () (fun side => onlyValue (kept side)) (fun _ _ => True) steps

namespace KeepNames

variable {only : (String → Bool) → σ → σ} {onlyValue : (String → Bool) → α → α}
  {kept : ι → String → Bool} {steps : ι → Step ε σ α}

/-- Steps keep names if they do so from states that have the names of one state. -/
theorem of_ends (ends : ∀ full, ∃ (outcome : Except ε α) (reached : σ), ∀ side,
    steps side (only (kept side) full) =
      Step.ended (outcome.map (onlyValue (kept side))) (only (kept side) reached)) :
    KeepNames only onlyValue kept steps := by
  rintro - - states ⟨full, same⟩
  obtain rfl : states = fun side => only (kept side) full := funext same
  obtain ⟨outcome, reached, ends⟩ := ends full
  exact ⟨(), le_rfl, outcome, _, trivial, ⟨reached, fun _ => rfl⟩, ends⟩

/-- Steps from states that have the names of one state. -/
theorem ends (keeps : KeepNames only onlyValue kept steps) (full : σ) :
    ∃ (outcome : Except ε α) (reached : σ), ∀ side, steps side (only (kept side) full) =
      Step.ended (outcome.map (onlyValue (kept side))) (only (kept side) reached) := by
  obtain ⟨-, -, outcome, after, -, ⟨reached, same⟩, ends⟩ := keeps () le_rfl _ ⟨full, fun _ => rfl⟩
  exact ⟨outcome, reached, fun side => by rw [ends side, same side]⟩

/-- One step after another. -/
theorem bind {onlyNext : (String → Bool) → β → β} {next : ι → α → Step ε σ β}
    (start : KeepNames only onlyValue kept steps)
    (rest : ∀ value, KeepNames only onlyNext kept
      (fun side => next side (onlyValue (kept side) value))) :
    KeepNames only onlyNext kept (fun side => steps side >>= next side) :=
  Lockstep.bind start (fun _ _ _ _ => trivial) (fun _ _ value _ => rest value)

/-- Values that are the same but for their host names. -/
theorem pureOf {values : ι → α} (value : α)
    (same : ∀ side, values side = onlyValue (kept side) value) :
    KeepNames only onlyValue kept (fun side => (pure (values side) : Step ε σ α)) :=
  Lockstep.pureOf value same (fun _ _ => trivial)

/-- The same failure on every side. -/
theorem throw (error : ε) :
    KeepNames only onlyValue kept (fun _ => (MonadExcept.throw error : Step ε σ α)) :=
  Lockstep.throw error (fun _ _ => trivial)

/-- A step for every element of a list. -/
theorem mapM {γ : Type} {items : List γ} {each : γ → ι → Step ε σ α}
    (keeps : ∀ item ∈ items, KeepNames only onlyValue kept (each item)) :
    KeepNames only (fun names => List.map (onlyValue names)) kept
      (fun side => items.mapM (fun item => each item side)) :=
  (Lockstep.mapM (fun _ _ _ => True) (fun _ _ _ _ _ _ => trivial) keeps).imp
    (fun _ _ _ _ => trivial)

/-- A change of the states that the names have no part in. -/
theorem update (change : σ → σ) (commutes : ∀ names state,
    change (only names state) = only names (change state)) :
    KeepNames only (fun _ value => value) kept
      (fun _ => (modify change : Step ε σ PUnit)) := by
  refine (Lockstep.update (fun _ => change) ?_).imp (fun _ _ _ _ => trivial)
  rintro - - states ⟨full, same⟩
  exact ⟨change full, fun side => (congrArg change (same side)).trans (commutes _ _)⟩

/-- A look at the states. -/
theorem look : KeepNames only only kept (fun _ => (get : Step ε σ σ)) := by
  exact .of_ends (fun full => ⟨.ok full, full, fun _ => rfl⟩)

/-- Steps on a part of the state. -/
theorem onPart {onlyPart : (String → Bool) → τ → τ} {part : σ → τ} {withPart : σ → τ → σ}
    {inner : ι → Step ε τ α} (parts : ∀ names state,
      part (only names state) = onlyPart names (part state))
    (joins : ∀ names state reached,
      withPart (only names state) (onlyPart names reached) = only names (withPart state reached))
    (keeps : KeepNames onlyPart onlyValue kept inner) :
    KeepNames only onlyValue kept (fun side => Step.onPart part withPart (inner side)) := by
  refine Lockstep.onPart (SameButNames onlyPart kept) ?_ ?_ keeps
  · rintro - states ⟨full, same⟩
    exact ⟨part full, fun side => (congrArg part (same side)).trans (parts _ _)⟩
  · rintro - - states reached - ⟨full, same⟩ ⟨last, ends⟩
    exact ⟨withPart full last,
      fun side => (congrArg₂ withPart (same side) (ends side)).trans (joins _ _ _)⟩

end KeepNames

/-! ## Requests -/

/-- What a request to an entry works on, with the host names that are kept. -/
def EntryState.only (kept : String → Bool) (state : EntryState α) : EntryState α :=
  { state with entry := state.entry.only kept }

section Requests

variable (kept : ι → String → Bool) {version : Version}

/-- Requests of an entry differ in the kept names only. -/
theorem CacheEntry.request_keepNames (own : Except ε (Tracked α)) :
    KeepNames EntryState.only Artifact.only kept
      (fun side => CacheEntry.request version (fun _ => own.map (Tracked.only (kept side)))) := by
  refine .of_ends (fun full => ?_)
  have valid : ∀ names, (full.only names).entry.valid? version =
      (full.entry.valid? version).map (Artifact.only names) :=
    fun names => full.entry.valid?_only names version
  cases found : full.entry.valid? version with
  | some artifact =>
    refine ⟨.ok artifact, ⟨{ full.entry with used := true }, full.counters.countReused,
      full.supply⟩, fun side => ?_⟩
    simp only [request, valid, found, Option.map_some]
    rfl
  | none =>
    cases own with
    | error error =>
      refine ⟨.error error, { full with entry := { full.entry with used := true } },
        fun side => ?_⟩
      simp only [request, valid, found, Option.map_none, Except.map]
      rfl
    | ok tracked =>
      refine ⟨.ok (full.supply.make tracked), ⟨⟨version, some (full.supply.make tracked), true⟩,
        full.counters.countInvalidated, full.supply.advance⟩, fun side => ?_⟩
      simp only [request, valid, found, Option.map_none, Except.map]
      rfl

/-- Requests of a keyed cache differ in the kept names only. -/
theorem KeyedCache.request_keepNames [DecidableEq κ] (key : κ) (own : Except ε (Tracked α)) :
    KeepNames (fun names (state : KeyedCache κ α × TokenSupply) => (state.1.only names, state.2))
      Artifact.only kept
      (fun side => request key version (fun _ => own.map (Tracked.only (kept side)))) := by
  refine KeepNames.onPart ?_ ?_ (CacheEntry.request_keepNames kept own)
  · rintro names ⟨cache, supply⟩
    simp only [KeyedCache.entry_only]
    rfl
  · rintro names ⟨cache, supply⟩ reached
    simp only [withEntry, KeyedCache.only, EntryState.only, Table.put_mapValues]

/-- Requests of a part of a module differ in the kept names only. -/
theorem ModuleCaches.request_keepNames (id : ModuleId) (part : ModulePart)
    (own : Except ε (Tracked (List Tree))) :
    KeepNames (fun names (state : ModuleCaches × TokenSupply) => (state.1.only names, state.2))
      Artifact.only kept
      (fun side => request id part version (fun _ => own.map (Tracked.only (kept side)))) := by
  refine KeepNames.onPart ?_ ?_ (CacheEntry.request_keepNames kept own)
  · rintro names ⟨caches, supply⟩
    simp only [ModuleCaches.entries_only]
    rfl
  · rintro names ⟨caches, supply⟩ reached
    have entries : ((caches.entries id).only names).withEntry part (reached.entry.only names) =
        ((caches.entries id).withEntry part reached.entry).only names := by
      simp only [ModuleEntries.withEntry, ModuleEntries.only, ModuleEntries.mk.injEq]
      funext other
      split <;> rfl
    simp only [withEntry, ModuleCaches.entries_only, EntryState.only, entries]
    simp only [ModuleCaches.only, Table.put_mapValues]

/-- Requests of a slot differ in the kept names only. -/
theorem OneTimeSlot.request_keepNames (own : Tracked α) :
    KeepNames (fun names (state : OneTimeSlot α × TokenSupply) => (state.1.only names, state.2))
      Artifact.only kept
      (fun side => (request (fun _ => .ok (own.only (kept side))) : Step ε _ _)) := by
  refine .of_ends ?_
  rintro ⟨⟨artifact?⟩, supply⟩
  cases artifact? with
  | some artifact => exact ⟨.ok artifact, (⟨some artifact⟩, supply), fun _ => rfl⟩
  | none =>
    exact ⟨.ok (supply.make own), (⟨some (supply.make own)⟩, supply.advance), fun _ => rfl⟩

/-- Requests of a class definition differ in the kept names only. -/
theorem FullClassCache.request_keepNames (key : ClassKey) (parts : DefinitionParts)
    (own : Tracked (List Tree)) :
    KeepNames (fun names (state : FullClassCache × TokenSupply) => (state.1.only names, state.2))
      Artifact.only kept
      (fun side => (request key version parts (fun _ => .ok (own.only (kept side))) :
        Step ε _ _)) := by
  refine .of_ends ?_
  rintro ⟨cache, supply⟩
  have valid : ∀ names, (cache.only names).valid? key version parts =
      (cache.valid? key version parts).map (FullClassEntry.only names) := by
    intro names
    simp only [valid?, FullClassCache.only, Table.get?_mapValues, Option.filter_map]
    rfl
  have marked : ∀ names, (cache.only names).markUsed key = (cache.markUsed key).only names := by
    intro names
    simp only [markUsed, FullClassCache.only, Table.get?_mapValues]
    cases cache.table.get? key with
    | none => rfl
    | some entry =>
      simp only [Option.map_some, ← Table.put_mapValues]
      rfl
  cases found : cache.valid? key version parts with
  | some entry =>
    refine ⟨.ok entry.artifact,
      ({ cache.markUsed key with counters := cache.counters.countReused }, supply),
      fun side => ?_⟩
    simp only [request, valid, found, Option.map_some, marked]
    rfl
  | none =>
    refine ⟨.ok (supply.make own), (⟨cache.table.put key ⟨version, parts, supply.make own, true⟩,
      cache.counters.countInvalidated⟩, supply.advance), fun side => ?_⟩
    simp only [request, valid, found, Option.map_none]
    simp only [FullClassCache.only, ← Table.put_mapValues]
    rfl

end Requests

end JsEmitter
