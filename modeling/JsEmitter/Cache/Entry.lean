import JsEmitter.Cache.Artifact
import JsEmitter.Version

/-!
# Cache entries

An entry keeps the last artifact that was computed, under the version it was computed for. A
request for the same version gives that artifact without a computation; any other request
computes, and replaces the artifact unless the computation fails. A slot keeps the first artifact
for good.
-/
namespace JsEmitter

variable {ε α : Type}

/-- The last computed artifact of one key. -/
structure CacheEntry (α : Type) where
  /-- The version that the artifact was computed for. -/
  version : Version
  artifact? : Option (Artifact α)
  /-- Whether the entry has been requested during the run. -/
  used : Bool

/-- The entry of a key that has not been requested. -/
def CacheEntry.fresh : CacheEntry α := ⟨.unversioned, none, false⟩

instance : Inhabited (CacheEntry α) := ⟨.fresh⟩

/-- The artifact, if it is valid for a version. -/
def CacheEntry.valid? (entry : CacheEntry α) (version : Version) : Option (Artifact α) :=
  if entry.version.isSame version then entry.artifact? else none

/-- The entry at the start of a run. -/
def CacheEntry.resetUsed (entry : CacheEntry α) : CacheEntry α := { entry with used := false }

/-- What a request to one entry works on. -/
structure EntryState (α : Type) where
  entry : CacheEntry α
  counters : CacheCounters
  supply : TokenSupply

/-- The artifact for a version, computed if the entry has no valid one. The entry counts as used
in every case. -/
def CacheEntry.request (version : Version) (compute : Unit → Except ε (Tracked α)) :
    Step ε (EntryState α) (Artifact α) := fun state =>
  match state.entry.valid? version with
  | some artifact =>
    .ok artifact {
      entry := { state.entry with used := true }
      counters := state.counters.countReused
      supply := state.supply }
  | none =>
    match compute () with
    | .error error => .error error { state with entry := { state.entry with used := true } }
    | .ok tracked =>
      let artifact := state.supply.make tracked
      .ok artifact {
        entry := ⟨version, some artifact, true⟩
        counters := state.counters.countInvalidated
        supply := state.supply.advance }

/-- A place for one artifact that is computed at most once. -/
structure OneTimeSlot (α : Type) where
  artifact? : Option (Artifact α)

namespace OneTimeSlot

/-- The slot without an artifact. -/
def empty : OneTimeSlot α := ⟨none⟩

instance : Inhabited (OneTimeSlot α) := ⟨empty⟩

/-- Whether there is an artifact. -/
def isFilled (slot : OneTimeSlot α) : Bool := slot.artifact?.isSome

/-- The artifact, computed if there is none yet. -/
def request (compute : Unit → Except ε (Tracked α)) :
    Step ε (OneTimeSlot α × TokenSupply) (Artifact α) := fun (slot, supply) =>
  match slot.artifact? with
  | some artifact => .ok artifact (slot, supply)
  | none =>
    match compute () with
    | .error error => .error error (slot, supply)
    | .ok tracked =>
      let artifact := supply.make tracked
      .ok artifact (⟨some artifact⟩, supply.advance)

end OneTimeSlot

end JsEmitter
