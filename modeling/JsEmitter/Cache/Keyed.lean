import JsEmitter.Cache.Entry
import JsEmitter.Table

/-!
# Keyed caches

A keyed cache has one entry per key and counts its requests over a run. When the run ends, the
entries that were not requested are dropped.
-/
namespace JsEmitter

/-- Cache entries by key, with the counters of the run. -/
structure KeyedCache (κ α : Type) where
  table : Table κ (CacheEntry α)
  counters : CacheCounters

namespace KeyedCache

variable {ε κ α : Type} [DecidableEq κ]

/-- The cache without entries. -/
def empty : KeyedCache κ α := ⟨∅, .zero⟩

instance : Inhabited (KeyedCache κ α) := ⟨empty⟩

/-- The entry of a key, fresh if there is none. -/
def entry (cache : KeyedCache κ α) (key : κ) : CacheEntry α := (cache.table.get? key).getD .fresh

/-- The cache after a request to the entry of a key. -/
def withEntry (cache : KeyedCache κ α) (key : κ) (reached : EntryState α) : KeyedCache κ α :=
  ⟨cache.table.put key reached.entry, reached.counters⟩

/-- The artifact of a key for a version, computed if the cache has no valid one. -/
def request (key : κ) (version : Version) (compute : Unit → Except ε (Tracked α)) :
    Step ε (KeyedCache κ α × TokenSupply) (Artifact α) :=
  Step.onPart (fun (cache, supply) => ⟨cache.entry key, cache.counters, supply⟩)
    (fun (cache, _) reached => (cache.withEntry key reached, reached.supply))
    (CacheEntry.request version compute)

/-- The cache at the start of a run. -/
def startRun (cache : KeyedCache κ α) : KeyedCache κ α :=
  ⟨cache.table.mapValues CacheEntry.resetUsed, .zero⟩

/-- The cache at the end of a run, without the entries that were not requested. -/
def endRun (cache : KeyedCache κ α) : KeyedCache κ α :=
  { cache with table := cache.table.filterValues CacheEntry.used }

/-- Whether there is an entry for a key, be it one without an artifact. -/
def contains (cache : KeyedCache κ α) (key : κ) : Bool := cache.table.contains key

/-- Number of entries. -/
def size (cache : KeyedCache κ α) : Nat := cache.table.size

/-- Whether there are no entries. -/
def isEmpty (cache : KeyedCache κ α) : Bool := cache.table.isEmpty

end KeyedCache

end JsEmitter
