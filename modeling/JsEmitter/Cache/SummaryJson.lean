import JsEmitter.Cache.Classes
import JsEmitter.Json

/-!
# Summaries of caches

What caches report about a run: how many results were reused and computed, and how many entries
they hold.
-/
namespace JsEmitter

/-- The counters of a run as a pair. -/
def CacheCounters.toJson (counters : CacheCounters) : Json :=
  .arr [.int counters.reused, .int counters.invalidated]

/-- The counters of a run, the number of entries, and whether there are none. -/
def CacheCounters.summary (counters : CacheCounters) (size : Nat) : Json :=
  .arr [.int counters.reused, .int counters.invalidated, .int size, .bool (size = 0)]

/-- The summary of a keyed cache. -/
def KeyedCache.summary {κ α : Type} [DecidableEq κ] (cache : KeyedCache κ α) : Json :=
  cache.counters.summary cache.size

/-- The summaries of the caches of classes. -/
def ClassCaches.summary (caches : ClassCaches) : Json :=
  .obj [
    ("classes", caches.shellCounters.toJson),
    ("class_count", .int caches.classCount),
    ("all_methods", caches.methodCounters.toJson),
    ("methods", caches.functions.summary),
    ("member_methods", caches.members.summary),
    ("bridges", caches.bridges.summary),
    ("constructors", caches.constructors.summary),
    ("exported_members", caches.exportedMembers.summary),
    ("full_classes", caches.fullClasses.counters.summary caches.fullClasses.table.size)]

end JsEmitter
