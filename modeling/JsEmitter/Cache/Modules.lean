import JsEmitter.Cache.Entry
import JsEmitter.Js.Tree
import JsEmitter.Name
import JsEmitter.Table

/-!
# Caches of modules

A module has cached imports, exports and calls at load time, each under a version of its own.
They share the counters of the run, and they are dropped together when none of them was
requested.
-/
namespace JsEmitter

open Js (Tree)

/-- The cached parts of a module. -/
inductive ModulePart where
  | imports
  | topLevelExports
  | initializers
deriving DecidableEq, Repr

/-- The entries of the parts of one module. -/
structure ModuleEntries where
  entry : ModulePart → CacheEntry (List Tree)

namespace ModuleEntries

/-- The entries of a module that has not been requested. -/
def fresh : ModuleEntries := ⟨fun _ => .fresh⟩

/-- The entries with another one for a part. -/
def withEntry (entries : ModuleEntries) (part : ModulePart) (entry : CacheEntry (List Tree)) :
    ModuleEntries :=
  ⟨fun other => if other = part then entry else entries.entry other⟩

/-- Whether any part has been requested during the run. -/
def isUsed (entries : ModuleEntries) : Bool :=
  (entries.entry .imports).used || (entries.entry .topLevelExports).used ||
    (entries.entry .initializers).used

/-- The entries at the start of a run. -/
def resetUsed (entries : ModuleEntries) : ModuleEntries :=
  ⟨fun part => (entries.entry part).resetUsed⟩

end ModuleEntries

/-- The cached parts of all modules, with the counters of the run. -/
structure ModuleCaches where
  table : Table ModuleId ModuleEntries
  counters : CacheCounters

namespace ModuleCaches

variable {ε : Type}

/-- The caches without entries. -/
def empty : ModuleCaches := ⟨∅, .zero⟩

instance : Inhabited ModuleCaches := ⟨empty⟩

/-- The entries of a module, fresh if there are none. -/
def entries (caches : ModuleCaches) (id : ModuleId) : ModuleEntries :=
  (caches.table.get? id).getD .fresh

/-- The caches after a request to the entry of a part of a module. -/
def withEntry (caches : ModuleCaches) (id : ModuleId) (part : ModulePart)
    (reached : EntryState (List Tree)) : ModuleCaches :=
  ⟨caches.table.put id ((caches.entries id).withEntry part reached.entry), reached.counters⟩

/-- A part of a module for a version, computed if the caches have no valid one. -/
def request (id : ModuleId) (part : ModulePart) (version : Version)
    (compute : Unit → Except ε (Tracked (List Tree))) :
    Step ε (ModuleCaches × TokenSupply) (Artifact (List Tree)) :=
  Step.onPart
    (fun (caches, supply) => ⟨(caches.entries id).entry part, caches.counters, supply⟩)
    (fun (caches, _) reached => (caches.withEntry id part reached, reached.supply))
    (CacheEntry.request version compute)

/-- The caches at the start of a run. -/
def startRun (caches : ModuleCaches) : ModuleCaches :=
  ⟨caches.table.mapValues ModuleEntries.resetUsed, .zero⟩

/-- The caches at the end of a run, without the modules of which nothing was requested. -/
def endRun (caches : ModuleCaches) : ModuleCaches :=
  { caches with table := caches.table.filterValues ModuleEntries.isUsed }

/-- Whether anything is cached for a module. -/
def contains (caches : ModuleCaches) (id : ModuleId) : Bool := caches.table.contains id

end ModuleCaches

end JsEmitter
