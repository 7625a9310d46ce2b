import JsEmitter.Cache.Keyed
import JsEmitter.Lowering.ClassParts

/-!
# Caches of classes

A class is known by its module and its list of ancestors. Its methods, bridges, constructor and
exported members are cached each under its own version, so a method is reused although the class
around it has changed. A whole definition is reused only if it was built from the very same
parts. Pieces that depend on the class alone are kept in the slots of its shell, which is
replaced when the version of the class changes.
-/
namespace JsEmitter

open Js (Tree)
open Lowering (ConstructorParts)

/-- The identity of a class from run to run. -/
structure ClassKey where
  home : ModuleId
  ancestors : List ClassName
deriving DecidableEq

namespace ClassKey

/-- The key of a class in a module. -/
def ofClass (home : ModuleId) (linked : LinkedClass) : ClassKey := ⟨home, linked.ancestors⟩

/-- The name of the class. -/
def className? (key : ClassKey) : Option ClassName := key.ancestors.head?

end ClassKey

/-- The pieces that depend on a class alone. -/
inductive ShellPart where
  | instanceTests
  | typeData
  | moduleAccessor
  | staticFields
  | staticInitializers
deriving DecidableEq, Repr

/-- The pieces in their fixed order. -/
def ShellPart.all : List ShellPart :=
  [instanceTests, typeData, moduleAccessor, staticFields, staticInitializers]

/-- The pieces of one class that depend on it alone. -/
structure ClassShell where
  version : Version
  /-- Whether the shell has been requested during the run. -/
  used : Bool
  slot : ShellPart → OneTimeSlot (List Tree)

namespace ClassShell

/-- The shell of a class that has been requested, without any piece. -/
def fresh (version : Version) : ClassShell := ⟨version, true, fun _ => .empty⟩

/-- The shell with another slot for a piece. -/
def withSlot (shell : ClassShell) (part : ShellPart) (slot : OneTimeSlot (List Tree)) :
    ClassShell :=
  { shell with slot := fun other => if other = part then slot else shell.slot other }

end ClassShell

/-- The tokens of the parts that a class definition is put together from. -/
structure DefinitionParts where
  ctor? : Option Token
  members : List Token
  exported : List Token
deriving DecidableEq

/-- A cached class definition. -/
structure FullClassEntry where
  version : Version
  parts : DefinitionParts
  artifact : Artifact (List Tree)
  /-- Whether the definition has been requested during the run. -/
  used : Bool

/-- Whether a definition can be reused for a version and parts. -/
def FullClassEntry.isValid (entry : FullClassEntry) (version : Version)
    (parts : DefinitionParts) : Bool :=
  entry.version.isSame version && entry.parts = parts

/-- Class definitions by class, with the counters of the run. -/
structure FullClassCache where
  table : Table ClassKey FullClassEntry
  counters : CacheCounters

namespace FullClassCache

variable {ε : Type}

/-- The cache without definitions. -/
def empty : FullClassCache := ⟨∅, .zero⟩

instance : Inhabited FullClassCache := ⟨empty⟩

/-- The definition of a class that can be reused for a version and parts. -/
def valid? (cache : FullClassCache) (key : ClassKey) (version : Version)
    (parts : DefinitionParts) : Option FullClassEntry :=
  (cache.table.get? key).filter (fun entry => entry.isValid version parts)

/-- The cache in which the definition of a class, if there is one, counts as used. -/
def markUsed (cache : FullClassCache) (key : ClassKey) : FullClassCache :=
  match cache.table.get? key with
  | some entry => { cache with table := cache.table.put key { entry with used := true } }
  | none => cache

/-- The definition of a class for a version and parts, computed if the cache has no valid one. A
computation that fails leaves the earlier definition in place. -/
def request (key : ClassKey) (version : Version) (parts : DefinitionParts)
    (compute : Unit → Except ε (Tracked (List Tree))) :
    Step ε (FullClassCache × TokenSupply) (Artifact (List Tree)) := fun (cache, supply) =>
  match cache.valid? key version parts with
  | some entry =>
    .ok entry.artifact
      ({ cache.markUsed key with counters := cache.counters.countReused }, supply)
  | none =>
    match compute () with
    | .error error => .error error (cache.markUsed key, supply)
    | .ok tracked =>
      let artifact := supply.make tracked
      .ok artifact
        (⟨cache.table.put key ⟨version, parts, artifact, true⟩, cache.counters.countInvalidated⟩,
          supply.advance)

/-- The cache at the start of a run. -/
def startRun (cache : FullClassCache) : FullClassCache :=
  ⟨cache.table.mapValues (fun entry => { entry with used := false }), .zero⟩

/-- The cache at the end of a run, without the definitions that were not requested. -/
def endRun (cache : FullClassCache) : FullClassCache :=
  { cache with table := cache.table.filterValues FullClassEntry.used }

/-- The token of the definition of a class. -/
def token? (cache : FullClassCache) (key : ClassKey) : Option Token :=
  (cache.table.get? key).map (fun entry => entry.artifact.token)

end FullClassCache

/-- The key of a method that is a free function. -/
abbrev FunctionKey := ClassKey × MemberNamespace × MethodName

/-- The key of a method inside a class definition. -/
abbrev MemberKey := ClassKey × MethodName

/-- Every cache of classes and their parts. -/
structure ClassCaches where
  shells : Table ClassKey ClassShell
  shellCounters : CacheCounters
  /-- Methods that are free functions. -/
  functions : KeyedCache FunctionKey Tree
  /-- Methods inside class definitions. -/
  members : KeyedCache MemberKey Tree
  bridges : KeyedCache MemberKey Tree
  constructors : KeyedCache ClassKey ConstructorParts
  exportedMembers : KeyedCache (ClassKey × Nat) (List Tree)
  fullClasses : FullClassCache

namespace ClassCaches

/-- The caches without entries. -/
def empty : ClassCaches := ⟨∅, .zero, .empty, .empty, .empty, .empty, .empty, .empty⟩

instance : Inhabited ClassCaches := ⟨empty⟩

/-- The shell of a class for a version: the one that is there if it has that version, or else an
empty one. -/
def openShell (caches : ClassCaches) (key : ClassKey) (version : Version) : ClassCaches :=
  match (caches.shells.get? key).filter (fun shell => shell.version.isSame version) with
  | some shell =>
    { caches with
      shells := caches.shells.put key { shell with used := true }
      shellCounters := caches.shellCounters.countReused }
  | none =>
    { caches with
      shells := caches.shells.put key (.fresh version)
      shellCounters := caches.shellCounters.countInvalidated }

/-- The slot of a piece of a class, empty if the class has no shell. -/
def slot (caches : ClassCaches) (key : ClassKey) (part : ShellPart) : OneTimeSlot (List Tree) :=
  match caches.shells.get? key with
  | some shell => shell.slot part
  | none => .empty

/-- The caches with another slot for a piece of a class that has a shell. -/
def withSlot (caches : ClassCaches) (key : ClassKey) (part : ShellPart)
    (slot : OneTimeSlot (List Tree)) : ClassCaches :=
  match caches.shells.get? key with
  | some shell => { caches with shells := caches.shells.put key (shell.withSlot part slot) }
  | none => caches

/-- The caches at the start of a run. -/
def startRun (caches : ClassCaches) : ClassCaches where
  shells := caches.shells.mapValues (fun shell => { shell with used := false })
  shellCounters := .zero
  functions := caches.functions.startRun
  members := caches.members.startRun
  bridges := caches.bridges.startRun
  constructors := caches.constructors.startRun
  exportedMembers := caches.exportedMembers.startRun
  fullClasses := caches.fullClasses.startRun

/-- The caches at the end of a run, without what was not requested. -/
def endRun (caches : ClassCaches) : ClassCaches where
  shells := caches.shells.filterValues ClassShell.used
  shellCounters := caches.shellCounters
  functions := caches.functions.endRun
  members := caches.members.endRun
  bridges := caches.bridges.endRun
  constructors := caches.constructors.endRun
  exportedMembers := caches.exportedMembers.endRun
  fullClasses := caches.fullClasses.endRun

/-- Number of entries in all caches. -/
def size (caches : ClassCaches) : Nat :=
  caches.shells.size + caches.functions.size + caches.members.size + caches.bridges.size +
    caches.constructors.size + caches.exportedMembers.size + caches.fullClasses.table.size

/-- The requests for methods, free functions and members together. -/
def methodCounters (caches : ClassCaches) : CacheCounters :=
  caches.functions.counters.add caches.members.counters

/-- Number of classes with a shell. -/
def classCount (caches : ClassCaches) : Nat := caches.shells.size

end ClassCaches

end JsEmitter
