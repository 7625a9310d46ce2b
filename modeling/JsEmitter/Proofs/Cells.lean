import JsEmitter.Cache.Session

/-!
# Cells of the caches

A request reads and changes one place of the caches, apart from the supply of tokens and a counter.
Such a place is a cell. Runs of the emitter from different states are compared cell by cell; this
module says what the start and the end of a run do to a cell, and which tokens of parts it holds.
-/
namespace JsEmitter

open Js (Tree)
open Lowering (ConstructorParts Bootstrap)

variable {ε : Type}

/-- The keyed caches of a session. -/
inductive KeyedSort where
  | functions
  | members
  | bridges
  | constructors
  | exportedMembers
deriving DecidableEq

namespace KeyedSort

/-- The keys of a keyed cache. -/
abbrev Key : KeyedSort → Type
  | functions => FunctionKey
  | members | bridges => MemberKey
  | constructors => ClassKey
  | exportedMembers => ClassKey × Nat

/-- The values of a keyed cache. -/
abbrev Value : KeyedSort → Type
  | functions | members | bridges => Tree
  | constructors => ConstructorParts
  | exportedMembers => List Tree

instance : (sort : KeyedSort) → DecidableEq sort.Key
  | functions => inferInstanceAs (DecidableEq FunctionKey)
  | members | bridges => inferInstanceAs (DecidableEq MemberKey)
  | constructors => inferInstanceAs (DecidableEq ClassKey)
  | exportedMembers => inferInstanceAs (DecidableEq (ClassKey × Nat))

/-- The class that a key is for. -/
def owner : (sort : KeyedSort) → sort.Key → ClassKey
  | functions, key => key.1
  | members, key | bridges, key | exportedMembers, key => key.1
  | constructors, key => key

end KeyedSort

/-- A place in the caches that one request changes. -/
inductive Cell where
  | keyed (sort : KeyedSort) (key : sort.Key)
  | definition (key : ClassKey)
  /-- The version of a shell, and whether it has been requested during the run. -/
  | shell (key : ClassKey)
  | slot (key : ClassKey) (part : ShellPart)
  | modulePart (id : ModuleId) (part : ModulePart)
  | library
deriving DecidableEq

/-- The caches that count their requests together. -/
inductive CellSort where
  | keyed (sort : KeyedSort)
  | definitions
  | shells
  | modules
  | library
deriving DecidableEq

namespace Cell

/-- What a cell holds. -/
abbrev Content : Cell → Type
  | keyed sort _ => Option (CacheEntry sort.Value)
  | definition _ => Option FullClassEntry
  | shell _ => Option (Version × Bool)
  | slot _ _ => Option (OneTimeSlot (List Tree))
  | modulePart _ _ => CacheEntry (List Tree)
  | library => OneTimeSlot Bootstrap

/-- The cache that a cell is part of. -/
def sort : Cell → CellSort
  | keyed sort _ => .keyed sort
  | definition _ => .definitions
  | shell _ | slot _ _ => .shells
  | modulePart _ _ => .modules
  | library => .library

/-- The class that a cell is about, if it is about one. -/
def owner? : Cell → Option ClassKey
  | keyed sort key => some (sort.owner key)
  | definition key | shell key | slot key _ => some key
  | modulePart _ _ | library => none

/-- The module whose entries a request to a cell adds. -/
def added? : Cell → Option ModuleId
  | modulePart id _ => some id
  | _ => none

/-- The module that a cell is about, unless it is the bootstrap library. -/
def home? (cell : Cell) : Option ModuleId := (cell.owner?.map ClassKey.home).or cell.added?

end Cell

namespace Caches

/-- A keyed cache. -/
def keyed (caches : Caches) : (sort : KeyedSort) → KeyedCache sort.Key sort.Value
  | .functions => caches.classes.functions
  | .members => caches.classes.members
  | .bridges => caches.classes.bridges
  | .constructors => caches.classes.constructors
  | .exportedMembers => caches.classes.exportedMembers

/-- The caches with another keyed cache and another supply. -/
def withKeyed (caches : Caches) :
    (sort : KeyedSort) → KeyedCache sort.Key sort.Value → TokenSupply → Caches
  | .functions, cache, supply =>
    { caches with classes := { caches.classes with functions := cache }, supply := supply }
  | .members, cache, supply =>
    { caches with classes := { caches.classes with members := cache }, supply := supply }
  | .bridges, cache, supply =>
    { caches with classes := { caches.classes with bridges := cache }, supply := supply }
  | .constructors, cache, supply =>
    { caches with classes := { caches.classes with constructors := cache }, supply := supply }
  | .exportedMembers, cache, supply =>
    { caches with classes := { caches.classes with exportedMembers := cache }, supply := supply }

/-- A request to a keyed cache. The requests for free functions, methods, bridges, constructors and
exported members are this one. -/
def requestKeyed (sort : KeyedSort) (key : sort.Key) (version : Version)
    (compute : Unit → Except ε (Tracked sort.Value)) : Step ε Caches (Artifact sort.Value) :=
  Step.onPart (fun caches => (caches.keyed sort, caches.supply))
    (fun caches reached => caches.withKeyed sort reached.1 reached.2)
    (KeyedCache.request key version compute)

/-- What is in a cell. A module without entries has fresh ones. -/
def content (caches : Caches) : (cell : Cell) → cell.Content
  | .keyed sort key => (caches.keyed sort).table.get? key
  | .definition key => caches.classes.fullClasses.table.get? key
  | .shell key => (caches.classes.shells.get? key).map (fun shell => (shell.version, shell.used))
  | .slot key part => (caches.classes.shells.get? key).map (fun shell => shell.slot part)
  | .modulePart id part => (caches.modules.entries id).entry part
  | .library => caches.bootstrap

/-- The counters of a cache. The bootstrap library is not counted. -/
def counters (caches : Caches) : CellSort → CacheCounters
  | .keyed sort => (caches.keyed sort).counters
  | .definitions => caches.classes.fullClasses.counters
  | .shells => caches.classes.shellCounters
  | .modules => caches.modules.counters
  | .library => .zero

/-- A keyed cache that was put in place is read back. -/
theorem keyed_withKeyed (caches : Caches) (sort : KeyedSort)
    (cache : KeyedCache sort.Key sort.Value) (supply : TokenSupply) :
    (caches.withKeyed sort cache supply).keyed sort = cache := by
  cases sort <;> rfl

/-- Putting a keyed cache in place leaves those of other sorts. -/
theorem keyed_withKeyed_of_ne (caches : Caches) {sort other : KeyedSort}
    (cache : KeyedCache sort.Key sort.Value) (supply : TokenSupply) (differ : other ≠ sort) :
    (caches.withKeyed sort cache supply).keyed other = caches.keyed other := by
  cases sort <;> cases other <;> first | rfl | exact (differ rfl).elim

end Caches

namespace Cell

/-- The content of a cell at the start of a run. -/
def reset : (cell : Cell) → cell.Content → cell.Content
  | keyed _ _, held => held.map CacheEntry.resetUsed
  | definition _, held => held.map (fun entry => { entry with used := false })
  | shell _, shell? => shell?.map (fun shell => (shell.1, false))
  | slot _ _, kept => kept
  | modulePart _ _, entry => entry.resetUsed
  | library, kept => kept

/-- Whether a cell has been requested during the run. Slots go with their shell. -/
def isUsed : (cell : Cell) → cell.Content → Bool
  | keyed _ _, held => held.any CacheEntry.used
  | definition _, held => held.any FullClassEntry.used
  | shell _, shell? => shell?.any Prod.snd
  | modulePart _ _, entry => entry.used
  | slot _ _, _ | library, _ => true

end Cell

namespace Caches

/-- The start of a run resets every cell. -/
theorem content_startRun (caches : Caches) (cell : Cell) :
    caches.startRun.content cell = cell.reset (caches.content cell) := by
  cases cell with
  | keyed sort key => cases sort <;> exact Table.get?_mapValues _ _ _
  | definition key => exact Table.get?_mapValues _ _ _
  | shell key =>
    simp only [content, startRun, ClassCaches.startRun, Table.get?_mapValues, Cell.reset,
      Option.map_map]
    rfl
  | slot key part =>
    simp only [content, startRun, ClassCaches.startRun, Table.get?_mapValues, Cell.reset]
    cases caches.classes.shells.get? key <;> rfl
  | modulePart id part =>
    simp only [content, startRun, ModuleCaches.startRun, ModuleCaches.entries,
      Table.get?_mapValues, Cell.reset]
    cases caches.modules.table.get? id <;> rfl
  | library => rfl

/-- A run starts with counters at zero. -/
theorem counters_startRun (caches : Caches) (sort : CellSort) :
    caches.startRun.counters sort = .zero := by
  cases sort with
  | keyed sort => cases sort <;> rfl
  | _ => rfl

/-- The end of a run keeps a cell that has been requested, and a slot of a shell that has been. -/
theorem content_endRun (caches : Caches) {cell : Cell}
    (used : cell.isUsed (caches.content cell) = true)
    (opened : ∀ key part, cell = .slot key part →
      (Cell.shell key).isUsed (caches.content (.shell key)) = true) :
    caches.endRun.content cell = caches.content cell := by
  have filtered : ∀ {α : Type} {value? : Option α} {keep : α → Bool},
      value?.any keep = true → value?.filter keep = value? := by
    intro α value? keep kept
    cases value? with
    | none => rfl
    | some value => simpa [Option.filter] using kept
  cases cell with
  | keyed sort key => cases sort <;> exact (Table.get?_filterValues _ _ _).trans (filtered used)
  | definition key => exact (Table.get?_filterValues _ _ _).trans (filtered used)
  | shell key =>
    have kept : (caches.classes.shells.get? key).any ClassShell.used = true := by
      simpa [Cell.isUsed, content, Option.any_map] using used
    simp only [content, endRun, ClassCaches.endRun, Table.get?_filterValues, filtered kept]
  | slot key part =>
    have kept : (caches.classes.shells.get? key).any ClassShell.used = true := by
      simpa [Cell.isUsed, content, Option.any_map] using opened key part rfl
    simp only [content, endRun, ClassCaches.endRun, Table.get?_filterValues, filtered kept]
  | modulePart id part =>
    simp only [Cell.isUsed, content, ModuleCaches.entries] at used
    simp only [content, endRun, ModuleCaches.endRun, ModuleCaches.entries,
      Table.get?_filterValues]
    cases found : caches.modules.table.get? id with
    | none => rfl
    | some entries =>
      rw [found] at used
      have kept : (some entries).any ModuleEntries.isUsed = true := by
        cases part <;> simp_all [ModuleEntries.isUsed]
      rw [filtered kept]
  | library => rfl

/-- The end of a run keeps the counters. -/
theorem counters_endRun (caches : Caches) (sort : CellSort) :
    caches.endRun.counters sort = caches.counters sort := by
  cases sort with
  | keyed sort => cases sort <;> rfl
  | _ => rfl

end Caches

/-- The tokens of the parts of a definition. -/
def DefinitionParts.tokens (parts : DefinitionParts) : List Token :=
  parts.ctor?.toList ++ parts.members ++ parts.exported

namespace Cell

/-- The tokens in a cell that are compared with others: those of the parts of definitions, stored
with the parts and with the definitions. -/
def tokens : (cell : Cell) → cell.Content → List Token
  | keyed _ _, held => ((held.bind CacheEntry.artifact?).map Artifact.token).toList
  | definition _, held => (held.map (fun entry => entry.parts.tokens)).getD []
  | shell _, _ | slot _ _, _ | modulePart _ _, _ | library, _ => []

/-- Whether all tokens of parts in a cell are below a bound. -/
def Below (bound : Nat) (cell : Cell) (content : cell.Content) : Prop :=
  ∀ token ∈ cell.tokens content, token.number < bound

/-- A new run has the tokens of the one before it. -/
theorem tokens_reset (cell : Cell) (content : cell.Content) :
    cell.tokens (cell.reset content) = cell.tokens content := by
  cases cell with
  | keyed sort key => cases content <;> rfl
  | definition key => cases content <;> rfl
  | _ => rfl

end Cell

/-- Whether all tokens of parts in the caches have been taken from the supply. -/
def Caches.Bounded (caches : Caches) : Prop :=
  ∀ cell : Cell, cell.Below caches.supply.next (caches.content cell)

/-- The start of a run takes no tokens. -/
theorem Caches.Bounded.startRun {caches : Caches} (bounded : caches.Bounded) :
    caches.startRun.Bounded := by
  intro cell token found
  rw [Caches.content_startRun, Cell.tokens_reset] at found
  exact bounded cell token found

end JsEmitter
