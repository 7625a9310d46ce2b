import JsEmitter.Proofs.Cells
import JsEmitter.Proofs.Lockstep
import JsEmitter.Proofs.VersionParts

/-!
# Visits of cells

What a request does is known from the content of its cell and from the supply of tokens. A visit
says it, and `Caches.Visits` that a step does what a visit says and leaves the other cells as they
are. Opening a shell is the one step that changes several cells: the shell and all of its slots.
-/
namespace JsEmitter

open Js (Tree)
open Lowering (Bootstrap)

variable {ε α κ : Type}

/-- What a request does to its cell. -/
structure Visit (Content ε α : Type) where
  outcome : Except ε α
  content : Content
  supply : TokenSupply
  /-- The requests to be counted. -/
  counted : CacheCounters

namespace Visit

/-- A result is reused. -/
def reuse {Content : Type} (artifact : Artifact α) (content : Content) (supply : TokenSupply)
    (counted : CacheCounters) : Visit Content ε (Artifact α) :=
  ⟨.ok artifact, content, supply, counted⟩

/-- A result is computed, and kept in a content. -/
def compute {Content : Type} (tracked : Tracked α) (content : Artifact α → Content)
    (supply : TokenSupply) (counted : CacheCounters) : Visit Content ε (Artifact α) :=
  ⟨.ok (supply.make tracked), content (supply.make tracked), supply.advance, counted⟩

/-- What a request for a version does to an entry. -/
def entry (version : Version) (own : Except ε (Tracked α)) (entry : CacheEntry α)
    (supply : TokenSupply) : Visit (CacheEntry α) ε (Artifact α) :=
  match entry.valid? version, own with
  | some artifact, _ => reuse artifact { entry with used := true } supply ⟨1, 0⟩
  | none, .ok tracked =>
    compute tracked (fun artifact => ⟨version, some artifact, true⟩) supply ⟨0, 1⟩
  | none, .error error => ⟨.error error, { entry with used := true }, supply, .zero⟩

/-- What a request for a version does to an entry that need not be there. -/
def keyed (version : Version) (own : Except ε (Tracked α)) (held : Option (CacheEntry α))
    (supply : TokenSupply) : Visit (Option (CacheEntry α)) ε (Artifact α) :=
  let done := entry version own (held.getD .fresh) supply
  ⟨done.outcome, some done.content, done.supply, done.counted⟩

/-- What a request does to a slot. -/
def slot (tracked : Tracked α) (slot : OneTimeSlot α) (supply : TokenSupply) :
    Visit (OneTimeSlot α) ε (Artifact α) :=
  match slot.artifact? with
  | some artifact => reuse artifact slot supply .zero
  | none => compute tracked (fun artifact => ⟨some artifact⟩) supply .zero

/-- What a request does to a slot of a shell, which need not be there. -/
def shellSlot (tracked : Tracked α) (slot? : Option (OneTimeSlot α)) (supply : TokenSupply) :
    Visit (Option (OneTimeSlot α)) ε (Artifact α) :=
  let done := slot tracked (slot?.getD .empty) supply
  ⟨done.outcome, slot?.map (fun _ => done.content), done.supply, done.counted⟩

/-- A slot keeps no counters. -/
@[simp] theorem slot_counted (tracked : Tracked α) (before : OneTimeSlot α)
    (supply : TokenSupply) :
    (slot tracked before supply : Visit _ ε _).counted = .zero := by
  unfold slot
  split <;> rfl

/-- What a request for a class definition does. -/
def definition (version : Version) (parts : DefinitionParts) (tracked : Tracked (List Tree))
    (held : Option FullClassEntry) (supply : TokenSupply) :
    Visit (Option FullClassEntry) ε (Artifact (List Tree)) :=
  match held.filter (fun entry => entry.isValid version parts) with
  | some entry => reuse entry.artifact (some { entry with used := true }) supply ⟨1, 0⟩
  | none =>
    compute tracked (fun artifact => some ⟨version, parts, artifact, true⟩) supply ⟨0, 1⟩

end Visit

/-- A request to an entry does what its visit says. -/
theorem CacheEntry.request_eq (version : Version) (own : Except ε (Tracked α))
    (entry : CacheEntry α) (counters : CacheCounters) (supply : TokenSupply) :
    CacheEntry.request version (fun _ => own) ⟨entry, counters, supply⟩ =
      Step.ended (Visit.entry version own entry supply).outcome
        ⟨(Visit.entry version own entry supply).content,
          counters.add (Visit.entry version own entry supply).counted,
          (Visit.entry version own entry supply).supply⟩ := by
  unfold CacheEntry.request Visit.entry
  cases own with
  | ok tracked => cases entry.valid? version <;> rfl
  | error error => cases entry.valid? version <;> rfl

/-- A request to a keyed cache does what the visit of its entry says. -/
theorem KeyedCache.request_eq [DecidableEq κ] (key : κ) (version : Version)
    (own : Except ε (Tracked α)) (cache : KeyedCache κ α) (supply : TokenSupply) :
    KeyedCache.request key version (fun _ => own) (cache, supply) =
      Step.ended (Visit.entry version own (cache.entry key) supply).outcome
        (⟨cache.table.put key (Visit.entry version own (cache.entry key) supply).content,
          cache.counters.add (Visit.entry version own (cache.entry key) supply).counted⟩,
          (Visit.entry version own (cache.entry key) supply).supply) := by
  unfold KeyedCache.request Step.onPart
  rw [CacheEntry.request_eq]
  cases (Visit.entry version own (cache.entry key) supply).outcome <;> rfl

/-- A request to the caches of modules does what the visit of its entry says. -/
theorem ModuleCaches.request_eq (id : ModuleId) (part : ModulePart) (version : Version)
    (own : Except ε (Tracked (List Tree))) (caches : ModuleCaches) (supply : TokenSupply) :
    ModuleCaches.request id part version (fun _ => own) (caches, supply) =
      Step.ended (Visit.entry version own ((caches.entries id).entry part) supply).outcome
        (⟨caches.table.put id ((caches.entries id).withEntry part
            (Visit.entry version own ((caches.entries id).entry part) supply).content),
          caches.counters.add
            (Visit.entry version own ((caches.entries id).entry part) supply).counted⟩,
          (Visit.entry version own ((caches.entries id).entry part) supply).supply) := by
  unfold ModuleCaches.request Step.onPart
  rw [CacheEntry.request_eq]
  cases (Visit.entry version own ((caches.entries id).entry part) supply).outcome <;> rfl

/-- A request for a class definition does what its visit says. -/
theorem FullClassCache.request_eq (key : ClassKey) (version : Version) (parts : DefinitionParts)
    (tracked : Tracked (List Tree)) (cache : FullClassCache) (supply : TokenSupply) :
    ∃ table : Table ClassKey FullClassEntry,
      (FullClassCache.request key version parts (fun _ => .ok tracked) (cache, supply) :
        EStateM.Result ε _ _) =
      Step.ended (Visit.definition version parts tracked (cache.table.get? key) supply).outcome
        (⟨table, cache.counters.add
          (Visit.definition (ε := ε) version parts tracked (cache.table.get? key) supply).counted⟩,
          (Visit.definition (ε := ε) version parts tracked (cache.table.get? key) supply).supply) ∧
      table.get? key =
        (Visit.definition (ε := ε) version parts tracked (cache.table.get? key) supply).content ∧
      ∀ other, other ≠ key → table.get? other = cache.table.get? other := by
  simp only [FullClassCache.request, FullClassCache.valid?, Visit.definition]
  cases valid : (cache.table.get? key).filter (fun entry => entry.isValid version parts) with
  | none =>
    exact ⟨_, rfl, Table.get?_put_self _ _ _, fun other => Table.get?_put_of_ne _ _⟩
  | some entry =>
    have found : cache.table.get? key = some entry := (Option.filter_eq_some_iff.1 valid).1
    refine ⟨(cache.markUsed key).table, rfl, ?_, fun other differ => ?_⟩
    · simp only [FullClassCache.markUsed, found, Table.get?_put_self]
      rfl
    · simp only [FullClassCache.markUsed, found, Table.get?_put_of_ne _ _ differ]

/-- A request to a slot does what its visit says. -/
theorem OneTimeSlot.request_eq (tracked : Tracked α) (slot : OneTimeSlot α)
    (supply : TokenSupply) :
    (OneTimeSlot.request (fun _ => .ok tracked) (slot, supply) : EStateM.Result ε _ _) =
      Step.ended (Visit.slot tracked slot supply).outcome
        ((Visit.slot (ε := ε) tracked slot supply).content,
          (Visit.slot (ε := ε) tracked slot supply).supply) := by
  obtain ⟨artifact?⟩ := slot
  cases artifact? <;> rfl

namespace Caches

/-- The caches after a request to a cell: the other cells are as they were. -/
structure Visited (before : Caches) (cell : Cell) (done : Visit cell.Content ε α)
    (after : Caches) : Prop where
  own : after.content cell = done.content
  others : ∀ other, other ≠ cell → after.content other = before.content other
  supply : after.supply = done.supply
  counters : ∀ sort, after.counters sort =
    (before.counters sort).add (if sort = cell.sort then done.counted else .zero)
  modules : ∀ id, after.modules.contains id =
    (before.modules.contains id || decide (cell.added? = some id))

/-- Whether a step does, in some caches, what a visit of a cell says. -/
def Visits (step : Step ε Caches α) (cell : Cell)
    (visit : cell.Content → TokenSupply → Visit cell.Content ε α) (before : Caches) : Prop :=
  ∃ after, step before = Step.ended (visit (before.content cell) before.supply).outcome after ∧
    before.Visited cell (visit (before.content cell) before.supply) after

section Requests

variable {version : Version} (before : Caches)

/-- A request to one of the keyed caches visits the cell of its key. -/
theorem requestKeyed_visits (sort : KeyedSort) (key : sort.Key)
    (own : Except ε (Tracked sort.Value)) :
    Visits (requestKeyed sort key version (fun _ => own)) (.keyed sort key)
      (Visit.keyed version own) before := by
  let done := Visit.entry version own ((before.keyed sort).entry key) before.supply
  let cache : KeyedCache sort.Key sort.Value :=
    ⟨(before.keyed sort).table.put key done.content, (before.keyed sort).counters.add done.counted⟩
  refine ⟨before.withKeyed sort cache done.supply, ?_, ?_⟩
  · unfold requestKeyed Step.onPart
    rw [KeyedCache.request_eq]
    change _ = Step.ended done.outcome (before.withKeyed sort cache done.supply)
    cases done.outcome <;> rfl
  · refine ⟨?_, fun other differ => ?_, by cases sort <;> rfl, fun other => ?_, fun id => ?_⟩
    · simp only [content, keyed_withKeyed]
      exact Table.get?_put_self _ _ _
    · cases other with
      | keyed other another =>
        by_cases same : other = sort
        · subst same
          simp only [content, keyed_withKeyed]
          exact Table.get?_put_of_ne _ _ (fun equal => differ (congrArg _ equal))
        · simp only [content, keyed_withKeyed_of_ne _ _ _ same]
      | _ => cases sort <;> rfl
    · cases other with
      | keyed other =>
        by_cases same : other = sort
        · subst same
          simp only [counters, keyed_withKeyed, Cell.sort, if_true]
          rfl
        · simp only [counters, keyed_withKeyed_of_ne _ _ _ same, Cell.sort, CellSort.keyed.injEq,
            same, if_false]
          rfl
      | _ => cases sort <;> rfl
    · cases sort <;> exact (Bool.or_false _).symm

/-- A request for a class definition visits the cell of the class. -/
theorem requestFullClass_visits (key : ClassKey) (parts : DefinitionParts)
    (tracked : Tracked (List Tree)) :
    Visits (requestFullClass key version parts (fun _ => .ok tracked) : Step ε _ _)
      (.definition key) (Visit.definition version parts tracked) before := by
  obtain ⟨table, same, own, others⟩ := FullClassCache.request_eq (ε := ε) key version parts tracked
    before.classes.fullClasses before.supply
  let done : Visit _ ε _ := Visit.definition version parts tracked
    (before.classes.fullClasses.table.get? key) before.supply
  let after : Caches := { before with
    classes := { before.classes with fullClasses :=
      ⟨table, before.classes.fullClasses.counters.add done.counted⟩ }
    supply := done.supply }
  refine ⟨after, ?_, ?_⟩
  · unfold requestFullClass Step.onPart
    rw [same]
    change _ = Step.ended done.outcome after
    cases done.outcome <;> rfl
  · refine ⟨own, fun other differ => ?_, rfl, fun sort => ?_, fun id => ?_⟩
    · cases other with
      | definition other => exact others other (fun same => differ (congrArg Cell.definition same))
      | _ => rfl
    · cases sort <;> rfl
    · exact (Bool.or_false _).symm

/-- A request for a part of a module visits the cell of that part. -/
theorem requestModulePart_visits (id : ModuleId) (part : ModulePart)
    (own : Except ε (Tracked (List Tree))) :
    Visits (requestModulePart id part version (fun _ => own)) (.modulePart id part)
      (Visit.entry version own) before := by
  let done := Visit.entry version own ((before.modules.entries id).entry part) before.supply
  let after : Caches := { before with
    modules := ⟨before.modules.table.put id ((before.modules.entries id).withEntry part
      done.content), before.modules.counters.add done.counted⟩
    supply := done.supply }
  refine ⟨after, ?_, ?_⟩
  · unfold requestModulePart Step.onPart
    rw [ModuleCaches.request_eq]
    change _ = Step.ended done.outcome after
    cases done.outcome <;> rfl
  · refine ⟨?_, fun other differ => ?_, rfl, fun sort => ?_, fun other => ?_⟩
    · simp [content, after, ModuleCaches.entries, Table.get?_put_self, ModuleEntries.withEntry]
      rfl
    · cases other with
      | modulePart other another =>
        by_cases here : other = id
        · subst here
          have differs : another ≠ part := fun same => differ (by rw [same])
          simp [content, after, ModuleCaches.entries, Table.get?_put_self, ModuleEntries.withEntry,
            differs]
        · simp [content, after, ModuleCaches.entries, Table.get?_put_of_ne _ _ here]
      | _ => rfl
    · cases sort <;> rfl
    · by_cases here : other = id
      · simp [ModuleCaches.contains, Table.contains_eq_isSome, after, here, Cell.added?]
      · have differs : id ≠ other := fun same => here same.symm
        simp [ModuleCaches.contains, Table.contains_eq_isSome, after, Table.get?_put_of_ne _ _ here,
          Cell.added?, differs]

/-- A request for the bootstrap library visits its cell. -/
theorem requestBootstrap_visits (tracked : Tracked Bootstrap) :
    Visits (requestBootstrap (fun _ => .ok tracked) : Step ε _ _) .library (Visit.slot tracked)
      before := by
  let done : Visit _ ε _ := Visit.slot tracked before.bootstrap before.supply
  let after : Caches := { before with bootstrap := done.content, supply := done.supply }
  refine ⟨after, ?_, ?_⟩
  · unfold requestBootstrap Step.onPart
    rw [OneTimeSlot.request_eq]
    change _ = Step.ended done.outcome after
    cases done.outcome <;> rfl
  · refine ⟨rfl, fun other differ => ?_, rfl, fun sort => ?_, fun id => ?_⟩
    · cases other with
      | library => exact (differ rfl).elim
      | _ => rfl
    · rw [Visit.slot_counted, ite_self]
      rfl
    · exact (Bool.or_false _).symm

/-- A request for a part of a shell visits the slot of that part. -/
theorem requestShellPart_visits (key : ClassKey) (part : ShellPart)
    (tracked : Tracked (List Tree)) :
    Visits (requestShellPart key part (fun _ => .ok tracked) : Step ε _ _) (.slot key part)
      (Visit.shellSlot tracked) before := by
  let done : Visit _ ε _ := Visit.slot tracked (before.classes.slot key part) before.supply
  let after : Caches := { before with
    classes := before.classes.withSlot key part done.content
    supply := done.supply }
  have slot : (before.content (.slot key part)).getD .empty = before.classes.slot key part := by
    simp only [content, ClassCaches.slot]
    cases before.classes.shells.get? key <;> rfl
  refine ⟨after, ?_, ?_⟩
  · unfold requestShellPart Step.onPart
    rw [OneTimeSlot.request_eq, Visit.shellSlot, slot]
    change _ = Step.ended done.outcome after
    cases done.outcome <;> rfl
  have counters : ∀ sort, after.counters sort = before.counters sort := by
    intro sort
    simp only [after, ClassCaches.withSlot]
    cases before.classes.shells.get? key with
    | none => cases sort <;> rfl
    | some shell =>
      cases sort with
      | keyed sort => cases sort <;> rfl
      | _ => rfl
  have contents : ∀ other, other ≠ .slot key part → after.content other = before.content other := by
    intro other differ
    simp only [after, ClassCaches.withSlot]
    cases found : before.classes.shells.get? key with
    | none =>
      cases other with
      | keyed sort _ => cases sort <;> rfl
      | _ => rfl
    | some shell =>
      cases other with
      | keyed sort _ => cases sort <;> rfl
      | shell other =>
        by_cases here : other = key
        · subst here
          simp only [content, Table.get?_put_self, found]
          rfl
        · simp only [content, Table.get?_put_of_ne _ _ here]
      | slot other another =>
        by_cases here : other = key
        · subst here
          have differs : another ≠ part := fun same => differ (by rw [same])
          simp only [content, Table.get?_put_self, found, ClassShell.withSlot, differs, if_false,
            Option.map_some]
        · simp only [content, Table.get?_put_of_ne _ _ here]
      | _ => rfl
  refine ⟨?_, contents, ?_, fun sort => ?_, fun id => (Bool.or_false _).symm⟩
  · simp only [Visit.shellSlot, slot]
    simp only [content, after, ClassCaches.withSlot]
    cases found : before.classes.shells.get? key with
    | none =>
      simp only [found]
      rfl
    | some shell =>
      simp [ClassShell.withSlot, done]
  · rw [Visit.shellSlot, slot]
  · rw [counters, Visit.shellSlot, slot, Visit.slot_counted, ite_self]
    rfl

end Requests

/-- Whether a class has a shell for a version. -/
def keepsShell (caches : Caches) (key : ClassKey) (version : Version) : Bool :=
  (caches.content (.shell key)).any (fun shell => shell.1.isSame version)

/-- The caches after a shell has been opened for a version: its slots are kept if it had this
version, and empty otherwise. -/
structure Opened (before : Caches) (key : ClassKey) (version : Version) (after : Caches) :
    Prop where
  shell : after.content (.shell key) = some (version, true)
  slots : ∀ part, after.content (.slot key part) =
    if before.keepsShell key version then before.content (.slot key part) else some .empty
  others : ∀ cell : Cell, cell ≠ .shell key → (∀ part, cell ≠ .slot key part) →
    after.content cell = before.content cell
  supply : after.supply = before.supply
  counters : ∀ sort, after.counters sort = (before.counters sort).add
    (if sort = .shells then if before.keepsShell key version then ⟨1, 0⟩ else ⟨0, 1⟩ else .zero)
  modules : ∀ id, after.modules.contains id = before.modules.contains id

/-- What opening a shell changes if it puts a shell in its place. -/
theorem Opened.of_put {before : Caches} {key : ClassKey} {version : Version}
    (shell : ClassShell) {counted : CacheCounters} (current : shell.version = version)
    (used : shell.used = true)
    (slots : ∀ part, some (shell.slot part) =
      if before.keepsShell key version then before.content (.slot key part) else some .empty)
    (counts : counted = before.classes.shellCounters.add
      (if before.keepsShell key version then ⟨1, 0⟩ else ⟨0, 1⟩)) :
    before.Opened key version { before with
      classes := { before.classes with
        shells := before.classes.shells.put key shell
        shellCounters := counted } } where
  shell := by simp [content, current, used]
  slots part := by simpa [content] using slots part
  others cell notShell notSlot := by
    cases cell with
    | shell other =>
      have differ : other ≠ key := fun same => notShell (congrArg _ same)
      simp only [content, Table.get?_put_of_ne _ _ differ]
    | slot other part =>
      have differ : other ≠ key := fun same => notSlot part (by rw [same])
      simp only [content, Table.get?_put_of_ne _ _ differ]
    | keyed sort _ => cases sort <;> rfl
    | _ => rfl
  supply := rfl
  counters sort := by
    cases sort with
    | shells => exact counts
    | keyed sort => cases sort <;> rfl
    | _ => rfl
  modules _ := rfl

/-- Opening a shell leaves an open shell. -/
theorem openShell_opened (key : ClassKey) (version : Version) (before : Caches) :
    ∃ after, (openShell key version : Step ε Caches Unit) before = .ok () after ∧
      before.Opened key version after := by
  cases found : (before.classes.shells.get? key).filter
      (fun shell => shell.version.isSame version) with
  | some shell =>
    obtain ⟨there, same⟩ := Option.filter_eq_some_iff.1 found
    have keeps : before.keepsShell key version = true := by
      simp [keepsShell, content, there, same]
    refine ⟨{ before with classes := before.classes.openShell key version }, rfl, ?_⟩
    rw [ClassCaches.openShell, found]
    refine .of_put { shell with used := true } (Version.eq_of_isSame same) rfl
      (fun part => ?_) (by rw [keeps]; rfl)
    simp [keeps, content, there]
  | none =>
    have lacks : before.keepsShell key version = false := by
      have none := Option.filter_eq_none_iff.1 found
      cases there : before.classes.shells.get? key with
      | none => simp [keepsShell, content, there]
      | some shell =>
        have differs := none shell there
        simpa [keepsShell, content, there] using differs
    refine ⟨{ before with classes := before.classes.openShell key version }, rfl, ?_⟩
    rw [ClassCaches.openShell, found]
    exact .of_put (.fresh version) rfl rfl (fun part => by simp [lacks, ClassShell.fresh])
      (by rw [lacks]; rfl)

end Caches

end JsEmitter
