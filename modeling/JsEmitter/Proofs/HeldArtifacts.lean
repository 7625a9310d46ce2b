import JsEmitter.Proofs.KeyedHistory
import JsEmitter.Proofs.Lookups

/-!
# Held artifacts

What the caches of a session hold was computed by some lookup. A lookup adds its own result at most;
opening a shell, and the start and the end of a run, add nothing. Of the cache of class definitions
this module also says what a lookup does to each class.
-/
namespace JsEmitter

open Js (Tree)

variable {ε : Type}

/-! ## Class definitions -/

namespace FullClassCache

/-- What is held for a class, but for whether it counts as used. -/
def held? (cache : FullClassCache) (key : ClassKey) :
    Option (Version × DefinitionParts × Artifact (List Tree)) :=
  (cache.table.get? key).map (fun entry => (entry.version, entry.parts, entry.artifact))

/-- Whether there is a definition of a class that counts as used. -/
def isUsed (cache : FullClassCache) (key : ClassKey) : Bool :=
  (cache.table.get? key).any FullClassEntry.used

variable (cache : FullClassCache) (key : ClassKey)

/-- A definition can be reused for the version and the parts that it was computed for. -/
theorem map_valid? (version : Version) (parts : DefinitionParts) :
    (cache.valid? key version parts).map FullClassEntry.artifact =
      ((cache.held? key).filter (fun held => held.1.isSame version && held.2.1 = parts)).map
        (fun held => held.2.2) := by
  unfold valid? held?
  cases cache.table.get? key with
  | none => rfl
  | some entry =>
    cases fits : entry.version.isSame version && decide (entry.parts = parts) <;>
      simp [Option.filter, FullClassEntry.isValid, fits]

/-- The start of a run keeps the held definitions. -/
theorem held?_startRun : cache.startRun.held? key = cache.held? key := by
  simp only [held?, startRun, Table.get?_mapValues, Option.map_map]
  rfl

/-- At the start of a run no definition counts as used. -/
theorem isUsed_startRun : cache.startRun.isUsed key = false := by
  simp only [isUsed, startRun, Table.get?_mapValues, Option.any_map]
  cases cache.table.get? key <;> rfl

/-- The end of a run keeps the definitions that were used. -/
theorem held?_endRun :
    cache.endRun.held? key = if cache.isUsed key = true then cache.held? key else none := by
  have filtered : ∀ found : Option FullClassEntry,
      (found.filter FullClassEntry.used).map
          (fun entry => (entry.version, entry.parts, entry.artifact)) =
        if found.any FullClassEntry.used = true then
          found.map (fun entry => (entry.version, entry.parts, entry.artifact))
        else none := by
    rintro (- | ⟨version, parts, artifact, - | -⟩) <;> rfl
  rw [held?, endRun, Table.get?_filterValues, filtered]
  rfl

/-- The end of a run leaves which definitions count as used. -/
theorem isUsed_endRun : cache.endRun.isUsed key = cache.isUsed key := by
  have filtered : ∀ found : Option FullClassEntry,
      (found.filter FullClassEntry.used).any FullClassEntry.used =
        found.any FullClassEntry.used := by
    rintro (- | ⟨version, parts, artifact, - | -⟩) <;> rfl
  rw [isUsed, endRun, Table.get?_filterValues, filtered]
  rfl

/-- Marking a definition as used leaves what is held. -/
theorem held?_markUsed (other : ClassKey) :
    (cache.markUsed key).held? other = cache.held? other := by
  unfold held? markUsed
  by_cases same : other = key
  · subst same
    cases found : cache.table.get? other <;> simp [found]
  · cases cache.table.get? key <;> simp [Table.get?_put_of_ne _ _ same]

/-- Only definitions that are held count as used. -/
theorem isUsed_eq : cache.isUsed key = ((cache.held? key).isSome && cache.isUsed key) := by
  unfold isUsed held?
  cases cache.table.get? key <;> rfl

/-- Marking a class as used concerns the definition that is held for it. -/
theorem isUsed_markUsed (other : ClassKey) : (cache.markUsed key).isUsed other =
    ((cache.held? other).isSome && (decide (key = other) || cache.isUsed other)) := by
  by_cases same : key = other
  · subst same
    unfold isUsed held? markUsed
    cases found : cache.table.get? key <;> simp [found]
  · have kept : (cache.markUsed key).isUsed other = cache.isUsed other := by
      have differ : other ≠ key := fun equal => same equal.symm
      unfold isUsed markUsed
      cases cache.table.get? key <;> simp [Table.get?_put_of_ne _ _ differ]
    rw [kept, isUsed_eq]
    simp [same]

section Requests

variable {cache : FullClassCache} {key : ClassKey} {version : Version} {parts : DefinitionParts}
  {compute : Unit → Except ε (Tracked (List Tree))} {supply : TokenSupply}

/-- The cache after a lookup of a definition. -/
def asked (key : ClassKey) (version : Version) (parts : DefinitionParts)
    (compute : Unit → Except ε (Tracked (List Tree))) (supply : TokenSupply)
    (cache : FullClassCache) : FullClassCache :=
  ((request key version parts compute).reached (cache, supply)).1

/-- A lookup that has a valid definition keeps what is held. -/
theorem held?_asked_valid {entry : FullClassEntry}
    (valid : cache.valid? key version parts = some entry) (other : ClassKey) :
    (cache.asked key version parts compute supply).held? other = cache.held? other := by
  simp only [asked, Step.reached, request, valid]
  exact held?_markUsed cache key other

/-- A lookup whose computation fails keeps what is held. -/
theorem held?_asked_failed {error : ε} (missed : cache.valid? key version parts = none)
    (failed : compute () = .error error) (other : ClassKey) :
    (cache.asked key version parts compute supply).held? other = cache.held? other := by
  simp only [asked, Step.reached, request, missed, failed]
  exact held?_markUsed cache key other

/-- A lookup whose computation succeeds puts the result in the place of what was held. -/
theorem held?_asked_computed {tracked : Tracked (List Tree)}
    (missed : cache.valid? key version parts = none) (done : compute () = .ok tracked)
    (other : ClassKey) : (cache.asked key version parts compute supply).held? other =
      if key = other then some (version, parts, supply.make tracked) else cache.held? other := by
  simp only [held?, asked, Step.reached, request, missed, done]
  by_cases same : key = other
  · subst same
    simp
  · have differ : other ≠ key := fun equal => same equal.symm
    simp [same, Table.get?_put_of_ne _ _ differ]

/-- What is held after a lookup was held before, or it was computed. -/
theorem mem_held?_asked {other : ClassKey} {held : Version × DefinitionParts × Artifact (List Tree)}
    (found : held ∈ (cache.asked key version parts compute supply).held? other) :
    held ∈ cache.held? other ∨ cache.valid? key version parts = none ∧
      ∃ tracked, compute () = .ok tracked ∧ held.2.2 = supply.make tracked := by
  cases valid : cache.valid? key version parts with
  | some entry =>
    rw [held?_asked_valid valid] at found
    exact .inl found
  | none =>
    cases done : compute () with
    | error error =>
      rw [held?_asked_failed valid done] at found
      exact .inl found
    | ok tracked =>
      rw [held?_asked_computed valid done] at found
      split at found
      · cases found
        exact .inr ⟨rfl, tracked, rfl, rfl⟩
      · exact .inl found

/-- After a lookup the definition of its class, if there is one, counts as used. -/
theorem isUsed_asked (other : ClassKey) :
    (cache.asked key version parts compute supply).isUsed other =
      (((cache.asked key version parts compute supply).held? other).isSome &&
        (decide (key = other) || cache.isUsed other)) := by
  cases valid : cache.valid? key version parts with
  | some entry =>
    rw [held?_asked_valid valid]
    simp only [asked, Step.reached, request, valid]
    exact isUsed_markUsed cache key other
  | none =>
    cases outcome : compute () with
    | error error =>
      rw [held?_asked_failed valid outcome]
      simp only [asked, Step.reached, request, valid, outcome]
      exact isUsed_markUsed cache key other
    | ok tracked =>
      rw [held?_asked_computed valid outcome]
      simp only [isUsed, asked, Step.reached, request, valid, outcome]
      by_cases same : key = other
      · subst same
        simp
      · have differ : other ≠ key := fun equal => same equal.symm
        rw [Table.get?_put_of_ne _ _ differ]
        simp only [same, decide_false, Bool.false_or, if_false]
        exact isUsed_eq cache other

end Requests

end FullClassCache

/-! ## All caches -/

namespace Cell

/-- The start of a run keeps what is in a cell. -/
theorem artifact?_reset (cell : Cell) (content : cell.Content) :
    cell.artifact? (cell.reset content) = cell.artifact? content := by
  cases cell with
  | keyed sort key => cases content <;> rfl
  | definition key => cases content <;> rfl
  | _ => rfl

end Cell

/-- What an entry has after a visit was there before, or it was computed. -/
theorem Visit.artifact?_entry {α : Type} {version : Version} {own : Except ε (Tracked α)}
    {held : CacheEntry α} {supply : TokenSupply} {artifact : Artifact α}
    (found : (entry version own held supply).content.artifact? = some artifact) :
    held.artifact? = some artifact ∨ held.valid? version = none ∧
      ∃ tracked, own = .ok tracked ∧ artifact = supply.make tracked := by
  unfold entry at found
  split at found
  · exact .inl found
  · rename_i tracked missed
    exact .inr ⟨missed, tracked, rfl, (Option.some.inj found).symm⟩
  · exact .inl found

/-- What a slot has after a request was there before, or it was computed. -/
theorem OneTimeSlot.artifact?_reached {α : Type} {compute : Unit → Except ε (Tracked α)}
    {slot : OneTimeSlot α} {supply : TokenSupply} {artifact : Artifact α}
    (found : ((request compute).reached (slot, supply)).1.artifact? = some artifact) :
    slot.artifact? = some artifact ∨ slot.artifact? = none ∧
      ∃ tracked, compute () = .ok tracked ∧ artifact = supply.make tracked := by
  unfold Step.reached request at found
  cases there : slot.artifact? with
  | some other =>
    simp only [there] at found
    exact .inl found
  | none =>
    cases outcome : compute () with
    | ok tracked =>
      simp only [there, outcome] at found
      exact .inr ⟨rfl, tracked, rfl, (Option.some.inj found).symm⟩
    | error error =>
      simp only [there, outcome] at found
      cases found

namespace Caches

/-- An entry of a keyed cache has the artifact of its cell. -/
theorem artifact?_entry (caches : Caches) (sort : KeyedSort) (key : sort.Key) :
    ((caches.keyed sort).entry key).artifact? =
      (Cell.keyed sort key).artifact? (caches.content (.keyed sort key)) := by
  simp only [KeyedCache.entry, Cell.artifact?, content]
  cases (caches.keyed sort).table.get? key <;> rfl

/-- A slot of a shell has the artifact of its cell. -/
theorem artifact?_slot (caches : Caches) (key : ClassKey) (part : ShellPart) :
    (caches.classes.slot key part).artifact? =
      (Cell.slot key part).artifact? (caches.content (.slot key part)) := by
  simp only [ClassCaches.slot, Cell.artifact?, content]
  cases caches.classes.shells.get? key <;> rfl

/-- Whether all artifacts in the caches of a session have a property. -/
def Within (P : {α : Type} → Artifact α → Prop) (caches : Caches) : Prop :=
  ∀ cell : Cell, ∀ artifact ∈ cell.artifact? (caches.content cell), P artifact

namespace Within

variable {P Q : {α : Type} → Artifact α → Prop} {caches : Caches}

/-- Artifacts with one property also have every weaker one. -/
theorem imp (within : caches.Within P) (more : ∀ {α : Type} (artifact : Artifact α),
    P artifact → Q artifact) : caches.Within Q :=
  fun cell artifact found => more artifact (within cell artifact found)

/-- The supply of tokens does not matter for the artifacts that are held. -/
theorem setSupply (within : caches.Within P) (supply : TokenSupply) :
    Within P { caches with supply := supply } := by
  intro cell artifact found
  refine within cell artifact ?_
  cases cell with
  | keyed sort key => cases sort <;> exact found
  | _ => exact found

/-- New caches hold no artifact. -/
theorem start (supply : TokenSupply) : (withSupply supply).Within P := by
  intro cell artifact found
  cases cell with
  | keyed sort key => cases sort <;> cases found
  | _ => cases found

/-- The start of a run keeps the artifacts that are held. -/
theorem startRun (within : caches.Within P) : caches.startRun.Within P := by
  intro cell artifact found
  rw [content_startRun, Cell.artifact?_reset] at found
  exact within cell artifact found

/-- The end of a run adds nothing: it keeps or drops what is in a cell. -/
theorem endRun (within : caches.Within P) : caches.endRun.Within P := by
  have kept : ∀ {α : Type} {value : α} {value? : Option α} {keep : α → Bool},
      value?.filter keep = some value → value? = some value :=
    fun found => (Option.filter_eq_some_iff.1 found).1
  intro cell artifact found
  refine within cell artifact ?_
  cases cell with
  | keyed sort key =>
    obtain ⟨entry, there, held⟩ := Option.bind_eq_some_iff.1 found
    have filtered : ((caches.keyed sort).table.get? key).filter CacheEntry.used = some entry := by
      cases sort <;> exact (Table.get?_filterValues _ _ _).symm.trans there
    exact Option.bind_eq_some_iff.2 ⟨entry, kept filtered, held⟩
  | definition key =>
    obtain ⟨entry, there, held⟩ := Option.map_eq_some_iff.1 found
    have filtered := (Table.get?_filterValues _ _ _).symm.trans there
    exact Option.map_eq_some_iff.2 ⟨entry, kept filtered, held⟩
  | shell key => cases found
  | slot key part =>
    obtain ⟨slot, there, held⟩ := Option.bind_eq_some_iff.1 found
    obtain ⟨shell, opened, rfl⟩ := Option.map_eq_some_iff.1 there
    have filtered := (Table.get?_filterValues _ _ _).symm.trans opened
    refine Option.bind_eq_some_iff.2 ⟨shell.slot part, ?_, held⟩
    exact Option.map_eq_some_iff.2 ⟨shell, kept filtered, rfl⟩
  | modulePart id part =>
    simp only [Cell.artifact?, content, Caches.endRun, ModuleCaches.endRun, ModuleCaches.entries,
      Table.get?_filterValues] at found ⊢
    cases there : caches.modules.table.get? id with
    | none => simpa [there] using found
    | some entries =>
      cases used : entries.isUsed <;>
        simp_all [Option.filter, ModuleEntries.fresh, CacheEntry.fresh]
  | library => exact found

/-- Opening a shell adds nothing: the slots keep what they have, or they are empty. -/
theorem openShell (within : caches.Within P) (key : ClassKey) (version : Version) :
    ((Caches.openShell key version : Step ε Caches Unit).reached caches).Within P := by
  obtain ⟨after, ran, opened⟩ := Caches.openShell_opened (ε := ε) key version caches
  rw [Step.reached, ran]
  intro cell artifact found
  by_cases isShell : cell = .shell key
  · subst isShell
    cases found
  · by_cases isSlot : ∃ part, cell = .slot key part
    · obtain ⟨part, rfl⟩ := isSlot
      change Cell.artifact? _ (after.content _) = _ at found
      rw [opened.slots] at found
      split at found
      · exact within _ artifact found
      · cases found
    · have others := opened.others cell isShell (fun part same => isSlot ⟨part, same⟩)
      change Cell.artifact? _ (after.content _) = _ at found
      rw [others] at found
      exact within cell artifact found

/-- Other definitions keep a property of all artifacts if they have it. -/
theorem withFullClasses (within : caches.Within P) (cache : FullClassCache) (supply : TokenSupply)
    (own : ∀ key, ∀ held ∈ cache.held? key, P held.2.2) :
    Within P { caches with
      classes := { caches.classes with fullClasses := cache }
      supply := supply } := by
  intro cell artifact found
  cases cell with
  | definition key =>
    obtain ⟨entry, there, rfl⟩ := Option.map_eq_some_iff.1 found
    exact own key (entry.version, entry.parts, entry.artifact)
      (Option.map_eq_some_iff.2 ⟨entry, there, rfl⟩)
  | keyed sort key => cases sort <;> exact within (.keyed _ key) artifact found
  | shell key => exact within (.shell key) artifact found
  | slot key part => exact within (.slot key part) artifact found
  | modulePart id part => exact within (.modulePart id part) artifact found
  | library => exact within .library artifact found

/-- Another slot keeps a property of all artifacts if what it has has it. -/
theorem withSlot (within : caches.Within P) (key : ClassKey) (part : ShellPart)
    (slot : OneTimeSlot (List Tree)) (supply : TokenSupply)
    (own : ∀ artifact ∈ slot.artifact?, P artifact) :
    Within P { caches with
      classes := caches.classes.withSlot key part slot
      supply := supply } := by
  unfold ClassCaches.withSlot
  cases opened : caches.classes.shells.get? key with
  | none => exact within
  | some shell =>
    intro cell artifact found
    cases cell with
    | slot other another =>
      obtain ⟨kept, there, held⟩ := Option.bind_eq_some_iff.1 found
      simp only [content] at there
      by_cases here : other = key
      · subst here
        rw [Table.get?_put_self] at there
        cases there
        simp only [ClassShell.withSlot] at held
        split at held
        · exact own artifact held
        · refine within (.slot other another) artifact (Option.bind_eq_some_iff.2 ⟨_, ?_, held⟩)
          simp [content, opened]
      · rw [Table.get?_put_of_ne _ _ here] at there
        exact within (.slot other another) artifact
          (Option.bind_eq_some_iff.2 ⟨kept, there, held⟩)
    | keyed sort key => cases sort <;> exact within (.keyed _ key) artifact found
    | shell key => cases found
    | definition key => exact within (.definition key) artifact found
    | modulePart id part => exact within (.modulePart id part) artifact found
    | library => exact within .library artifact found

/-- Another slot for the library keeps a property of all artifacts if what it has has it. -/
theorem withBootstrap (within : caches.Within P) (slot : OneTimeSlot Lowering.Bootstrap)
    (supply : TokenSupply) (own : ∀ artifact ∈ slot.artifact?, P artifact) :
    Within P { caches with bootstrap := slot, supply := supply } := by
  intro cell artifact found
  cases cell with
  | library => exact own artifact found
  | keyed sort key => cases sort <;> exact within (.keyed _ key) artifact found
  | definition key => exact within (.definition key) artifact found
  | shell key => cases found
  | slot key part => exact within (.slot key part) artifact found
  | modulePart id part => exact within (.modulePart id part) artifact found

/-- A visit of a cell keeps a property of all artifacts if what the cell has then has it. -/
theorem visits (within : caches.Within P) {α : Type} {step : Step ε Caches α} {cell : Cell}
    {visit : cell.Content → TokenSupply → Visit cell.Content ε α}
    (visits : Caches.Visits step cell visit caches)
    (own : ∀ artifact ∈ cell.artifact? (visit (caches.content cell) caches.supply).content,
      P artifact) : (step.reached caches).Within P := by
  obtain ⟨after, ran, visited⟩ := visits
  rw [Step.reached_of_ended ran]
  intro other artifact found
  by_cases same : other = cell
  · subst same
    rw [visited.own] at found
    exact own artifact found
  · rw [visited.others other same] at found
    exact within other artifact found

end Within

namespace Lookup

variable {P : {α : Type} → Artifact α → Prop} {before : Caches} {lookup : Lookup}

/-- What the caches have for a lookup is in its cell. -/
theorem mem_of_valid? {artifact : Artifact lookup.Value}
    (valid : lookup.valid? before = some artifact) :
    artifact ∈ lookup.cell.artifact? (before.content lookup.cell) := by
  have current : ∀ {α : Type} {entry : CacheEntry α} {version : Version} {artifact : Artifact α},
      entry.valid? version = some artifact → entry.artifact? = some artifact := by
    intro α entry version artifact found
    unfold CacheEntry.valid? at found
    split at found
    · exact found
    · cases found
  cases lookup with
  | keyed sort key version => exact (artifact?_entry before sort key).symm.trans (current valid)
  | definition key version given =>
    obtain ⟨entry, there, rfl⟩ := Option.map_eq_some_iff.1 valid
    exact Option.map_eq_some_iff.2 ⟨entry, (Option.filter_eq_some_iff.1 there).1, rfl⟩
  | slot key part => exact (artifact?_slot before key part).symm.trans valid
  | modulePart id part version => exact current valid
  | library => exact valid

/-- A lookup keeps a property of all artifacts if what it computes has it. -/
theorem within (within : before.Within P) (compute : Unit → Except ε (Tracked lookup.Value))
    (own : lookup.valid? before = none → ∀ tracked, compute () = .ok tracked →
      P (before.supply.make tracked)) :
    ((lookup.request ε compute).reached before).Within P := by
  cases lookup with
  | keyed sort key version =>
    refine within.visits (requestKeyed_visits before sort key (compute ()))
      (fun artifact found => ?_)
    rcases Visit.artifact?_entry found with held | ⟨missed, tracked, done, rfl⟩
    · exact within (.keyed sort key) artifact ((artifact?_entry before sort key).symm.trans held)
    · exact own missed tracked done
  | definition key version given =>
    simp only [request, requestFullClass, Step.reached_onPart]
    refine within.withFullClasses _ _ (fun other held found => ?_)
    rcases FullClassCache.mem_held?_asked found with there | ⟨missed, tracked, done, made⟩
    · obtain ⟨entry, stored, rfl⟩ := Option.map_eq_some_iff.1 there
      exact within (.definition other) entry.artifact
        (Option.map_eq_some_iff.2 ⟨entry, stored, rfl⟩)
    · rw [made]
      exact own (by rw [valid?, missed]; rfl) tracked done
  | slot key part =>
    simp only [request, requestShellPart, Step.reached_onPart]
    refine within.withSlot _ _ _ _ (fun artifact found => ?_)
    rcases OneTimeSlot.artifact?_reached found with held | ⟨missed, tracked, done, rfl⟩
    · exact within (.slot key part) artifact ((artifact?_slot before key part).symm.trans held)
    · exact own missed tracked done
  | modulePart id part version =>
    refine within.visits (requestModulePart_visits before id part (compute ()))
      (fun artifact found => ?_)
    rcases Visit.artifact?_entry found with held | ⟨missed, tracked, done, rfl⟩
    · exact within (.modulePart id part) artifact held
    · exact own missed tracked done
  | library =>
    simp only [request, requestBootstrap, Step.reached_onPart]
    refine within.withBootstrap _ _ (fun artifact found => ?_)
    rcases OneTimeSlot.artifact?_reached found with held | ⟨missed, tracked, done, rfl⟩
    · exact within .library artifact held
    · exact own missed tracked done

/-- A lookup of a definition whose computation fails keeps what serves the next ones. -/
theorem served?_of_failed {after : Caches} {key : ClassKey} {version : Version}
    {given : PartArtifacts} {compute : Unit → Except ε (Tracked (List Tree))} {error : ε}
    (ended : (definition key version given).request ε compute before = .error error after)
    (other : ClassKey) (another : Version) (others : PartArtifacts) :
    (definition other another others).request.served? after =
      (definition other another others).request.served? before := by
  have answers := (definition key version given).answers before
  let cache := before.classes.fullClasses
  change Query.Answers _ _ _ ((cache.valid? key version given.parts).map _) at answers
  cases valid : cache.valid? key version given.parts with
  | some entry =>
    rw [valid] at answers
    obtain ⟨reached, ran, -⟩ := answers.served entry.artifact rfl ε compute
    rw [ran] at ended
    cases ended
  | none =>
    rw [valid] at answers
    cases outcome : compute () with
    | ok tracked =>
      obtain ⟨reached, ran, -⟩ := answers.computed rfl ε compute tracked outcome
      rw [ran] at ended
      cases ended
    | error fault =>
      have asked : after.classes.fullClasses =
          cache.asked key version given.parts compute before.supply := by
        have reached : ((definition key version given).request ε compute).reached before =
            after := by
          rw [Step.reached, ended]
        simp only [request, requestFullClass, Step.reached_onPart] at reached
        exact congrArg (fun caches => caches.classes.fullClasses) reached.symm
      rw [served?_eq, served?_eq, valid?, valid?, FullClassCache.map_valid?,
        FullClassCache.map_valid?, asked, FullClassCache.held?_asked_failed valid outcome]

end Lookup

end Caches

end JsEmitter
