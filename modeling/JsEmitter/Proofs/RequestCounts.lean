import JsEmitter.Proofs.Resumption

/-!
# Counts of requests

Every successful request to a cell with a counter is counted once, as reused or as computed. If
the cells hold no results before, and no cell is requested twice, then nothing is reused. So the
counters of a run are known from the cells that it requests.
-/
namespace JsEmitter

open Js (Tree)
open Lowering (Bootstrap)

variable {α β : Type}

namespace Cell

/-- Whether requests to a cell are counted. Slots go with their shell, and the library has no
counters. -/
def isCounted : Cell → Bool
  | slot _ _ | library => false
  | _ => true

/-- Whether a request to a cell is counted by a cache. -/
def countsFor (sort : CellSort) (cell : Cell) : Bool := cell.isCounted && decide (cell.sort = sort)

/-- Whether a cell has no result that could be reused. -/
def Vacant : (cell : Cell) → cell.Content → Prop
  | keyed _ _, held => held = none
  | definition _, held => held = none
  | shell _, shell? => shell? = none
  | modulePart _ _, entry => entry.artifact? = none
  | slot _ _, _ | library, _ => True

/-- A cell that is not counted is vacant whatever it holds. -/
theorem vacant_of_uncounted {cell : Cell} (uncounted : cell.isCounted = false)
    (held : cell.Content) : cell.Vacant held := by
  cases cell with
  | slot | library => trivial
  | _ => cases uncounted

end Cell

/-- Number of requests that have been counted. -/
def CacheCounters.total (counters : CacheCounters) : Nat := counters.reused + counters.invalidated

/-- The total of a sum of counters is the sum of the totals. -/
theorem CacheCounters.total_add (first second : CacheCounters) :
    (first.add second).total = first.total + second.total := by
  simp only [total, add]
  omega

namespace Caches

/-- The caches after successful requests to some cells, with what the counters say of them. -/
structure Accounted (before : Caches) (cells : List Cell) (after : Caches) : Prop where
  touched : before.Touched cells after
  counted : ∀ sort, (after.counters sort).total =
    (before.counters sort).total + cells.countP (Cell.countsFor sort)
  /-- Nothing is reused of cells that were vacant and are requested once. -/
  cold : (cells.filter Cell.isCounted).Nodup → (∀ cell ∈ cells, cell.Vacant (before.content cell)) →
    ∀ sort, (after.counters sort).reused = (before.counters sort).reused

namespace Accounted

variable {before middle after : Caches} {cells others : List Cell}

/-- No request needs no account. -/
theorem refl (caches : Caches) : caches.Accounted [] caches where
  touched := .refl caches
  counted _ := rfl
  cold _ _ _ := rfl

/-- Requests one after the other are accounted for together. -/
theorem trans (first : before.Accounted cells middle) (second : middle.Accounted others after) :
    before.Accounted (cells ++ others) after where
  touched := first.touched.trans second.touched
  counted sort := by
    rw [second.counted, first.counted, List.countP_append, Nat.add_assoc]
  cold distinct vacant sort := by
    rw [List.filter_append] at distinct
    obtain ⟨here, there, apart⟩ := List.nodup_append.1 distinct
    have later : ∀ cell ∈ others, cell.Vacant (middle.content cell) := by
      intro cell found
      cases counted : cell.isCounted with
      | false => exact Cell.vacant_of_uncounted counted _
      | true =>
        have absent : cell ∉ cells := fun earlier =>
          apart cell (List.mem_filter.2 ⟨earlier, counted⟩) cell
            (List.mem_filter.2 ⟨found, counted⟩) rfl
        rw [first.touched.others cell absent]
        exact vacant cell (List.mem_append_right _ found)
    rw [second.cold there later,
      first.cold here (fun cell found => vacant cell (List.mem_append_left _ found))]

end Accounted

end Caches

/-- Whether a visit of a cell is counted as it should be. -/
structure Visit.Counts {α : Type} (cell : Cell) (held : cell.Content)
    (done : Visit cell.Content EmitError α) : Prop where
  total : done.counted.total = if cell.isCounted then 1 else 0
  cold : cell.Vacant held → done.counted.reused = 0

/-- A visit that is counted accounts for the request. -/
theorem Caches.Visited.accounted {before after : Caches} {cell : Cell}
    {done : Visit cell.Content EmitError α} (visited : before.Visited cell done after)
    (marks : done.Marks cell before.supply) (counts : done.Counts cell (before.content cell)) :
    before.Accounted [cell] after where
  touched := visited.touched marks
  counted sort := by
    have one : [cell].countP (Cell.countsFor sort) =
        (if sort = cell.sort then done.counted else .zero).total := by
      by_cases here : sort = cell.sort
      · subst here
        simp [Cell.countsFor, counts.total]
      · have apart : cell.sort ≠ sort := fun same => here same.symm
        simp [Cell.countsFor, here, apart, CacheCounters.total, CacheCounters.zero]
    rw [visited.counters, CacheCounters.total_add, one]
  cold _ vacant sort := by
    have none := counts.cold (vacant cell List.mem_cons_self)
    rw [visited.counters]
    by_cases here : sort = cell.sort <;>
      simp [here, CacheCounters.add, CacheCounters.zero, none]

namespace Visit

/-- A request to an entry that has a result is counted once. -/
theorem entry_counted {version : Version} {own : Except EmitError (Tracked α)}
    {held : CacheEntry α} {supply : TokenSupply} {value : Artifact α}
    (outcome : (entry version own held supply).outcome = .ok value) :
    (entry version own held supply).counted.total = 1 ∧
      (held.artifact? = none → (entry version own held supply).counted.reused = 0) := by
  cases valid : held.valid? version with
  | some kept =>
    have there : held.artifact? = some kept := by
      unfold CacheEntry.valid? at valid
      split at valid
      · exact valid
      · cases valid
    simp [entry, valid, reuse, CacheCounters.total, there]
  | none =>
    cases own with
    | ok tracked => simp [entry, valid, compute, CacheCounters.total]
    | error error =>
      simp only [entry, valid] at outcome
      cases outcome

/-- A successful visit to a keyed cache is counted as its cell is. -/
theorem keyed_counts {sort : KeyedSort} {key : sort.Key} {version : Version}
    {own : Except EmitError (Tracked sort.Value)} {held : (Cell.keyed sort key).Content}
    {supply : TokenSupply} {value : Artifact sort.Value}
    (outcome : (keyed version own held supply).outcome = .ok value) :
    Counts (.keyed sort key) held (keyed version own held supply) := by
  obtain ⟨total, cold⟩ := entry_counted outcome
  refine ⟨total, fun vacant => cold ?_⟩
  rw [show held = none from vacant]
  rfl

/-- A successful visit to a part of a module is counted as its cell is. -/
theorem modulePart_counts {id : ModuleId} {part : ModulePart} {version : Version}
    {own : Except EmitError (Tracked (List Tree))} {held : (Cell.modulePart id part).Content}
    {supply : TokenSupply} {value : Artifact (List Tree)}
    (outcome : (entry version own held supply).outcome = .ok value) :
    Counts (.modulePart id part) held (entry version own held supply) :=
  ⟨(entry_counted outcome).1, (entry_counted outcome).2⟩

/-- A visit to a class definition is counted as its cell is. -/
theorem definition_counts {key : ClassKey} {version : Version} {parts : DefinitionParts}
    {tracked : Tracked (List Tree)} {held : (Cell.definition key).Content}
    {supply : TokenSupply} :
    Counts (.definition key) held (definition version parts tracked held supply) := by
  cases valid : held.filter (fun entry => entry.isValid version parts) with
  | some entry =>
    have there : held = some entry := (Option.filter_eq_some_iff.1 valid).1
    refine ⟨by simp [definition, valid, reuse, CacheCounters.total, Cell.isCounted], ?_⟩
    intro vacant
    rw [show held = none from vacant] at there
    cases there
  | none =>
    exact ⟨by simp [definition, valid, compute, CacheCounters.total, Cell.isCounted],
      fun _ => by simp [definition, valid, compute]⟩

/-- A visit to a part of a class shell is counted as its cell is, by no cache. -/
theorem shellSlot_counts {key : ClassKey} {part : ShellPart} {tracked : Tracked (List Tree)}
    {held : (Cell.slot key part).Content} {supply : TokenSupply} :
    Counts (.slot key part) held (shellSlot tracked held supply) := by
  constructor <;> simp [shellSlot, Cell.isCounted, CacheCounters.total, CacheCounters.zero]

/-- A visit to the bootstrap library is counted as its cell is, by no cache. -/
theorem library_counts {tracked : Tracked Bootstrap} {held : Cell.library.Content}
    {supply : TokenSupply} : Counts .library held (slot tracked held supply) := by
  constructor <;> simp [Cell.isCounted, CacheCounters.total, CacheCounters.zero]

end Visit

/-- A shell that is opened is counted once, whatever pieces of it are requested then. -/
theorem Caches.Opened.accounted {before middle after : Caches} {key : ClassKey}
    {version : Version} {parts : List ShellPart} (opened : before.Opened key version middle)
    (pieces : middle.Accounted (parts.map (Cell.slot key)) after) :
    before.Accounted (shellCells key) after where
  touched := opened.touched.within_shell pieces.touched
  counted sort := by
    have uncounted : (parts.map (Cell.slot key)).countP (Cell.countsFor sort) = 0 := by
      rw [List.countP_eq_zero]
      simp [Cell.countsFor, Cell.isCounted]
    have one : (shellCells key).countP (Cell.countsFor sort) = if sort = .shells then 1 else 0 := by
      have slots : (ShellPart.all.map (Cell.slot key)).countP (Cell.countsFor sort) = 0 := by
        rw [List.countP_eq_zero]
        simp [Cell.countsFor, Cell.isCounted]
      rw [shellCells, List.countP_cons, slots]
      simp [Cell.countsFor, Cell.isCounted, Cell.sort, eq_comm]
    rw [pieces.counted, uncounted, opened.counters, CacheCounters.total_add, one]
    split
    · split <;> rfl
    · rfl
  cold _ vacant sort := by
    have none : before.content (.shell key) = none := vacant (.shell key) List.mem_cons_self
    have lacks : before.keepsShell key version = false := by simp [keepsShell, none]
    have slots : ∀ cell ∈ parts.map (Cell.slot key), cell.Vacant (middle.content cell) := by
      intro cell found
      obtain ⟨part, -, rfl⟩ := List.mem_map.1 found
      trivial
    have distinct : ((parts.map (Cell.slot key)).filter Cell.isCounted).Nodup := by
      simp [List.filter_map, Function.comp_def, Cell.isCounted]
    rw [pieces.cold distinct slots, opened.counters, lacks]
    split <;> simp [CacheCounters.add, CacheCounters.zero]

/-- Whether a step, when it succeeds, accounts for its requests. The second step is the first
one. -/
def Accounts (cells : List Cell) (first second : Step EmitError Caches α)
    (related : α → α → Prop) : Prop :=
  ∀ before value after, first before = .ok value after →
    before.Accounted cells after ∧ ∃ other, second before = .ok other after ∧ related value other

namespace Accounts

variable {cells others : List Cell} {first second : Step EmitError Caches α}
  {given : α → α → Prop} {related : β → β → Prop} {version : Version}

/-- Values account for no request. -/
theorem done {value other : α} (holds : given value other) :
    Accounts [] (pure value) (pure other) given := by
  rintro before _ after ran
  cases ran
  exact ⟨.refl _, other, rfl, holds⟩

/-- Failures account for no request. -/
theorem failed (error : EmitError) : Accounts [] (throw error) (throw error) given := by
  rintro before _ after ran
  cases ran

/-- Steps one after the other account for the requests of both. -/
theorem andThen {next following : α → Step EmitError Caches β}
    (holds : Accounts cells first second given)
    (rest : ∀ value other, given value other →
      Accounts others (next value) (following other) related) :
    Accounts (cells ++ others) (first >>= next) (second >>= following) related := by
  intro before value after ran
  obtain ⟨result, middle, start, ran⟩ := Step.bind_eq_ok ran
  obtain ⟨here, other, same, given⟩ := holds before result middle start
  obtain ⟨there, answer, ends, related⟩ := rest result other given middle value after ran
  exact ⟨here.trans there, answer, (Step.bind_ok _ same).trans ends, related⟩

/-- A request accounts for itself if its visit is counted. -/
theorem of_visit {cell : Cell}
    {visit : cell.Content → TokenSupply → Visit cell.Content EmitError α}
    (visits : ∀ caches, Caches.Visits first cell visit caches)
    (marks : ∀ content supply, (visit content supply).Marks cell supply)
    (counts : ∀ content supply value, (visit content supply).outcome = .ok value →
      (visit content supply).Counts cell content)
    (refl : ∀ value, given value value) : Accounts [cell] first first given := by
  intro before value after ran
  obtain ⟨outcome, visited⟩ := (visits before).of_ok ran
  exact ⟨visited.accounted (marks _ _) (counts _ _ value outcome), value, ran, refl value⟩

/-- A request of a keyed cache accounts for its cell. -/
theorem keyed (sort : KeyedSort) (key : sort.Key) (own : Except EmitError (Tracked sort.Value)) :
    Accounts [.keyed sort key] (Caches.requestKeyed sort key version (fun _ => own))
      (Caches.requestKeyed sort key version (fun _ => own)) (Artifact.Matches Eq) :=
  of_visit (fun caches => Caches.requestKeyed_visits caches sort key own) Visit.keyed_marks
    (fun _ _ _ => Visit.keyed_counts) (fun _ => ⟨rfl, rfl⟩)

/-- A request of a class definition accounts for its cell. -/
theorem definition (key : ClassKey) {parts others : DefinitionParts}
    (tracked : Tracked (List Tree)) (matching : parts.Matches Eq others) :
    Accounts [.definition key]
      (Caches.requestFullClass key version parts (fun _ => .ok tracked))
      (Caches.requestFullClass key version others (fun _ => .ok tracked))
      (fun value other => value.tracked = other.tracked) := by
  obtain rfl : parts = others := matching.eq (fun _ _ _ same => same)
  exact of_visit (fun caches => Caches.requestFullClass_visits caches key parts tracked)
    Visit.definition_marks (fun _ _ _ _ => Visit.definition_counts) (fun _ => rfl)

/-- A request of a part of a class shell accounts for its cell. -/
theorem slot (key : ClassKey) (part : ShellPart) (tracked : Tracked (List Tree)) :
    Accounts [.slot key part] (Caches.requestShellPart key part (fun _ => .ok tracked))
      (Caches.requestShellPart key part (fun _ => .ok tracked))
      (fun value other => value.tracked = other.tracked) :=
  of_visit (fun caches => Caches.requestShellPart_visits caches key part tracked)
    Visit.shellSlot_marks (fun _ _ _ _ => Visit.shellSlot_counts) (fun _ => rfl)

/-- A request of a part of a module accounts for its cell. -/
theorem modulePart (id : ModuleId) (part : ModulePart) (tracked : Tracked (List Tree)) :
    Accounts [.modulePart id part]
      (Caches.requestModulePart id part version (fun _ => .ok tracked))
      (Caches.requestModulePart id part version (fun _ => .ok tracked))
      (fun value other => value.tracked = other.tracked) :=
  of_visit (fun caches => Caches.requestModulePart_visits caches id part (.ok tracked))
    Visit.entry_marks (fun _ _ _ => Visit.modulePart_counts) (fun _ => rfl)

/-- A request of the bootstrap library accounts for its cell. -/
theorem library (tracked : Tracked Bootstrap) :
    Accounts [.library] (Caches.requestBootstrap (fun _ => .ok tracked))
      (Caches.requestBootstrap (fun _ => .ok tracked))
      (fun value other => value.tracked = other.tracked) :=
  of_visit (fun caches => Caches.requestBootstrap_visits caches tracked) Visit.slot_marks
    (fun _ _ _ _ => Visit.library_counts) (fun _ => rfl)

/-- Opening a class shell accounts for the cells of the shell. -/
theorem opened (key : ClassKey) {parts : List ShellPart}
    {first second : Step EmitError Caches α} {related : α → α → Prop}
    (pieces : Accounts (parts.map (Cell.slot key)) first second related) :
    Accounts (shellCells key) (Caches.openShell key version >>= fun _ => first)
      (Caches.openShell key version >>= fun _ => second) related := by
  intro before value after ran
  obtain ⟨middle, start, opened⟩ := Caches.openShell_opened (ε := EmitError) key version before
  rw [Step.bind_ok _ start] at ran
  obtain ⟨accounted, other, ends, same⟩ := pieces middle value after ran
  exact ⟨opened.accounted accounted, other, (Step.bind_ok _ start).trans ends, same⟩

end Accounts

/-- A step is compared with itself from the same state, and its requests are counted. -/
def Comparison.account : Comparison where
  token := Eq
  exclusive := False
  quiet := False
  Holds := Accounts
  token_refl := False.elim
  done := .done
  failed error _ := .failed error
  andThen holds _ rest := holds.andThen rest
  keyed sort key _ own _ := .keyed sort key own
  definition key _ _ _ tracked _ := .definition key tracked
  slot := .slot
  opened key _ _ _ _ _ _ := .opened key
  modulePart id part _ tracked _ := .modulePart id part tracked
  library := .library

end JsEmitter
