import JsEmitter.Proofs.Comparison

/-!
# Footprints of successful steps

A successful step leaves the cells that it does not request as they are, and those that it requests
count as used. Tokens are only taken from the supply, and entries are only added for modules of
which a part is requested.
-/
namespace JsEmitter

open Js (Tree)
open Lowering (Bootstrap)

variable {α β : Type}

/-- Two steps one after the other are successful if the first is, and the second after it. -/
theorem Step.bind_eq_ok {ε σ : Type} {first : Step ε σ α} {next : α → Step ε σ β}
    {before after : σ} {result : β} (ran : (first >>= next) before = .ok result after) :
    ∃ value middle, first before = .ok value middle ∧ next value middle = .ok result after := by
  change EStateM.bind first next before = _ at ran
  unfold EStateM.bind at ran
  cases start : first before with
  | ok value middle =>
    rw [start] at ran
    exact ⟨value, middle, rfl, ran⟩
  | error error middle =>
    rw [start] at ran
    cases ran

/-- After a step that succeeds, the next one goes on from its state. -/
theorem Step.bind_ok {ε σ : Type} {first : Step ε σ α} (next : α → Step ε σ β)
    {before middle : σ} {value : α} (start : first before = .ok value middle) :
    (first >>= next) before = next value middle := by
  change EStateM.bind first next before = _
  unfold EStateM.bind
  rw [start]

/-- After a step that fails, no other one is made. -/
theorem Step.bind_error {ε σ : Type} {first : Step ε σ α} (next : α → Step ε σ β)
    {before middle : σ} {error : ε} (start : first before = .error error middle) :
    (first >>= next) before = .error error middle := by
  change EStateM.bind first next before = _
  unfold EStateM.bind
  rw [start]

namespace Caches

/-- The caches after successful requests to some cells. -/
structure Touched (before : Caches) (cells : List Cell) (after : Caches) : Prop where
  others : ∀ cell, cell ∉ cells → after.content cell = before.content cell
  used : ∀ cell ∈ cells, cell.isUsed (after.content cell) = true
  supply : before.supply.next ≤ after.supply.next
  modules : ∀ id, after.modules.contains id =
    (before.modules.contains id || cells.any (fun cell => decide (cell.added? = some id)))

namespace Touched

variable {before middle after : Caches} {cells others : List Cell}

/-- No step touches no cell. -/
theorem refl (caches : Caches) : caches.Touched [] caches where
  others _ _ := rfl
  used := by simp
  supply := Nat.le_refl _
  modules := by simp

/-- Steps one after the other touch the cells of both. -/
theorem trans (first : before.Touched cells middle) (second : middle.Touched others after) :
    before.Touched (cells ++ others) after where
  others cell absent := by
    rw [List.mem_append, not_or] at absent
    rw [second.others cell absent.2, first.others cell absent.1]
  used cell found := by
    by_cases later : cell ∈ others
    · exact second.used cell later
    · rw [second.others cell later]
      exact first.used cell ((List.mem_append.1 found).resolve_right later)
  supply := Nat.le_trans first.supply second.supply
  modules id := by rw [second.modules, first.modules, List.any_append, Bool.or_assoc]

end Touched

end Caches

/-- Whether a visit leaves a used cell and takes tokens from the supply only. -/
structure Visit.Marks {α : Type} (cell : Cell) (done : Visit cell.Content EmitError α)
    (supply : TokenSupply) : Prop where
  used : cell.isUsed done.content = true
  supply : supply.next ≤ done.supply.next

namespace Visit

/-- A visit to an entry leaves it used, and takes no token back. -/
theorem entry_used {version : Version} {own : Except EmitError (Tracked α)}
    (held : CacheEntry α) (supply : TokenSupply) :
    (entry version own held supply).content.used = true ∧
      supply.next ≤ (entry version own held supply).supply.next := by
  unfold entry
  split
  · exact ⟨rfl, Nat.le_refl _⟩
  · exact ⟨rfl, Nat.le_succ _⟩
  · exact ⟨rfl, Nat.le_refl _⟩

/-- A visit to a cell of a keyed cache marks it. -/
theorem keyed_marks {sort : KeyedSort} {key : sort.Key} {version : Version}
    {own : Except EmitError (Tracked sort.Value)} (held : (Cell.keyed sort key).Content)
    (supply : TokenSupply) :
    Marks (.keyed sort key) (Visit.keyed version own held supply) supply :=
  ⟨(entry_used _ supply).1, (entry_used _ supply).2⟩

/-- A visit to a part of a module marks it. -/
theorem entry_marks {id : ModuleId} {part : ModulePart} {version : Version}
    {own : Except EmitError (Tracked (List Tree))} (held : CacheEntry (List Tree))
    (supply : TokenSupply) :
    Marks (.modulePart id part) (entry version own held supply) supply :=
  ⟨(entry_used held supply).1, (entry_used held supply).2⟩

/-- A visit to a class definition marks it. -/
theorem definition_marks {key : ClassKey} {version : Version} {parts : DefinitionParts}
    {tracked : Tracked (List Tree)} (held : Option FullClassEntry) (supply : TokenSupply) :
    Marks (.definition key) (definition version parts tracked held supply) supply := by
  unfold definition
  split
  · exact ⟨rfl, Nat.le_refl _⟩
  · exact ⟨rfl, Nat.le_succ _⟩

/-- A visit to a slot takes no token back. -/
theorem slot_supply (tracked : Tracked α) (held : OneTimeSlot α) (supply : TokenSupply) :
    supply.next ≤ (slot tracked held supply : Visit _ EmitError _).supply.next := by
  unfold slot
  split
  · exact Nat.le_refl _
  · exact Nat.le_succ _

/-- A visit to a part of a class shell marks it. -/
theorem shellSlot_marks {key : ClassKey} {part : ShellPart} {tracked : Tracked (List Tree)}
    (held : Option (OneTimeSlot (List Tree))) (supply : TokenSupply) :
    Marks (.slot key part) (shellSlot tracked held supply) supply :=
  ⟨rfl, slot_supply tracked _ supply⟩

/-- A visit to the bootstrap library marks it. -/
theorem slot_marks {tracked : Tracked Bootstrap} (held : OneTimeSlot Bootstrap)
    (supply : TokenSupply) : Marks .library (slot tracked held supply) supply :=
  ⟨rfl, slot_supply tracked held supply⟩

end Visit

namespace Caches

variable {before after : Caches} {cell : Cell} {step : Step EmitError Caches α}
  {visit : cell.Content → TokenSupply → Visit cell.Content EmitError α}

/-- A successful request has the outcome of its visit. -/
theorem Visits.of_ok (visits : Visits step cell visit before) {value : α}
    (ran : step before = .ok value after) :
    (visit (before.content cell) before.supply).outcome = .ok value ∧
      before.Visited cell (visit (before.content cell) before.supply) after := by
  obtain ⟨reached, ends, visited⟩ := visits
  rw [ends] at ran
  cases outcome : (visit (before.content cell) before.supply).outcome with
  | ok result =>
    rw [outcome] at ran
    cases ran
    exact ⟨rfl, visited⟩
  | error error =>
    rw [outcome] at ran
    cases ran

/-- A request whose visit has a result is successful. -/
theorem Visits.exists_ok (visits : Visits step cell visit before) {value : α}
    (outcome : (visit (before.content cell) before.supply).outcome = .ok value) :
    ∃ after, step before = .ok value after ∧
      before.Visited cell (visit (before.content cell) before.supply) after := by
  obtain ⟨reached, ends, visited⟩ := visits
  rw [outcome] at ends
  exact ⟨reached, ends, visited⟩

/-- A request touches its cell. -/
theorem Visited.touched {done : Visit cell.Content EmitError α}
    (visited : before.Visited cell done after) (marks : done.Marks cell before.supply) :
    before.Touched [cell] after where
  others other absent := visited.others other (by simpa using absent)
  used other found := by
    obtain rfl := List.mem_singleton.1 found
    rw [visited.own]
    exact marks.used
  supply := by
    rw [visited.supply]
    exact marks.supply
  modules id := by simp [visited.modules id]

/-- Opening a shell touches the shell and its slots. -/
theorem Opened.touched {key : ClassKey} {version : Version}
    (opened : before.Opened key version after) : before.Touched (shellCells key) after where
  others cell absent := by
    simp only [shellCells, List.mem_cons, List.mem_map, not_or, not_exists, not_and] at absent
    exact opened.others cell absent.1
      (fun part same => absent.2 part (by cases part <;> decide) same.symm)
  used cell found := by
    rcases List.mem_cons.1 found with rfl | slot
    · simp [opened.shell, Cell.isUsed]
    · obtain ⟨part, -, rfl⟩ := List.mem_map.1 slot
      rfl
  supply := Nat.le_of_eq (congrArg TokenSupply.next opened.supply.symm)
  modules id := by
    rw [opened.modules, show (shellCells key).any (fun cell => decide (cell.added? = some id)) =
      false from rfl, Bool.or_false]

/-- Requests to slots of a shell that is open touch no more than opening it. -/
theorem Touched.within_shell {middle : Caches} {key : ClassKey} {parts : List ShellPart}
    (first : before.Touched (shellCells key) middle)
    (second : middle.Touched (parts.map (Cell.slot key)) after) :
    before.Touched (shellCells key) after := by
  have whole := first.trans second
  have among : ∀ cell, cell ∈ shellCells key ++ parts.map (Cell.slot key) ↔
      cell ∈ shellCells key := by
    intro cell
    rw [List.mem_append, or_iff_left_iff_imp]
    exact fun found => map_slot_subset_shellCells parts found
  refine ⟨fun cell absent => whole.others cell (fun found => absent ((among cell).1 found)),
    fun cell found => whole.used cell ((among cell).2 found), whole.supply, fun id => ?_⟩
  have none : (parts.map (Cell.slot key)).any (fun cell => decide (cell.added? = some id)) =
      false := by simp [Cell.added?]
  rw [whole.modules, List.any_append, none, Bool.or_false]

end Caches

end JsEmitter
