import JsEmitter.Proofs.Renaming

/-!
# Independence of what is far

What a step does depends only on the cells that it requests. From two states in which these cells
hold the same, however many tokens have been taken in between, it fails in both, or it succeeds in
both with the same result, the same counts, and the same contents but for tokens.
-/
namespace JsEmitter

open Js (Tree)
open Lowering (Bootstrap)

variable {α β : Type}

namespace CacheCounters

/-- Sums of counters can be regrouped. -/
theorem add_assoc (first second third : CacheCounters) :
    (first.add second).add third = first.add (second.add third) := by
  simp [add, Nat.add_assoc]

/-- Counters at zero add nothing on the right. -/
@[simp] theorem add_zero (counters : CacheCounters) : counters.add .zero = counters := rfl

/-- Sums of counters can be exchanged. -/
theorem add_comm (first second : CacheCounters) : first.add second = second.add first := by
  simp [add, Nat.add_comm]

end CacheCounters

/-- Whether two states hold the same in some cells but for new tokens, which are shifted. -/
structure Caches.Shifted (base gap : Nat) (near : Cell → Prop) (first second : Caches) :
    Prop where
  supply : first.supply.Shifted base gap second.supply
  cells : ∀ cell, near cell →
    cell.rename (Token.shift base gap) (first.content cell) =
      cell.rename id (second.content cell)

/-- Whether a step counts the same in two runs. -/
def Caches.CountedAlike (before after other last : Caches) : Prop :=
  ∀ sort, ∃ counted, after.counters sort = (before.counters sort).add counted ∧
    last.counters sort = (other.counters sort).add counted

/-- Runs that count alike one after the other count alike together. -/
theorem Caches.CountedAlike.trans {before middle after other between last : Caches}
    (first : before.CountedAlike middle other between)
    (second : middle.CountedAlike after between last) : before.CountedAlike after other last := by
  intro sort
  obtain ⟨one, here, there⟩ := first sort
  obtain ⟨two, further, later⟩ := second sort
  exact ⟨one.add two, by rw [further, here, CacheCounters.add_assoc],
    by rw [later, there, CacheCounters.add_assoc]⟩

/-- Whether two steps that request near cells agree: from states that hold the same in these cells
both fail, or both succeed with related results and still hold the same there. -/
def Agrees (base gap : Nat) (near : Cell → Prop) (cells : List Cell)
    (first second : Step EmitError Caches α) (related : α → α → Prop) : Prop :=
  (∀ cell ∈ cells, near cell) → ∀ before other, before.Shifted base gap near other →
    (∃ error cause reached last, first before = .error error reached ∧
      second other = .error cause last) ∨
    ∃ value result after last, first before = .ok value after ∧ second other = .ok result last ∧
      related value result ∧ after.Shifted base gap near last ∧ before.Touched cells after ∧
      other.Touched cells last ∧ before.CountedAlike after other last

namespace Agrees

variable {base gap : Nat} {near : Cell → Prop} {cells others : List Cell}
  {first second : Step EmitError Caches α} {given : α → α → Prop} {related : β → β → Prop}
  {version : Version}

/-- Related values agree. -/
theorem done {value other : α} (holds : given value other) :
    Agrees base gap near [] (pure value) (pure other) given :=
  fun _ before state shifted => .inr ⟨value, other, before, state, rfl, rfl, holds, shifted,
    .refl _, .refl _, fun _ => ⟨.zero, rfl, rfl⟩⟩

/-- Failures agree. -/
theorem failed (error : EmitError) :
    Agrees base gap near [] (throw error) (throw error) given :=
  fun _ before other _ => .inl ⟨error, error, before, other, rfl, rfl⟩

/-- Steps agree one after the other if what follows related values agrees. -/
theorem andThen {next following : α → Step EmitError Caches β}
    (holds : Agrees base gap near cells first second given)
    (rest : ∀ value other, given value other →
      Agrees base gap near others (next value) (following other) related) :
    Agrees base gap near (cells ++ others) (first >>= next) (second >>= following) related := by
  intro close before other shifted
  rcases holds (fun cell found => close cell (List.mem_append_left _ found)) before other shifted
    with ⟨error, cause, reached, last, here, there⟩ |
      ⟨value, result, middle, between, here, there, same, shiftedMiddle, touched, touchedOther,
        counted⟩
  · exact .inl ⟨error, cause, reached, last, Step.bind_error _ here, Step.bind_error _ there⟩
  · rw [Step.bind_ok _ here, Step.bind_ok _ there]
    refine (rest value result same (fun cell found => close cell (List.mem_append_right _ found))
      middle between shiftedMiddle).imp_right ?_
    rintro ⟨answer, reply, after, last, ran, ranOther, alike, shiftedLast, further, furtherOther,
      countedRest⟩
    exact ⟨answer, reply, after, last, ran, ranOther, alike, shiftedLast, touched.trans further,
      touchedOther.trans furtherOther, counted.trans countedRest⟩

/-- A request agrees if its visit does. -/
theorem of_visit {cell : Cell}
    {visit following : cell.Content → TokenSupply → Visit cell.Content EmitError α}
    (visits : ∀ caches, Caches.Visits first cell visit caches)
    (follows : ∀ caches, Caches.Visits second cell following caches)
    (marks : ∀ content supply, (visit content supply).Marks cell supply)
    (marksAgain : ∀ content supply, (following content supply).Marks cell supply)
    (alike : ∀ held kept supply later,
      cell.rename (Token.shift base gap) held = cell.rename id kept →
      supply.Shifted base gap later →
      Visit.Alike base gap cell given (visit held supply) (following kept later)) :
    Agrees base gap near [cell] first second given := by
  intro close before other shifted
  have agree := alike _ _ _ _ (shifted.cells cell (close cell List.mem_cons_self)) shifted.supply
  rcases agree.outcome with ⟨error, cause, here, there⟩ | ⟨value, result, here, there, same⟩
  · obtain ⟨reached, ends, -⟩ := visits before
    obtain ⟨last, endsOther, -⟩ := follows other
    rw [here] at ends
    rw [there] at endsOther
    exact .inl ⟨error, cause, reached, last, ends, endsOther⟩
  · obtain ⟨after, ran, visited⟩ := (visits before).exists_ok here
    obtain ⟨last, ranOther, visitedOther⟩ := (follows other).exists_ok there
    refine .inr ⟨value, result, after, last, ran, ranOther, same, ⟨?_, fun place found => ?_⟩,
      visited.touched (marks _ _), visitedOther.touched (marksAgain _ _), fun sort => ?_⟩
    · rw [visited.supply, visitedOther.supply]
      exact agree.supply
    · by_cases own : place = cell
      · subst own
        rw [visited.own, visitedOther.own]
        exact agree.content
      · rw [visited.others place own, visitedOther.others place own]
        exact shifted.cells place found
    · refine ⟨_, visited.counters sort, ?_⟩
      rw [visitedOther.counters sort, agree.counted]

/-- Requests of keyed caches agree. -/
theorem keyed (sort : KeyedSort) (key : sort.Key) (own : Except EmitError (Tracked sort.Value)) :
    Agrees base gap near [.keyed sort key]
      (Caches.requestKeyed sort key version (fun _ => own))
      (Caches.requestKeyed sort key version (fun _ => own))
      (Artifact.Matches (fun token other => other = token.shift base gap)) := by
  have visits := fun caches => @Caches.requestKeyed_visits _ version caches sort key own
  exact of_visit visits visits Visit.keyed_marks Visit.keyed_marks
    (fun _ _ _ _ same shifted => Visit.keyed_alike own same shifted)

/-- Requests of class definitions agree if their parts match. -/
theorem definition (key : ClassKey) {parts others : DefinitionParts}
    (tracked : Tracked (List Tree))
    (matching : parts.Matches (fun token other => other = token.shift base gap) others) :
    Agrees base gap near [.definition key]
      (Caches.requestFullClass key version parts (fun _ => .ok tracked))
      (Caches.requestFullClass key version others (fun _ => .ok tracked))
      (fun value other => value.tracked = other.tracked) :=
  of_visit (fun caches => Caches.requestFullClass_visits caches key parts tracked)
    (fun caches => Caches.requestFullClass_visits caches key others tracked)
    Visit.definition_marks Visit.definition_marks
    (fun _ _ _ _ same shifted => Visit.definition_alike tracked matching same shifted)

/-- Requests of parts of a class shell agree. -/
theorem slot (key : ClassKey) (part : ShellPart) (tracked : Tracked (List Tree)) :
    Agrees base gap near [.slot key part]
      (Caches.requestShellPart key part (fun _ => .ok tracked))
      (Caches.requestShellPart key part (fun _ => .ok tracked))
      (fun value other => value.tracked = other.tracked) := by
  have visits := fun caches =>
    Caches.requestShellPart_visits (ε := EmitError) caches key part tracked
  exact of_visit visits visits Visit.shellSlot_marks Visit.shellSlot_marks
    (fun _ _ _ _ same shifted => Visit.shellSlot_alike tracked same shifted)

/-- Requests of parts of a module agree. -/
theorem modulePart (id : ModuleId) (part : ModulePart) (tracked : Tracked (List Tree)) :
    Agrees base gap near [.modulePart id part]
      (Caches.requestModulePart id part version (fun _ => .ok tracked))
      (Caches.requestModulePart id part version (fun _ => .ok tracked))
      (fun value other => value.tracked = other.tracked) := by
  have visits := fun caches =>
    @Caches.requestModulePart_visits EmitError version caches id part (.ok tracked)
  exact of_visit visits visits Visit.entry_marks Visit.entry_marks
    (fun _ _ _ _ same shifted => Visit.modulePart_alike (.ok tracked) same shifted)

/-- Requests of the bootstrap library agree. -/
theorem library (tracked : Tracked Bootstrap) :
    Agrees base gap near [.library] (Caches.requestBootstrap (fun _ => .ok tracked))
      (Caches.requestBootstrap (fun _ => .ok tracked))
      (fun value other => value.tracked = other.tracked) := by
  have visits := fun caches => Caches.requestBootstrap_visits (ε := EmitError) caches tracked
  exact of_visit visits visits Visit.slot_marks Visit.slot_marks
    (fun _ _ _ _ same shifted => Visit.library_alike tracked same shifted)

/-- Two states that hold the same in the cells of a class open its shell alike. -/
theorem opened (key : ClassKey) {parts : List ShellPart}
    {first second : Step EmitError Caches α} {related : α → α → Prop}
    (pieces : Agrees base gap near (parts.map (Cell.slot key)) first second related) :
    Agrees base gap near (shellCells key) (Caches.openShell key version >>= fun _ => first)
      (Caches.openShell key version >>= fun _ => second) related := by
  intro close before other shifted
  have slotClose : ∀ part, near (.slot key part) := fun part =>
    close _ (slot_mem_shellCells part)
  obtain ⟨middle, openStart, opened⟩ := Caches.openShell_opened (ε := EmitError) key version before
  obtain ⟨between, openOther, openedOther⟩ :=
    Caches.openShell_opened (ε := EmitError) key version other
  have keeps : other.keepsShell key version = before.keepsShell key version := by
    have shells : before.content (.shell key) = other.content (.shell key) :=
      shifted.cells (.shell key) (close _ List.mem_cons_self)
    rw [Caches.keepsShell, Caches.keepsShell, shells]
  have shiftedMiddle : middle.Shifted base gap near between := by
    refine ⟨by rw [opened.supply, openedOther.supply]; exact shifted.supply, fun cell found => ?_⟩
    by_cases shell : cell = .shell key
    · subst shell
      rw [opened.shell, openedOther.shell]
      rfl
    · by_cases slot : ∃ part, cell = .slot key part
      · obtain ⟨part, rfl⟩ := slot
        rw [opened.slots, openedOther.slots, keeps]
        split
        · exact shifted.cells _ (slotClose part)
        · rfl
      · have apart : ∀ part, cell ≠ .slot key part := fun part same => slot ⟨part, same⟩
        rw [opened.others cell shell apart, openedOther.others cell shell apart]
        exact shifted.cells cell found
  have counted : before.CountedAlike middle other between := fun sort =>
    ⟨_, opened.counters sort, by rw [openedOther.counters sort, keeps]⟩
  rw [Step.bind_ok _ openStart, Step.bind_ok _ openOther]
  refine (pieces (List.forall_mem_map.2 (fun part _ => slotClose part)) middle between
    shiftedMiddle).imp_right ?_
  rintro ⟨value, result, after, last, ran, ranOther, alike, shiftedLast, touched, touchedOther,
    countedRest⟩
  exact ⟨value, result, after, last, ran, ranOther, alike, shiftedLast,
    opened.touched.within_shell touched, openedOther.touched.within_shell touchedOther,
    counted.trans countedRest⟩

end Agrees

/-- A step is compared with itself in another state that holds the same in near cells. -/
def Comparison.independence (base gap : Nat) (near : Cell → Prop) : Comparison where
  token token other := other = token.shift base gap
  exclusive := False
  quiet := False
  Holds := Agrees base gap near
  token_refl := False.elim
  done := .done
  failed error _ := .failed error
  andThen holds _ rest := holds.andThen rest
  keyed sort key _ own _ := .keyed sort key own
  definition key _ _ _ tracked _ := .definition key tracked
  slot := .slot
  opened key _ _ _ _ _ _ := .opened key
  modulePart id part _ tracked _ := .modulePart id part tracked
  library := .library

end JsEmitter
