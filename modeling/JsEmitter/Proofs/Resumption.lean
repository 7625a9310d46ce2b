import JsEmitter.Proofs.Footprints

/-!
# Resumption

A step is repeated after a run in which it was successful. Its cells hold what they held at the end
of that run, so every request is either served with the artifact that it gave, or computes the same
result again because its version cannot be reused. A definition is computed again also if one of
its parts was; the tokens of such parts are newer than all that the first run found.
-/
namespace JsEmitter

open Js (Tree)
open Lowering (Bootstrap)

variable {α β : Type}

/-- Whether a cell has what it needs for the second run of a step, given its content before and
after the first one. A slot is empty again if its shell was replaced in both runs. -/
def Cell.Ready : (cell : Cell) → (before after now : cell.Content) → Prop
  | slot _ _, before, after, now => now = after ∨ before = some .empty ∧ now = some .empty
  | cell, _, after, now => now = cell.reset after

/-- A cell that is reset after the first run is ready. -/
theorem Cell.ready_reset (cell : Cell) (before after : cell.Content) :
    cell.Ready before after (cell.reset after) := by
  cases cell with
  | slot _ _ => exact .inl rfl
  | _ => rfl

/-- Whether tokens of two runs belong to the same artifact, or both are new. In quiet runs there are
no new ones in the second run. -/
def Token.Resumed (base : Nat) (quiet : Prop) (first second : Token) : Prop :=
  first = second ∨ ¬quiet ∧ base ≤ first.number ∧ base ≤ second.number

/-- In a quiet run a resumed token is the token itself. -/
theorem Token.Resumed.eq_of_quiet {base : Nat} {quiet : Prop} {first second : Token}
    (resumed : Resumed base quiet first second) (still : quiet) : first = second :=
  resumed.resolve_right (fun loud => loud.1 still)

/-- A token that is older than the run is resumed as itself. -/
theorem Token.Resumed.eq_of_old {base : Nat} {quiet : Prop} {first second : Token}
    (resumed : Resumed base quiet first second) (old : first.number < base) : first = second :=
  resumed.resolve_right (fun fresh => Nat.not_lt.2 fresh.2.1 old)

namespace DefinitionParts.Matches

variable {token : Token → Token → Prop} {parts others : DefinitionParts}

/-- Parts are the same if their tokens are. -/
theorem eq (matching : parts.Matches token others)
    (same : ∀ number ∈ parts.tokens, ∀ other, token number other → number = other) :
    parts = others := by
  have each : ∀ {firsts seconds : List Token}, List.Forall₂ token firsts seconds →
      (∀ number ∈ firsts, number ∈ parts.tokens) → firsts = seconds := by
    intro firsts seconds related among
    induction related with
    | nil => rfl
    | cons here _ ih =>
      rw [same _ (among _ List.mem_cons_self) _ here,
        ih (fun number found => among number (List.mem_cons_of_mem _ found))]
  obtain ⟨ctor, members, exported⟩ := matching
  have membersSame := each members (by simp +contextual [tokens])
  have exportedSame := each exported (by simp +contextual [tokens])
  obtain ⟨ctor?, members, exported⟩ := parts
  obtain ⟨other?, otherMembers, otherExported⟩ := others
  cases ctor with
  | none => exact DefinitionParts.mk.injEq .. ▸ ⟨rfl, membersSame, exportedSame⟩
  | some here =>
    have ctorSame := same _ (by simp [tokens]) _ here
    exact DefinitionParts.mk.injEq .. ▸ ⟨congrArg some ctorSame, membersSame, exportedSame⟩

end DefinitionParts.Matches

/-- Whether a step can be repeated: after a successful run from caches that hold only older tokens
of parts, the second step is successful with a related result, in all caches whose cells are
ready. -/
def Resumes (base : Nat) (quiet : Prop) (cells : List Cell)
    (first second : Step EmitError Caches α) (related : α → α → Prop) : Prop :=
  ∀ before value after, base ≤ before.supply.next →
    (∀ cell ∈ cells, cell.Below base (before.content cell)) → first before = .ok value after →
    before.Touched cells after ∧
    ∀ now : Caches, base ≤ now.supply.next →
      (∀ cell ∈ cells, cell.Ready (before.content cell) (after.content cell)
        (now.content cell)) →
      ∃ result last, second now = .ok result last ∧ related value result ∧
        now.Touched cells last ∧
        (quiet → ∀ sort, (last.counters sort).invalidated = (now.counters sort).invalidated)

namespace Resumes

variable {base : Nat} {quiet : Prop} {cells others : List Cell}
  {first second : Step EmitError Caches α} {given : α → α → Prop} {related : β → β → Prop}

/-- Values resume with no request. -/
theorem done {value other : α} (holds : given value other) :
    Resumes base quiet [] (pure value) (pure other) given := by
  rintro before _ after - - ran
  cases ran
  exact ⟨.refl _, fun now _ _ => ⟨other, now, rfl, holds, .refl _, fun _ _ => rfl⟩⟩

/-- Failures resume with no request. -/
theorem failed (error : EmitError) :
    Resumes base quiet [] (throw error) (throw error) given := by
  rintro before _ after - - ran
  cases ran

/-- Steps that request different cells are repeated one after the other. -/
theorem andThen {next following : α → Step EmitError Caches β}
    (holds : Resumes base quiet cells first second given)
    (distinct : (cells ++ others).Nodup) (refl : ∀ value, given value value)
    (rest : ∀ value other, given value other →
      Resumes base quiet others (next value) (following other) related) :
    Resumes base quiet (cells ++ others) (first >>= next) (second >>= following) related := by
  intro before value after fresh old ran
  obtain ⟨result, middle, start, ran⟩ := Step.bind_eq_ok ran
  obtain ⟨-, -, apart⟩ := List.nodup_append.1 distinct
  have later : ∀ cell ∈ cells, cell ∉ others :=
    fun cell found there => apart cell found cell there rfl
  have earlier : ∀ cell ∈ others, cell ∉ cells :=
    fun cell found there => apart cell there cell found rfl
  obtain ⟨touched, again⟩ := holds before result middle fresh
    (fun cell found => old cell (List.mem_append_left _ found)) start
  have freshMiddle := Nat.le_trans fresh touched.supply
  have oldMiddle : ∀ cell ∈ others, cell.Below base (middle.content cell) := fun cell found => by
    rw [touched.others cell (earlier cell found)]
    exact old cell (List.mem_append_right _ found)
  have restTouched := (rest result result (refl result) middle value after freshMiddle oldMiddle
    ran).1
  refine ⟨touched.trans restTouched, fun now freshNow ready => ?_⟩
  obtain ⟨other, reached, startAgain, same, touchedAgain, quietStart⟩ := again now freshNow
    (fun cell found => by
      rw [← restTouched.others cell (later cell found)]
      exact ready cell (List.mem_append_left _ found))
  obtain ⟨answer, last, ranAgain, sameAnswer, touchedLast, quietRest⟩ :=
    (rest result other same middle value after freshMiddle oldMiddle ran).2 reached
      (Nat.le_trans freshNow touchedAgain.supply) (fun cell found => by
        rw [touched.others cell (earlier cell found),
          touchedAgain.others cell (earlier cell found)]
        exact ready cell (List.mem_append_right _ found))
  refine ⟨answer, last, (Step.bind_ok _ startAgain).trans ranAgain, sameAnswer,
    touchedAgain.trans touchedLast, fun still sort => ?_⟩
  rw [quietRest still, quietStart still]

/-- A request can be repeated if its visit can. -/
theorem of_visit {cell : Cell}
    {visit following : cell.Content → TokenSupply → Visit cell.Content EmitError α}
    (visits : ∀ caches, Caches.Visits first cell visit caches)
    (follows : ∀ caches, Caches.Visits second cell following caches)
    (marks : ∀ content supply, (visit content supply).Marks cell supply)
    (marksAgain : ∀ content supply, (following content supply).Marks cell supply)
    (again : ∀ content supply value, (visit content supply).outcome = .ok value →
      base ≤ supply.next → cell.Below base content →
      ∀ now later, base ≤ later.next → cell.Ready content (visit content supply).content now →
        ∃ result, (following now later).outcome = .ok result ∧ given value result ∧
          (quiet → (following now later).counted.invalidated = 0)) :
    Resumes base quiet [cell] first second given := by
  intro before value after fresh old ran
  obtain ⟨outcome, visited⟩ := (visits before).of_ok ran
  refine ⟨visited.touched (marks _ _), fun now freshNow ready => ?_⟩
  have readyCell := ready cell List.mem_cons_self
  rw [visited.own] at readyCell
  obtain ⟨result, outcomeAgain, same, still⟩ := again _ _ _ outcome fresh
    (old cell List.mem_cons_self) _ _ freshNow readyCell
  obtain ⟨last, ranAgain, visitedAgain⟩ := (follows now).exists_ok outcomeAgain
  refine ⟨result, last, ranAgain, same, visitedAgain.touched (marksAgain _ _),
    fun quiets sort => ?_⟩
  rw [visitedAgain.counters, CacheCounters.add]
  by_cases here : sort = cell.sort
  · simp [here, still quiets]
  · simp [here, CacheCounters.zero]

end Resumes

namespace Visit

variable {base : Nat} {quiet : Prop}

/-- A request to an entry can be repeated when the entry has been reset. -/
theorem entry_again {version : Version} {own : Except EmitError (Tracked α)}
    {held : CacheEntry α} {supply later : TokenSupply} {artifact : Artifact α}
    (versioned : quiet → version.isVersioned = true)
    (outcome : (entry version own held supply).outcome = .ok artifact)
    (fresh : base ≤ supply.next) (freshNow : base ≤ later.next) :
    ∃ result,
      (entry version own (entry version own held supply).content.resetUsed later).outcome =
        .ok result ∧
      artifact.Matches (Token.Resumed base quiet) result ∧
      (quiet → (entry version own (entry version own held supply).content.resetUsed
        later).counted.invalidated = 0) := by
  cases valid : held.valid? version with
  | some kept =>
    simp only [entry, valid, reuse] at outcome ⊢
    obtain rfl := Except.ok.inj outcome
    have validAgain : CacheEntry.valid? (CacheEntry.resetUsed { held with used := true }) version =
        some kept := valid
    rw [validAgain]
    exact ⟨kept, rfl, ⟨rfl, .inl rfl⟩, fun _ => rfl⟩
  | none =>
    cases own with
    | error error =>
      simp only [entry, valid] at outcome
      cases outcome
    | ok tracked =>
      simp only [entry, valid, compute] at outcome ⊢
      obtain rfl := Except.ok.inj outcome
      cases reusable : version.isVersioned with
      | true =>
        have validAgain : CacheEntry.valid? (CacheEntry.resetUsed
            ⟨version, some (supply.make tracked), true⟩) version = some (supply.make tracked) := by
          simp [CacheEntry.valid?, CacheEntry.resetUsed, Version.isSame_self, reusable]
        rw [validAgain]
        exact ⟨_, rfl, ⟨rfl, .inl rfl⟩, fun _ => rfl⟩
      | false =>
        have loud : ¬quiet := fun still => by simp [versioned still] at reusable
        have validAgain : CacheEntry.valid? (CacheEntry.resetUsed
            ⟨version, some (supply.make tracked), true⟩) version = none := by
          simp [CacheEntry.valid?, CacheEntry.resetUsed, Version.isSame_self, reusable]
        rw [validAgain]
        exact ⟨later.make tracked, rfl, ⟨rfl, .inr ⟨loud, fresh, freshNow⟩⟩,
          fun still => (loud still).elim⟩

/-- A request for a definition can be repeated with parts that match. -/
theorem definition_again {version : Version} {parts others : DefinitionParts}
    {tracked : Tracked (List Tree)} {key : ClassKey} {held : Option FullClassEntry}
    {supply later : TokenSupply} {artifact : Artifact (List Tree)}
    (versioned : quiet → version.isVersioned = true)
    (matching : parts.Matches (Token.Resumed base quiet) others)
    (outcome : (definition version parts tracked held supply : Visit _ EmitError _).outcome =
      .ok artifact)
    (old : (Cell.definition key).Below base held) :
    ∃ result,
      (definition version others tracked ((Cell.definition key).reset
        (definition version parts tracked held supply : Visit _ EmitError _).content) later :
        Visit _ EmitError _).outcome = .ok result ∧
      artifact.tracked = result.tracked ∧
      (quiet → (definition version others tracked ((Cell.definition key).reset
        (definition version parts tracked held supply : Visit _ EmitError _).content) later :
        Visit _ EmitError _).counted.invalidated = 0) := by
  cases valid : held.filter (fun entry => entry.isValid version parts) with
  | some entry =>
    obtain ⟨rfl, fits⟩ := Option.filter_eq_some_iff.1 valid
    obtain ⟨same, current⟩ := Bool.and_eq_true_iff.1 fits
    have current : entry.parts = parts := of_decide_eq_true current
    -- The parts were there before the first run, so none of them has been computed again.
    have kept : parts = others := matching.eq (fun number found other resumed =>
      resumed.eq_of_old (old number (by simpa [Cell.tokens, current] using found)))
    simp only [definition, valid, reuse] at outcome ⊢
    obtain rfl := Except.ok.inj outcome
    have validAgain :
        FullClassEntry.isValid { entry with used := false } version others = true := by
      simp [FullClassEntry.isValid, same, current, kept]
    simp only [Cell.reset, Option.map_some, Option.filter, validAgain, if_true]
    exact ⟨_, rfl, rfl, fun _ => trivial⟩
  | none =>
    simp only [definition, valid, compute] at outcome ⊢
    obtain rfl := Except.ok.inj outcome
    by_cases validAgain :
        FullClassEntry.isValid ⟨version, parts, supply.make tracked, false⟩ version others = true
    · simp only [Cell.reset, Option.map_some, Option.filter, validAgain, if_true]
      exact ⟨_, rfl, rfl, fun _ => rfl⟩
    · simp only [Cell.reset, Option.map_some, Option.filter, validAgain]
      refine ⟨_, rfl, rfl, fun still => (validAgain ?_).elim⟩
      have kept : parts = others :=
        matching.eq (fun _ _ _ resumed => resumed.eq_of_quiet still)
      simp [FullClassEntry.isValid, Version.isSame_self, versioned still, kept]

/-- A request to a slot can be repeated when the slot is as it was before or after. -/
theorem slot_again {tracked : Tracked α} {held now : OneTimeSlot α} {supply : TokenSupply}
    {artifact : Artifact α}
    (outcome : (slot tracked held supply : Visit _ EmitError _).outcome = .ok artifact)
    (ready : now = (slot tracked held supply : Visit _ EmitError _).content ∨
      held = .empty ∧ now = .empty) (later : TokenSupply) :
    ∃ result, (slot tracked now later : Visit _ EmitError _).outcome = .ok result ∧
      artifact.tracked = result.tracked := by
  obtain ⟨held?⟩ := held
  rcases ready with rfl | ⟨empty, rfl⟩
  · cases held? <;> cases outcome <;> exact ⟨_, rfl, rfl⟩
  · cases empty
    cases outcome
    exact ⟨_, rfl, rfl⟩

end Visit

namespace Resumes

variable {base : Nat} {quiet : Prop} {version : Version}

/-- Requests of keyed caches resume. -/
theorem keyed (sort : KeyedSort) (key : sort.Key) (own : Except EmitError (Tracked sort.Value))
    (versioned : quiet → version.isVersioned = true) :
    Resumes base quiet [.keyed sort key] (Caches.requestKeyed sort key version (fun _ => own))
      (Caches.requestKeyed sort key version (fun _ => own))
      (Artifact.Matches (Token.Resumed base quiet)) := by
  have visits := fun caches => @Caches.requestKeyed_visits _ version caches sort key own
  refine of_visit visits visits Visit.keyed_marks Visit.keyed_marks ?_
  rintro held supply artifact outcome fresh - now later freshNow rfl
  exact Visit.entry_again versioned outcome fresh freshNow

/-- Requests of class definitions resume if their parts do. -/
theorem definition (key : ClassKey) {parts others : DefinitionParts}
    (tracked : Tracked (List Tree)) (versioned : quiet → version.isVersioned = true)
    (matching : parts.Matches (Token.Resumed base quiet) others) :
    Resumes base quiet [.definition key]
      (Caches.requestFullClass key version parts (fun _ => .ok tracked))
      (Caches.requestFullClass key version others (fun _ => .ok tracked))
      (fun value other => value.tracked = other.tracked) := by
  refine of_visit (fun caches => Caches.requestFullClass_visits caches key parts tracked)
    (fun caches => Caches.requestFullClass_visits caches key others tracked)
    Visit.definition_marks Visit.definition_marks ?_
  rintro held supply artifact outcome - old now later - rfl
  exact Visit.definition_again versioned matching outcome old

/-- Requests of parts of a class shell resume. -/
theorem slot (key : ClassKey) (part : ShellPart) (tracked : Tracked (List Tree)) :
    Resumes base quiet [.slot key part]
      (Caches.requestShellPart key part (fun _ => .ok tracked))
      (Caches.requestShellPart key part (fun _ => .ok tracked))
      (fun value other => value.tracked = other.tracked) := by
  have visits := fun caches =>
    Caches.requestShellPart_visits (ε := EmitError) caches key part tracked
  refine of_visit visits visits Visit.shellSlot_marks Visit.shellSlot_marks ?_
  rintro held supply artifact outcome - - now later - ready
  have uncounted : (Visit.shellSlot tracked now later : Visit _ EmitError _).counted.invalidated =
      0 := by rw [Visit.shellSlot, Visit.slot_counted]; rfl
  have slots : now.getD .empty =
      (Visit.slot tracked (held.getD .empty) supply : Visit _ EmitError _).content ∨
      held.getD .empty = .empty ∧ now.getD .empty = .empty := by
    rcases ready with rfl | ⟨rfl, rfl⟩
    · cases held with
      | none => exact .inr ⟨rfl, rfl⟩
      | some slot => exact .inl rfl
    · exact .inr ⟨rfl, rfl⟩
  obtain ⟨result, outcomeAgain, same⟩ := Visit.slot_again outcome slots later
  exact ⟨result, outcomeAgain, same, fun _ => uncounted⟩

/-- Requests of parts of a module resume. -/
theorem modulePart (id : ModuleId) (part : ModulePart) (tracked : Tracked (List Tree))
    (versioned : quiet → version.isVersioned = true) :
    Resumes base quiet [.modulePart id part]
      (Caches.requestModulePart id part version (fun _ => .ok tracked))
      (Caches.requestModulePart id part version (fun _ => .ok tracked))
      (fun value other => value.tracked = other.tracked) := by
  have visits := fun caches =>
    @Caches.requestModulePart_visits EmitError version caches id part (.ok tracked)
  refine of_visit visits visits Visit.entry_marks Visit.entry_marks ?_
  rintro held supply artifact outcome fresh - now later freshNow rfl
  obtain ⟨result, outcomeAgain, same, still⟩ :=
    Visit.entry_again versioned outcome fresh freshNow
  exact ⟨result, outcomeAgain, same.1, still⟩

/-- Requests of the bootstrap library resume. -/
theorem library (tracked : Tracked Bootstrap) :
    Resumes base quiet [.library] (Caches.requestBootstrap (fun _ => .ok tracked))
      (Caches.requestBootstrap (fun _ => .ok tracked))
      (fun value other => value.tracked = other.tracked) := by
  have visits := fun caches => Caches.requestBootstrap_visits (ε := EmitError) caches tracked
  refine of_visit visits visits Visit.slot_marks Visit.slot_marks ?_
  rintro held supply artifact outcome - - now later - rfl
  obtain ⟨result, outcomeAgain, same⟩ := Visit.slot_again outcome (.inl rfl) later
  exact ⟨result, outcomeAgain, same, fun _ => by rw [Visit.slot_counted]; rfl⟩

/-- A shell is opened again as it was left, unless its version cannot be reused. -/
theorem opened (key : ClassKey) {parts : List ShellPart}
    {first second : Step EmitError Caches α} {related : α → α → Prop}
    (versioned : quiet → version.isVersioned = true)
    (pieces : Resumes base quiet (parts.map (Cell.slot key)) first second related) :
    Resumes base quiet (shellCells key) (Caches.openShell key version >>= fun _ => first)
      (Caches.openShell key version >>= fun _ => second) related := by
  intro before value after fresh old ran
  obtain ⟨middle, openStart, opened⟩ :=
    Caches.openShell_opened (ε := EmitError) key version before
  rw [Step.bind_ok _ openStart] at ran
  have oldSlots : ∀ cell ∈ parts.map (Cell.slot key), cell.Below base (middle.content cell) := by
    intro cell found
    obtain ⟨part, -, rfl⟩ := List.mem_map.1 found
    simp [Cell.Below, Cell.tokens]
  obtain ⟨touched, again⟩ := pieces middle value after
    (Nat.le_trans fresh opened.touched.supply) oldSlots ran
  have shellKept : ∀ {caches : Caches}, middle.Touched (parts.map (Cell.slot key)) caches →
      caches.content (.shell key) = middle.content (.shell key) := fun there =>
    there.others _ (by simp)
  refine ⟨opened.touched.within_shell touched, fun now freshNow ready => ?_⟩
  obtain ⟨reached, openAgain, openedAgain⟩ :=
    Caches.openShell_opened (ε := EmitError) key version now
  have shellNow : now.content (.shell key) = some (version, false) := by
    have shell := ready (.shell key) List.mem_cons_self
    rw [touched.others _ (by simp), opened.shell] at shell
    exact shell
  have keeps : now.keepsShell key version = version.isVersioned := by
    simp [Caches.keepsShell, shellNow, Version.isSame_self]
  have lost : version.isVersioned = false → before.keepsShell key version = false := by
    intro unversioned
    refine Bool.eq_false_iff.2 (fun kept => ?_)
    obtain ⟨shell, -, same⟩ := (Option.any_eq_true _ _).1 kept
    exact Version.isVersioned_of_isSame same unversioned
  have slotsReady : ∀ cell ∈ parts.map (Cell.slot key), cell.Ready (middle.content cell)
      (after.content cell) (reached.content cell) := by
    intro cell found
    obtain ⟨part, -, rfl⟩ := List.mem_map.1 found
    have slot := ready (.slot key part) (slot_mem_shellCells part)
    cases reusable : version.isVersioned with
    | true =>
      rw [openedAgain.slots, keeps, reusable, if_pos rfl]
      rcases slot with same | ⟨empty, same⟩
      · exact .inl same
      · refine .inr ⟨?_, same⟩
        rw [opened.slots, empty, ite_self]
    | false =>
      rw [openedAgain.slots, keeps, reusable, opened.slots, lost reusable]
      exact .inr ⟨rfl, rfl⟩
  obtain ⟨result, last, ranAgain, same, touchedAgain, still⟩ := again reached
    (Nat.le_trans freshNow openedAgain.touched.supply) slotsReady
  refine ⟨result, last, (Step.bind_ok _ openAgain).trans ranAgain, same,
    openedAgain.touched.within_shell touchedAgain, fun quiets sort => ?_⟩
  rw [still quiets, openedAgain.counters, keeps, versioned quiets]
  split <;> simp [CacheCounters.add, CacheCounters.zero]

end Resumes

/-- A step is compared with its second run. -/
def Comparison.resumption (base : Nat) (quiet : Prop) : Comparison where
  token := Token.Resumed base quiet
  exclusive := True
  quiet := quiet
  Holds := Resumes base quiet
  token_refl _ _ := .inl rfl
  done := .done
  failed error _ := .failed error
  andThen holds distinct rest := holds.andThen (distinct trivial).1 (distinct trivial).2 rest
  keyed sort key _ := .keyed sort key
  definition key _ _ _ := .definition key
  slot := .slot
  opened key _ _ _ _ _ := .opened key
  modulePart id part _ := .modulePart id part
  library := .library

end JsEmitter
