import JsEmitter.Proofs.RequestCounts

/-!
# Requests of a revised program

Requests of a revised program are compared with those of the original one. The original program is
emitted first, from caches without results. Then the revised one is emitted, once with the results
of the first run and once without any results. With results, a cell is computed anew exactly if it
is changed by the revision; without results, the same comes out.
-/
namespace JsEmitter

open Js (Tree)
open Lowering (Bootstrap)

variable {α β γ : Type}

namespace Cell

/-- Whether a cell holds nothing that a request would reuse. -/
def Blank : (cell : Cell) → cell.Content → Prop
  | slot _ _, kept => kept.getD .empty = .empty
  | library, kept => kept = .empty
  | cell, held => cell.Vacant held

/-- Whether the definition in a cell is another one exactly if the cell is changed. -/
def Follows (changed : Bool) : (cell : Cell) → (before after : cell.Content) → Prop
  | definition _, before, after => ∃ old new : FullClassEntry, before = some old ∧
      after = some new ∧ (new.artifact.token = old.artifact.token ↔ changed = false)
  | _, _, _ => True

end Cell

/-- Whether artifacts are one and the same exactly if nothing is changed. -/
structure Artifact.Kept (changed : Bool) (first second : Artifact α) : Prop where
  token : second.token = first.token ↔ changed = false
  tracked : changed = false → second.tracked = first.tracked

/-- Whether lists of artifacts are one and the same exactly if nothing is changed. -/
structure Artifact.AllKept (changed : Bool) (firsts seconds : List (Artifact α)) : Prop where
  tokens : seconds.map Artifact.token = firsts.map Artifact.token ↔ changed = false
  tracked : changed = false → seconds.map Artifact.tracked = firsts.map Artifact.tracked
  length : seconds.length = firsts.length

namespace Artifact.AllKept

variable {changed others : Bool} {first second : Artifact α} {firsts seconds : List (Artifact α)}

/-- No artifacts are kept. -/
theorem nil : AllKept false ([] : List (Artifact α)) [] := ⟨by simp, fun _ => rfl, rfl⟩

/-- An artifact in front is kept as the others are. -/
theorem cons (kept : first.Kept changed second) (rest : AllKept others firsts seconds) :
    AllKept (changed || others) (first :: firsts) (second :: seconds) where
  tokens := by simp [kept.token, rest.tokens]
  tracked none := by
    obtain ⟨here, there⟩ := Bool.or_eq_false_iff.1 none
    simp [kept.tracked here, rest.tracked there]
  length := congrArg (· + 1) rest.length

/-- Artifacts of two lists are kept as those of each list are. -/
theorem append {more others' : List (Artifact α)} (kept : AllKept changed firsts seconds)
    (rest : AllKept others more others') :
    AllKept (changed || others) (firsts ++ more) (seconds ++ others') where
  tokens := by
    rw [List.map_append, List.map_append, Bool.or_eq_false_iff, ← kept.tokens, ← rest.tokens]
    refine ⟨fun same => List.append_inj same (by simpa using kept.length), ?_⟩
    rintro ⟨here, there⟩
    rw [here, there]
  tracked none := by
    obtain ⟨here, there⟩ := Bool.or_eq_false_iff.1 none
    simp [kept.tracked here, rest.tracked there]
  length := by simp [kept.length, rest.length]

end Artifact.AllKept

/-- What a run with the results of an earlier one does to some cells: it computes those that are
changed. -/
structure Caches.Recomputes (changed : Cell → Bool) (cells : List Cell)
    (earlier now last : Caches) : Prop where
  touched : now.Touched cells last
  follows : ∀ cell ∈ cells, cell.Follows (changed cell) (earlier.content cell) (last.content cell)
  counted : ∀ sort, (last.counters sort).invalidated = (now.counters sort).invalidated +
    cells.countP (fun cell => changed cell && cell.countsFor sort)

/-- How three steps correspond that request the same cells. Whenever the original step is successful
in blank caches, the revised one is in caches with the results of that, and again in blank ones. How
the first two results are related depends on whether a cell is changed. -/
def Revises (changed : Cell → Bool) (cells : List Cell)
    (original revised again : Step EmitError Caches α) (related : Bool → α → α → Prop)
    (same : α → α → Prop) : Prop :=
  ∀ before value after, (∀ cell ∈ cells, cell.Blank (before.content cell)) →
    original before = .ok value after →
    before.Touched cells after ∧
    ∀ now blank : Caches, after.supply.next ≤ now.supply.next →
      (∀ cell ∈ cells, now.content cell = cell.reset (after.content cell)) →
      (∀ cell ∈ cells, cell.Blank (blank.content cell)) →
      ∃ result last other final, revised now = .ok result last ∧ again blank = .ok other final ∧
        related (cells.any changed) value result ∧ same result other ∧
        after.Recomputes changed cells now last ∧ blank.Touched cells final

namespace Revises

variable {changed : Cell → Bool} {cells others : List Cell}
  {original revised again : Step EmitError Caches α} {given : Bool → α → α → Prop}
  {alike : α → α → Prop} {related : Bool → β → β → Prop} {same : β → β → Prop}

/-- Values revise nothing. -/
theorem done {value result other : α} (holds : given false value result)
    (agrees : alike result other) :
    Revises changed [] (pure value) (pure result) (pure other) given alike := by
  rintro before _ after - ran
  cases ran
  exact ⟨.refl _, fun now blank _ _ _ => ⟨result, now, other, blank, rfl, rfl, holds, agrees,
    ⟨.refl _, by simp, fun _ => rfl⟩, .refl _⟩⟩

/-- Steps that request different cells correspond one after the other. -/
theorem andThen {next following third : α → Step EmitError Caches β}
    (holds : Revises changed cells original revised again given alike)
    (distinct : (cells ++ others).Nodup)
    (rest : ∀ value result other, given (cells.any changed) value result → alike result other →
      Revises changed others (next value) (following result) (third other)
        (fun part => related (cells.any changed || part)) same) :
    Revises changed (cells ++ others) (original >>= next) (revised >>= following)
      (again >>= third) related same := by
  intro before value after vacant ran
  obtain ⟨first, middle, start, ran⟩ := Step.bind_eq_ok ran
  obtain ⟨-, -, apart⟩ := List.nodup_append.1 distinct
  have later : ∀ cell ∈ cells, cell ∉ others :=
    fun cell found there => apart cell found cell there rfl
  have earlier : ∀ cell ∈ others, cell ∉ cells :=
    fun cell found there => apart cell there cell found rfl
  have vacantHere : ∀ cell ∈ cells, cell.Blank (before.content cell) :=
    fun cell found => vacant cell (List.mem_append_left _ found)
  have stays : ∀ {caches reached : Caches}, caches.Touched cells reached →
      (∀ cell ∈ cells ++ others, cell.Blank (caches.content cell)) →
      ∀ cell ∈ others, cell.Blank (reached.content cell) := fun touched vacant cell found => by
    rw [touched.others cell (earlier cell found)]
    exact vacant cell (List.mem_append_right _ found)
  obtain ⟨touched, repeated⟩ := holds before first middle vacantHere start
  -- What the rest touches is known from any rerun of the first step.
  obtain ⟨result, -, other, -, -, -, relation, agrees, -, -⟩ := repeated middle.startRun before
    (Nat.le_refl _) (fun cell _ => middle.content_startRun cell) vacantHere
  have restTouched := (rest first result other relation agrees middle value after
    (stays touched vacant) ran).1
  refine ⟨touched.trans restTouched, fun now blank fresh ready vacantAgain => ?_⟩
  obtain ⟨result, reached, other, stopped, ranRevised, ranAgain, relation, agrees, recomputed,
      touchedAgain⟩ := repeated now blank (Nat.le_trans restTouched.supply fresh)
    (fun cell found => by
      rw [← restTouched.others cell (later cell found)]
      exact ready cell (List.mem_append_left _ found))
    (fun cell found => vacantAgain cell (List.mem_append_left _ found))
  obtain ⟨answer, last, another, final, endsRevised, endsAgain, relationRest, agreesRest,
      recomputedRest, touchedRest⟩ :=
    (rest first result other relation agrees middle value after (stays touched vacant) ran).2
      reached stopped (Nat.le_trans fresh recomputed.touched.supply)
      (fun cell found => by
        rw [recomputed.touched.others cell (earlier cell found)]
        exact ready cell (List.mem_append_right _ found))
      (stays touchedAgain vacantAgain)
  refine ⟨answer, last, another, final, (Step.bind_ok _ ranRevised).trans endsRevised,
    (Step.bind_ok _ ranAgain).trans endsAgain, ?_, agreesRest,
    ⟨recomputed.touched.trans recomputedRest.touched, fun cell found => ?_, fun sort => ?_⟩,
    touchedAgain.trans touchedRest⟩
  · rw [List.any_append]
    exact relationRest
  · by_cases here : cell ∈ others
    · exact recomputedRest.follows cell here
    · have first := (List.mem_append.1 found).resolve_right here
      rw [recomputedRest.touched.others cell here, restTouched.others cell here]
      exact recomputed.follows cell first
  · rw [recomputedRest.counted, recomputed.counted, List.countP_append, Nat.add_assoc]

/-- Requests, and others after them. -/
theorem request {cell : Cell} {next following third : α → Step EmitError Caches β}
    (holds : Revises changed [cell] original revised again given alike)
    (distinct : (cell :: others).Nodup)
    (rest : ∀ value result other, given (changed cell) value result → alike result other →
      Revises changed others (next value) (following result) (third other)
        (fun part => related (changed cell || part)) same) :
    Revises changed (cell :: others) (original >>= next) (revised >>= following)
      (again >>= third) related same := by
  have one : [cell].any changed = changed cell := by simp
  refine holds.andThen distinct (fun value result other relation agrees => ?_)
  rw [one] at relation ⊢
  exact rest value result other relation agrees

/-- Steps whose results are related in a weaker way. -/
theorem imp {weaker : Bool → α → α → Prop}
    (holds : Revises changed cells original revised again given alike)
    (implies : ∀ value result, given (cells.any changed) value result →
      weaker (cells.any changed) value result) :
    Revises changed cells original revised again weaker alike := by
  intro before value after vacant ran
  obtain ⟨touched, repeated⟩ := holds before value after vacant ran
  refine ⟨touched, fun now blank fresh ready vacantAgain => ?_⟩
  obtain ⟨result, last, other, final, ends, endsAgain, relation, rest⟩ :=
    repeated now blank fresh ready vacantAgain
  exact ⟨result, last, other, final, ends, endsAgain, implies value result relation, rest⟩

/-- Steps whose results are read. -/
theorem map {read reading readAgain : α → β}
    (holds : Revises changed cells original revised again given alike) (distinct : cells.Nodup)
    (reads : ∀ value result other, given (cells.any changed) value result → alike result other →
      related (cells.any changed) (read value) (reading result) ∧
        same (reading result) (readAgain other)) :
    Revises changed cells (do let value ← original; return read value)
      (do let value ← revised; return reading value)
      (do let value ← again; return readAgain value) related same := by
  have ends : ∀ value result other, given (cells.any changed) value result → alike result other →
      Revises changed [] (pure (read value)) (pure (reading result)) (pure (readAgain other))
        (fun part => related (cells.any changed || part)) same :=
    fun value result other relation agrees =>
      done (by simpa using (reads value result other relation agrees).1)
        (reads value result other relation agrees).2
  have last := holds.andThen (by simpa using distinct) ends
  simpa using last

/-- Steps for every element of a list. -/
theorem mapM {items : List γ} {cellsOf : γ → List Cell}
    {original revised again : γ → Step EmitError Caches α} {whole : Bool → List α → List α → Prop}
    (nil : whole false [] [])
    (cons : ∀ {here there value result values results}, given here value result →
      whole there values results → whole (here || there) (value :: values) (result :: results))
    (distinct : (items.flatMap cellsOf).Nodup)
    (each : ∀ item ∈ items,
      Revises changed (cellsOf item) (original item) (revised item) (again item) given alike) :
    Revises changed (items.flatMap cellsOf) (items.mapM original) (items.mapM revised)
      (items.mapM again) whole (List.Forall₂ alike) := by
  induction items with
  | nil => exact done nil .nil
  | cons head rest ih =>
    rw [List.flatMap_cons] at distinct ⊢
    have rests := (List.nodup_append.1 distinct).2.1
    simp only [List.mapM_cons]
    refine (each head List.mem_cons_self).andThen distinct (fun value result other here there => ?_)
    exact (ih rests (fun item found => each item (List.mem_cons_of_mem _ found))).map rests
      (fun _ _ _ relation agrees => ⟨cons here relation, .cons there agrees⟩)

/-- Requests to a cell correspond if their visits do. -/
theorem of_visit {cell : Cell}
    {visit following third : cell.Content → TokenSupply → Visit cell.Content EmitError α}
    (visits : ∀ caches, Caches.Visits original cell visit caches)
    (followed : ∀ caches, Caches.Visits revised cell following caches)
    (comes : ∀ caches, Caches.Visits again cell third caches)
    (marks : ∀ content supply, (visit content supply).Marks cell supply)
    (followsMarks : ∀ content supply, (following content supply).Marks cell supply)
    (comesMarks : ∀ content supply, (third content supply).Marks cell supply)
    (each : ∀ held supply value, cell.Blank held → (visit held supply).outcome = .ok value →
      ∀ later, (visit held supply).supply.next ≤ later.next → ∀ clean start, cell.Blank clean →
      ∃ result other,
        (following (cell.reset (visit held supply).content) later).outcome = .ok result ∧
        (third clean start).outcome = .ok other ∧
        given (changed cell) value result ∧ alike result other ∧
        cell.Follows (changed cell) (visit held supply).content
          (following (cell.reset (visit held supply).content) later).content ∧
        (following (cell.reset (visit held supply).content) later).counted.invalidated =
          if changed cell && cell.isCounted then 1 else 0) :
    Revises changed [cell] original revised again given alike := by
  intro before value after vacant ran
  obtain ⟨outcome, visited⟩ := (visits before).of_ok ran
  refine ⟨visited.touched (marks _ _), fun now blank fresh ready vacantAgain => ?_⟩
  have readyCell := ready cell List.mem_cons_self
  rw [visited.own] at readyCell
  rw [visited.supply] at fresh
  obtain ⟨result, other, outcomeRevised, outcomeAgain, relation, agrees, follows, counted⟩ :=
    each _ _ value (vacant cell List.mem_cons_self) outcome _ fresh _ blank.supply
      (vacantAgain cell List.mem_cons_self)
  rw [← readyCell] at outcomeRevised follows counted
  obtain ⟨last, ranRevised, reached⟩ := (followed now).exists_ok outcomeRevised
  obtain ⟨final, ranAgain, stopped⟩ := (comes blank).exists_ok outcomeAgain
  refine ⟨result, last, other, final, ranRevised, ranAgain, by simpa using relation, agrees,
    ⟨reached.touched (followsMarks _ _), fun other found => ?_, fun sort => ?_⟩,
    stopped.touched (comesMarks _ _)⟩
  · obtain rfl := List.mem_singleton.1 found
    rw [visited.own, reached.own]
    exact follows
  · rw [reached.counters, CacheCounters.add, List.countP_singleton]
    by_cases here : sort = cell.sort
    · subst here
      simp [counted, Cell.countsFor]
    · have apart : cell.sort ≠ sort := fun same => here same.symm
      simp [here, apart, CacheCounters.zero, Cell.countsFor]

end Revises

namespace Visit

variable {version : Version}

/-- A request to an entry without a result computes one. -/
theorem entry_of_blank {held : CacheEntry α} (blank : held.artifact? = none) (tracked : Tracked α)
    (supply : TokenSupply) :
    (entry version (.ok tracked) held supply : Visit _ EmitError _) =
      compute tracked (fun artifact => ⟨version, some artifact, true⟩) supply ⟨0, 1⟩ := by
  have none : held.valid? version = none := by simp [CacheEntry.valid?, blank]
  simp only [entry, none]

/-- A request to an entry that has been computed for another version computes it anew. -/
theorem entry_of_differs {other : Version} (differs : version.isSame other = false)
    (artifact : Artifact α) (tracked : Tracked α) (supply : TokenSupply) :
    (entry other (.ok tracked) ⟨version, some artifact, false⟩ supply : Visit _ EmitError _) =
      compute tracked (fun computed => ⟨other, some computed, true⟩) supply ⟨0, 1⟩ := by
  have none : CacheEntry.valid? ⟨version, some artifact, false⟩ other = none := by
    simp [CacheEntry.valid?, differs]
  simp only [entry, none]

/-- A request to an entry that has been computed for the same version reuses it. -/
theorem entry_of_same (versioned : version.isVersioned = true) (artifact : Artifact α)
    (own : Except EmitError (Tracked α)) (supply : TokenSupply) :
    entry version own ⟨version, some artifact, false⟩ supply =
      reuse artifact ⟨version, some artifact, true⟩ supply ⟨1, 0⟩ := by
  have same : CacheEntry.valid? ⟨version, some artifact, false⟩ version = some artifact := by
    simp [CacheEntry.valid?, Version.isSame_self, versioned]
  simp only [entry, same]

end Visit

/-- A new token is none that has been given before. -/
theorem TokenSupply.token_ne {first second : TokenSupply} (order : first.advance.next ≤ second.next)
    (tracked : Tracked α) (other : Tracked β) :
    (second.make other).token ≠ (first.make tracked).token := by
  intro same
  have numbers : second.next = first.next := congrArg Token.number same
  simp only [advance] at order
  omega

namespace Revises

variable {changed : Cell → Bool} {version : Version}

/-- Requests for the same version and the same result reuse it. -/
theorem keyed_of_same (sort : KeyedSort) {key : sort.Key}
    (own : Except EmitError (Tracked sort.Value)) (versioned : version.isVersioned = true)
    (kept : changed (.keyed sort key) = false) :
    Revises changed [.keyed sort key] (Caches.requestKeyed sort key version (fun _ => own))
      (Caches.requestKeyed sort key version (fun _ => own))
      (Caches.requestKeyed sort key version (fun _ => own)) Artifact.Kept
      (fun value other => value.tracked = other.tracked) := by
  have visits := fun caches => @Caches.requestKeyed_visits _ version caches sort key own
  refine of_visit visits visits visits Visit.keyed_marks Visit.keyed_marks Visit.keyed_marks ?_
  rintro held supply value rfl outcome later - clean start rfl
  cases own with
  | error error => cases outcome
  | ok tracked =>
    cases outcome
    have reused := Visit.entry_of_same versioned (supply.make tracked) (.ok tracked) later
    rw [kept]
    exact ⟨supply.make tracked, start.make tracked, congrArg Visit.outcome reused, rfl,
      ⟨by simp, fun _ => rfl⟩, rfl, trivial,
      congrArg CacheCounters.invalidated (congrArg Visit.counted reused)⟩

/-- Requests for another version compute another result. -/
theorem keyed_of_differs (sort : KeyedSort) {key : sort.Key} {other : Version}
    (own another : Tracked sort.Value) (differs : version.isSame other = false)
    (revised : changed (.keyed sort key) = true) :
    Revises changed [.keyed sort key] (Caches.requestKeyed sort key version (fun _ => .ok own))
      (Caches.requestKeyed sort key other (fun _ => .ok another))
      (Caches.requestKeyed sort key other (fun _ => .ok another)) Artifact.Kept
      (fun value other => value.tracked = other.tracked) := by
  have visits := fun caches =>
    @Caches.requestKeyed_visits EmitError version caches sort key (.ok own)
  have others := fun caches =>
    @Caches.requestKeyed_visits EmitError other caches sort key (.ok another)
  refine of_visit visits others others Visit.keyed_marks Visit.keyed_marks Visit.keyed_marks ?_
  rintro held supply value rfl outcome later order clean start rfl
  cases outcome
  have computed := Visit.entry_of_differs differs (supply.make own) another later
  rw [revised]
  exact ⟨later.make another, start.make another, congrArg Visit.outcome computed, rfl,
    ⟨by simpa using TokenSupply.token_ne order own another, by simp⟩, rfl, trivial,
    congrArg CacheCounters.invalidated (congrArg Visit.counted computed)⟩

/-- Requests for the definition of a class reuse it exactly if it has the same parts. -/
theorem definition {key : ClassKey} {parts others more : DefinitionParts}
    {tracked another : Tracked (List Tree)} (versioned : version.isVersioned = true)
    (kept : changed (.definition key) = false → others = parts ∧ another = tracked)
    (revised : changed (.definition key) = true → others ≠ parts) :
    Revises changed [.definition key]
      (Caches.requestFullClass key version parts (fun _ => .ok tracked))
      (Caches.requestFullClass key version others (fun _ => .ok another))
      (Caches.requestFullClass key version more (fun _ => .ok another))
      (fun _ value result => value.tracked = tracked ∧ result.tracked = another)
      (fun result other => result.tracked = other.tracked) := by
  refine of_visit (fun caches => Caches.requestFullClass_visits caches key parts tracked)
    (fun caches => Caches.requestFullClass_visits caches key others another)
    (fun caches => Caches.requestFullClass_visits caches key more another)
    Visit.definition_marks Visit.definition_marks Visit.definition_marks ?_
  rintro held supply value rfl outcome later order clean start rfl
  cases outcome
  cases change : changed (.definition key) with
  | false =>
    obtain ⟨rfl, rfl⟩ := kept change
    have valid : FullClassEntry.isValid ⟨version, others, supply.make another, false⟩ version
        others = true := by
      simp [FullClassEntry.isValid, Version.isSame_self, versioned]
    have reused : (Visit.definition version others another
        (some ⟨version, others, supply.make another, false⟩) later : Visit _ EmitError _) =
          Visit.reuse (supply.make another) (some ⟨version, others, supply.make another, true⟩)
            later ⟨1, 0⟩ := by
      simp only [Visit.definition, Option.filter, valid, if_true]
    exact ⟨supply.make another, start.make another, congrArg Visit.outcome reused, rfl,
      ⟨rfl, rfl⟩, rfl, ⟨_, _, rfl, congrArg Visit.content reused, by simp⟩,
      congrArg CacheCounters.invalidated (congrArg Visit.counted reused)⟩
  | true =>
    have invalid : FullClassEntry.isValid ⟨version, parts, supply.make tracked, false⟩ version
        others = false := by
      simpa [FullClassEntry.isValid] using fun _ same => revised change same.symm
    have computed : (Visit.definition version others another
        (some ⟨version, parts, supply.make tracked, false⟩) later : Visit _ EmitError _) =
          Visit.compute another (fun artifact => some ⟨version, others, artifact, true⟩) later
            ⟨0, 1⟩ := by
      simp only [Visit.definition, Option.filter, invalid, Bool.false_eq_true, if_false]
    exact ⟨later.make another, start.make another, congrArg Visit.outcome computed, rfl,
      ⟨rfl, rfl⟩, rfl, ⟨_, _, rfl, congrArg Visit.content computed, by
        simpa using TokenSupply.token_ne order tracked another⟩,
      congrArg CacheCounters.invalidated (congrArg Visit.counted computed)⟩

/-- Requests for a piece of a class give the same. -/
theorem slot {key : ClassKey} {part : ShellPart} (tracked : Tracked (List Tree)) :
    Revises changed [.slot key part] (Caches.requestShellPart key part (fun _ => .ok tracked))
      (Caches.requestShellPart key part (fun _ => .ok tracked))
      (Caches.requestShellPart key part (fun _ => .ok tracked))
      (fun _ value result => value.tracked = result.tracked)
      (fun result other => result.tracked = other.tracked) := by
  have visits := fun caches =>
    Caches.requestShellPart_visits (ε := EmitError) caches key part tracked
  refine of_visit visits visits visits Visit.shellSlot_marks Visit.shellSlot_marks
    Visit.shellSlot_marks ?_
  rintro held supply value vacant outcome later - clean start vacantAgain
  have vacant : held.getD .empty = .empty := vacant
  have vacantAgain : clean.getD .empty = .empty := vacantAgain
  have other : (Visit.shellSlot tracked clean start : Visit _ EmitError _).outcome =
      .ok (start.make tracked) := by
    rw [Visit.shellSlot, vacantAgain]
    rfl
  have uncounted : ∀ content, (Visit.shellSlot tracked content later :
      Visit _ EmitError _).counted.invalidated = 0 := by
    intro content
    rw [Visit.shellSlot, Visit.slot_counted]
    rfl
  simp only [Cell.isCounted, Bool.and_false, Bool.false_eq_true, if_false, uncounted]
  cases held with
  | none =>
    cases outcome
    exact ⟨later.make tracked, start.make tracked, rfl, other, rfl, rfl, trivial, trivial⟩
  | some slot =>
    obtain rfl : slot = .empty := vacant
    cases outcome
    exact ⟨supply.make tracked, start.make tracked, rfl, other, rfl, rfl, trivial, trivial⟩

/-- Requests for the library give the same. -/
theorem library (tracked : Tracked Bootstrap) :
    Revises changed [.library] (Caches.requestBootstrap (fun _ => .ok tracked))
      (Caches.requestBootstrap (fun _ => .ok tracked))
      (Caches.requestBootstrap (fun _ => .ok tracked))
      (fun _ value result => value.tracked = result.tracked)
      (fun result other => result.tracked = other.tracked) := by
  have visits := fun caches => Caches.requestBootstrap_visits (ε := EmitError) caches tracked
  refine of_visit visits visits visits Visit.slot_marks Visit.slot_marks Visit.slot_marks ?_
  rintro held supply value rfl outcome later - clean start rfl
  cases outcome
  exact ⟨supply.make tracked, start.make tracked, rfl, rfl, rfl, rfl, trivial,
    by simp [Cell.isCounted]; rfl⟩

/-- Requests for a part of a module under the same version reuse it. -/
theorem modulePart {id : ModuleId} {part : ModulePart} (tracked : Tracked (List Tree))
    (versioned : version.isVersioned = true) (kept : changed (.modulePart id part) = false) :
    Revises changed [.modulePart id part]
      (Caches.requestModulePart id part version (fun _ => .ok tracked))
      (Caches.requestModulePart id part version (fun _ => .ok tracked))
      (Caches.requestModulePart id part version (fun _ => .ok tracked))
      (fun _ value result => value.tracked = result.tracked)
      (fun result other => result.tracked = other.tracked) := by
  have visits := fun caches =>
    @Caches.requestModulePart_visits EmitError version caches id part (.ok tracked)
  refine of_visit visits visits visits Visit.entry_marks Visit.entry_marks Visit.entry_marks ?_
  rintro held supply value vacant outcome later - clean start vacantAgain
  have first := @Visit.entry_of_blank _ version _ vacant tracked supply
  have other := @Visit.entry_of_blank _ version _ vacantAgain tracked start
  have reused := Visit.entry_of_same versioned (supply.make tracked) (.ok tracked) later
  rw [first] at outcome ⊢
  cases outcome
  rw [kept]
  exact ⟨supply.make tracked, start.make tracked, congrArg Visit.outcome reused,
    congrArg Visit.outcome other, rfl, rfl, trivial,
    congrArg CacheCounters.invalidated (congrArg Visit.counted reused)⟩

end Revises

section Shells

variable {key : ClassKey} {version : Version}

/-- Opening a shell where there is none leaves empty slots. -/
theorem Caches.openShell_blank (parts : List ShellPart) {caches : Caches}
    (vacant : ∀ cell ∈ shellCells key, cell.Blank (caches.content cell)) :
    ∃ reached, (Caches.openShell key version : Step EmitError Caches Unit) caches =
        .ok () reached ∧ caches.Opened key version reached ∧
      ∀ cell ∈ parts.map (Cell.slot key), cell.Blank (reached.content cell) := by
  obtain ⟨reached, ran, opened⟩ := Caches.openShell_opened (ε := EmitError) key version caches
  refine ⟨reached, ran, opened, fun cell found => ?_⟩
  obtain ⟨part, -, rfl⟩ := List.mem_map.1 found
  have none : caches.content (.shell key) = none := vacant _ List.mem_cons_self
  have lacks : caches.keepsShell key version = false := by simp [Caches.keepsShell, none]
  have empty : reached.content (.slot key part) = some .empty := by
    rw [opened.slots, lacks]
    rfl
  simp only [Cell.Blank, empty, Option.getD_some]

/-- Opening a shell that is there under the same version keeps its slots. -/
theorem Caches.openShell_kept (parts : List ShellPart) (versioned : version.isVersioned = true)
    {caches : Caches} (held : caches.content (.shell key) = some (version, false)) :
    ∃ reached, (Caches.openShell key version : Step EmitError Caches Unit) caches =
        .ok () reached ∧ caches.Opened key version reached ∧
      caches.keepsShell key version = true ∧
      ∀ cell ∈ parts.map (Cell.slot key), reached.content cell = caches.content cell := by
  obtain ⟨reached, ran, opened⟩ := Caches.openShell_opened (ε := EmitError) key version caches
  have keeps : caches.keepsShell key version = true := by
    simp [Caches.keepsShell, held, Version.isSame_self, versioned]
  refine ⟨reached, ran, opened, keeps, fun cell found => ?_⟩
  obtain ⟨part, -, rfl⟩ := List.mem_map.1 found
  rw [opened.slots, keeps, if_pos rfl]

/-- A shell is opened again as it was left. -/
theorem Revises.opened {changed : Cell → Bool} {parts : List ShellPart}
    {original revised again : Step EmitError Caches α} {related : Bool → α → α → Prop}
    {same : α → α → Prop} (versioned : version.isVersioned = true)
    (kept : ∀ cell ∈ shellCells key, changed cell = false)
    (pieces : Revises changed (parts.map (Cell.slot key)) original revised again related same) :
    Revises changed (shellCells key) (Caches.openShell key version >>= fun _ => original)
      (Caches.openShell key version >>= fun _ => revised)
      (Caches.openShell key version >>= fun _ => again) related same := by
  have inside : parts.map (Cell.slot key) ⊆ shellCells key := map_slot_subset_shellCells parts
  intro before value after vacant ran
  obtain ⟨middle, start, opened, vacantSlots⟩ := Caches.openShell_blank parts vacant
  rw [Step.bind_ok _ start] at ran
  obtain ⟨touched, repeated⟩ := pieces middle value after vacantSlots ran
  refine ⟨opened.touched.within_shell touched, fun now blank fresh ready vacantAgain => ?_⟩
  have shellNow : now.content (.shell key) = some (version, false) := by
    rw [ready (.shell key) List.mem_cons_self, touched.others _ (by simp), opened.shell]
    rfl
  obtain ⟨reached, ranRevised, reopened, keeps, slots⟩ :=
    Caches.openShell_kept parts versioned shellNow
  obtain ⟨stopped, ranAgain, openedAgain, vacantStopped⟩ :=
    Caches.openShell_blank parts vacantAgain
  obtain ⟨result, last, other, final, endsRevised, endsAgain, relation, agrees, recomputed,
      touchedAgain⟩ :=
    repeated reached stopped (Nat.le_trans fresh reopened.touched.supply)
      (fun cell found => (slots cell found).trans (ready cell (inside found))) vacantStopped
  have still : ∀ cells ⊆ shellCells key, cells.any changed = false :=
    fun cells within => List.any_eq_false.2 (fun cell found => by simp [kept cell (within found)])
  have none : ∀ cells ⊆ shellCells key, ∀ sort,
      cells.countP (fun cell => changed cell && cell.countsFor sort) = 0 :=
    fun cells within sort =>
      List.countP_eq_zero.2 (fun cell found => by simp [kept cell (within found)])
  refine ⟨result, last, other, final, (Step.bind_ok _ ranRevised).trans endsRevised,
    (Step.bind_ok _ ranAgain).trans endsAgain, ?_, agrees,
    ⟨reopened.touched.within_shell recomputed.touched, fun cell found => ?_, fun sort => ?_⟩,
    openedAgain.touched.within_shell touchedAgain⟩
  · rw [still _ (List.Subset.refl _)]
    rwa [still _ inside] at relation
  · rcases List.mem_cons.1 found with rfl | slot
    · trivial
    · obtain ⟨part, -, rfl⟩ := List.mem_map.1 slot
      trivial
  · rw [none _ (List.Subset.refl _), recomputed.counted, none _ inside, reopened.counters, keeps]
    split <;> simp [CacheCounters.add, CacheCounters.zero]

end Shells

end JsEmitter
