import JsEmitter.Proofs.Independence
import Mathlib.Algebra.GroupWithZero.Nat

/-!
# Steps with separate cells

Steps that request cells of their own can be made in any order: either one of them fails alone,
and then they fail in every order, or each gives what it gives alone, and the caches hold the same
at the end but for tokens. Every run is compared with the runs of single steps from the same state.
-/
namespace JsEmitter

variable {α γ : Type}

/-- Whether caches hold the same but for tokens, of which equally many have been taken. -/
structure Caches.SameButTokens (first second : Caches) : Prop where
  contents : ∀ cell : Cell, cell.erase (first.content cell) = cell.erase (second.content cell)
  counters : ∀ sort, first.counters sort = second.counters sort
  modules : ∀ id, first.modules.contains id = second.modules.contains id
  supply : first.supply = second.supply

/-- The requests that have been counted between two states. -/
def Caches.counted (before after : Caches) (sort : CellSort) : CacheCounters :=
  ⟨(after.counters sort).reused - (before.counters sort).reused,
    (after.counters sort).invalidated - (before.counters sort).invalidated⟩

/-- A state that counts some more requests than another one counts just these in between. -/
theorem Caches.counted_eq {before after : Caches} {sort : CellSort} {counted : CacheCounters}
    (counts : after.counters sort = (before.counters sort).add counted) :
    before.counted after sort = counted := by
  rw [Caches.counted, counts]
  simp [CacheCounters.add]

namespace Step

variable {ε σ : Type}

/-- The value of a step from a state, if it succeeds. -/
def value? (step : Step ε σ α) (state : σ) : Option α :=
  match step state with
  | .ok value _ => some value
  | .error _ _ => none

end Step

/-- Steps that agree whatever far cells hold, where no cell is near to two of them. -/
structure SeparateSteps (step : γ → Step EmitError Caches α) (cells : γ → List Cell)
    (near : γ → Cell → Prop) (items : List γ) : Prop where
  agrees : ∀ item ∈ items, ∀ base gap,
    Agrees base gap (near item) (cells item) (step item) (step item) Eq
  inside : ∀ item ∈ items, ∀ cell ∈ cells item, near item cell
  apart : ∀ item ∈ items, ∀ other ∈ items, ∀ cell, near item cell → near other cell → item = other

namespace SeparateSteps

variable {step : γ → Step EmitError Caches α} {cells : γ → List Cell} {near : γ → Cell → Prop}
  {items others : List γ}

/-- Some of the separate steps are separate. -/
theorem mono (separate : SeparateSteps step cells near items)
    (inside : ∀ item ∈ others, item ∈ items) : SeparateSteps step cells near others where
  agrees item found := separate.agrees item (inside item found)
  inside item found := separate.inside item (inside item found)
  apart item found other there := separate.apart item (inside item found) other (inside other there)

/-- What steps leave, from what each of them reaches alone from given caches. -/
structure Left (step : γ → Step EmitError Caches α) (cells : γ → List Cell)
    (near : γ → Cell → Prop) (caches now last : Caches) (items : List γ) : Prop where
  close : ∀ item ∈ items, ∀ cell, near item cell →
    cell.erase (last.content cell) = cell.erase (((step item).reached caches).content cell)
  far : ∀ cell, (∀ item ∈ items, ¬near item cell) → last.content cell = now.content cell
  counters : ∀ sort, last.counters sort = (now.counters sort).add (items.foldr (fun item counters =>
    (caches.counted ((step item).reached caches) sort).add counters) .zero)
  modules : ∀ id, last.modules.contains id = (now.modules.contains id ||
    items.any (fun item => (cells item).any (fun cell => decide (cell.added? = some id))))
  supply : last.supply.next = now.supply.next +
    (items.map (fun item => ((step item).reached caches).supply.next - caches.supply.next)).sum

/-- A step does the same as alone from given caches, if its near cells hold the same. -/
theorem step_alone {item : γ} (separate : SeparateSteps step cells near items)
    (found : item ∈ items) {caches now : Caches} (bounded : caches.Bounded)
    (later : caches.supply.next ≤ now.supply.next)
    (same : ∀ cell, near item cell → now.content cell = caches.content cell) :
    ((step item).value? caches = none ∧ ∃ error last, step item now = .error error last) ∨
    ∃ value last, (step item).value? caches = some value ∧ step item now = .ok value last ∧
      Left step cells near caches now last [item] := by
  have shifted : caches.Shifted caches.supply.next (now.supply.next - caches.supply.next)
      (near item) now := by
    refine ⟨⟨Nat.le_refl _, by omega⟩, fun cell close => ?_⟩
    rw [same cell close]
    refine Cell.rename_congr (fun token there => ?_)
    rw [Token.shift, if_pos (bounded cell token there)]
    rfl
  rcases separate.agrees item found _ _ (separate.inside item found) caches now shifted with
    ⟨error, cause, reached, last, alone, ran⟩ |
      ⟨value, _, after, last, alone, ran, rfl, shiftedLast, -, touched, counted⟩
  · exact .inl ⟨by rw [Step.value?, alone], cause, last, ran⟩
  · have reached : (step item).reached caches = after := by rw [Step.reached, alone]
    refine .inr ⟨value, last, by rw [Step.value?, alone], ran, ?_⟩
    refine ⟨fun other there cell close => ?_, fun cell far => ?_, fun sort => ?_, fun id => ?_, ?_⟩
    · obtain rfl := List.mem_singleton.1 there
      have erased := congrArg cell.erase (shiftedLast.cells cell close)
      rw [Cell.erase_rename, Cell.erase_rename] at erased
      rw [reached, erased]
    · exact touched.others cell (fun there =>
        far item List.mem_cons_self (separate.inside item found cell there))
    · obtain ⟨counts, here, there⟩ := counted sort
      simp only [List.foldr_cons, List.foldr_nil, reached, Caches.counted_eq here, there,
        CacheCounters.add_zero]
    · simp [touched.modules id]
    · have moved := shiftedLast.supply.moved
      simp only [List.map_cons, List.map_nil, List.sum_cons, List.sum_nil, reached]
      have grown := shiftedLast.supply.fresh
      omega

/-- Steps from caches whose near cells hold the same: they fail if one of them fails alone, and else
each gives what it gives alone. -/
theorem mapM_alone (separate : SeparateSteps step cells near items) (distinct : items.Nodup)
    {caches now : Caches} (bounded : caches.Bounded)
    (later : caches.supply.next ≤ now.supply.next)
    (same : ∀ item ∈ items, ∀ cell, near item cell → now.content cell = caches.content cell) :
    ((∃ item ∈ items, (step item).value? caches = none) ∧
      ∃ error last, items.mapM step now = .error error last) ∨
    ∃ values last, values.map some = items.map (fun item => (step item).value? caches) ∧
      items.mapM step now = .ok values last ∧ Left step cells near caches now last items := by
  induction items generalizing now with
  | nil =>
    exact .inr ⟨[], now, rfl, rfl, by simp, fun _ _ => rfl, fun _ => rfl, by simp, by simp⟩
  | cons head rest ih =>
    rw [List.mapM_cons]
    obtain ⟨absent, distinct⟩ := List.nodup_cons.1 distinct
    rcases separate.step_alone List.mem_cons_self bounded later (same head List.mem_cons_self) with
      ⟨none, error, last, ran⟩ | ⟨value, middle, alone, ran, left⟩
    · exact .inl ⟨⟨head, List.mem_cons_self, none⟩, error, last, Step.bind_error _ ran⟩
    have others : SeparateSteps step cells near rest :=
      separate.mono (fun item found => List.mem_cons_of_mem _ found)
    have untouched : ∀ item ∈ rest, ∀ cell, near item cell → ¬near head cell :=
      fun item found cell here there => absent (separate.apart head List.mem_cons_self item
        (List.mem_cons_of_mem _ found) cell there here ▸ found)
    have supply := left.supply
    have sameRest : ∀ item ∈ rest, ∀ cell, near item cell →
        middle.content cell = caches.content cell := fun item found cell close => by
      rw [left.far cell (by simpa using untouched item found cell close)]
      exact same item (List.mem_cons_of_mem _ found) cell close
    rw [Step.bind_ok _ ran]
    rcases ih others distinct (by omega) sameRest with
      ⟨⟨item, found, none⟩, error, last, ranRest⟩ | ⟨values, last, given, ranRest, leftRest⟩
    · exact .inl ⟨⟨item, List.mem_cons_of_mem _ found, none⟩, error, last,
        Step.bind_error _ ranRest⟩
    refine .inr ⟨value :: values, last, by simp [given, alone],
      (Step.bind_ok _ ranRest).trans rfl, ?_⟩
    refine ⟨fun item found cell close => ?_, fun cell far => ?_, fun sort => ?_, fun id => ?_, ?_⟩
    · rcases List.mem_cons.1 found with rfl | there
      · rw [leftRest.far cell (fun other found here => untouched other found cell here close)]
        exact left.close item List.mem_cons_self cell close
      · exact leftRest.close item there cell close
    · rw [leftRest.far cell (fun item found => far item (List.mem_cons_of_mem _ found)),
        left.far cell (by simpa using far head List.mem_cons_self)]
    · rw [leftRest.counters, left.counters, CacheCounters.add_assoc]
      rfl
    · rw [leftRest.modules, left.modules]
      simp [Bool.or_assoc]
    · have supplyRest := leftRest.supply
      simp only [List.map_cons, List.map_nil, List.sum_cons, List.sum_nil] at supply ⊢
      omega

/-- What the steps of a list give alone is found again from the values of all. -/
theorem eq_map_value? [Inhabited α] {caches : Caches} {values : List α}
    (given : values.map some = items.map (fun item => (step item).value? caches)) :
    values = items.map (fun item => ((step item).value? caches).getD default) := by
  have read := congrArg (List.map (fun value? => Option.getD value? default)) given
  simpa [List.map_map, Function.comp_def] using read

/-- No step fails alone if all of them give something. -/
theorem value?_ne_none {caches : Caches} {values : List α}
    (given : values.map some = items.map (fun item => (step item).value? caches)) {item : γ}
    (found : item ∈ items) : (step item).value? caches ≠ none := by
  have among : (step item).value? caches ∈ values.map some := given ▸ List.mem_map_of_mem found
  obtain ⟨value, -, here⟩ := List.mem_map.1 among
  simp [← here]

/-- Steps leave the same in every order. -/
theorem Left.sameButTokens {caches first second : Caches}
    (left : Left step cells near caches caches first items)
    (right : Left step cells near caches caches second others) (order : items.Perm others) :
    first.SameButTokens second where
  contents cell := by
    by_cases close : ∃ item ∈ items, near item cell
    · obtain ⟨item, found, close⟩ := close
      rw [left.close item found cell close, right.close item (order.mem_iff.1 found) cell close]
    · have far : ∀ item ∈ items, ¬near item cell := fun item found here => close ⟨item, found, here⟩
      rw [left.far cell far, right.far cell (fun item found => far item (order.mem_iff.2 found))]
  counters sort := by
    rw [left.counters, right.counters, order.foldr_eq' (fun first _ second _ counters => by
      rw [← CacheCounters.add_assoc, ← CacheCounters.add_assoc,
        CacheCounters.add_comm (caches.counted ((step first).reached caches) sort)])]
  modules id := by rw [left.modules, right.modules, order.any_eq]
  supply := by
    have numbers : first.supply.next = second.supply.next := by
      rw [left.supply, right.supply, (order.map _).sum_nat]
    cases one : first.supply
    cases two : second.supply
    simpa [one, two] using numbers

/-- Separate steps in two orders: both fail, or both succeed with the same value for each step, and
leave caches that hold the same but for tokens. -/
theorem mapM_perm [Inhabited α] (separate : SeparateSteps step cells near items)
    (distinct : items.Nodup) {caches : Caches} (bounded : caches.Bounded)
    (order : items.Perm others) :
    (∃ error cause reached last, items.mapM step caches = .error error reached ∧
      others.mapM step caches = .error cause last) ∨
    ∃ (value : γ → α) (reached last : Caches),
      items.mapM step caches = .ok (items.map value) reached ∧
      others.mapM step caches = .ok (others.map value) last ∧ reached.SameButTokens last := by
  have permuted : SeparateSteps step cells near others :=
    separate.mono (fun item found => order.mem_iff.2 found)
  rcases separate.mapM_alone distinct bounded (Nat.le_refl _) (fun _ _ _ _ => rfl) with
    ⟨⟨item, found, none⟩, error, reached, ran⟩ | ⟨values, reached, given, ran, left⟩ <;>
  rcases permuted.mapM_alone (order.nodup_iff.1 distinct) bounded (Nat.le_refl _)
    (fun _ _ _ _ => rfl) with ⟨⟨other, there, lost⟩, cause, last, ranOther⟩ |
      ⟨results, last, givenOther, ranOther, leftOther⟩
  · exact .inl ⟨error, cause, reached, last, ran, ranOther⟩
  · exact (value?_ne_none givenOther (order.mem_iff.1 found) none).elim
  · exact (value?_ne_none given (order.mem_iff.2 there) lost).elim
  · refine .inr ⟨fun item => ((step item).value? caches).getD default, reached, last, ?_, ?_,
      left.sameButTokens leftOther order⟩
    · rw [ran, eq_map_value? given]
    · rw [ranOther, eq_map_value? givenOther]

end SeparateSteps

end JsEmitter
