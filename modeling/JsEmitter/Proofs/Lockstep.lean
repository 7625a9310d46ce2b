import JsEmitter.Cache.Artifact
import Mathlib.Order.Basic
import Mathlib.Data.List.Forall2

/-!
# Runs in lockstep

A family of runs does the same steps side by side, each run on a state of its own. The runs are in
lockstep when one outcome describes what all of them end with, so that each run only reads this
outcome in its own way: a step that fails in one run fails in all. What is known about the states
grows with a world that the runs share. A family of one run gives the invariants of a step; a
family of two runs compares them.
-/
namespace JsEmitter

variable {ε σ τ ι α β γ δ θ ω : Type}

/-- The result of a step that ends with an outcome in a state. -/
def Step.ended (outcome : Except ε α) (state : σ) : EStateM.Result ε σ α :=
  match outcome with
  | .ok value => .ok value state
  | .error error => .error error state

/-- The state that a step reaches. -/
def Step.reached (step : Step ε σ α) (state : σ) : σ :=
  match step state with
  | .ok _ last => last
  | .error _ last => last

/-- The state that a step reaches is the one that it ends in. -/
theorem Step.reached_of_ended {step : Step ε σ α} {state last : σ} {outcome : Except ε α}
    (ran : step state = Step.ended outcome last) : step.reached state = last := by
  rw [Step.reached, ran]
  cases outcome <;> rfl

/-- A step on a part reaches the state with the part that it reaches. -/
theorem Step.reached_onPart (part : σ → τ) (withPart : σ → τ → σ) (step : Step ε τ α)
    (state : σ) : (Step.onPart part withPart step).reached state =
      withPart state (step.reached (part state)) := by
  unfold Step.reached Step.onPart
  cases step (part state) <;> rfl

/-- Every value of a list that corresponds to another one comes from one of its elements. -/
theorem exists_of_forall₂ {relation : γ → δ → Prop} {items : List γ} {values : List δ}
    (related : List.Forall₂ relation items values) {value : δ} (found : value ∈ values) :
    ∃ item ∈ items, relation item value := by
  induction related with
  | nil => cases found
  | cons first _ ih =>
    rcases List.mem_cons.1 found with rfl | later
    · exact ⟨_, List.mem_cons_self, first⟩
    · obtain ⟨item, there, holds⟩ := ih later
      exact ⟨item, List.mem_cons_of_mem _ there, holds⟩

/-- Lists have the same images if their elements correspond by their images. -/
theorem map_eq_map_iff {first : γ → β} {second : δ → β} {items : List γ} {others : List δ} :
    items.map first = others.map second ↔
      List.Forall₂ (fun item other => first item = second other) items others := by
  rw [← List.forall₂_eq_eq_eq, List.forall₂_map_left_iff, List.forall₂_map_right_iff]

/-- Lists put together from what their elements give are the same if elements correspond that give
the same. -/
theorem flatMap_eq_flatMap {first : γ → List β} {second : δ → List β} {items : List γ}
    {others : List δ}
    (related : List.Forall₂ (fun item other => first item = second other) items others) :
    items.flatMap first = others.flatMap second := by
  rw [List.flatMap_def, List.flatMap_def, map_eq_map_iff.2 related]

/-- Lists that correspond to the same list correspond to each other. -/
theorem forall₂_of_common {first : γ → α → Prop} {second : γ → β → Prop} {both : α → β → Prop}
    {items : List γ} {lefts : List α} {rights : List β} (left : List.Forall₂ first items lefts)
    (right : List.Forall₂ second items rights)
    (each : ∀ item ∈ items, ∀ value other, first item value → second item other →
      both value other) :
    List.Forall₂ both lefts rights := by
  induction left generalizing rights with
  | nil =>
    cases right
    exact .nil
  | cons here _ ih =>
    cases right with
    | cons there others =>
      exact .cons (each _ List.mem_cons_self _ _ here there)
        (ih others (fun item found => each item (List.mem_cons_of_mem _ found)))

/-- What a list gives when each element in turn gives an outcome, up to the first failure. -/
inductive Gives (post : γ → Except ε δ → Prop) : List γ → Except ε (List δ) → Prop
  | nil : Gives post [] (.ok [])
  | cons {head : γ} {rest : List γ} {first : δ} {others : List δ} :
    post head (.ok first) → Gives post rest (.ok others) →
      Gives post (head :: rest) (.ok (first :: others))
  | here {head : γ} {rest : List γ} {error : ε} :
    post head (.error error) → Gives post (head :: rest) (.error error)
  | later {head : γ} {rest : List γ} {first : δ} {error : ε} :
    post head (.ok first) → Gives post rest (.error error) →
      Gives post (head :: rest) (.error error)

namespace Gives

variable {post other : γ → Except ε δ → Prop} {items : List γ} {outcome : Except ε (List δ)}

/-- A weaker postcondition for every element of the list. -/
theorem imp (gives : Gives post items outcome)
    (weaker : ∀ item ∈ items, ∀ result, post item result → other item result) :
    Gives other items outcome := by
  induction gives with
  | nil => exact .nil
  | cons first _ ih =>
    exact .cons (weaker _ List.mem_cons_self _ first)
      (ih (fun item found => weaker item (List.mem_cons_of_mem _ found)))
  | here failed => exact .here (weaker _ List.mem_cons_self _ failed)
  | later first _ ih =>
    exact .later (weaker _ List.mem_cons_self _ first)
      (ih (fun item found => weaker item (List.mem_cons_of_mem _ found)))

/-- A list that gives values gives one for each element. -/
theorem forall₂ {values : List δ} (gives : Gives post items (.ok values)) :
    List.Forall₂ (fun item value => post item (.ok value)) items values := by
  induction items generalizing values with
  | nil =>
    cases gives
    exact .nil
  | cons head rest ih =>
    cases gives with
    | cons first others => exact .cons first (ih others)

/-- A list gives the values that its elements give. -/
theorem of_forall₂ {values : List δ}
    (related : List.Forall₂ (fun item value => post item (.ok value)) items values) :
    Gives post items (.ok values) := by
  induction related with
  | nil => exact .nil
  | cons first _ ih => exact .cons first ih

/-- Every value that a list gives comes from one of its elements. -/
theorem exists_of_mem {values : List δ} (gives : Gives post items (.ok values)) {value : δ}
    (found : value ∈ values) : ∃ item ∈ items, post item (.ok value) :=
  exists_of_forall₂ gives.forall₂ found

/-- A list that gives an error has an element that gives it. -/
theorem exists_error {error : ε} (gives : Gives post items (.error error)) :
    ∃ item ∈ items, post item (.error error) := by
  induction items with
  | nil => cases gives
  | cons head rest ih =>
    cases gives with
    | here failed => exact ⟨head, List.mem_cons_self, failed⟩
    | later _ others =>
      obtain ⟨item, found, failed⟩ := ih others
      exact ⟨item, List.mem_cons_of_mem _ found, failed⟩

end Gives

variable [Preorder ω]

/-- A family of steps in lockstep: from states that correspond in a world, all of them end with
one outcome, which each reads in its own way, in states that correspond in a later world. -/
def Lockstep (states : ω → (ι → σ) → Prop) (world : ω) (read : ι → δ → α)
    (post : ω → Except ε δ → Prop) (steps : ι → Step ε σ α) : Prop :=
  ∀ now, world ≤ now → ∀ before, states now before →
    ∃ last, now ≤ last ∧ ∃ outcome after, post last outcome ∧ states last after ∧
      ∀ side, steps side (before side) = Step.ended (outcome.map (read side)) (after side)

namespace Lockstep

variable {states : ω → (ι → σ) → Prop} {world : ω} {read : ι → δ → α}
  {post : ω → Except ε δ → Prop} {steps : ι → Step ε σ α}

/-- Steps in lockstep stay so in later worlds. -/
theorem mono {later : ω} (steady : Lockstep states world read post steps) (order : world ≤ later) :
    Lockstep states later read post steps :=
  fun now after => steady now (order.trans after)

/-- A weaker postcondition. -/
theorem imp {weak : ω → Except ε δ → Prop} (steady : Lockstep states world read post steps)
    (weaker : ∀ last, world ≤ last → ∀ outcome, post last outcome → weak last outcome) :
    Lockstep states world read weak steps := by
  intro now after before related
  obtain ⟨last, order, outcome, reached, holds, rest⟩ := steady now after before related
  exact ⟨last, order, outcome, reached, weaker last (after.trans order) outcome holds, rest⟩

/-- The same steps in another form. -/
theorem congr {others : ι → Step ε σ α} (steady : Lockstep states world read post others)
    (same : ∀ side, steps side = others side) : Lockstep states world read post steps := by
  rw [funext same]
  exact steady

/-- Values without a step. -/
theorem pure (value : δ) (holds : ∀ last, world ≤ last → post last (.ok value)) :
    Lockstep states world read post (fun side => Pure.pure (read side value)) :=
  fun now after before related =>
    ⟨now, le_rfl, .ok value, before, holds now after, related, fun _ => rfl⟩

/-- Values without a step, as they are read from one value. -/
theorem pureOf {values : ι → α} (value : δ) (same : ∀ side, values side = read side value)
    (holds : ∀ last, world ≤ last → post last (.ok value)) :
    Lockstep states world read post (fun side => Pure.pure (values side)) := by
  simp only [same]
  exact pure value holds

/-- The same failure on every side. -/
theorem throw (error : ε) (holds : ∀ last, world ≤ last → post last (.error error)) :
    Lockstep states world read post (fun _ => MonadExcept.throw error) :=
  fun now after before related =>
    ⟨now, le_rfl, .error error, before, holds now after, related, fun _ => rfl⟩

/-- A change of the states that keeps them in correspondence. -/
theorem update (change : ι → σ → σ)
    (keeps : ∀ now, world ≤ now → ∀ before, states now before →
      states now (fun side => change side (before side))) :
    Lockstep states world (fun _ value => value) (fun _ outcome => outcome = .ok PUnit.unit)
      (fun side => (modify (change side) : Step ε σ PUnit)) :=
  fun now after before related =>
    ⟨now, le_rfl, .ok PUnit.unit, _, rfl, keeps now after before related, fun _ => rfl⟩

/-- A look at the states. -/
theorem look : Lockstep states world (fun side (seen : ι → σ) => seen side)
    (fun last outcome => ∃ seen, outcome = .ok seen ∧ states last seen)
    (fun _ => (get : Step ε σ σ)) :=
  fun now _ before related =>
    ⟨now, le_rfl, .ok before, before, ⟨before, rfl, related⟩, related, fun _ => rfl⟩

/-- One step after another. -/
theorem bind {next : ι → α → Step ε σ β} {readNext : ι → θ → β}
    {postNext : ω → Except ε θ → Prop} (start : Lockstep states world read post steps)
    (failing : ∀ last, world ≤ last → ∀ error,
      post last (.error error) → postNext last (.error error))
    (rest : ∀ last, world ≤ last → ∀ value, post last (.ok value) →
      Lockstep states last readNext postNext (fun side => next side (read side value))) :
    Lockstep states world readNext postNext (fun side => steps side >>= next side) := by
  intro now after before related
  obtain ⟨middle, order, outcome, reached, holds, kept, ends⟩ := start now after before related
  cases outcome with
  | error error =>
    refine ⟨middle, order, .error error, reached, failing middle (after.trans order) error holds,
      kept, fun side => ?_⟩
    change EStateM.bind _ _ _ = _
    rw [EStateM.bind, ends side]
    rfl
  | ok value =>
    obtain ⟨last, further, outcome, ended, result, final, same⟩ :=
      rest middle (after.trans order) value holds middle le_rfl reached kept
    refine ⟨last, order.trans further, outcome, ended, result, final, fun side => ?_⟩
    change EStateM.bind _ _ _ = _
    rw [EStateM.bind, ends side]
    exact same side

/-- A step for every element of a list. -/
theorem mapM (post : ω → γ → Except ε δ → Prop) {steps : γ → ι → Step ε σ α} {items : List γ}
    (stable : ∀ earlier later, earlier ≤ later → ∀ item outcome,
      post earlier item outcome → post later item outcome)
    (each : ∀ item ∈ items, Lockstep states world read (fun last => post last item) (steps item)) :
    Lockstep states world (fun side => List.map (read side)) (fun last => Gives (post last) items)
      (fun side => items.mapM (fun item => steps item side)) := by
  induction items generalizing world with
  | nil => exact pure [] (fun _ _ => .nil)
  | cons head rest ih =>
    simp only [List.mapM_cons]
    refine bind (each head List.mem_cons_self) (fun last _ error failed => .here failed)
      (fun middle order first firstHolds => ?_)
    have others : Lockstep states middle (fun side => List.map (read side))
        (fun last outcome => post last head (.ok first) ∧ Gives (post last) rest outcome)
        (fun side => rest.mapM (fun item => steps item side)) :=
      imp (ih (fun item found => (each item (List.mem_cons_of_mem _ found)).mono order))
        (fun last further outcome holds => ⟨stable middle last further head _ firstHolds, holds⟩)
    refine bind others (fun last _ error failed => .later failed.1 failed.2)
      (fun last _ others holds => ?_)
    exact pure (first :: others) (fun final further =>
      .cons (stable last final further head _ holds.1)
        (holds.2.imp (fun item _ result => stable last final further item result)))

/-- Steps on a part of the state, for states that correspond when their parts do. -/
theorem onPart (inner : ω → (ι → τ) → Prop) {part : σ → τ} {withPart : σ → τ → σ}
    {steps : ι → Step ε τ α}
    (split : ∀ now before, states now before → inner now (fun side => part (before side)))
    (join : ∀ now last before reached, now ≤ last → states now before → inner last reached →
      states last (fun side => withPart (before side) (reached side)))
    (steady : Lockstep inner world read post steps) :
    Lockstep states world read post (fun side => Step.onPart part withPart (steps side)) := by
  intro now after before related
  obtain ⟨last, order, outcome, reached, holds, kept, ends⟩ :=
    steady now after _ (split now before related)
  refine ⟨last, order, outcome, _, holds, join now last before reached order related kept,
    fun side => ?_⟩
  simp only [Step.onPart, ends side]
  cases outcome <;> rfl

/-- A change of the states after which they correspond more closely until the rest is done. -/
theorem within (inner : ω → (ι → σ) → Prop) (change : ι → σ → σ)
    (enter : ∀ now, world ≤ now → ∀ before, states now before →
      inner now (fun side => change side (before side)))
    (leave : ∀ now before, inner now before → states now before)
    (steady : Lockstep inner world read post steps) :
    Lockstep states world read post (fun side => do
      modify (change side)
      steps side) := by
  intro now after before related
  obtain ⟨last, order, outcome, reached, holds, kept, ends⟩ :=
    steady now after _ (enter now after before related)
  exact ⟨last, order, outcome, reached, holds, leave last reached kept, fun side => ends side⟩

end Lockstep

end JsEmitter
