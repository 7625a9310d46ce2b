import JsEmitter.Proofs.HeldArtifacts

/-!
# Histories of class definitions

Several sessions share one supply of tokens. A history lists what the uses of their caches turned
out to be, the latest first, and says which class definition is live: the one that was computed last
for its key, unless a run has ended since in which the key was not looked up. A definition is reused
only while it is live, for its version and for parts with its tokens, and since no two computations
have taken the same token these are the very same parts.
-/
namespace JsEmitter

open Js (Tree)

variable {ε : Type}

namespace Sessions

open Caches (Lookup)

/-! ## Uses and their history -/

/-- One use of the caches of a session. -/
inductive Use (ε : Type) where
  | lookup (lookup : Lookup) (compute : Unit → Except ε (Tracked lookup.Value))
  | openShell (key : ClassKey) (version : Version)
  | startRun
  | endRun

/-- What a use turned out to be. -/
inductive Event (ε : Type) where
  /-- A lookup that gave its artifact without a computation. -/
  | reused (lookup : Lookup) (artifact : Artifact lookup.Value)
  /-- A lookup that computed its artifact. -/
  | computed (lookup : Lookup) (artifact : Artifact lookup.Value)
  /-- A lookup whose computation failed. -/
  | failed (lookup : Lookup) (error : ε)
  | opened
  | started
  | ended

namespace Event

/-- Whether a run began. -/
def isStart : Event ε → Bool
  | started => true
  | _ => false

/-- Whether the definition of a class was looked up, successfully or not. -/
def looksUp (key : ClassKey) : Event ε → Bool
  | reused (.definition other _ _) _ | computed (.definition other _ _) _
  | failed (.definition other _ _) _ => other = key
  | _ => false

/-- The version, the parts and the artifact of a computed definition of a class. -/
def definition? (key : ClassKey) :
    Event ε → Option (Version × PartArtifacts × Artifact (List Tree))
  | computed (.definition other version given) artifact =>
    if other = key then some (version, given, artifact) else none
  | _ => none

/-- The token that a computation took. -/
def token? : Event ε → Option Token
  | computed _ artifact => some artifact.token
  | _ => none

end Event

/-- What happened in one session. -/
def eventsAt (place : Nat) (history : List (Nat × Event ε)) : List (Event ε) :=
  (history.filter (fun entry => entry.1 = place)).map Prod.snd

/-- Whether the definition of a class was looked up since a run began the last time. -/
def requested (key : ClassKey) (events : List (Event ε)) : Bool :=
  (events.takeWhile (fun event => !event.isStart)).any (Event.looksUp key)

/-- The live definition of a class: the last one that was computed, unless a run has ended since in
which the definition of the class was not looked up. -/
def live? (key : ClassKey) :
    List (Event ε) → Option (Version × PartArtifacts × Artifact (List Tree))
  | [] => none
  | .ended :: earlier => if requested key earlier then live? key earlier else none
  | event :: earlier => (event.definition? key).or (live? key earlier)

/-- A live definition as it is held: with the tokens of its parts. -/
def heldAs (live : Version × PartArtifacts × Artifact (List Tree)) :
    Version × DefinitionParts × Artifact (List Tree) :=
  (live.1, live.2.1.parts, live.2.2)

/-- The tokens that computations took. -/
def tokens (history : List (Nat × Event ε)) : List Token :=
  history.filterMap (fun entry => entry.2.token?)

/-- Whether an artifact was computed for a lookup. -/
inductive Computed (history : List (Nat × Event ε)) : {α : Type} → Artifact α → Prop where
  | intro {place : Nat} {lookup : Lookup} {artifact : Artifact lookup.Value}
    (found : (place, .computed lookup artifact) ∈ history) : Computed history artifact

/-- What was computed stays computed when the history grows. -/
theorem Computed.cons {α : Type} {history : List (Nat × Event ε)} {artifact : Artifact α}
    (computed : Computed history artifact) (entry : Nat × Event ε) :
    Computed (entry :: history) artifact := by
  obtain ⟨found⟩ := computed
  exact ⟨List.mem_cons_of_mem _ found⟩

/-- Whether all parts of a definition were computed for lookups. -/
structure PartsComputed (history : List (Nat × Event ε)) (given : PartArtifacts) : Prop where
  ctor : ∀ artifact ∈ given.ctor?, Computed history artifact
  members : ∀ artifact ∈ given.members, Computed history artifact
  exported : ∀ artifact ∈ given.exported, Computed history artifact

/-- Sessions that share a supply of tokens, with their history. -/
structure Trace (ε : Type) where
  history : List (Nat × Event ε)
  caches : Nat → Caches
  supply : TokenSupply

namespace Trace

/-- The caches of a session, with the shared supply. -/
def session (trace : Trace ε) (place : Nat) : Caches :=
  { trace.caches place with supply := trace.supply }

/-- The trace after an event that leaves a session with other caches. -/
def record (trace : Trace ε) (place : Nat) (event : Event ε) (after : Caches) : Trace ε where
  history := (place, event) :: trace.history
  caches := fun other => if other = place then after else trace.caches other
  supply := after.supply

/-- What a lookup turned out to be. -/
def outcome (lookup : Lookup) (before : Caches) :
    EStateM.Result ε Caches (Artifact lookup.Value) → Event ε
  | .ok artifact _ =>
    if (lookup.request.served? before).isSome then .reused lookup artifact
    else .computed lookup artifact
  | .error error _ => .failed lookup error

/-- The trace after one more use of a session. -/
def extend (trace : Trace ε) (place : Nat) : Use ε → Trace ε
  | .lookup lookup compute =>
    let step := lookup.request ε compute
    let before := trace.session place
    trace.record place (outcome lookup before (step before)) (step.reached before)
  | .openShell key version =>
    trace.record place .opened
      ((Caches.openShell key version : Step ε Caches Unit).reached (trace.session place))
  | .startRun => trace.record place .started (trace.session place).startRun
  | .endRun => trace.record place .ended (trace.session place).endRun

/-- The trace of a list of uses of sessions that are new at first. -/
def ofUses (uses : List (Nat × Use ε)) : Trace ε :=
  uses.foldl (fun trace use => trace.extend use.1 use.2) ⟨[], fun _ => default, default⟩

end Trace

/-- What holds at the start and is kept by every use holds after every list of uses. -/
theorem Trace.ofUses_of_extend {P : Trace ε → Prop} (start : P ⟨[], fun _ => default, default⟩)
    (extend : ∀ trace place use, P trace → P (trace.extend place use))
    (uses : List (Nat × Use ε)) : P (ofUses uses) := by
  have folds : ∀ trace, P trace →
      P (uses.foldl (fun trace use => trace.extend use.1 use.2) trace) := by
    induction uses with
    | nil => exact fun _ kept => kept
    | cons use rest ih => exact fun trace kept => ih _ (extend trace use.1 use.2 kept)
  exact folds _ start

/-! ## What a history says -/

section Histories

variable {place : Nat} {key : ClassKey} {events : List (Event ε)} {history : List (Nat × Event ε)}

/-- An event of a session is its latest one. -/
@[simp] theorem eventsAt_cons_self (event : Event ε) :
    eventsAt place ((place, event) :: history) = event :: eventsAt place history := by
  simp [eventsAt]

/-- An event of another session does not count for a session. -/
theorem eventsAt_cons_of_ne {other : Nat} (differ : other ≠ place) (event : Event ε) :
    eventsAt other ((place, event) :: history) = eventsAt other history := by
  have elsewhere : place ≠ other := fun same => differ same.symm
  simp [eventsAt, elsewhere]

/-- A definition has been looked up in a run if the latest event did so, or an earlier one of this
run. -/
@[simp] theorem requested_cons (event : Event ε) :
    requested key (event :: events) =
      (!event.isStart && (event.looksUp key || requested key events)) := by
  cases event <;> rfl

/-- A live definition was computed for its class. -/
theorem mem_of_live? {version : Version} {given : PartArtifacts} {artifact : Artifact (List Tree)}
    (live : live? key events = some (version, given, artifact)) :
    .computed (.definition key version given) artifact ∈ events := by
  have defines : ∀ {event : Event ε}, event.definition? key = some (version, given, artifact) →
      event = .computed (.definition key version given) artifact := by
    intro event found
    unfold Event.definition? at found
    split at found
    · split at found
      · rename_i same
        subst same
        cases found
        rfl
      · cases found
    · cases found
  induction events with
  | nil => cases live
  | cons event earlier ih =>
    have other : ∀ {event : Event ε},
        (event.definition? key).or (live? key earlier) = some (version, given, artifact) →
        .computed (.definition key version given) artifact ∈ event :: earlier := by
      intro event found
      rcases Option.or_eq_some_iff.1 found with own | ⟨-, before⟩
      · rw [defines own]
        exact List.mem_cons_self
      · exact List.mem_cons_of_mem _ (ih before)
    cases event with
    | ended =>
      simp only [live?] at live
      split at live
      · exact List.mem_cons_of_mem _ (ih live)
      · cases live
    | _ => exact other live

/-- An event that takes a token adds it to the tokens. -/
theorem tokens_cons_some {entry : Nat × Event ε} {token : Token}
    (takes : entry.2.token? = some token) :
    tokens (entry :: history) = token :: tokens history := by
  simp [tokens, takes]

/-- An event that takes no token leaves the tokens. -/
theorem tokens_cons_none {entry : Nat × Event ε} (takes : entry.2.token? = none) :
    tokens (entry :: history) = tokens history := by
  simp [tokens, takes]

/-- Different computations that are listed have taken different tokens. -/
theorem eq_of_token? (distinct : (tokens history).Nodup) {first second : Nat × Event ε}
    {token : Token} (one : first ∈ history) (two : second ∈ history)
    (taken : first.2.token? = some token) (again : second.2.token? = some token) :
    first = second := by
  induction history with
  | nil => cases one
  | cons entry earlier ih =>
    have listed : ∀ {other : Nat × Event ε}, other ∈ earlier → other.2.token? = some token →
        token ∈ tokens earlier :=
      fun found takes => List.mem_filterMap.2 ⟨_, found, takes⟩
    have headed : entry.2.token? = some token → token ∉ tokens earlier := by
      intro takes
      rw [tokens_cons_some takes] at distinct
      exact (List.nodup_cons.1 distinct).1
    have rest : (tokens earlier).Nodup :=
      distinct.sublist (List.Sublist.filterMap _ (List.sublist_cons_self entry earlier))
    rcases List.mem_cons.1 one with rfl | before
    · rcases List.mem_cons.1 two with rfl | there
      · rfl
      · exact absurd (listed there again) (headed taken)
    · rcases List.mem_cons.1 two with rfl | there
      · exact absurd (listed before taken) (headed again)
      · exact ih rest before there

end Histories

section Identity

variable {history : List (Nat × Event ε)} {α : Type}

/-- A computed artifact comes from an event that took its token. -/
theorem Computed.exists_event {artifact : Artifact α} (computed : Computed history artifact) :
    ∃ place lookup, ∃ other : Artifact (Lookup.Value lookup),
      (place, .computed lookup other) ∈ history ∧ other.token = artifact.token ∧
        HEq other artifact := by
  obtain ⟨found⟩ := computed
  exact ⟨_, _, _, found, rfl, HEq.rfl⟩

/-- Computed artifacts with the same token are the same. -/
theorem Computed.eq_of_token (distinct : (tokens history).Nodup) {first second : Artifact α}
    (one : Computed history first) (two : Computed history second)
    (same : first.token = second.token) : first = second := by
  obtain ⟨place, lookup, artifact, found, token, here⟩ := one.exists_event
  obtain ⟨there, other, another, listed, taken, equal⟩ := two.exists_event
  have equals : (place, Event.computed lookup artifact) =
      ((there, .computed other another) : Nat × Event ε) :=
    eq_of_token? distinct found listed (congrArg some token)
      (congrArg some (taken.trans same.symm))
  cases equals
  exact eq_of_heq (here.symm.trans equal)

/-- Lists of computed artifacts with the same tokens are the same. -/
theorem Computed.eq_of_tokens (distinct : (tokens history).Nodup) {first second : List (Artifact α)}
    (one : ∀ artifact ∈ first, Computed history artifact)
    (two : ∀ artifact ∈ second, Computed history artifact)
    (same : first.map Artifact.token = second.map Artifact.token) : first = second := by
  induction first generalizing second with
  | nil =>
    cases second with
    | nil => rfl
    | cons other others => cases same
  | cons head rest ih =>
    cases second with
    | nil => cases same
    | cons other others =>
      simp only [List.map_cons, List.cons.injEq] at same
      obtain ⟨here, before⟩ := List.forall_mem_cons.1 one
      obtain ⟨there, after⟩ := List.forall_mem_cons.1 two
      rw [here.eq_of_token distinct there same.1, ih before after same.2]

/-- Computed parts with the same tokens are the same parts. -/
theorem PartsComputed.eq_of_parts (distinct : (tokens history).Nodup) {given others : PartArtifacts}
    (one : PartsComputed history given) (two : PartsComputed history others)
    (same : given.parts = others.parts) : given = others := by
  obtain ⟨ctor?, members, exported⟩ := given
  obtain ⟨otherCtor?, otherMembers, otherExported⟩ := others
  simp only [PartArtifacts.parts, DefinitionParts.mk.injEq] at same
  obtain ⟨ctors, memberTokens, exportedTokens⟩ := same
  have constructors : ctor? = otherCtor? := by
    cases ctor? with
    | none => exact (Option.map_eq_none_iff.1 ctors.symm).symm
    | some ctor =>
      obtain ⟨other, rfl, token⟩ := Option.map_eq_some_iff.1 ctors.symm
      rw [(one.ctor ctor rfl).eq_of_token distinct (two.ctor other rfl) token.symm]
  have sameMembers : members = otherMembers :=
    Computed.eq_of_tokens distinct one.members two.members memberTokens
  have sameExported : exported = otherExported :=
    Computed.eq_of_tokens distinct one.exported two.exported exportedTokens
  rw [constructors, sameMembers, sameExported]

end Identity

/-! ## The sessions and their history -/

namespace Trace

/-- What a lookup does: it reuses what serves it, or it does what its computation does. -/
theorem extend_lookup (trace : Trace ε) (place : Nat) (lookup : Lookup)
    (compute : Unit → Except ε (Tracked lookup.Value)) :
    ∃ event after, trace.extend place (.lookup lookup compute) = trace.record place event after ∧
      (lookup.request ε compute).reached (trace.session place) = after ∧
      match lookup.request.served? (trace.session place), compute () with
      | some artifact, _ => event = .reused lookup artifact ∧ after.supply = trace.supply
      | none, .ok tracked =>
        event = .computed lookup (trace.supply.make tracked) ∧
          after.supply = trace.supply.advance
      | none, .error error => event = .failed lookup error ∧ after.supply = trace.supply := by
  have answers := lookup.answers (trace.session place)
  rw [← Lookup.served?_eq] at answers
  refine ⟨_, _, rfl, rfl, ?_⟩
  cases found : lookup.request.served? (trace.session place) with
  | some artifact =>
    obtain ⟨after, ran, same⟩ := answers.served artifact found ε compute
    rw [Step.reached, ran]
    exact ⟨if_pos (by simp [found]), same⟩
  | none =>
    cases done : compute () with
    | ok tracked =>
      obtain ⟨after, ran, same⟩ := answers.computed found ε compute tracked done
      rw [Step.reached, ran]
      exact ⟨if_neg (by simp [found]), same⟩
    | error error =>
      obtain ⟨after, ran, same⟩ := answers.failed found ε compute error done
      rw [Step.reached, ran]
      exact ⟨rfl, same⟩

/-- Whether sessions are as their history tells. -/
structure Described (trace : Trace ε) : Prop where
  /-- The definition that is held for a class is the live one. -/
  held : ∀ place key, (trace.caches place).classes.fullClasses.held? key =
    (live? key (eventsAt place trace.history)).map heldAs
  /-- The used definitions are those that were looked up since the run began. -/
  used : ∀ place key, (trace.caches place).classes.fullClasses.isUsed key =
    (requested key (eventsAt place trace.history) &&
      (live? key (eventsAt place trace.history)).isSome)
  /-- The tokens of the supply have not been taken. -/
  below : ∀ token ∈ tokens trace.history, token.number < trace.supply.next
  /-- No token was taken twice. -/
  distinct : (tokens trace.history).Nodup
  /-- A definition that was reused was computed before, for a version that is the same and for
  parts with the same tokens. -/
  origin : ∀ place key version given artifact later earlier,
    eventsAt place trace.history =
      later ++ .reused (.definition key version given) artifact :: earlier →
    ∃ computed others, .computed (.definition key computed others) artifact ∈ earlier ∧
      computed.isSame version = true ∧ others.parts = given.parts

namespace Described

variable {trace : Trace ε} {place : Nat} {event : Event ε} {after : Caches}

/-- Sessions without history are described. -/
theorem start : (⟨[], fun _ => default, default⟩ : Trace ε).Described where
  held _ _ := rfl
  used _ _ := rfl
  below _ found := by cases found
  distinct := .nil
  origin _ _ _ _ _ later earlier listed := by
    cases later <;> cases listed

/-- An event keeps the description if the caches that it leaves are as told, it takes the next token
or none, and what it reuses was computed before. -/
theorem record (described : trace.Described)
    (held : ∀ key, after.classes.fullClasses.held? key =
      (live? key (event :: eventsAt place trace.history)).map heldAs)
    (used : ∀ key, after.classes.fullClasses.isUsed key =
      (requested key (event :: eventsAt place trace.history) &&
        (live? key (event :: eventsAt place trace.history)).isSome))
    (taken : event.token? = none ∧ after.supply = trace.supply ∨
      event.token? = some ⟨trace.supply.next⟩ ∧ after.supply = trace.supply.advance)
    (origin : ∀ key version given artifact,
      event = .reused (.definition key version given) artifact →
      ∃ computed others,
        .computed (.definition key computed others) artifact ∈ eventsAt place trace.history ∧
        computed.isSame version = true ∧ others.parts = given.parts) :
    (trace.record place event after).Described where
  held other key := by
    by_cases same : other = place
    · subst same
      simpa [Trace.record] using held key
    · simp only [Trace.record, same, if_false, eventsAt_cons_of_ne same]
      exact described.held other key
  used other key := by
    by_cases same : other = place
    · subst same
      simpa [Trace.record] using used key
    · simp only [Trace.record, same, if_false, eventsAt_cons_of_ne same]
      exact described.used other key
  below := by
    intro token found
    rcases taken with ⟨none, same⟩ | ⟨next, advanced⟩
    · rw [Trace.record, tokens_cons_none none] at found
      simpa only [Trace.record, same] using described.below token found
    · rw [Trace.record, tokens_cons_some next] at found
      simp only [Trace.record, advanced, TokenSupply.advance]
      rcases List.mem_cons.1 found with rfl | earlier
      · exact Nat.lt_succ_self _
      · exact Nat.lt_succ_of_lt (described.below token earlier)
  distinct := by
    rcases taken with ⟨none, -⟩ | ⟨next, -⟩
    · rw [Trace.record, tokens_cons_none none]
      exact described.distinct
    · rw [Trace.record, tokens_cons_some next, List.nodup_cons]
      exact ⟨fun again => Nat.lt_irrefl _ (described.below _ again), described.distinct⟩
  origin other key version given artifact later earlier listed := by
    by_cases same : other = place
    · subst same
      simp only [Trace.record, eventsAt_cons_self] at listed
      cases later with
      | nil =>
        obtain ⟨rfl, rfl⟩ := List.cons.inj listed
        exact origin key version given artifact rfl
      | cons head rest =>
        exact described.origin other key version given artifact rest earlier
          (List.cons.inj listed).2
    · rw [Trace.record, eventsAt_cons_of_ne same] at listed
      exact described.origin other key version given artifact later earlier listed

/-- A lookup of a class definition is served by the live one if this has the version and the parts,
and by nothing otherwise. -/
theorem served?_eq (described : trace.Described) (place : Nat) (key : ClassKey) (version : Version)
    (given : PartArtifacts) :
    (Lookup.definition key version given).request.served? (trace.session place) =
      ((live? key (eventsAt place trace.history)).filter
        (fun live => live.1.isSame version && live.2.1.parts = given.parts)).map
          (fun live => live.2.2) := by
  have held := described.held place key
  rw [Lookup.served?_eq, Lookup.valid?, FullClassCache.map_valid?]
  change ((((trace.caches place).classes.fullClasses.held? key).filter _).map _) = _
  rw [held]
  cases live? key (eventsAt place trace.history) with
  | none => rfl
  | some live =>
    cases fits : live.1.isSame version && decide (live.2.1.parts = given.parts) <;>
      simp [Option.filter, heldAs, fits]

/-- What serves a lookup of a class definition was computed for the class, for a version that is
the same and for parts with the same tokens, and it is live. -/
theorem live_of_served? (described : trace.Described) {key : ClassKey} {version : Version}
    {given : PartArtifacts} {artifact : Artifact (List Tree)}
    (served : (Lookup.definition key version given).request.served? (trace.session place) =
      some artifact) :
    ∃ computed others,
      live? key (eventsAt place trace.history) = some (computed, others, artifact) ∧
      computed.isSame version = true ∧ others.parts = given.parts := by
  rw [described.served?_eq] at served
  obtain ⟨⟨computed, others, live⟩, kept, rfl⟩ := Option.map_eq_some_iff.1 served
  obtain ⟨there, fits⟩ := Option.filter_eq_some_iff.1 kept
  simp only [Bool.and_eq_true, decide_eq_true_eq] at fits
  exact ⟨computed, others, there, fits⟩

/-- An event that does not concern class definitions keeps the description. -/
theorem record_quiet (described : trace.Described)
    (same : after.classes.fullClasses = (trace.caches place).classes.fullClasses)
    (goesOn : event.isStart = false) (runs : event ≠ .ended)
    (quiet : ∀ key, event.definition? key = none ∧ event.looksUp key = false)
    (taken : event.token? = none ∧ after.supply = trace.supply ∨
      event.token? = some ⟨trace.supply.next⟩ ∧ after.supply = trace.supply.advance) :
    (trace.record place event after).Described := by
  have live : ∀ key, live? key (event :: eventsAt place trace.history) =
      live? key (eventsAt place trace.history) := by
    intro key
    cases event with
    | ended => exact absurd rfl runs
    | computed lookup artifact =>
      change (Event.definition? key (.computed lookup artifact)).or _ = _
      rw [(quiet key).1, Option.none_or]
    | _ => rfl
  have asked : ∀ key, requested key (event :: eventsAt place trace.history) =
      requested key (eventsAt place trace.history) := by
    intro key
    simp [goesOn, (quiet key).2]
  refine described.record (fun key => ?_) (fun key => ?_) taken ?_
  · rw [same, live]
    exact described.held place key
  · rw [same, live, asked]
    exact described.used place key
  · rintro key version given artifact rfl
    have absent := (quiet key).2
    simp [Event.looksUp] at absent

/-- A lookup that is for no class definition keeps the description. -/
theorem lookup_other (described : trace.Described) (place : Nat) {lookup : Lookup}
    (other : lookup.isDefinition = false) (compute : Unit → Except ε (Tracked lookup.Value)) :
    (trace.extend place (.lookup lookup compute)).Described := by
  obtain ⟨event, after, recorded, reached, done⟩ := extend_lookup trace place lookup compute
  have same : after.classes.fullClasses = (trace.caches place).classes.fullClasses := by
    rw [← reached]
    exact lookup.fullClasses_reached other compute (trace.session place)
  have quiet : ∀ key,
      (∀ artifact, (Event.reused lookup artifact : Event ε).looksUp key = false) ∧
      (∀ artifact, (Event.computed lookup artifact : Event ε).definition? key = none ∧
        (Event.computed lookup artifact : Event ε).looksUp key = false) ∧
      ∀ error, (Event.failed lookup error : Event ε).looksUp key = false := by
    intro key
    cases lookup with
    | definition key version given => cases other
    | _ => exact ⟨fun _ => rfl, fun _ => ⟨rfl, rfl⟩, fun _ => rfl⟩
  rw [recorded]
  split at done
  · obtain ⟨rfl, supply⟩ := done
    exact described.record_quiet same rfl nofun (fun key => ⟨rfl, (quiet key).1 _⟩)
      (.inl ⟨rfl, supply⟩)
  · obtain ⟨rfl, supply⟩ := done
    exact described.record_quiet same rfl nofun (fun key => (quiet key).2.1 _)
      (.inr ⟨rfl, supply⟩)
  · obtain ⟨rfl, supply⟩ := done
    exact described.record_quiet same rfl nofun (fun key => ⟨rfl, (quiet key).2.2 _⟩)
      (.inl ⟨rfl, supply⟩)

/-- A lookup of a class definition keeps the description if its event tells what is held. The
definition counts as used then, since every lookup marks the definition of its class. -/
theorem record_asked (described : trace.Described) {key : ClassKey} {version : Version}
    {parts : DefinitionParts} {compute : Unit → Except ε (Tracked (List Tree))}
    (asked : after.classes.fullClasses =
      (trace.caches place).classes.fullClasses.asked key version parts compute trace.supply)
    (held : ∀ other, after.classes.fullClasses.held? other =
      (live? other (event :: eventsAt place trace.history)).map heldAs)
    (others : ∀ other, key ≠ other → live? other (event :: eventsAt place trace.history) =
      live? other (eventsAt place trace.history))
    (goesOn : event.isStart = false) (asks : ∀ other, event.looksUp other = decide (key = other))
    (taken : event.token? = none ∧ after.supply = trace.supply ∨
      event.token? = some ⟨trace.supply.next⟩ ∧ after.supply = trace.supply.advance)
    (origin : ∀ key version given artifact,
      event = .reused (.definition key version given) artifact →
      ∃ computed others,
        .computed (.definition key computed others) artifact ∈ eventsAt place trace.history ∧
        computed.isSame version = true ∧ others.parts = given.parts) :
    (trace.record place event after).Described := by
  refine described.record held (fun other => ?_) taken origin
  have before := described.used place other
  have there := held other
  rw [asked] at there ⊢
  rw [FullClassCache.isUsed_asked, there, Option.isSome_map, requested_cons, goesOn, asks, before]
  by_cases same : key = other
  · simp [same]
  · rw [others other same]
    cases (live? other (eventsAt place trace.history)).isSome <;> simp [same]

/-- A lookup of a class definition keeps the description. -/
theorem lookup_definition (described : trace.Described) (place : Nat) (key : ClassKey)
    (version : Version) (given : PartArtifacts)
    (compute : Unit → Except ε (Tracked (List Tree))) :
    (trace.extend place (.lookup (.definition key version given) compute)).Described := by
  let cache := (trace.caches place).classes.fullClasses
  obtain ⟨event, after, recorded, reached, done⟩ :=
    extend_lookup trace place (.definition key version given) compute
  have asked : after.classes.fullClasses =
      cache.asked key version given.parts compute trace.supply := by
    rw [← reached]
    simp only [Lookup.request, Caches.requestFullClass, Step.reached_onPart]
    rfl
  have answers := Lookup.served?_eq (.definition key version given) (trace.session place)
  change _ = (cache.valid? key version given.parts).map FullClassEntry.artifact at answers
  rw [recorded]
  cases valid : cache.valid? key version given.parts with
  | some entry =>
    rw [valid] at answers
    rw [answers] at done
    obtain ⟨rfl, supply⟩ := done
    refine described.record_asked asked (fun other => ?_) (fun _ _ => rfl) rfl (fun _ => rfl)
      (.inl ⟨rfl, supply⟩) ?_
    · rw [asked, FullClassCache.held?_asked_valid valid]
      exact described.held place other
    · intro other another parts artifact same
      cases same
      obtain ⟨computed, others, live, fits⟩ := described.live_of_served? answers
      exact ⟨computed, others, mem_of_live? live, fits⟩
  | none =>
    rw [valid] at answers
    rw [answers] at done
    cases outcome : compute () with
    | ok tracked =>
      rw [outcome] at done
      obtain ⟨rfl, supply⟩ := done
      have live : ∀ other, live? other (.computed (.definition key version given)
          (trace.supply.make tracked) :: eventsAt place trace.history) =
          if key = other then some (version, given, trace.supply.make tracked)
          else live? other (eventsAt place trace.history) := by
        intro other
        change (if key = other then some _ else none).or _ = _
        split <;> rfl
      refine described.record_asked asked (fun other => ?_) (fun other differ => ?_) rfl
        (fun _ => rfl) (.inr ⟨rfl, supply⟩) (fun _ _ _ _ same => by cases same)
      · rw [asked, FullClassCache.held?_asked_computed valid outcome, live]
        split
        · rfl
        · exact described.held place other
      · rw [live, if_neg differ]
    | error error =>
      rw [outcome] at done
      obtain ⟨rfl, supply⟩ := done
      refine described.record_asked asked (fun other => ?_) (fun _ _ => rfl) rfl (fun _ => rfl)
        (.inl ⟨rfl, supply⟩) (fun _ _ _ _ same => by cases same)
      rw [asked, FullClassCache.held?_asked_failed valid outcome]
      exact described.held place other

/-- Every use keeps the description. -/
theorem extend (described : trace.Described) (place : Nat) (use : Use ε) :
    (trace.extend place use).Described := by
  cases use with
  | lookup lookup compute =>
    cases lookup with
    | definition key version given =>
      exact described.lookup_definition place key version given compute
    | _ => exact described.lookup_other place rfl compute
  | openShell key version =>
    refine described.record_quiet ?_ rfl nofun (fun _ => ⟨rfl, rfl⟩) (.inl ⟨rfl, rfl⟩)
    change ((trace.caches place).classes.openShell key version).fullClasses = _
    unfold ClassCaches.openShell
    split <;> rfl
  | startRun =>
    refine described.record (fun key => ?_) (fun key => ?_) (.inl ⟨rfl, rfl⟩)
      (fun _ _ _ _ same => by cases same)
    · exact (FullClassCache.held?_startRun _ key).trans (described.held place key)
    · exact FullClassCache.isUsed_startRun _ key
  | endRun =>
    refine described.record (fun key => ?_) (fun key => ?_) (.inl ⟨rfl, rfl⟩)
      (fun _ _ _ _ same => by cases same)
    · refine (FullClassCache.held?_endRun _ key).trans ?_
      have held := described.held place key
      have used := described.used place key
      change (if (trace.caches place).classes.fullClasses.isUsed key = true then
        (trace.caches place).classes.fullClasses.held? key else none) = _
      rw [used, held, live?]
      cases requested key (eventsAt place trace.history) <;>
        cases live? key (eventsAt place trace.history) <;> rfl
    · refine (FullClassCache.isUsed_endRun _ key).trans ?_
      have used := described.used place key
      change (trace.caches place).classes.fullClasses.isUsed key = _
      rw [used, live?, requested_cons]
      cases requested key (eventsAt place trace.history) <;> rfl

end Described

/-- Whether all artifacts that are held or have been given were computed. -/
structure Sourced (trace : Trace ε) : Prop where
  held : ∀ place, (trace.caches place).Within (Computed trace.history)
  given : ∀ place lookup artifact, (place, .reused lookup artifact) ∈ trace.history →
    Computed trace.history artifact

namespace Sourced

variable {trace : Trace ε}

/-- Sessions without history are sourced. -/
theorem start : (⟨[], fun _ => default, default⟩ : Trace ε).Sourced where
  held _ := Caches.Within.start _
  given _ _ _ found := by cases found

/-- Each session has artifacts only that were computed. -/
theorem session (sourced : trace.Sourced) (place : Nat) :
    (trace.session place).Within (Computed trace.history) :=
  (sourced.held place).setSupply trace.supply

/-- An event leaves what was computed if the caches that it leaves do, and what it reuses was
computed before. -/
theorem record (sourced : trace.Sourced) {place : Nat} {event : Event ε} {after : Caches}
    (held : after.Within (Computed ((place, event) :: trace.history)))
    (given : ∀ lookup artifact, event = .reused lookup artifact →
      Computed trace.history artifact) : (trace.record place event after).Sourced where
  held other := by
    simp only [Trace.record]
    split
    · exact held
    · exact (sourced.held other).imp (fun _ computed => computed.cons _)
  given other lookup artifact found := by
    rcases List.mem_cons.1 found with same | earlier
    · cases same
      exact (given lookup artifact rfl).cons _
    · exact (sourced.given other lookup artifact earlier).cons _

/-- Every use leaves what was computed. -/
theorem extend (sourced : trace.Sourced) (place : Nat) (use : Use ε) :
    (trace.extend place use).Sourced := by
  have before := sourced.session place
  have kept : ∀ event : Event ε,
      (trace.session place).Within (Computed ((place, event) :: trace.history)) :=
    fun event => before.imp (fun _ computed => computed.cons _)
  cases use with
  | lookup lookup compute =>
    obtain ⟨event, after, recorded, reached, done⟩ := extend_lookup trace place lookup compute
    rw [recorded, ← reached]
    rw [lookup.served?_eq] at done
    refine sourced.record (Lookup.within (kept event) compute (fun missed tracked made => ?_))
      (fun other artifact same => ?_)
    · rw [missed, made] at done
      obtain ⟨rfl, -⟩ := done
      exact ⟨List.mem_cons_self⟩
    · subst same
      split at done
      · rename_i valid
        obtain ⟨same, -⟩ := done
        cases same
        exact before _ _ (Lookup.mem_of_valid? valid)
      · cases done.1
      · cases done.1
  | openShell key version => exact sourced.record ((kept _).openShell key version) nofun
  | startRun => exact sourced.record (kept _).startRun nofun
  | endRun => exact sourced.record (kept _).endRun nofun

end Sourced

/-- A history of class definitions that are reused for the same parts only. -/
structure ReusesSameParts (trace : Trace ε) : Prop where
  /-- A reused definition was computed before in the session: for the class, for a version that is
  the same, and from parts with the same tokens in the same order. -/
  reused : ∀ place key version given artifact later earlier,
    eventsAt place trace.history =
      later ++ .reused (.definition key version given) artifact :: earlier →
    ∃ computed others, .computed (.definition key computed others) artifact ∈ earlier ∧
      computed.isSame version = true ∧ others.parts = given.parts
  /-- A lookup needs no computation exactly if the live definition of the class has the version and
  the tokens of the parts, and then this is what it gives. -/
  served_iff : ∀ place key version given artifact,
    (Lookup.definition key version given).request.served? (trace.session place) = some artifact ↔
      ∃ computed others,
        live? key (eventsAt place trace.history) = some (computed, others, artifact) ∧
        computed.isSame version = true ∧ others.parts = given.parts
  /-- Every lookup does what serves it, whatever its computation, or else what its computation
  does. -/
  answers : ∀ place (lookup : Lookup), lookup.request.Answers Caches.supply (trace.session place)
    (lookup.request.served? (trace.session place))
  /-- A lookup of a definition whose computation fails leaves what serves the next ones. -/
  failed : ∀ place key version given (compute : Unit → Except ε (Tracked (List Tree))) error after,
    (Lookup.definition key version given).request ε compute (trace.session place) =
      .error error after →
    ∀ other another others, (Lookup.definition other another others).request.served? after =
      (Lookup.definition other another others).request.served? (trace.session place)
  /-- What a lookup gave without a computation was computed by some lookup. -/
  given : ∀ place lookup artifact, (place, .reused lookup artifact) ∈ trace.history →
    Computed trace.history artifact
  /-- No two computations took the same token, and the next one takes another. -/
  distinct : (⟨trace.supply.next⟩ :: tokens trace.history).Nodup
  /-- Computed parts with the same tokens are the same parts. -/
  identical : ∀ given others, PartsComputed trace.history given →
    PartsComputed trace.history others → given.parts = others.parts → given = others

/-- Sessions that are as their history tells, and have only what was computed, reuse class
definitions for the same parts only. -/
theorem Described.reusesSameParts {trace : Trace ε} (described : trace.Described)
    (sourced : trace.Sourced) : trace.ReusesSameParts where
  reused := described.origin
  served_iff place key version given artifact := by
    constructor
    · exact described.live_of_served?
    · rintro ⟨computed, others, live, same, parts⟩
      rw [described.served?_eq, live]
      simp [Option.filter, same, parts]
  answers place lookup := by
    rw [lookup.served?_eq]
    exact lookup.answers (trace.session place)
  failed _ _ _ _ _ _ _ ended other another others :=
    Lookup.served?_of_failed ended other another others
  given := sourced.given
  distinct := by
    refine List.nodup_cons.2 ⟨fun again => ?_, described.distinct⟩
    exact Nat.lt_irrefl _ (described.below _ again)
  identical _ _ one two same := one.eq_of_parts described.distinct two same

/-- However some sessions are used, they reuse class definitions for the same parts only. -/
theorem ofUses_reusesSameParts (uses : List (Nat × Use ε)) :
    (ofUses uses : Trace ε).ReusesSameParts := by
  have described : (ofUses uses).Described :=
    ofUses_of_extend Described.start (fun _ place use described => described.extend place use) uses
  have sourced : (ofUses uses).Sourced :=
    ofUses_of_extend Sourced.start (fun _ place use sourced => sourced.extend place use) uses
  exact described.reusesSameParts sourced

end Trace

end Sessions

end JsEmitter
