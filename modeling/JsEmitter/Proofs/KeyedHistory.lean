import JsEmitter.Proofs.Visits

/-!
# Histories of keyed caches

A history lists what the uses of a keyed cache turned out to be, the latest first. It says which
computation of a key is the latest, whether the key was evicted since, and which keys were looked
up during the run. A cache holds for every key exactly what its history says, so it is a map from
keys to versioned artifacts from which a run drops what it did not ask for.
-/
namespace JsEmitter.KeyedCache

/-- One use of a keyed cache. -/
inductive Use (ε κ α : Type) where
  /-- A lookup with its computation, and with the tokens that are left when it happens. -/
  | lookup (key : κ) (version : Version) (compute : Unit → Except ε (Tracked α))
    (supply : TokenSupply)
  | startRun
  | endRun

/-- What a use turned out to be. -/
inductive Event (ε κ α : Type) where
  /-- A lookup that gave its artifact without a computation. -/
  | hit (key : κ) (version : Version) (artifact : Artifact α)
  /-- A lookup that computed its artifact. -/
  | computed (key : κ) (version : Version) (artifact : Artifact α)
  /-- A lookup whose computation failed. -/
  | failed (key : κ) (version : Version) (error : ε)
  | started
  | ended

variable {ε κ α : Type}

namespace Event

/-- Whether a lookup was a hit. -/
def isHit : Event ε κ α → Bool
  | hit .. => true
  | _ => false

/-- Whether a lookup computed an artifact. -/
def isComputed : Event ε κ α → Bool
  | computed .. => true
  | _ => false

/-- Whether a run began. -/
def isStart : Event ε κ α → Bool
  | started => true
  | _ => false

/-- Whether a key was looked up, successfully or not. -/
def looksUp [DecidableEq κ] (key : κ) : Event ε κ α → Bool
  | hit other _ _ | computed other _ _ | failed other _ _ => other = key
  | started | ended => false

/-- The version and the artifact of a computation for a key. -/
def computation? [DecidableEq κ] (key : κ) : Event ε κ α → Option (Version × Artifact α)
  | computed other version artifact => if other = key then some (version, artifact) else none
  | _ => none

end Event

/-! ## What a history says -/

/-- What happened since a run began the last time. -/
def sinceStart (history : List (Event ε κ α)) : List (Event ε κ α) :=
  history.takeWhile (fun event => !event.isStart)

/-- An event that starts no run is one of the current run. -/
theorem sinceStart_cons {event : Event ε κ α} (goesOn : event.isStart = false)
    (history : List (Event ε κ α)) :
    sinceStart (event :: history) = event :: sinceStart history := by
  simp [sinceStart, goesOn]

/-- The hits and the successful computations since a run began the last time. -/
def counted (history : List (Event ε κ α)) : CacheCounters :=
  ⟨(sinceStart history).countP Event.isHit, (sinceStart history).countP Event.isComputed⟩

/-- An event within a run counts as what it is. -/
theorem counted_cons {event : Event ε κ α} (goesOn : event.isStart = false)
    (history : List (Event ε κ α)) :
    counted (event :: history) =
      ⟨(counted history).reused + if event.isHit = true then 1 else 0,
        (counted history).invalidated + if event.isComputed = true then 1 else 0⟩ := by
  simp only [counted, sinceStart_cons goesOn, List.countP_cons]

variable [DecidableEq κ]

/-- Whether a key was looked up since a run began the last time. -/
def requested (key : κ) (history : List (Event ε κ α)) : Bool :=
  (sinceStart history).any (Event.looksUp key)

/-- A key has been looked up in a run if the latest event did so, or an earlier one of this run. -/
@[simp] theorem requested_cons (key : κ) (event : Event ε κ α) (history : List (Event ε κ α)) :
    requested key (event :: history) =
      (!event.isStart && (event.looksUp key || requested key history)) := by
  cases event <;> rfl

/-- Whether a lookup of a key succeeded and the key was not evicted since. A key is evicted when a
run ends in which it was not looked up. -/
def unevicted (key : κ) : List (Event ε κ α) → Bool
  | [] => false
  | .hit other _ _ :: earlier => other = key || unevicted key earlier
  | .computed other _ _ :: earlier => other = key || unevicted key earlier
  | .failed _ _ _ :: earlier => unevicted key earlier
  | .started :: earlier => unevicted key earlier
  | .ended :: earlier => requested key earlier && unevicted key earlier

/-- The latest successful computation for a key. -/
def latest? (key : κ) (history : List (Event ε κ α)) : Option (Version × Artifact α) :=
  history.findSome? (Event.computation? key)

/-- The latest computation of a key is that of the latest event, or an earlier one. -/
@[simp] theorem latest?_cons (key : κ) (event : Event ε κ α) (history : List (Event ε κ α)) :
    latest? key (event :: history) = (event.computation? key).or (latest? key history) := by
  simp only [latest?, List.findSome?_cons]
  cases event.computation? key <;> rfl

/-! ## What a cache holds -/

/-- The artifact of a key with the version it was computed for. -/
def held? (cache : KeyedCache κ α) (key : κ) : Option (Version × Artifact α) :=
  (cache.entry key).artifact?.map (fun artifact => ((cache.entry key).version, artifact))

/-- The artifact that a lookup gives without a computation: what it gives when the computation
fails. -/
def peek? (cache : KeyedCache κ α) (key : κ) (version : Version) : Option (Artifact α) :=
  match request key version (fun _ => (.error () : Except Unit (Tracked α))) (cache, default) with
  | .ok artifact _ => some artifact
  | .error _ _ => none

section Held

variable (cache : KeyedCache κ α) (key : κ) (version : Version)

/-- Peeking at a key asks whether its entry is valid. -/
theorem peek?_eq_valid : cache.peek? key version = (cache.entry key).valid? version := by
  unfold peek?
  rw [request_eq]
  unfold Visit.entry
  cases (cache.entry key).valid? version <;> rfl

/-- A lookup needs no computation exactly when what is held has its version. -/
theorem peek?_eq : cache.peek? key version =
    ((cache.held? key).filter (fun held => held.1.isSame version)).map Prod.snd := by
  rw [peek?_eq_valid]
  unfold held? CacheEntry.valid?
  cases (cache.entry key).artifact? with
  | none => simp
  | some artifact =>
    simp only [Option.map_some, Option.filter]
    split <;> rfl

/-- Peeking finds something if the held version is the same. -/
theorem peek?_isSome_iff : (cache.peek? key version).isSome = true ↔
    ∃ computed artifact, cache.held? key = some (computed, artifact) ∧
      computed.isSame version = true := by
  simp only [peek?_eq, Option.isSome_map, Option.isSome_filter, Option.any_eq_true, Prod.exists]

/-- Whether a key counts as used. -/
def isUsed : Bool := (cache.entry key).used

/-- The entry that was put for a key is found there. -/
theorem entry_put_self (entry : CacheEntry α) (counters : CacheCounters) :
    (⟨cache.table.put key entry, counters⟩ : KeyedCache κ α).entry key = entry := by
  simp [KeyedCache.entry]

/-- Putting an entry leaves those of other keys. -/
theorem entry_put_of_ne {other : κ} (differ : other ≠ key) (entry : CacheEntry α)
    (counters : CacheCounters) :
    (⟨cache.table.put key entry, counters⟩ : KeyedCache κ α).entry other = cache.entry other := by
  simp [KeyedCache.entry, Table.get?_put_of_ne _ _ differ]

/-- The start of a run forgets which entries were used. -/
theorem entry_startRun : cache.startRun.entry key = (cache.entry key).resetUsed := by
  simp only [KeyedCache.entry, startRun, Table.get?_mapValues]
  cases cache.table.get? key <;> rfl

/-- The end of a run drops the entries that were not used. -/
theorem entry_endRun : cache.endRun.entry key =
    if cache.isUsed key = true then cache.entry key else .fresh := by
  have filtered : ∀ found : Option (CacheEntry α), (found.filter CacheEntry.used).getD .fresh =
      if (found.getD .fresh).used = true then found.getD .fresh else .fresh := by
    rintro (- | ⟨version, artifact?, - | -⟩) <;> rfl
  rw [KeyedCache.entry, endRun, Table.get?_filterValues, filtered]
  rfl

/-- The end of a run leaves which entries count as used. -/
@[simp] theorem isUsed_endRun : cache.endRun.isUsed key = cache.isUsed key := by
  rw [isUsed, entry_endRun]
  split
  · rfl
  · rename_i unused
    exact (Bool.eq_false_iff.2 unused).symm

/-- The start of a run keeps what is held. -/
@[simp] theorem held?_startRun : cache.startRun.held? key = cache.held? key := by
  simp only [held?, entry_startRun]
  rfl

/-- The end of a run keeps what is held under a key that was used. -/
@[simp] theorem held?_endRun : cache.endRun.held? key =
    if cache.isUsed key = true then cache.held? key else none := by
  simp only [held?, entry_endRun]
  split <;> rfl

end Held

/-! ## What a lookup does -/

/-- What a lookup leaves: its key is used, the other keys are as they were. -/
structure Asked (before : KeyedCache κ α) (key : κ) (after : KeyedCache κ α) : Prop where
  used : after.isUsed key = true
  others : ∀ other, other ≠ key → after.entry other = before.entry other

namespace Asked

variable {before after : KeyedCache κ α} {key : κ}

/-- Putting a used entry is what asking for a key does. -/
theorem of_put {entry : CacheEntry α} (used : entry.used = true) (counters : CacheCounters) :
    before.Asked key ⟨before.table.put key entry, counters⟩ where
  used := by rw [isUsed, entry_put_self, used]
  others other differ := entry_put_of_ne _ _ differ _ _

/-- Asking for a key leaves what is held under others. -/
theorem held?_of_ne (asked : before.Asked key after) {other : κ} (differ : other ≠ key) :
    after.held? other = before.held? other := by
  simp only [held?, asked.others other differ]

/-- Asking for a key adds it to those that were used. -/
theorem isUsed_eq (asked : before.Asked key after) (other : κ) :
    after.isUsed other = (decide (key = other) || before.isUsed other) := by
  by_cases same : key = other
  · subst same
    simp [asked.used]
  · have differ : other ≠ key := fun equal => same equal.symm
    simp [isUsed, asked.others other differ, same]

end Asked

section Lookups

variable {cache : KeyedCache κ α} {key : κ} {version : Version} {artifact : Artifact α}

/-- Marking an entry as used keeps what is held. -/
theorem held?_markUsed (counters : CacheCounters) (other : κ) :
    (⟨cache.table.put key { cache.entry key with used := true }, counters⟩ :
      KeyedCache κ α).held? other = cache.held? other := by
  by_cases same : other = key
  · subst same
    simp only [held?, entry_put_self]
  · simp only [held?, entry_put_of_ne _ _ same]

/-- A hit gives the artifact that is there, whatever the computation. -/
theorem request_hit (found : cache.peek? key version = some artifact)
    (compute : Unit → Except ε (Tracked α)) (supply : TokenSupply) :
    ∃ reached : KeyedCache κ α,
      request key version compute (cache, supply) = .ok artifact (reached, supply) ∧
      cache.Asked key reached ∧ (∀ other, reached.held? other = cache.held? other) ∧
      reached.counters = cache.counters.countReused := by
  rw [peek?_eq_valid] at found
  refine ⟨_, ?_, .of_put rfl cache.counters.countReused, held?_markUsed _, rfl⟩
  simp only [request, Step.onPart, CacheEntry.request, found]
  rfl

/-- A miss whose computation succeeds puts the result in the place of what was held. -/
theorem request_computed (missed : cache.peek? key version = none)
    {compute : Unit → Except ε (Tracked α)} {tracked : Tracked α}
    (done : compute () = .ok tracked) (supply : TokenSupply) :
    ∃ reached : KeyedCache κ α,
      request key version compute (cache, supply) =
        .ok (supply.make tracked) (reached, supply.advance) ∧
      cache.Asked key reached ∧ reached.held? key = some (version, supply.make tracked) ∧
      reached.counters = cache.counters.countInvalidated := by
  rw [peek?_eq_valid] at missed
  let entry : CacheEntry α := ⟨version, some (supply.make tracked), true⟩
  have used : entry.used = true := rfl
  refine ⟨_, ?_, .of_put used cache.counters.countInvalidated, ?_, rfl⟩
  · simp only [request, Step.onPart, CacheEntry.request, missed, done]
    rfl
  · simp [held?, entry_put_self, entry]

/-- A miss whose computation fails leaves what was held. -/
theorem request_failed (missed : cache.peek? key version = none)
    {compute : Unit → Except ε (Tracked α)} {error : ε} (failed : compute () = .error error)
    (supply : TokenSupply) :
    ∃ reached : KeyedCache κ α,
      request key version compute (cache, supply) = .error error (reached, supply) ∧
      cache.Asked key reached ∧ (∀ other, reached.held? other = cache.held? other) ∧
      reached.counters = cache.counters := by
  rw [peek?_eq_valid] at missed
  refine ⟨_, ?_, .of_put rfl cache.counters, held?_markUsed _, rfl⟩
  simp only [request, Step.onPart, CacheEntry.request, missed, failed]
  rfl

end Lookups

/-! ## The cache and its history -/

/-- A keyed cache with its history. -/
structure Trace (ε κ α : Type) where
  history : List (Event ε κ α)
  cache : KeyedCache κ α

namespace Trace

/-- The trace after one more use. -/
def extend (trace : Trace ε κ α) : Use ε κ α → Trace ε κ α
  | .lookup key version compute supply =>
    match request key version compute (trace.cache, supply) with
    | .ok artifact (reached, _) =>
      if (trace.cache.peek? key version).isSome then
        ⟨.hit key version artifact :: trace.history, reached⟩
      else
        ⟨.computed key version artifact :: trace.history, reached⟩
    | .error error (reached, _) => ⟨.failed key version error :: trace.history, reached⟩
  | .startRun => ⟨.started :: trace.history, trace.cache.startRun⟩
  | .endRun => ⟨.ended :: trace.history, trace.cache.endRun⟩

/-- The trace of a list of uses of a new cache. -/
def ofUses (uses : List (Use ε κ α)) : Trace ε κ α := uses.foldl extend ⟨[], .empty⟩

end Trace

/-- Whether a cache is as its history tells. -/
structure Trace.Described (trace : Trace ε κ α) : Prop where
  /-- What is held for a key is its latest computation, unless the key was evicted since. -/
  held : ∀ key, trace.cache.held? key =
    if unevicted key trace.history = true then latest? key trace.history else none
  /-- The used keys are those that were looked up since the run began. -/
  used : ∀ key, trace.cache.isUsed key = requested key trace.history
  /-- The counters are the numbers of hits and of successful computations since the run began. -/
  counters : trace.cache.counters = counted trace.history

namespace Trace

variable {trace : Trace ε κ α}

/-- A cache without history is described. -/
theorem described_nil : (⟨[], .empty⟩ : Trace ε κ α).Described where
  held _ := rfl
  used _ := rfl
  counters := rfl

namespace Described

/-- A lookup keeps the description. -/
theorem lookup (described : trace.Described) (key : κ) (version : Version)
    (compute : Unit → Except ε (Tracked α)) (supply : TokenSupply) :
    (trace.extend (.lookup key version compute supply)).Described := by
  cases found : trace.cache.peek? key version with
  | some artifact =>
    obtain ⟨reached, done, asked, held, counters⟩ := request_hit found compute supply
    simp only [extend, done, found, Option.isSome_some, if_true]
    refine ⟨fun other => ?_, fun other => ?_, ?_⟩
    · -- A key with a hit holds something, so it was not evicted before.
      rw [held, described.held]
      by_cases same : key = other
      · subst same
        have there : unevicted key trace.history = true := by
          by_contra evicted
          have nothing : trace.cache.held? key = none := by rw [described.held, if_neg evicted]
          rw [peek?_eq, nothing] at found
          cases found
        simp [unevicted, there, Event.computation?]
      · simp [unevicted, same, Event.computation?]
    · rw [asked.isUsed_eq, described.used]
      simp [Event.isStart, Event.looksUp]
    · rw [counters, described.counters, counted_cons rfl]
      rfl
  | none =>
    cases outcome : compute () with
    | ok tracked =>
      obtain ⟨reached, done, asked, held, counters⟩ := request_computed found outcome supply
      simp only [extend, done, found, Option.isSome_none, Bool.false_eq_true, if_false]
      refine ⟨fun other => ?_, fun other => ?_, ?_⟩
      · by_cases same : key = other
        · subst same
          simp [held, unevicted, Event.computation?]
        · have differ : other ≠ key := fun equal => same equal.symm
          rw [asked.held?_of_ne differ, described.held]
          simp [unevicted, same, Event.computation?]
      · rw [asked.isUsed_eq, described.used]
        simp [Event.isStart, Event.looksUp]
      · rw [counters, described.counters, counted_cons rfl]
        rfl
    | error error =>
      obtain ⟨reached, done, asked, held, counters⟩ := request_failed found outcome supply
      simp only [extend, done]
      refine ⟨fun other => ?_, fun other => ?_, ?_⟩
      · rw [held, described.held]
        simp [unevicted, Event.computation?]
      · rw [asked.isUsed_eq, described.used]
        simp [Event.isStart, Event.looksUp]
      · rw [counters, described.counters, counted_cons rfl]
        rfl

/-- The start of a run keeps the description. -/
theorem startRun (described : trace.Described) :
    (trace.extend .startRun : Trace ε κ α).Described where
  held key := by
    simp [extend, described.held, unevicted, Event.computation?]
  used key := by
    simp only [extend, isUsed, entry_startRun, requested_cons, Event.isStart]
    rfl
  counters := rfl

/-- The end of a run keeps the description. -/
theorem endRun (described : trace.Described) :
    (trace.extend .endRun : Trace ε κ α).Described where
  held key := by
    simp only [extend, held?_endRun, described.held, described.used, unevicted, latest?_cons,
      Event.computation?, Option.none_or]
    cases requested key trace.history <;> rfl
  used key := by
    simp [extend, described.used, Event.isStart, Event.looksUp]
  counters := by
    rw [extend, counted_cons rfl]
    exact described.counters

/-- Every use keeps the description. -/
theorem extend (described : trace.Described) (use : Use ε κ α) : (trace.extend use).Described := by
  cases use with
  | lookup key version compute supply => exact described.lookup key version compute supply
  | startRun => exact described.startRun
  | endRun => exact described.endRun

/-- Uses one after the other keep a cache described. -/
theorem foldl (described : trace.Described) (uses : List (Use ε κ α)) :
    (uses.foldl Trace.extend trace).Described := by
  induction uses generalizing trace with
  | nil => exact described
  | cons use rest ih => exact ih (described.extend use)

end Described

/-- A keyed cache as a versioned map, told from its history. -/
structure IsVersionedMap (trace : Trace ε κ α) : Prop extends Described trace where
  /-- A lookup is a hit exactly if an earlier one succeeded, the key was not evicted since, and
  the latest successful computation was for the same version. -/
  hit_iff : ∀ key version, (trace.cache.peek? key version).isSome = true ↔
    unevicted key trace.history = true ∧
    ∃ computed artifact, latest? key trace.history = some (computed, artifact) ∧
      computed.isSame version = true
  /-- A hit gives the artifact of the latest computation, does the same whatever its own
  computation, and changes nothing that is held. -/
  hit : ∀ key version artifact, trace.cache.peek? key version = some artifact →
    (∃ computed, latest? key trace.history = some (computed, artifact)) ∧
    ∀ (compute : Unit → Except ε (Tracked α)) (supply : TokenSupply),
      ∃ reached : KeyedCache κ α,
        request key version compute (trace.cache, supply) = .ok artifact (reached, supply) ∧
        ∀ other, reached.held? other = trace.cache.held? other
  /-- A miss does what its computation does: a success takes the place of what was held, a
  failure leaves it. -/
  miss : ∀ key version, trace.cache.peek? key version = none →
    ∀ (compute : Unit → Except ε (Tracked α)) (supply : TokenSupply),
      match compute () with
      | .ok tracked => ∃ reached : KeyedCache κ α,
          request key version compute (trace.cache, supply) =
            .ok (supply.make tracked) (reached, supply.advance) ∧
          reached.held? key = some (version, supply.make tracked) ∧
          ∀ other, other ≠ key → reached.held? other = trace.cache.held? other
      | .error error => ∃ reached : KeyedCache κ α,
          request key version compute (trace.cache, supply) = .error error (reached, supply) ∧
          ∀ other, reached.held? other = trace.cache.held? other
  /-- The end of a run drops exactly what was not looked up since the run began. -/
  endRun : ∀ key, trace.cache.endRun.held? key =
    if requested key trace.history = true then trace.cache.held? key else none
  /-- The start of a run keeps everything. -/
  startRun : ∀ key, trace.cache.startRun.held? key = trace.cache.held? key
  /-- A lookup without a version is never a hit. -/
  unversioned : ∀ key version, version.isVersioned = false →
    trace.cache.peek? key version = none
  /-- A lookup of what was computed without a version is never a hit. -/
  computed_unversioned : ∀ key computed artifact,
    latest? key trace.history = some (computed, artifact) → computed.isVersioned = false →
    ∀ version, trace.cache.peek? key version = none

/-- What a history describes is a versioned map. -/
theorem Described.isVersionedMap (described : trace.Described) : trace.IsVersionedMap := by
  have hit_iff : ∀ key version, (trace.cache.peek? key version).isSome = true ↔
      unevicted key trace.history = true ∧
      ∃ computed artifact, latest? key trace.history = some (computed, artifact) ∧
        computed.isSame version = true := by
    intro key version
    rw [peek?_isSome_iff, described.held]
    by_cases kept : unevicted key trace.history = true
    · simp [kept]
    · simp [kept]
  refine ⟨described, hit_iff, fun key version artifact found => ⟨?_, fun compute supply => ?_⟩,
    fun key version missed compute supply => ?_, fun key => ?_, held?_startRun trace.cache,
    fun key version lacks => ?_, fun key computed artifact latest lacks version => ?_⟩
  · have held := found
    rw [peek?_eq, described.held] at held
    split at held
    · obtain ⟨⟨computed, other⟩, latest, same⟩ := Option.map_eq_some_iff.1 held
      cases same
      exact ⟨computed, (Option.filter_eq_some_iff.1 latest).1⟩
    · cases held
  · obtain ⟨reached, done, -, held, -⟩ := request_hit found compute supply
    exact ⟨reached, done, held⟩
  · split
    · rename_i tracked outcome
      obtain ⟨reached, done, asked, held, -⟩ := request_computed missed outcome supply
      exact ⟨reached, done, held, fun other => asked.held?_of_ne⟩
    · rename_i error outcome
      obtain ⟨reached, done, -, held, -⟩ := request_failed missed outcome supply
      exact ⟨reached, done, held⟩
  · rw [held?_endRun, described.used]
  · rw [← Option.not_isSome_iff_eq_none, hit_iff]
    rintro ⟨-, computed, artifact, -, same⟩
    obtain ⟨token, -, found⟩ := Version.isSame_iff.1 same
    simp [Version.isVersioned, found] at lacks
  · rw [← Option.not_isSome_iff_eq_none, hit_iff]
    rintro ⟨-, other, another, found, same⟩
    obtain ⟨token, versioned, -⟩ := Version.isSame_iff.1 same
    rw [latest] at found
    cases found
    simp [Version.isVersioned, versioned] at lacks

/-- Whatever the uses of a new keyed cache, it is the versioned map that its history tells. -/
theorem ofUses_isVersionedMap (uses : List (Use ε κ α)) :
    (ofUses uses : Trace ε κ α).IsVersionedMap :=
  (described_nil.foldl uses).isVersionedMap

end Trace

end JsEmitter.KeyedCache
