import JsEmitter.Proofs.KeyedHistory

/-!
# Failed lookups

A lookup puts the entry of its key into the cache before its computation begins. If the computation
fails, everything that was stored is still there, and no later lookup is answered in another way.
But a key without an entry has one from then on, which has neither version nor artifact and counts
like any other: `KeyedCache.Trace.unchanged_failed_iff`.
-/
namespace JsEmitter

/-! ## Entries of a table -/

namespace Table

variable {κ α : Type} [DecidableEq κ] {table : Table κ α} {key : κ}

/-- A table has a key after a value was put if it is that key or was there. -/
theorem contains_put (value : α) (other : κ) :
    (table.put key value).contains other = (decide (other = key) || table.contains other) := by
  rw [contains_eq_isSome, contains_eq_isSome]
  by_cases same : other = key
  · subst same
    simp
  · simp [get?_put_of_ne _ _ same, same]

/-- Putting a value for a known key keeps the size. -/
theorem size_put_of_contains (there : table.contains key = true) (value : α) :
    (table.put key value).size = table.size := by
  have found : key ∈ table.keys := List.contains_iff_mem.1 there
  simp only [size, put, dif_pos found, List.length_map]

/-- Putting a value for a new key adds one entry. -/
theorem size_put_of_absent (absent : table.contains key = false) (value : α) :
    (table.put key value).size = table.size + 1 := by
  have missing : key ∉ table.keys := fun found => by
    rw [contains, List.contains_iff_mem.2 found] at absent
    cases absent
  simp only [size, put, dif_neg missing, List.length_append, List.length_singleton]

omit [DecidableEq κ] in
/-- A table is empty if its size is zero. -/
theorem isEmpty_eq (table : Table κ α) : table.isEmpty = decide (table.size = 0) := by
  rcases table with ⟨_ | _, distinct⟩ <;> rfl

end Table

namespace KeyedCache

variable {ε κ α : Type} [DecidableEq κ]

/-! ## What a failed lookup leaves -/

/-- Whether a cache has all that another one stored, and gives the same without a computation. Only
the entry of one key may count as used in addition. -/
structure KeepsStored (before : KeyedCache κ α) (key : κ) (after : KeyedCache κ α) : Prop where
  counters : after.counters = before.counters
  entries : ∀ other entry, before.table.get? other = some entry →
    after.table.get? other = some { entry with used := decide (other = key) || entry.used }
  answers : ∀ other version, after.peek? other version = before.peek? other version

/-- Whether a cache also has the same keys as another one. -/
structure Unchanged (before : KeyedCache κ α) (key : κ) (after : KeyedCache κ α) : Prop
    extends KeepsStored before key after where
  contains : ∀ other, after.contains other = before.contains other
  size : after.size = before.size
  isEmpty : after.isEmpty = before.isEmpty

/-- Whether a cache has, besides what another one has, an entry that stores nothing. -/
structure GainsBlank (before : KeyedCache κ α) (key : κ) (after : KeyedCache κ α) : Prop where
  blank : after.table.get? key = some { (CacheEntry.fresh : CacheEntry α) with used := true }
  contains : ∀ other, after.contains other = (decide (other = key) || before.contains other)
  size : after.size = before.size + 1

section Marked

variable (cache : KeyedCache κ α) (key : κ)

/-- The cache in which a key has an entry that counts as used. -/
def marked : KeyedCache κ α :=
  { cache with table := cache.table.put key { cache.entry key with used := true } }

variable {cache key}

/-- Marking an entry as used keeps what is stored. -/
theorem marked_keepsStored : cache.KeepsStored key (cache.marked key) where
  counters := rfl
  entries other entry found := by
    by_cases same : other = key
    · subst same
      simp [marked, KeyedCache.entry, found]
    · simp [marked, Table.get?_put_of_ne _ _ same, found, same]
  answers other version := by
    simp only [peek?_eq]
    rw [marked, held?_markUsed]

/-- Marking an entry that is there changes nothing else. -/
theorem marked_unchanged (there : cache.contains key = true) :
    cache.Unchanged key (cache.marked key) where
  toKeepsStored := marked_keepsStored
  contains other := by
    rw [KeyedCache.contains, marked, Table.contains_put]
    by_cases same : other = key
    · subst same
      simp [there]
    · simp [same, KeyedCache.contains]
  size := Table.size_put_of_contains there _
  isEmpty := by
    simp only [KeyedCache.isEmpty, marked, Table.isEmpty_eq, Table.size_put_of_contains there]

/-- Marking an entry that is not there adds a blank one. -/
theorem marked_gainsBlank (absent : cache.contains key = false) :
    cache.GainsBlank key (cache.marked key) where
  blank := by
    have nothing : cache.table.get? key = none := by
      rw [KeyedCache.contains, Table.contains_eq_isSome] at absent
      exact Option.isSome_eq_false_iff.1 absent |> Option.isNone_iff_eq_none.1
    rw [marked, Table.get?_put_self, KeyedCache.entry, nothing]
    rfl
  contains _ := Table.contains_put _ _
  size := Table.size_put_of_absent absent _

/-- A lookup whose computation fails leaves the cache as it was, up to the mark. -/
theorem request_failed_eq {version : Version} (missed : cache.peek? key version = none)
    {compute : Unit → Except ε (Tracked α)} {error : ε} (failed : compute () = .error error)
    (supply : TokenSupply) :
    request key version compute (cache, supply) = .error error (cache.marked key, supply) := by
  rw [peek?_eq_valid] at missed
  simp only [request, Step.onPart, CacheEntry.request, missed, failed]
  rfl

end Marked

/-! ## Which keys a cache has -/

/-- Whether a key was looked up, successfully or not, and was not dropped since. -/
def known (key : κ) : List (Event ε κ α) → Bool
  | [] => false
  | .ended :: earlier => requested key earlier
  | event :: earlier => event.looksUp key || known key earlier

/-- The start of a run keeps the keys of a cache. -/
theorem contains_startRun (cache : KeyedCache κ α) (key : κ) :
    cache.startRun.contains key = cache.contains key := by
  simp [KeyedCache.contains, Table.contains_eq_isSome, startRun, Table.get?_mapValues]

/-- The end of a run leaves the used keys. -/
theorem contains_endRun (cache : KeyedCache κ α) (key : κ) :
    cache.endRun.contains key = cache.isUsed key := by
  simp only [KeyedCache.contains, Table.contains_eq_isSome, endRun, Table.get?_filterValues, isUsed,
    KeyedCache.entry]
  cases cache.table.get? key with
  | none => rfl
  | some entry => cases used : entry.used <;> simp [Option.filter, used]

/-- A lookup, whatever comes of it, puts an entry for its key. -/
theorem request_puts (cache : KeyedCache κ α) (key : κ) (version : Version)
    (compute : Unit → Except ε (Tracked α)) (supply : TokenSupply) :
    ∃ entry counters left,
      (∃ artifact, request key version compute (cache, supply) =
        .ok artifact (⟨cache.table.put key entry, counters⟩, left)) ∨
      ∃ error, request key version compute (cache, supply) =
        .error error (⟨cache.table.put key entry, counters⟩, left) := by
  unfold request Step.onPart
  split
  · exact ⟨_, _, _, .inl ⟨_, rfl⟩⟩
  · exact ⟨_, _, _, .inr ⟨_, rfl⟩⟩

namespace Trace

variable {trace : Trace ε κ α}

/-- A lookup adds its key to those that are known. -/
theorem contains_lookup (there : ∀ key, trace.cache.contains key = known key trace.history)
    (key : κ) (version : Version) (compute : Unit → Except ε (Tracked α)) (supply : TokenSupply)
    (other : κ) :
    (trace.extend (.lookup key version compute supply)).cache.contains other =
      known other (trace.extend (.lookup key version compute supply)).history := by
  have turned : decide (other = key) = decide (key = other) := by simp [eq_comm]
  have gains : ∀ (entry : CacheEntry α) counters,
      (⟨trace.cache.table.put key entry, counters⟩ : KeyedCache κ α).contains other =
        (decide (key = other) || known other trace.history) := fun entry _ => by
    rw [← there, ← turned]
    exact Table.contains_put entry other
  obtain ⟨entry, counters, left, ⟨artifact, done⟩ | ⟨error, done⟩⟩ :=
    request_puts trace.cache key version compute supply
  · simp only [extend, done]
    split <;> exact gains entry counters
  · simp only [extend, done]
    exact gains entry counters

/-- The keys of a cache stay those that its history tells. -/
theorem contains_extend (described : trace.Described)
    (there : ∀ key, trace.cache.contains key = known key trace.history) (use : Use ε κ α)
    (key : κ) : (trace.extend use).cache.contains key = known key (trace.extend use).history := by
  cases use with
  | lookup other version compute supply =>
    exact contains_lookup there other version compute supply key
  | startRun => exact (contains_startRun _ key).trans (there key)
  | endRun => exact (contains_endRun _ key).trans (described.used key)

/-- A cache has an entry for the keys that were looked up and not dropped since, also for those
whose computation failed. -/
theorem contains_ofUses (uses : List (Use ε κ α)) (key : κ) :
    (ofUses uses).cache.contains key = known key (ofUses uses).history := by
  suffices kept : ∀ trace : Trace ε κ α, trace.Described →
      (∀ key, trace.cache.contains key = known key trace.history) →
      ∀ key, (uses.foldl extend trace).cache.contains key =
        known key (uses.foldl extend trace).history from
    kept _ described_nil (fun _ => rfl) key
  induction uses with
  | nil => exact fun _ _ there => there
  | cons use rest ih =>
    exact fun trace described there =>
      ih _ (described.extend use) (contains_extend described there use)

/-- Whatever the uses of a new keyed cache, a lookup whose computation fails keeps all that is
stored, counts nothing, and changes no later answer. It leaves the cache as it was exactly if the
key was looked up before and not dropped since; otherwise the key gains an entry that stores
nothing. -/
theorem unchanged_failed_iff (uses : List (Use ε κ α)) {key : κ} {version : Version}
    {compute : Unit → Except ε (Tracked α)} {error : ε}
    (missed : (ofUses uses).cache.peek? key version = none) (failed : compute () = .error error)
    (supply : TokenSupply) :
    ∃ reached, request key version compute ((ofUses uses).cache, supply) =
        .error error (reached, supply) ∧
      (ofUses uses).cache.KeepsStored key reached ∧
      ((ofUses uses).cache.Unchanged key reached ↔ known key (ofUses uses).history = true) ∧
      (known key (ofUses uses).history = false → (ofUses uses).cache.GainsBlank key reached) := by
  rw [← contains_ofUses]
  refine ⟨_, request_failed_eq missed failed supply, marked_keepsStored,
    ⟨fun unchanged => ?_, marked_unchanged⟩, marked_gainsBlank⟩
  rw [← unchanged.contains key, KeyedCache.contains, marked, Table.contains_put]
  simp

/-- The computation for a second version fails, and the artifact of the first one stays. -/
theorem unchanged_failed_stale :
    let cache := (ofUses [.lookup "first" (.ofInt 1) (fun _ => .ok (.untracked true)) default] :
      Trace String String Bool).cache
    ∃ reached, request "first" (.ofInt 2) (fun _ => .error "stopped") (cache, ⟨2⟩) =
        .error "stopped" (reached, ⟨2⟩) ∧
      cache.Unchanged "first" reached ∧
      (reached.peek? "first" (.ofInt 1)).map Artifact.value = some true := by
  intro cache
  have missed : cache.peek? "first" (.ofInt 2) = none := by decide +kernel
  let compute : Unit → Except String (Tracked Bool) := fun _ => .error "stopped"
  have failed : compute () = .error "stopped" := rfl
  obtain ⟨reached, done, stored, unchanged, -⟩ :=
    unchanged_failed_iff [.lookup "first" (.ofInt 1) (fun _ => .ok (.untracked true)) default]
      missed failed ⟨2⟩
  refine ⟨reached, done, unchanged.2 (by decide +kernel), ?_⟩
  rw [stored.answers]
  decide +kernel

/-- A lookup of a key that a new cache has not seen fails. The cache has an entry from then on,
which stays until the end of the next run. -/
theorem changed_failed_new :
    ∃ reached : KeyedCache String Bool,
      request "first" (.ofInt 1) (fun _ => .error "stopped") (.empty, default) =
        .error "stopped" (reached, default) ∧
      ¬KeyedCache.empty.Unchanged "first" reached ∧
      reached.contains "first" = true ∧ reached.size = 1 ∧ reached.isEmpty = false ∧
      reached.endRun.startRun.size = 1 ∧ reached.endRun.startRun.endRun.size = 0 := by
  refine ⟨KeyedCache.empty.marked "first", rfl, fun unchanged => ?_, rfl, rfl, rfl, rfl, rfl⟩
  exact absurd unchanged.size (by decide)

end Trace

end KeyedCache

end JsEmitter
