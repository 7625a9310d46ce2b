import JsEmitter.HostRefs

/-!
# Artifacts

An artifact is the result of one computation. It carries a token that no other computation has,
so two artifacts with equal tokens are one and the same result. Tokens come from a supply that
is part of the state. A computation that fails keeps the state that it has reached.
-/
namespace JsEmitter

/-- A computation on a state that may fail; the state it reaches is kept also when it fails. -/
abbrev Step (ε σ α : Type) : Type := EStateM ε σ α

/-- Do a computation on a part of the state. -/
def Step.onPart {ε σ τ α : Type} (part : σ → τ) (withPart : σ → τ → σ) (step : Step ε τ α) :
    Step ε σ α := fun state =>
  match step (part state) with
  | .ok value reached => .ok value (withPart state reached)
  | .error error reached => .error error (withPart state reached)

/-- The identity of one computation. -/
structure Token where
  number : Nat
deriving DecidableEq, Repr

/-- The result of one computation, with the host names that it uses. -/
structure Artifact (α : Type) where
  token : Token
  value : α
  refs : HostRefs

/-- The generated value with its host names. -/
def Artifact.tracked {α : Type} (artifact : Artifact α) : Tracked α :=
  ⟨artifact.value, artifact.refs⟩

/-- The tokens that have not been used: those with this number or a greater one. -/
structure TokenSupply where
  next : Nat
deriving DecidableEq, Repr

instance : Inhabited TokenSupply := ⟨⟨1⟩⟩

namespace TokenSupply

/-- The artifact of a computation, under the next token. -/
def make {α : Type} (supply : TokenSupply) (tracked : Tracked α) : Artifact α :=
  ⟨⟨supply.next⟩, tracked.value, tracked.refs⟩

/-- The tokens that are left after one has been used. -/
def advance (supply : TokenSupply) : TokenSupply := ⟨supply.next + 1⟩

end TokenSupply

/-- How often results were reused and computed during a run. -/
structure CacheCounters where
  reused : Nat
  invalidated : Nat
deriving DecidableEq, Repr

namespace CacheCounters

/-- No requests yet. -/
def zero : CacheCounters := ⟨0, 0⟩

instance : Inhabited CacheCounters := ⟨zero⟩

/-- One more result was reused. -/
def countReused (counters : CacheCounters) : CacheCounters :=
  { counters with reused := counters.reused + 1 }

/-- One more result was computed. -/
def countInvalidated (counters : CacheCounters) : CacheCounters :=
  { counters with invalidated := counters.invalidated + 1 }

/-- The requests of two caches together. -/
def add (left right : CacheCounters) : CacheCounters :=
  ⟨left.reused + right.reused, left.invalidated + right.invalidated⟩

end CacheCounters

end JsEmitter
