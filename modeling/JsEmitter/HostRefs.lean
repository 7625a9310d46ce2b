import JsEmitter.SortedSet

/-!
# References to the host

Generated code may refer to names that the host defines. Every generated value comes with the
set of such names that it was tracked to use, and the sets are united on the way up, so values
with their names form a monad. A filter says which names could clash with generated ones, and a
tracking mode says which names are recorded at all.
-/
namespace JsEmitter

/-- Names of the host that generated code refers to. -/
abbrev HostRefs := SortedSet String

/-- The names between braces, separated by commas. -/
def HostRefs.text (refs : HostRefs) : String :=
  "\x7b" ++ ", ".intercalate refs.toList ++ "\x7d"

/-- A generated value with the host names that it uses. -/
structure Tracked (α : Type) where
  value : α
  refs : HostRefs

namespace Tracked

variable {α β : Type}

/-- A value that uses no host name. -/
def untracked (value : α) : Tracked α := ⟨value, ∅⟩

/-- Apply a function to the value. -/
def map (transform : α → β) (tracked : Tracked α) : Tracked β :=
  ⟨transform tracked.value, tracked.refs⟩

/-- Continue with the value, keeping its host names. -/
def andThen (tracked : Tracked α) (next : α → Tracked β) : Tracked β :=
  let result := next tracked.value
  ⟨result.value, tracked.refs ∪ result.refs⟩

instance : Monad Tracked where
  pure := untracked
  bind := andThen
  map := map

/-- Tracked values are equal if their values and their host names are. -/
theorem ext' {left right : Tracked α} (value : left.value = right.value)
    (refs : left.refs = right.refs) : left = right := by
  cases left
  cases right
  cases value
  cases refs
  rfl

/-- A pure value is the value itself. -/
@[simp] theorem pure_value (value : α) : (pure value : Tracked α).value = value := rfl

/-- A pure value uses no host name. -/
@[simp] theorem pure_refs (value : α) : (pure value : Tracked α).refs = ∅ := rfl

/-- What follows a tracked value sees the value alone. -/
@[simp] theorem bind_value (tracked : Tracked α) (next : α → Tracked β) :
    (tracked >>= next).value = (next tracked.value).value := rfl

/-- A tracked value and what follows it unite their host names. -/
@[simp] theorem bind_refs (tracked : Tracked α) (next : α → Tracked β) :
    (tracked >>= next).refs = tracked.refs ∪ (next tracked.value).refs := rfl

/-- Mapping applies the function to the value. -/
@[simp] theorem map_value (transform : α → β) (tracked : Tracked α) :
    (transform <$> tracked).value = transform tracked.value := rfl

/-- Mapping uses no further host name. -/
@[simp] theorem map_refs (transform : α → β) (tracked : Tracked α) :
    (transform <$> tracked).refs = tracked.refs := rfl

instance : LawfulMonad Tracked :=
  LawfulMonad.mk' Tracked (fun _ => rfl) (fun _ _ => ext' rfl (by simp))
    (fun _ _ _ => ext' rfl (by simp [SortedSet.union_assoc])) (fun _ _ => rfl) (fun _ _ => rfl)
    (fun _ _ => rfl) (fun _ _ => ext' rfl (by simp)) (fun _ _ => rfl)

/-- The values of a list, with the host names of all. -/
def list (items : List (Tracked α)) : Tracked (List α) := items.mapM id

/-- The value, if there is one. -/
def option : Option (Tracked α) → Tracked (Option α)
  | some tracked => tracked.map some
  | none => untracked none

end Tracked

/-- Says which host names could clash with generated names. -/
abbrev DangerFilter := String → Bool

/-- Names that look generated, and the names with a meaning of their own inside functions. -/
def DangerFilter.standard : DangerFilter := fun name =>
  name.toList.head? = some '$' || name = "arguments" || name = "eval"

/-- The names that a filter accepts. -/
def HostRefs.dangerous (refs : HostRefs) (filter : DangerFilter) : HostRefs := refs.filter filter

/-- Which host names are recorded. -/
inductive Tracking where
  /-- Every name. -/
  | all
  /-- The names that the filter accepts. -/
  | dangerous
deriving DecidableEq, Repr, Inhabited

/-- Whether a name is recorded. -/
def Tracking.tracks (tracking : Tracking) (filter : DangerFilter) (name : String) : Bool :=
  match tracking with
  | all => true
  | dangerous => filter name

end JsEmitter
