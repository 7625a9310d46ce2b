import JsEmitter.Proofs.Pieces
import JsEmitter.Proofs.VersionParts

/-!
# Requests in lockstep

In a family of runs that are in lockstep, all runs keep the same pieces, each run under its own
naming scheme. What every run got for one request is an issue: a piece, with the token that each
run gave to it. The ledger holds the issues so far; no token of a run belongs to two of them.
Tables of the runs are in step when they have the same keys, and what they have under a key are
readings of one plan.
-/
namespace JsEmitter

open Js (Tree)
open Lowering (Context)

variable {ε ι κ α δ : Type} {kind : PieceKind}

/-- A family of runs: what they share, how each one names definitions, and the programs that they
have emitted. -/
structure Family (ι : Type) where
  setting : Setting
  naming : ι → Naming
  history : List Program

/-- A piece that every run has, with the token that it has in each run. -/
structure Issue (ι : Type) (kind : PieceKind) where
  piece : Piece kind
  token : ι → Token

namespace Family

/-- What a piece gives in one of the runs. -/
def run (family : Family ι) (side : ι) (piece : Piece kind) : Tracked kind.Value :=
  piece.run family.setting (family.naming side)

/-- The context of generation in one of the runs. -/
def context (family : Family ι) (side : ι) (site : Site) : Context :=
  family.setting.context (family.naming side) site

/-- Whether a place may hold a piece under a version. -/
def Keeps (family : Family ι) (place : Place kind) (version : Version) (piece : Piece kind) :
    Prop :=
  Requested family.setting family.history place version piece

/-- Whether a request for a piece of its own may get a piece. -/
def Serves (family : Family ι) (place : Place kind) (version : Version) (own piece : Piece kind) :
    Prop :=
  Served family.setting family.history place version own piece

/-- The artifact of an issue in one of the runs. -/
def artifact (family : Family ι) (side : ι) (issue : Issue ι kind) : Artifact kind.Value :=
  ⟨issue.token side, (family.run side issue.piece).value, (family.run side issue.piece).refs⟩

/-- An issued artifact is what its piece gives under the naming scheme of its side. -/
@[simp] theorem artifact_tracked (family : Family ι) (side : ι) (issue : Issue ι kind) :
    (family.artifact side issue).tracked = family.run side issue.piece := rfl

/-- An issued artifact has the token of its side. -/
@[simp] theorem artifact_token (family : Family ι) (side : ι) (issue : Issue ι kind) :
    (family.artifact side issue).token = issue.token side := rfl

end Family

/-- The issues so far. -/
structure Ledger (ι : Type) where
  holds : {kind : PieceKind} → Issue ι kind → Prop

namespace Ledger

instance : Preorder (Ledger ι) where
  le earlier later :=
    ∀ (kind : PieceKind) (issue : Issue ι kind), earlier.holds issue → later.holds issue
  le_refl _ _ _ held := held
  le_trans _ _ _ first second kind issue held := second kind issue (first kind issue held)

/-- No issue. -/
def empty : Ledger ι := ⟨fun _ => False⟩

/-- An issue of a ledger, or one more. -/
inductive Added (ledger : Ledger ι) (issue : Issue ι kind) :
    {other : PieceKind} → Issue ι other → Prop
  | earlier {other : PieceKind} {held : Issue ι other} :
    ledger.holds held → Added ledger issue held
  | new : Added ledger issue issue

/-- The ledger with one more issue. -/
def add (ledger : Ledger ι) (issue : Issue ι kind) : Ledger ι := ⟨Added ledger issue⟩

/-- A ledger is earlier than the one with another issue. -/
theorem le_add (ledger : Ledger ι) (issue : Issue ι kind) : ledger ≤ ledger.add issue :=
  fun _ _ held => .earlier held

/-- A ledger fits the supplies of the runs: a token tells its issue, and is not in the supply. -/
structure Sound (ledger : Ledger ι) (supplies : ι → TokenSupply) : Prop where
  unique : ∀ {kind : PieceKind} {first second : Issue ι kind} (side : ι), ledger.holds first →
    ledger.holds second → first.token side = second.token side → first = second
  bounded : ∀ {kind : PieceKind} {issue : Issue ι kind} (side : ι), ledger.holds issue →
    (issue.token side).number < (supplies side).next

namespace Sound

variable {ledger : Ledger ι} {supplies : ι → TokenSupply}

/-- The empty ledger fits every supply. -/
theorem empty (supplies : ι → TokenSupply) : Sound Ledger.empty supplies where
  unique _ held := held.elim
  bounded _ held := held.elim

/-- A ledger fits supplies from which tokens have been taken without an entry. -/
theorem advance (sound : ledger.Sound supplies) :
    ledger.Sound (fun side => (supplies side).advance) where
  unique := sound.unique
  bounded side held := Nat.lt_succ_of_lt (sound.bounded side held)

/-- A new issue takes the next token of every run. -/
theorem add (sound : ledger.Sound supplies) (piece : Piece kind) :
    (ledger.add ⟨piece, fun side => ⟨(supplies side).next⟩⟩).Sound
      (fun side => (supplies side).advance) where
  unique side first second same := by
    cases first with
    | earlier first =>
      cases second with
      | earlier second => exact sound.unique side first second same
      | new =>
        have below := sound.bounded side first
        rw [same] at below
        exact (Nat.lt_irrefl _ below).elim
    | new =>
      cases second with
      | earlier second =>
        have below := sound.bounded side second
        rw [← same] at below
        exact (Nat.lt_irrefl _ below).elim
      | new => rfl
  bounded side held := by
    cases held with
    | earlier held => exact Nat.lt_succ_of_lt (sound.bounded side held)
    | new => exact Nat.lt_succ_self _

/-- Lists of issues with the same tokens in a run are the same. -/
theorem eq_of_tokens (sound : ledger.Sound supplies) (side : ι) {first second : List (Issue ι kind)}
    (firstHeld : ∀ issue ∈ first, ledger.holds issue)
    (secondHeld : ∀ issue ∈ second, ledger.holds issue)
    (same : first.map (fun issue => issue.token side) =
      second.map (fun issue => issue.token side)) : first = second := by
  induction first generalizing second with
  | nil => exact (List.map_eq_nil_iff.1 same.symm).symm
  | cons head rest ih =>
    cases second with
    | nil => cases same
    | cons other others =>
      obtain ⟨heads, tails⟩ := List.cons_eq_cons.1 same
      rw [sound.unique side (firstHeld _ List.mem_cons_self) (secondHeld _ List.mem_cons_self)
          heads,
        ih (fun issue found => firstHeld issue (List.mem_cons_of_mem _ found))
          (fun issue found => secondHeld issue (List.mem_cons_of_mem _ found)) tails]

end Sound

end Ledger

/-- Tables with the same keys; what they have under a key are readings of one plan. -/
def TablesInStep [DecidableEq κ] (read : ι → δ → α) (good : κ → δ → Prop)
    (tables : ι → Table κ α) : Prop :=
  ∀ key, ∃ plan? : Option δ, (∀ plan ∈ plan?, good key plan) ∧
    ∀ side, (tables side).get? key = plan?.map (read side)

namespace TablesInStep

variable [DecidableEq κ] {read : ι → δ → α} {good : κ → δ → Prop} {tables : ι → Table κ α}

/-- Empty tables are in step. -/
theorem empty : TablesInStep read good (fun _ => ∅) := fun _ =>
  ⟨none, by simp, fun _ => Table.get?_empty _⟩

/-- A weaker demand on the plans. -/
theorem imp {weak : κ → δ → Prop} (inStep : TablesInStep read good tables)
    (weaker : ∀ key plan, good key plan → weak key plan) : TablesInStep read weak tables := by
  intro key
  obtain ⟨plan?, holds, same⟩ := inStep key
  exact ⟨plan?, fun plan found => weaker key plan (holds plan found), same⟩

/-- Put readings of one plan under a key. -/
theorem put (inStep : TablesInStep read good tables) {key : κ} (plan : δ)
    (holds : good key plan) :
    TablesInStep read good (fun side => (tables side).put key (read side plan)) := by
  intro other
  by_cases same : other = key
  · subst same
    exact ⟨some plan, by simpa using holds, fun side => by simp⟩
  · obtain ⟨plan?, others, reads⟩ := inStep other
    exact ⟨plan?, others, fun side => by rw [Table.get?_put_of_ne _ _ same, reads side]⟩

/-- Change every value in a way that the plans can follow. -/
theorem mapValues {transform : α → α} (inStep : TablesInStep read good tables) (follow : δ → δ)
    (reads : ∀ side plan, transform (read side plan) = read side (follow plan))
    (keeps : ∀ key plan, good key plan → good key (follow plan)) :
    TablesInStep read good (fun side => (tables side).mapValues transform) := by
  intro key
  obtain ⟨plan?, holds, same⟩ := inStep key
  refine ⟨plan?.map follow, ?_, fun side => ?_⟩
  · intro plan found
    obtain ⟨earlier, there, rfl⟩ := Option.map_eq_some_iff.1 found
    exact keeps key earlier (holds earlier there)
  · rw [Table.get?_mapValues, same side]
    cases plan? <;> simp [reads]

/-- Keep the values that satisfy a predicate that the plans decide. -/
theorem filterValues {keep : α → Bool} (inStep : TablesInStep read good tables)
    (decide : δ → Bool) (reads : ∀ side plan, keep (read side plan) = decide plan) :
    TablesInStep read good (fun side => (tables side).filterValues keep) := by
  intro key
  obtain ⟨plan?, holds, same⟩ := inStep key
  refine ⟨plan?.filter decide, ?_, fun side => ?_⟩
  · intro plan found
    exact holds plan (Option.filter_eq_some_iff.1 found).1
  · rw [Table.get?_filterValues, same side]
    cases plan? with
    | none => rfl
    | some plan => simp only [Option.map_some, Option.filter, reads]; split <;> rfl

end TablesInStep

/-- A cache entry that every run has. -/
structure EntryPlan (ι : Type) (kind : PieceKind) where
  version : Version
  issue? : Option (Issue ι kind)
  used : Bool

namespace EntryPlan

/-- The entry in one of the runs. -/
def entry (family : Family ι) (side : ι) (plan : EntryPlan ι kind) : CacheEntry kind.Value :=
  ⟨plan.version, plan.issue?.map (family.artifact side), plan.used⟩

/-- The entry of a key that has not been requested. -/
def fresh : EntryPlan ι kind := ⟨.unversioned, none, false⟩

/-- A fresh plan is a fresh entry on each side. -/
@[simp] theorem fresh_entry (family : Family ι) (side : ι) :
    (fresh : EntryPlan ι kind).entry family side = .fresh := rfl

/-- The issue of an entry is in the ledger, and its piece may be kept under the version. -/
def Sound (family : Family ι) (place : Place kind) (ledger : Ledger ι) (plan : EntryPlan ι kind) :
    Prop :=
  ∀ issue ∈ plan.issue?,
    ledger.holds issue ∧ family.Keeps place plan.version issue.piece

/-- A plan that is sound for a ledger is so for every later one. -/
theorem Sound.mono {family : Family ι} {place : Place kind} {earlier later : Ledger ι}
    {plan : EntryPlan ι kind} (sound : plan.Sound family place earlier) (order : earlier ≤ later) :
    plan.Sound family place later :=
  fun issue found => ⟨order kind issue (sound issue found).1, (sound issue found).2⟩

/-- A fresh plan is sound for every ledger. -/
theorem fresh_sound (family : Family ι) (place : Place kind) (ledger : Ledger ι) :
    (fresh : EntryPlan ι kind).Sound family place ledger := by
  intro issue found
  cases found

end EntryPlan

/-- What a request ends with: an issue of the ledger whose piece may be kept under the version, and
is its own one if the version has no token, or the error of its own computation. -/
def Family.Issued (family : Family ι) (place : Place kind) (version : Version)
    (own : Except ε (Piece kind)) (ledger : Ledger ι) : Except ε (Issue ι kind) → Prop
  | .ok issue => ledger.holds issue ∧ family.Keeps place version issue.piece ∧
    (version.isVersioned = false → own = .ok issue.piece)
  | .error error => own = .error error

/-- What a ledger has issued, every later one has. -/
theorem Family.Issued.mono {family : Family ι} {place : Place kind} {version : Version}
    {own : Except ε (Piece kind)} {earlier later : Ledger ι} {outcome : Except ε (Issue ι kind)}
    (issued : family.Issued place version own earlier outcome) (order : earlier ≤ later) :
    family.Issued place version own later outcome := by
  cases outcome with
  | ok issue => exact ⟨order kind issue issued.1, issued.2⟩
  | error error => exact issued

/-- An issue that was asked for serves the piece that asked for it. -/
theorem Family.Issued.serves {family : Family ι} {place : Place kind} {version : Version}
    {own : Piece kind} {ledger : Ledger ι} {issue : Issue ι kind}
    (issued : family.Issued place version (.ok own : Except ε (Piece kind)) ledger (.ok issue)) :
    family.Serves place version own issue.piece :=
  ⟨issued.2.1, fun unversioned => (Except.ok.inj (issued.2.2 unversioned)).symm⟩

/-- Entries in step, with the counters and the supplies of the runs. -/
structure EntriesInStep (family : Family ι) (place : Place kind) (ledger : Ledger ι)
    (states : ι → EntryState kind.Value) : Prop where
  sound : ledger.Sound (fun side => (states side).supply)
  entry : ∃ plan : EntryPlan ι kind, plan.Sound family place ledger ∧
    ∀ side, (states side).entry = plan.entry family side
  counters : ∃ counters, ∀ side, (states side).counters = counters

/-- A request to entries in step: either all runs reuse what they have, or all compute. -/
theorem CacheEntry.request_lockstep {family : Family ι} {place : Place kind} {version : Version}
    {world : Ledger ι} {own : Except ε (Piece kind)}
    (admitted : ∀ piece, own = .ok piece → family.Keeps place version piece) :
    Lockstep (EntriesInStep family place) world family.artifact
      (family.Issued place version own)
      (fun side => CacheEntry.request version (fun _ => own.map (family.run side))) := by
  rintro now - states ⟨sound, ⟨plan, planSound, entries⟩, counters, counted⟩
  have valid : ∀ side, (states side).entry.valid? version =
      (if plan.version.isSame version then plan.issue? else none).map (family.artifact side) := by
    intro side
    rw [entries side]
    unfold CacheEntry.valid? EntryPlan.entry
    split <;> simp
  cases found : (if plan.version.isSame version then plan.issue? else none) with
  | some issue =>
    obtain ⟨same, kept⟩ : plan.version.isSame version = true ∧ plan.issue? = some issue := by
      split at found
      · exact ⟨by assumption, found⟩
      · cases found
    have versions := Version.eq_of_isSame same
    have holds := planSound issue kept
    rw [versions] at holds
    have served : now.holds issue ∧ family.Keeps place version issue.piece ∧
        (version.isVersioned = false → own = .ok issue.piece) :=
      ⟨holds.1, holds.2, fun unversioned => (Version.isVersioned_of_isSame same unversioned).elim⟩
    refine ⟨now, le_rfl, .ok issue, fun side =>
      ⟨{ (states side).entry with used := true }, counters.countReused, (states side).supply⟩,
      served, ⟨sound, ⟨{ plan with used := true }, planSound, fun side => ?_⟩, _, fun _ => rfl⟩,
      fun side => ?_⟩
    · simp only [entries side]
      rfl
    · simp only [CacheEntry.request, valid side, found, counted side]
      rfl
  | none =>
    cases own with
    | error error =>
      refine ⟨now, le_rfl, .error error, fun side =>
        { states side with entry := { (states side).entry with used := true } }, rfl,
        ⟨sound, ⟨{ plan with used := true }, planSound, fun side => ?_⟩, _, counted⟩,
        fun side => ?_⟩
      · simp only [entries side]
        rfl
      · simp only [CacheEntry.request, valid side, found]
        rfl
    | ok piece =>
      let issue : Issue ι kind := ⟨piece, fun side => ⟨(states side).supply.next⟩⟩
      refine ⟨now.add issue, now.le_add issue, .ok issue, fun side =>
        ⟨⟨version, some (family.artifact side issue), true⟩, counters.countInvalidated,
          (states side).supply.advance⟩,
        ⟨Ledger.Added.new, admitted piece rfl, fun _ => rfl⟩,
        ⟨sound.add piece, ⟨⟨version, some issue, true⟩, ?_, ?_⟩, _, fun _ => rfl⟩,
        fun side => ?_⟩
      · intro other same
        cases same
        exact ⟨Ledger.Added.new, admitted piece rfl⟩
      · exact fun side => rfl
      · simp only [CacheEntry.request, valid side, found, counted side]
        rfl

/-- Slots in step, with the supplies of the runs. -/
structure SlotsInStep (family : Family ι) (good : Piece kind → Prop) (ledger : Ledger ι)
    (states : ι → OneTimeSlot kind.Value × TokenSupply) : Prop where
  sound : ledger.Sound (fun side => (states side).2)
  slot : ∃ issue? : Option (Issue ι kind), (∀ issue ∈ issue?, good issue.piece) ∧
    ∀ side, (states side).1 = ⟨issue?.map (family.artifact side)⟩

/-- A request to slots in step. -/
theorem OneTimeSlot.request_lockstep {family : Family ι} (good : Piece kind → Prop)
    {world : Ledger ι} {piece : Piece kind} (admitted : good piece) :
    Lockstep (SlotsInStep family good) world family.artifact
      (fun _ outcome => ∃ issue, outcome = .ok issue ∧ good issue.piece)
      (fun side => (OneTimeSlot.request (fun _ => .ok (family.run side piece)) :
        Step ε _ _)) := by
  rintro now - states ⟨sound, issue?, kept, slots⟩
  cases issue? with
  | some issue =>
    refine ⟨now, le_rfl, .ok issue, states, ⟨issue, rfl, kept issue rfl⟩,
      ⟨sound, some issue, kept, slots⟩, fun side => ?_⟩
    simp only [OneTimeSlot.request, slots side, Option.map_some]
    rw [← Option.map_some, ← slots side]
    rfl
  | none =>
    let issue : Issue ι kind := ⟨piece, fun side => ⟨(states side).2.next⟩⟩
    refine ⟨now, le_rfl, .ok issue, fun side =>
      (⟨some (family.artifact side issue)⟩, (states side).2.advance),
      ⟨issue, rfl, admitted⟩, ⟨sound.advance, some issue, ?_, fun _ => rfl⟩, fun side => ?_⟩
    · intro other same
      cases same
      exact admitted
    · simp only [OneTimeSlot.request, slots side, Option.map_none]
      rfl

end JsEmitter
