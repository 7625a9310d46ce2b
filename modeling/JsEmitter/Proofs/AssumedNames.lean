import JsEmitter.Proofs.CaptureFree

/-!
# Recorded names do not depend on assumed names

A session renames what it generates so that it avoids the names it assumes, and renaming must not
change which host names are recorded: otherwise the second pass of a run could find other names
than the first one. Two passes from new sessions get the same pieces, and the host names that a
piece uses are known without its naming scheme.
-/
namespace JsEmitter

/-- Two passes that fail with the same error, or record the same host names for the same
modules. -/
inductive SameNames :
    EStateM.Result EmitError Emitter Pass → EStateM.Result EmitError Emitter Pass →
    Prop
  | failed {error : EmitError} {first second : Emitter} :
    SameNames (.error error first) (.error error second)
  | passed {first second : Pass} {reached other : Emitter} :
    first.outputs.map (fun output => (output.id, output.refs)) =
      second.outputs.map (fun output => (output.id, output.refs)) →
    first.refs = second.refs → SameNames (.ok first reached) (.ok second other)

namespace Emitter

variable {setting : Setting} {program : Program}

/-- Passes from new sessions record the same host names, whatever the sessions assume. -/
theorem pass_sameNames (setting : Setting) (program : Program) (assumed others : HostRefs)
    (supply another : TokenSupply) :
    SameNames (pass program ⟨setting.config, setting.filter, .start assumed supply⟩)
      (pass program ⟨setting.config, setting.filter, .start others another⟩) := by
  have inStep : EmittersInStep setting [program]
      (fun side : Bool => ⟨setting.config, setting.filter,
        .start (if side then assumed else others) (if side then supply else another)⟩) :=
    .start _ _ (fun _ => rfl) (fun _ => rfl) (fun _ => rfl)
  obtain ⟨outcome, caches, -, -, ends⟩ := inStep.pass List.mem_cons_self
  have first := ends true
  have second := ends false
  simp only [if_true, Bool.false_eq_true, if_false] at first second
  rw [first, second]
  cases outcome with
  | error error => exact .failed
  | ok pieces =>
    refine .passed ?_ ?_
    · simp only [PassPieces.pass, List.map_map]
      refine List.map_congr_left (fun unit _ => ?_)
      simp only [Function.comp_apply, ModulePieces.output_refs]
      rfl
    · simp only [PassPieces.pass_refs]

/-- A pass from a new session of an emitter with the same setting records the same host names as the
first pass of a new emitter. -/
theorem pass_assume_sameNames (program : Program) (supply : TokenSupply) {reached : Emitter}
    (config : reached.config = setting.config) (filter : reached.filter = setting.filter)
    (assumed : HostRefs) :
    SameNames (pass program (fresh setting supply)) (pass program (reached.assume assumed)) := by
  have renewed : reached.assume assumed =
      ⟨setting.config, setting.filter, .start assumed reached.session.caches.supply⟩ := by
    rw [assume, config, filter]
  rw [renewed]
  exact pass_sameNames setting program ∅ assumed supply reached.session.caches.supply

/-- How a run that succeeds comes from its passes. What the first pass records decides how it goes
on: if no name among it is dangerous, the run gives what this pass gives, and otherwise what a
second pass gives, which starts with a new session that assumes the dangerous names. Either way the
run records what the first pass recorded. -/
structure Settles (setting : Setting) (program : Program) (first : Pass) (middle : Emitter)
    (given : EmitResult) (reached : Emitter) : Prop where
  refs : given.refs = first.refs
  passes : given.passes = if first.refs.dangerous setting.filter = ∅ then 1 else 2
  last : ∃ last,
    given = result setting.config last (first.refs.dangerous setting.filter) given.passes ∧
    if first.refs.dangerous setting.filter = ∅ then last = first ∧ reached = middle
    else pass program (middle.assume (first.refs.dangerous setting.filter)) = .ok last reached

/-- A second pass of a sound emitter under the dangerous names of the first pass of a new emitter
records what this one recorded, so the run succeeds with it. -/
theorem emitAgain_settles {supply : TokenSupply} {first : Pass} {reached middle : Emitter}
    (sound : Sound setting [program] middle)
    (passed : pass program (fresh setting supply) = .ok first reached)
    (dangerous : first.refs.dangerous setting.filter ≠ ∅) :
    ∃ given last, emitAgain program (first.refs.dangerous setting.filter) middle = .ok given last ∧
      Settles setting program first middle given last := by
  let assumed := first.refs.dangerous setting.filter
  have again :=
    pass_assume_sameNames program supply (sound.config ()) (sound.filter ()) assumed
  rw [passed] at again
  obtain ⟨outcome, last, -, kept, -, ends⟩ :=
    (sound.assume assumed).pass (List.mem_singleton_self program)
  rw [emitAgain_eq, ends]
  rw [ends] at again
  cases outcome with
  | error => cases again
  | ok pieces =>
    cases again with
    | passed _ names =>
      let second := pieces.pass setting (middle.assume assumed).session.naming
      have settled : second.refs.dangerous last.filter = assumed := by
        rw [← names, kept.filter ()]
      refine ⟨result setting.config second assumed 2, last, ?_, names.symm,
        (if_neg dangerous).symm, second, rfl, ?_⟩
      · simp only [Except.map, Step.ended, second, assumed] at settled ⊢
        rw [if_pos settled, kept.config ()]
      · rw [if_neg dangerous]
        exact ends

/-- A run of a new emitter over a program that it accepts fails as its first pass, or succeeds. -/
theorem emit_fresh_of_check {supply : TokenSupply}
    (accepted : (fresh setting supply).check program = .ok ()) :
    (∀ error middle, pass program (fresh setting supply) = .error error middle →
      emit program (fresh setting supply) = .error error middle) ∧
    ∀ first middle, pass program (fresh setting supply) = .ok first middle →
      ∃ given reached, emit program (fresh setting supply) = .ok given reached ∧
        Settles setting program first middle given reached := by
  rw [emit_checked accepted]
  refine ⟨fun error middle failed => by rw [failed], fun first middle passed => ?_⟩
  obtain ⟨outcome, reached, -, kept, same, ends⟩ :=
    (fresh_sound setting [program] supply).pass (List.mem_singleton_self program)
  obtain rfl : reached = middle := by
    rw [passed] at ends
    cases outcome <;> cases ends
    rfl
  have assumed : reached.session.assumed = ∅ := same
  simp only [passed, kept.filter (), kept.config (), assumed]
  by_cases clear : first.refs.dangerous setting.filter = ∅
  · rw [if_pos clear]
    refine ⟨_, _, rfl, rfl, (if_pos clear).symm, first, rfl, ?_⟩
    rw [if_pos clear]
    exact ⟨rfl, rfl⟩
  · rw [if_neg clear]
    exact emitAgain_settles kept passed clear

/-- A run of a new emitter that succeeds was accepted, and comes from a first pass that
succeeded. -/
theorem emit_fresh_settles {supply : TokenSupply} {given : EmitResult} {reached : Emitter}
    (done : emit program (fresh setting supply) = .ok given reached) :
    (fresh setting supply).check program = .ok () ∧
      ∃ first middle, pass program (fresh setting supply) = .ok first middle ∧
        Settles setting program first middle given reached := by
  cases checked : (fresh setting supply).check program with
  | error cause =>
    rw [emit_refused checked] at done
    cases done
  | ok =>
    obtain ⟨fails, succeeds⟩ := emit_fresh_of_check checked
    refine ⟨rfl, ?_⟩
    cases passed : pass program (fresh setting supply) with
    | error error middle =>
      rw [fails error middle passed] at done
      cases done
    | ok first middle =>
      obtain ⟨result, last, emitted, settles⟩ := succeeds first middle passed
      rw [emitted] at done
      cases done
      exact ⟨first, middle, rfl, settles⟩

/-- A run of a new emitter makes a second pass exactly when it records a dangerous name. -/
theorem emit_fresh_passes {supply : TokenSupply} {given : EmitResult} {reached : Emitter}
    (done : emit program (fresh setting supply) = .ok given reached) :
    given.passes = if given.refs.dangerous setting.filter = ∅ then 1 else 2 := by
  obtain ⟨-, first, middle, -, settles⟩ := emit_fresh_settles done
  rw [settles.passes, settles.refs]

/-- A run of a new emitter does not fail because its passes differ. -/
theorem emit_fresh_isDivergence {supply : TokenSupply} {error : EmitError} {reached : Emitter}
    (failed : emit program (fresh setting supply) = .error error reached) :
    error.isDivergence = false := by
  cases checked : (fresh setting supply).check program with
  | error cause =>
    rw [emit_refused checked] at failed
    cases failed
    exact check_error_isDivergence checked
  | ok =>
    obtain ⟨fails, succeeds⟩ := emit_fresh_of_check checked
    obtain ⟨outcome, middle, holds, -, -, ends⟩ :=
      (fresh_sound setting [program] supply).pass (List.mem_singleton_self program)
    cases outcome with
    | error cause =>
      rw [fails cause middle ends] at failed
      cases failed
      exact holds.error_isDivergence
    | ok pieces =>
      obtain ⟨given, last, done, -⟩ := succeeds _ middle ends
      rw [done] at failed
      cases failed

/-- Which host names a pass records does not depend on the names that its session assumes. So a run
of a new emitter does not fail because its passes differ, and it succeeds if its first pass does: it
records the names of this pass, and it makes a second one, under the dangerous ones among them,
exactly when there are any. -/
theorem recorded_names_ignore_assumed (setting : Setting) (program : Program) :
    (∀ (assumed others : HostRefs) (supply another : TokenSupply),
      SameNames (pass program ⟨setting.config, setting.filter, .start assumed supply⟩)
        (pass program ⟨setting.config, setting.filter, .start others another⟩)) ∧
    ∀ supply : TokenSupply,
      (∀ error reached, emit program (fresh setting supply) = .error error reached →
        error.isDivergence = false) ∧
      (∀ given reached, emit program (fresh setting supply) = .ok given reached →
        (fresh setting supply).check program = .ok () ∧
          ∃ first middle, pass program (fresh setting supply) = .ok first middle ∧
            given.refs = first.refs ∧
            given.passes = if first.refs.dangerous setting.filter = ∅ then 1 else 2) ∧
      ((fresh setting supply).check program = .ok () →
        (∀ error middle, pass program (fresh setting supply) = .error error middle →
          emit program (fresh setting supply) = .error error middle) ∧
        ∀ first middle, pass program (fresh setting supply) = .ok first middle →
          let dangerous := first.refs.dangerous setting.filter
          ∃ given reached last, emit program (fresh setting supply) = .ok given reached ∧
            given.refs = first.refs ∧ given.passes = (if dangerous = ∅ then 1 else 2) ∧
            given = result setting.config last dangerous given.passes ∧
            if dangerous = ∅ then last = first ∧ reached = middle
            else pass program (middle.assume dangerous) = .ok last reached) := by
  refine ⟨pass_sameNames setting program, fun supply => ⟨fun _ _ => emit_fresh_isDivergence,
    fun given reached done => ?_, fun accepted => ?_⟩⟩
  · obtain ⟨accepted, first, middle, passed, settles⟩ := emit_fresh_settles done
    exact ⟨accepted, first, middle, passed, settles.refs, settles.passes⟩
  · obtain ⟨fails, succeeds⟩ := emit_fresh_of_check accepted
    refine ⟨fails, fun first middle passed => ?_⟩
    obtain ⟨given, reached, done, settles⟩ := succeeds first middle passed
    obtain ⟨last, same, ends⟩ := settles.last
    exact ⟨given, reached, last, done, settles.refs, settles.passes, same, ends⟩

/-- Whether a pass succeeds and records a name. -/
def records (name : String) : EStateM.Result EmitError Emitter Pass → Bool
  | .ok pass _ => pass.refs.contains name
  | .error _ _ => false

/-- The first pass over a program whose names clash records the host name that one of its methods
gets, so there is a second pass, which assumes that name. -/
theorem recorded_names_ignore_assumed_clashing :
    let setting : Setting := ⟨.standard, .standard⟩
    let start := fresh setting default
    ∃ first middle given reached last, pass clashingProgram start = .ok first middle ∧
      "$s_A__run" ∈ first.refs.dangerous setting.filter ∧
      emit clashingProgram start = .ok given reached ∧ given.refs = first.refs ∧
      given = result setting.config last (first.refs.dangerous setting.filter) 2 ∧
      pass clashingProgram (middle.assume (first.refs.dangerous setting.filter)) =
        .ok last reached := by
  intro setting start
  have accepted : start.check clashingProgram = .ok () := by decide +kernel
  have recorded : records "$s_A__run" (pass clashingProgram start) = true := by decide +kernel
  obtain ⟨-, runs⟩ := recorded_names_ignore_assumed setting clashingProgram
  obtain ⟨-, -, continues⟩ := runs default
  cases passed : pass clashingProgram start with
  | error =>
    rw [passed] at recorded
    cases recorded
  | ok first middle =>
    rw [passed] at recorded
    have dangerous : "$s_A__run" ∈ first.refs.dangerous setting.filter := by
      rw [HostRefs.dangerous, SortedSet.mem_filter]
      exact ⟨List.contains_iff_mem.1 recorded, by decide⟩
    have some : first.refs.dangerous setting.filter ≠ ∅ := by
      intro none
      rw [none] at dangerous
      exact SortedSet.not_mem_empty dangerous
    obtain ⟨given, reached, last, done, refs, passes, same, ends⟩ :=
      (continues accepted).2 first middle passed
    rw [if_neg some] at passes ends
    rw [passes] at same
    exact ⟨first, middle, given, reached, last, rfl, dangerous, done, refs, same, ends⟩

end Emitter

end JsEmitter
