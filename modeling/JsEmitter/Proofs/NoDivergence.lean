import JsEmitter.Proofs.BaseClasses
import JsEmitter.Proofs.SameAccounts

/-!
# No divergence

The first pass of a run is served from the caches and the second one starts without them, so the two
find the same dangerous names only if versions cover the host names. They do, but for the names that
methods and exported members take from the parent of their class, and exports from the classes that
exported functions name. Where these names stay the same while versions do, no run fails because its
passes differ.
-/
namespace JsEmitter

variable {setting : Setting} {history : List Program} {program : Program} {assumed : HostRefs}
  {outcome : Except EmitError EmitResult}

namespace Emitter

/-- A run in a readable history does not fail because its passes differ, if the host names stay the
same that pieces take without cover. -/
theorem Run.error_isDivergence (readable : Readable history) (kept : NamesKept setting history)
    (run : Run setting history program assumed outcome) {error : EmitError}
    (failed : outcome = .error error) : error.isDivergence = false := by
  subst failed
  cases run with
  | refused refused => exact check_error_isDivergence refused
  | failed _ holds => exact holds.error_isDivergence
  | failedAgain _ _ _ again => exact again.error_isDivergence
  | diverged _ holds _ again apart =>
    exact (apart (readable.passes_dangerous kept again holds)).elim

/-- Whether a run of an emitter fails because its passes differ. -/
def diverges (program : Program) (emitter : Emitter) : Bool :=
  match answer program emitter with
  | .ok _ => false
  | .error error => error.isDivergence

/-- No run in a sequence of runs over programs with faithful and legible versions fails because its
passes differ, if the host names stay the same that pieces take without cover. -/
theorem not_diverges (setting : Setting) (supply : TokenSupply) (earlier : List Program)
    (program : Program) (later : List Program)
    (faithful : Faithful (setting.accepted (earlier ++ program :: later)))
    (legible : Legible (setting.accepted (earlier ++ program :: later)))
    (kept : NamesKept setting (setting.accepted (earlier ++ program :: later))) :
    diverges program ((fresh setting supply).afterAll earlier) = false := by
  obtain ⟨assumed, run⟩ := @answer_run (earlier ++ program :: later) program setting supply earlier
    (by simp +contextual)
  unfold diverges
  cases ended : answer program ((fresh setting supply).afterAll earlier) with
  | ok => rfl
  | error error => exact run.error_isDivergence (.accepted faithful legible) kept ended

/-- The second run over a program whose method is edited. -/
theorem not_diverges_edited : diverges editedProgram
    ((fresh ⟨.standard, .standard⟩ default).afterAll [originalProgram]) = false := by
  refine not_diverges ⟨.standard, .standard⟩ default [originalProgram] editedProgram [] ?_ ?_ ?_
  · exact accepted_edited ▸ readable_edited.faithful
  · exact accepted_edited ▸ readable_edited.legible
  · exact accepted_edited ▸ CodeKept.namesKept (codeKept_edited _)

end Emitter

end JsEmitter
