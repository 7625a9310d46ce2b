import JsEmitter.Proofs.EmitterRuns
import JsEmitter.Proofs.FaithfulHistory

/-!
# Accepted programs

The caches of an emitter hold pieces of the programs that it has accepted so far; those that it has
refused leave no trace. What a run gives after runs over other programs is therefore a run in the
history of the accepted ones among them.
-/
namespace JsEmitter

/-- The programs among some that an emitter does not refuse. -/
def Setting.accepted (setting : Setting) (programs : List Program) : List Program :=
  programs.filter (fun program => ((Emitter.fresh setting default).check program).isOk)

variable {setting : Setting} {programs : List Program} {program : Program}

/-- The accepted programs are those that a new emitter does not refuse. -/
theorem Setting.mem_accepted : program ∈ setting.accepted programs ↔
    program ∈ programs ∧ (Emitter.fresh setting default).check program = .ok () := by
  rw [accepted, List.mem_filter]
  refine and_congr_right (fun _ => ?_)
  cases (Emitter.fresh setting default).check program with
  | ok => simp [Except.isOk, Except.toBool]
  | error => simp [Except.isOk, Except.toBool]

/-- A program that is not refused is accepted by validation. -/
theorem Emitter.validate_of_check {emitter : Emitter}
    (checked : emitter.check program = .ok ()) : program.validate = .ok () := by
  unfold check at checked
  cases config : emitter.config.validate with
  | error =>
    rw [config] at checked
    cases checked
  | ok =>
    cases count : emitter.config.validateModuleCount program.modules.length with
    | error =>
      rw [config, count] at checked
      cases checked
    | ok =>
      cases rules : program.validate with
      | error =>
        rw [config, count, rules] at checked
        cases checked
      | ok => rfl

/-- A program that is not refused is valid. -/
theorem Emitter.valid_of_check {emitter : Emitter} (checked : emitter.check program = .ok ()) :
    program.Valid :=
  Program.valid_of_validate (validate_of_check checked)

/-- Accepted programs are valid. -/
theorem Setting.valid_of_accepted (found : program ∈ setting.accepted programs) : program.Valid :=
  Emitter.valid_of_check (mem_accepted.1 found).2

/-- Runs over some programs leave an emitter that keeps pieces of the accepted ones among them. -/
theorem Emitter.fresh_sound_accepted (setting : Setting) (supply : TokenSupply)
    (earlier later : List Program) :
    Sound setting (setting.accepted (earlier ++ later)) ((fresh setting supply).afterAll earlier) :=
  (fresh_sound setting _ supply).afterAll (fun _ found checked =>
    Setting.mem_accepted.2 ⟨List.mem_append_left _ found, checked⟩)

/-- Accepted programs with faithful and legible versions have a readable history. -/
theorem Readable.accepted (faithful : Faithful (setting.accepted programs))
    (legible : Legible (setting.accepted programs)) : Readable (setting.accepted programs) where
  valid _ found := Emitter.valid_of_check (Setting.mem_accepted.1 found).2
  faithful := faithful
  legible := legible

namespace Emitter

/-- What a run of an emitter ends with. -/
def answer (program : Program) (emitter : Emitter) : Except EmitError EmitResult :=
  match emit program emitter with
  | .ok given _ => .ok given
  | .error error _ => .error error

/-- What a run ends with after runs over other programs, in the history of the accepted ones among
them. -/
theorem answer_run (setting : Setting) (supply : TokenSupply) (earlier : List Program)
    (known : ∀ before ∈ program :: earlier, before ∈ programs) :
    ∃ assumed, Run setting (setting.accepted programs) program assumed
      (answer program ((fresh setting supply).afterAll earlier)) := by
  have emitted : ∀ before ∈ program :: earlier,
      (fresh setting default).check before = .ok () → before ∈ setting.accepted programs :=
    fun before found checked => Setting.mem_accepted.2 ⟨known before found, checked⟩
  have sound := (fresh_sound setting (setting.accepted programs) supply).afterAll
    (fun before found => emitted before (List.mem_cons_of_mem program found))
  obtain ⟨outcome, reached, run, -, -, ends⟩ := sound.emit (emitted program List.mem_cons_self)
  have ended : answer program ((fresh setting supply).afterAll earlier) = outcome := by
    rw [answer, ends]
    cases outcome <;> rfl
  exact ⟨_, ended ▸ run⟩

end Emitter

end JsEmitter
