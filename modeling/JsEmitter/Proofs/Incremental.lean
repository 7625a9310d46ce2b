import JsEmitter.Proofs.BaseClasses
import JsEmitter.Proofs.SamePasses

/-!
# Incremental emission

Emission from the caches gives what emission from scratch gives, where versions cover all that the
code of a piece takes from the program. They cover all but the parent of the class of a method or an
exported member, the classes that exported functions name, and the difference between an unknown
class and one of a module with an empty id.
-/
namespace JsEmitter

/-- What a run gives but for its counters: the header, the modules, the recorded host names, and the
dangerous ones among them. -/
def EmitResult.code (given : EmitResult) : String × List ModuleOutput × HostRefs × HostRefs :=
  (given.header, given.modules, given.refs, given.dangerousRefs)

variable {setting : Setting} {history : List Program} {program : Program}

namespace Emitter

/-- What a pass gives as the code of a run that assumes the dangerous names of the pass. -/
def settled (setting : Setting) (pieces : PassPieces) :
    String × List ModuleOutput × HostRefs × HostRefs :=
  (result setting.config (pieces.pass setting ⟨pieces.dangerous setting⟩)
    (pieces.dangerous setting) 1).code

end Emitter

/-- Passes with the same outputs settle for the same code. -/
theorem PassPieces.settled_eq {pieces others : PassPieces}
    (outputs : pieces.modules.map (fun pieces naming => pieces.output setting naming) =
      others.modules.map (fun pieces naming => pieces.output setting naming)) :
    pieces.dangerous setting = others.dangerous setting ∧
      Emitter.settled setting pieces = Emitter.settled setting others := by
  have same : ∀ naming, (pieces.pass setting naming).outputs =
      (others.pass setting naming).outputs := by
    intro naming
    have read := congrArg (List.map (fun output : Naming → ModuleOutput => output naming)) outputs
    rwa [List.map_map, List.map_map] at read
  have refs : ∀ naming, (pieces.pass setting naming).refs = (others.pass setting naming).refs := by
    intro naming
    rw [Pass.refs, Pass.refs, same]
  have dangerous : pieces.dangerous setting = others.dangerous setting := by
    have recorded := refs default
    rw [PassPieces.pass_refs, PassPieces.pass_refs] at recorded
    rw [PassPieces.dangerous, PassPieces.dangerous, recorded]
  refine ⟨dangerous, ?_⟩
  simp only [Emitter.settled, EmitResult.code, Emitter.result, dangerous, same, refs]

/-- A run in a readable history settles for the code of a pass, if all stays the same that pieces
take without cover. -/
theorem Emitter.Run.exists_pass (readable : Readable history) (kept : CodeKept setting history)
    (named : NamedModules history)
    (emitted : (fresh setting default).check program = .ok () → program ∈ history)
    {assumed : HostRefs} {outcome : Except EmitError EmitResult}
    (run : Run setting history program assumed outcome) :
    (∃ error, (fresh setting default).check program = .error error ∧ outcome = .error error) ∨
      (fresh setting default).check program = .ok () ∧
        ∃ pass, PassOutcome setting history program pass ∧
          outcome.map EmitResult.code = pass.map (settled setting) := by
  have stable : ∀ {first second : PassPieces}, (fresh setting default).check program = .ok () →
      PassOutcome setting history program (.ok first) →
      PassOutcome setting history program (.ok second) →
        first.dangerous setting = second.dangerous setting := by
    intro first second checked one two
    exact (PassPieces.settled_eq (Except.ok.inj
      (readable.passOutcome_outputs kept named (emitted checked) one two))).1
  cases run with
  | refused refused => exact .inl ⟨_, refused, rfl⟩
  | failed checked holds => exact .inr ⟨checked, _, holds, rfl⟩
  | stable checked holds same =>
    subst same
    exact .inr ⟨checked, _, holds, rfl⟩
  | failedAgain checked _ _ again => exact .inr ⟨checked, _, again, rfl⟩
  | again checked holds _ again same =>
    rw [← same]
    exact .inr ⟨checked, _, again, rfl⟩
  | diverged checked holds _ again apart => exact (apart (stable checked again holds)).elim

/-- Runs over the same program in a readable history give the same code. -/
theorem Emitter.Run.code_eq (readable : Readable history) (kept : CodeKept setting history)
    (named : NamedModules history)
    (emitted : (fresh setting default).check program = .ok () → program ∈ history)
    {assumed others : HostRefs} {first second : Except EmitError EmitResult}
    (one : Run setting history program assumed first)
    (two : Run setting history program others second) :
    first.map EmitResult.code = second.map EmitResult.code := by
  rcases one.exists_pass readable kept named emitted with
    ⟨error, refused, rfl⟩ | ⟨checked, pass, holds, gives⟩
  · rcases two.exists_pass readable kept named emitted with
      ⟨other, again, rfl⟩ | ⟨checked, pass, holds, gives⟩
    · exact congrArg Except.error (Except.error.inj (refused.symm.trans again))
    · cases refused.symm.trans checked
  · rcases two.exists_pass readable kept named emitted with
      ⟨other, again, rfl⟩ | ⟨-, other, holdsAgain, givesAgain⟩
    · cases checked.symm.trans again
    · have outputs := readable.passOutcome_outputs kept named (emitted checked) holds holdsAgain
      rw [gives, givesAgain]
      cases pass with
      | ok pieces =>
        cases other with
        | ok others =>
          exact congrArg Except.ok (PassPieces.settled_eq (Except.ok.inj outputs)).2
        | error => cases outputs
      | error error =>
        cases other with
        | ok => cases outputs
        | error cause => exact congrArg Except.error (Except.error.inj outputs)

namespace Emitter

/-- Every run in a sequence of runs over programs with faithful and legible versions gives what a
new emitter gives, if all stays the same that pieces take without cover and no module id is
empty. -/
theorem answer_code (setting : Setting) (supply another : TokenSupply) (earlier : List Program)
    (program : Program) (later : List Program)
    (faithful : Faithful (setting.accepted (earlier ++ program :: later)))
    (legible : Legible (setting.accepted (earlier ++ program :: later)))
    (kept : CodeKept setting (setting.accepted (earlier ++ program :: later)))
    (named : NamedModules (setting.accepted (earlier ++ program :: later))) :
    (answer program ((fresh setting supply).afterAll earlier)).map EmitResult.code =
      (answer program (fresh setting another)).map EmitResult.code := by
  have found : program ∈ earlier ++ program :: later := by simp
  have emitted : (fresh setting default).check program = .ok () →
      program ∈ setting.accepted (earlier ++ program :: later) :=
    fun checked => Setting.mem_accepted.2 ⟨found, checked⟩
  obtain ⟨assumed, warm⟩ := @answer_run (earlier ++ program :: later) program setting supply earlier
    (by simp +contextual)
  obtain ⟨others, cold⟩ := @answer_run (earlier ++ program :: later) program setting another []
    (by simp)
  exact warm.code_eq (.accepted faithful legible) kept named emitted cold

/-- The second run over a program whose method is edited. -/
theorem answer_code_edited :
    (answer editedProgram
      ((fresh ⟨.standard, .standard⟩ default).afterAll [originalProgram])).map EmitResult.code =
    (answer editedProgram (fresh ⟨.standard, .standard⟩ default)).map EmitResult.code := by
  refine answer_code ⟨.standard, .standard⟩ default default [originalProgram] editedProgram []
    ?_ ?_ ?_ ?_
  · exact accepted_edited ▸ readable_edited.faithful
  · exact accepted_edited ▸ readable_edited.legible
  · exact accepted_edited ▸ codeKept_edited _
  · exact accepted_edited ▸ named_edited

end Emitter

end JsEmitter
