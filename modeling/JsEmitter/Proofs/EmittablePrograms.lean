import JsEmitter.Proofs.AssumedNames

/-!
# Programs that can be emitted

A pass over a program fails only at a foreign class without a constructor, or at a module for which
nothing is generated. A well-formed program that has neither is emitted by every new emitter:
`Emitter.emit_fresh_ok`.
-/
namespace JsEmitter

/-- A program in which every foreign class has its constructor, and every module is the root or
defines a class. -/
structure Program.Emittable (program : Program) : Prop where
  constructors : ∀ unit ∈ program.modules, ∀ linked ∈ unit.classes,
    linked.kind.isJsClass = true → linked.jsConstructor?.isSome = true
  filled : ∀ unit ∈ program.modules,
    unit.isRoot = true ∨ ∃ linked ∈ unit.classes, linked.needsDefinition = true

instance (program : Program) : Decidable program.Emittable :=
  decidable_of_iff
    ((∀ unit ∈ program.modules, ∀ linked ∈ unit.classes,
      linked.kind.isJsClass = true → linked.jsConstructor?.isSome = true) ∧
    ∀ unit ∈ program.modules,
      unit.isRoot = true ∨ ∃ linked ∈ unit.classes, linked.needsDefinition = true)
    ⟨fun ⟨constructors, filled⟩ => ⟨constructors, filled⟩,
      fun ⟨constructors, filled⟩ => ⟨constructors, filled⟩⟩

section

variable {setting : Setting} {history : List Program} {program : Program} {unit : Module}

/-- The definition of a class is a statement. -/
theorem Definition.marks_ne_nil (config : Config) (definition : Definition) :
    definition.marks config ≠ [] := by
  unfold marks PieceMarks.ofDefinition
  split <;> simp

/-- Something is generated for a module that is the root or defines a class. -/
theorem ModulePieces.MadeFor.bodyMarks_ne_nil {pieces : ModulePieces}
    (made : pieces.MadeFor setting history program unit)
    (filled : unit.isRoot = true ∨ ∃ linked ∈ unit.classes, linked.needsDefinition = true) :
    pieces.bodyMarks setting.config ≠ [] := by
  have statements : pieces.statementMarks setting.config ≠ [] := by
    rcases filled with root | ⟨linked, there, defined⟩
    · simp [statementMarks, libraryMarks, made.library, root, PieceMarks.beforeRoot]
    · obtain ⟨classPieces, found, classMade⟩ :=
        exists_of_forall₂ made.classes.flip (Module.mem_emissionOrder.2 there)
      obtain ⟨definition, defines, -⟩ := classMade.defined defined
      have main : classPieces.mainMarks setting.config ≠ [] := by
        simp [ClassPieces.mainMarks, defines, definition.marks_ne_nil]
      have all : (∀ other ∈ pieces.roots, other.mainMarks setting.config = []) →
          ∃ other ∈ pieces.others, other.mainMarks setting.config ++
            other.typeSupportMarks setting.config ≠ [] := by
        intro blank
        cases root : classPieces.name.isRoot with
        | true => exact (main (blank _ (List.mem_filter.2 ⟨found, root⟩))).elim
        | false => exact ⟨classPieces, List.mem_filter.2 ⟨found, by simp [root]⟩, by simp [main]⟩
      intro none
      simp only [statementMarks, List.append_eq_nil_iff, List.flatMap_eq_nil_iff] at none
      obtain ⟨other, among, some⟩ := all none.1.1.1.1.1.1.2
      exact some (List.append_eq_nil_iff.2 (none.1.1.1.2 other among))
  simp [bodyMarks, statements]

/-- A pass over an emittable program does not fail. -/
theorem PassOutcome.ok_of_emittable (emittable : program.Emittable)
    {outcome : Except EmitError PassPieces} (holds : PassOutcome setting history program outcome) :
    ∃ pieces, outcome = .ok pieces := by
  cases outcome with
  | ok pieces => exact ⟨pieces, rfl⟩
  | error error =>
    obtain ⟨unit, ordered, failed⟩ := Gives.exists_error holds
    have placed := Program.mem_of_mem_dependencyOrder ordered
    cases failed with
    | failed classes =>
      obtain ⟨linked, found, -, missing⟩ := classes.exists_error
      unfold Site.constructor? at missing
      split at missing
      · next foreign =>
        have some := emittable.constructors unit placed linked
          (Module.mem_emissionOrder.1 found) foreign
        split at missing
        · cases missing
        · next none => simp [none] at some
      · cases missing
    | blank made empty =>
      exact (made.bodyMarks_ne_nil (emittable.filled unit placed)
        (List.isEmpty_iff.1 empty)).elim

end

namespace Emitter

variable {setting : Setting} {history : List Program} {program : Program} {emitter : Emitter}

/-- A pass of a sound emitter over an emittable program succeeds. -/
theorem Sound.pass_ok (sound : Sound setting history emitter) (emitted : program ∈ history)
    (emittable : program.Emittable) :
    ∃ given reached, Emitter.pass program emitter = .ok given reached := by
  obtain ⟨outcome, reached, holds, -, -, ends⟩ := sound.pass emitted
  obtain ⟨pieces, rfl⟩ := holds.ok_of_emittable emittable
  exact ⟨_, reached, ends⟩

/-- A run over an emittable program that is well formed fails only if its passes differ. -/
theorem Run.differ_of_emittable {assumed : HostRefs} {error : EmitError}
    (run : Run setting history program assumed (.error error))
    (checked : (fresh setting default).check program = .ok ()) (emittable : program.Emittable) :
    ∃ first second : PassPieces, second.dangerous setting ≠ first.dangerous setting ∧
      error = .refsDiverged (first.dangerous setting) (second.dangerous setting) := by
  cases run with
  | refused refused => cases refused.symm.trans checked
  | failed _ failed =>
    obtain ⟨_, same⟩ := failed.ok_of_emittable emittable
    cases same
  | failedAgain _ _ _ failed =>
    obtain ⟨_, same⟩ := failed.ok_of_emittable emittable
    cases same
  | diverged _ _ _ _ differ => exact ⟨_, _, differ, rfl⟩

/-- A new emitter emits every emittable program that is well formed. -/
theorem emit_fresh_ok (setting : Setting) (supply : TokenSupply)
    (checked : (fresh setting default).check program = .ok ()) (emittable : program.Emittable) :
    ∃ given reached, emit program (fresh setting supply) = .ok given reached := by
  obtain ⟨outcome, reached, run, -, -, ends⟩ :=
    (fresh_sound setting [program] supply).emit (fun _ => List.mem_singleton_self program)
  cases outcome with
  | ok given => exact ⟨given, reached, ends⟩
  | error error =>
    have undivided := emit_fresh_isDivergence ends
    obtain ⟨_, _, -, rfl⟩ := run.differ_of_emittable checked emittable
    cases undivided

/-- A sound emitter that takes no host name for dangerous emits every emittable program that is well
formed. -/
theorem Sound.emit_ok_of_safe (sound : Sound setting history emitter) (emitted : program ∈ history)
    (safe : ∀ name, setting.filter name = false)
    (checked : (fresh setting default).check program = .ok ()) (emittable : program.Emittable) :
    ∃ given reached, Emitter.emit program emitter = .ok given reached := by
  have none : ∀ pieces : PassPieces, pieces.dangerous setting = ∅ := by
    intro pieces
    refine SortedSet.ext (fun name => ?_)
    simp [PassPieces.dangerous, HostRefs.dangerous, safe]
  obtain ⟨outcome, reached, run, -, -, ends⟩ := sound.emit (fun _ => emitted)
  cases outcome with
  | ok given => exact ⟨given, reached, ends⟩
  | error error =>
    obtain ⟨first, second, differ, -⟩ := run.differ_of_emittable checked emittable
    exact (differ ((none second).trans (none first).symm)).elim

end Emitter

end JsEmitter
