import JsEmitter.Proofs.PassInStep

/-!
# Runs of an emitter

An emitter that has emitted some programs keeps pieces that one of them asked for, named under the
host names that its session assumes. A run keeps this, be it successful or not: a pass keeps it
by lockstep of a family of one run, and a second pass starts from empty caches.
-/
namespace JsEmitter

variable {ι : Type}

/-- A new emitter with a filter and a supply of tokens, before its first run. -/
def Emitter.fresh (setting : Setting) (supply : TokenSupply) : Emitter :=
  ⟨setting.config, setting.filter, .start ∅ supply⟩

/-- A family of emitters in step: they keep the same pieces of programs of a history, each under
the naming scheme of its session. -/
structure EmittersInStep (setting : Setting) (history : List Program) (emitters : ι → Emitter) :
    Prop where
  config : ∀ side, (emitters side).config = setting.config
  filter : ∀ side, (emitters side).filter = setting.filter
  session : ∃ ledger, SessionInStep
    ⟨setting, fun side => (emitters side).session.naming, history⟩ ledger
    (fun side => (emitters side).session.caches)

namespace EmittersInStep

variable {setting : Setting} {history : List Program} {emitters : ι → Emitter}

/-- Emitters with new sessions are in step, whatever they assume. -/
theorem start (assumed : ι → HostRefs) (supplies : ι → TokenSupply)
    (config : ∀ side, (emitters side).config = setting.config)
    (filter : ∀ side, (emitters side).filter = setting.filter)
    (session : ∀ side, (emitters side).session = .start (assumed side) (supplies side)) :
    EmittersInStep setting history emitters := by
  refine ⟨config, filter, .empty, ?_⟩
  simp only [session]
  exact ⟨.empty _, .withSupply _ _ _⟩

/-- A pass of emitters in step. -/
theorem pass (inStep : EmittersInStep setting history emitters) {program : Program}
    (emitted : program ∈ history) :
    ∃ (outcome : Except EmitError PassPieces) (caches : ι → Caches),
      PassOutcome setting history program outcome ∧
      EmittersInStep setting history (fun side => (emitters side).withCaches (caches side)) ∧
      ∀ side, Emitter.pass program (emitters side) =
        Step.ended (outcome.map (PassPieces.pass setting (emitters side).session.naming))
          ((emitters side).withCaches (caches side)) := by
  obtain ⟨ledger, session⟩ := inStep.session
  let family : Family ι := ⟨setting, fun side => (emitters side).session.naming, history⟩
  have steady : Lockstep (SessionInStep family) ledger _ _ _ :=
    Emission.emitPass_lockstep emitted
  obtain ⟨last, -, outcome, caches, holds, kept, ends⟩ :=
    steady ledger le_rfl _ session
  refine ⟨outcome, caches, holds, ⟨inStep.config, inStep.filter, last, kept⟩, fun side => ?_⟩
  have ended := ends side
  simp only [family] at ended
  simp only [Emitter.pass, Step.onPart, inStep.config side, inStep.filter side, ended]
  cases outcome <;> rfl

end EmittersInStep

namespace PassPieces

/-- The host names that the modules of a pass use. -/
def hosts (config : Config) (pieces : PassPieces) : List String :=
  pieces.modules.flatMap (ModulePieces.hosts config)

/-- The dangerous ones among the recorded host names of a pass. -/
def dangerous (setting : Setting) (pieces : PassPieces) : HostRefs :=
  (setting.recorded (pieces.hosts setting.config)).dangerous setting.filter

variable (setting : Setting) (naming : Naming)

/-- A pass records the tracked ones among the host names that its modules use. -/
theorem pass_refs (pieces : PassPieces) :
    (pieces.pass setting naming).refs = setting.recorded (pieces.hosts setting.config) := by
  have all : ∀ (modules : List ModulePieces) (known : HostRefs),
      (modules.map (ModulePieces.output setting naming)).foldl
        (fun refs output => refs ∪ output.refs) known =
      known ∪ setting.recorded (modules.flatMap (ModulePieces.hosts setting.config)) := by
    intro modules
    induction modules with
    | nil => simp
    | cons head rest ih =>
      intro known
      simp only [List.map_cons, List.foldl_cons, ih, ModulePieces.output_refs, List.flatMap_cons,
        Setting.recorded_append, SortedSet.union_assoc]
  exact (all pieces.modules ∅).trans (SortedSet.empty_union _)

end PassPieces

/-- Whether an error says that the passes of a run differ. -/
def EmitError.isDivergence : EmitError → Bool
  | .refsDiverged _ _ => true
  | _ => false

/-- A pass does not fail because it differs from another one. -/
theorem PassOutcome.error_isDivergence {setting : Setting} {history : List Program}
    {program : Program} {error : EmitError}
    (failed : PassOutcome setting history program (.error error)) :
    error.isDivergence = false := by
  obtain ⟨unit, -, outcome⟩ := Gives.exists_error failed
  cases outcome with
  | failed classes =>
    obtain ⟨linked, -, -, missing⟩ := classes.exists_error
    unfold Site.constructor? at missing
    split at missing
    · split at missing <;> cases missing
      rfl
    · cases missing
  | blank => rfl

namespace Emitter

variable {setting : Setting} {history : List Program} {emitter : Emitter} {program : Program}

/-- An emitter that keeps pieces of programs of a history under the naming scheme of its session. -/
abbrev Sound (setting : Setting) (history : List Program) (emitter : Emitter) : Prop :=
  EmittersInStep setting history (fun _ : Unit => emitter)

/-- A new emitter is sound. -/
theorem fresh_sound (setting : Setting) (history : List Program) (supply : TokenSupply) :
    Sound setting history (fresh setting supply) :=
  .start (fun _ => ∅) (fun _ => supply) (fun _ => rfl) (fun _ => rfl) (fun _ => rfl)

/-- A new session keeps an emitter sound. -/
theorem Sound.assume (sound : Sound setting history emitter) (assumed : HostRefs) :
    Sound setting history (emitter.assume assumed) :=
  .start (fun _ => assumed) (fun _ => emitter.session.caches.supply)
    (fun _ => sound.config ()) (fun _ => sound.filter ()) (fun _ => rfl)

/-- A pass of a sound emitter. -/
theorem Sound.pass (sound : Sound setting history emitter) (emitted : program ∈ history) :
    ∃ (outcome : Except EmitError PassPieces) (reached : Emitter),
      PassOutcome setting history program outcome ∧ Sound setting history reached ∧
      reached.session.assumed = emitter.session.assumed ∧
      Emitter.pass program emitter =
        Step.ended (outcome.map (PassPieces.pass setting emitter.session.naming)) reached := by
  obtain ⟨outcome, caches, holds, kept, ends⟩ := EmittersInStep.pass sound emitted
  exact ⟨outcome, emitter.withCaches (caches ()), holds, kept, rfl, ends ()⟩

/-- What a run over a program ends with, in terms of the pieces of its passes. -/
inductive Run (setting : Setting) (history : List Program) (program : Program)
    (assumed : HostRefs) : Except EmitError EmitResult → Prop
  /-- The program cannot be emitted. -/
  | refused {error : EmitError} : (fresh setting default).check program = .error error →
    Run setting history program assumed (.error error)
  | failed {error : EmitError} : (fresh setting default).check program = .ok () →
    PassOutcome setting history program (.error error) →
    Run setting history program assumed (.error error)
  /-- The first pass used the dangerous names that the session assumed. -/
  | stable {pieces : PassPieces} : (fresh setting default).check program = .ok () →
    PassOutcome setting history program (.ok pieces) → pieces.dangerous setting = assumed →
    Run setting history program assumed
      (.ok (result setting.config (pieces.pass setting ⟨assumed⟩) assumed 1))
  | failedAgain {pieces : PassPieces} {error : EmitError} :
    (fresh setting default).check program = .ok () →
    PassOutcome setting history program (.ok pieces) → pieces.dangerous setting ≠ assumed →
    PassOutcome setting history program (.error error) →
    Run setting history program assumed (.error error)
  /-- The second pass used the dangerous names that the first one found. -/
  | again {first second : PassPieces} : (fresh setting default).check program = .ok () →
    PassOutcome setting history program (.ok first) → first.dangerous setting ≠ assumed →
    PassOutcome setting history program (.ok second) →
    second.dangerous setting = first.dangerous setting →
    Run setting history program assumed
      (.ok (result setting.config (second.pass setting ⟨first.dangerous setting⟩)
        (first.dangerous setting) 2))
  | diverged {first second : PassPieces} : (fresh setting default).check program = .ok () →
    PassOutcome setting history program (.ok first) → first.dangerous setting ≠ assumed →
    PassOutcome setting history program (.ok second) →
    second.dangerous setting ≠ first.dangerous setting →
    Run setting history program assumed
      (.error (.refsDiverged (first.dangerous setting) (second.dangerous setting)))

/-- The check of a program depends on the configuration alone. -/
theorem Sound.check_eq (sound : Sound setting history emitter) :
    emitter.check program = (fresh setting default).check program := by
  unfold check
  rw [sound.config ()]
  rfl

/-- A run is not refused because its passes differ. -/
theorem check_error_isDivergence {error : EmitError}
    (refused : emitter.check program = .error error) : error.isDivergence = false := by
  unfold check at refused
  cases config : emitter.config.validate with
  | error cause =>
    rw [config] at refused
    cases refused
    rfl
  | ok =>
    cases count : emitter.config.validateModuleCount program.modules.length with
    | error cause =>
      rw [config, count] at refused
      cases refused
      rfl
    | ok =>
      cases rules : program.validate with
      | error cause =>
        rw [config, count, rules] at refused
        cases refused
        rfl
      | ok =>
        rw [config, count, rules] at refused
        cases refused

/-- A step that looks at the emitter goes on with it. -/
theorem bind_get {α : Type} (next : Emitter → Step EmitError Emitter α) :
    (get >>= next) emitter = next emitter emitter := rfl

/-- A run over a program that cannot be emitted. -/
theorem emit_refused {error : EmitError} (refused : emitter.check program = .error error) :
    emit program emitter = .error error emitter := by
  unfold emit
  rw [bind_get, refused]
  rfl

/-- A run over a program that can be emitted starts with a pass. -/
theorem emit_checked (checked : emitter.check program = .ok ()) :
    emit program emitter = match pass program emitter with
      | .error error reached => .error error reached
      | .ok pass reached =>
        if pass.refs.dangerous reached.filter = reached.session.assumed then
          .ok (result reached.config pass (pass.refs.dangerous reached.filter) 1) reached
        else emitAgain program (pass.refs.dangerous reached.filter) reached := by
  have start : emit program emitter = EStateM.bind (pass program) (fun pass reached =>
      (if pass.refs.dangerous reached.filter = reached.session.assumed then
        pure (result reached.config pass (pass.refs.dangerous reached.filter) 1)
      else emitAgain program (pass.refs.dangerous reached.filter) :
        Step EmitError Emitter EmitResult) reached) emitter := by
    unfold emit
    rw [bind_get, checked]
    rfl
  rw [start]
  unfold EStateM.bind
  cases pass program emitter with
  | error => rfl
  | ok pass reached =>
    dsimp only
    split <;> rfl

/-- The second pass is made in a new session. -/
theorem emitAgain_eq (assumed : HostRefs) :
    emitAgain program assumed emitter = match pass program (emitter.assume assumed) with
      | .error error reached => .error error reached
      | .ok pass reached =>
        if pass.refs.dangerous reached.filter = assumed then
          .ok (result reached.config pass assumed 2) reached
        else .error (.refsDiverged assumed (pass.refs.dangerous reached.filter)) reached := by
  have start : emitAgain program assumed emitter = EStateM.bind (pass program)
      (fun pass reached => (if pass.refs.dangerous reached.filter = assumed then
        pure (result reached.config pass (pass.refs.dangerous reached.filter) 2)
      else throw (.refsDiverged assumed (pass.refs.dangerous reached.filter)) :
        Step EmitError Emitter EmitResult) reached) (emitter.assume assumed) := rfl
  rw [start]
  unfold EStateM.bind
  cases pass program (emitter.assume assumed) with
  | error => rfl
  | ok pass reached =>
    dsimp only
    split
    · next stable => rw [stable]; rfl
    · rfl

/-- The dangerous names that a sound emitter finds in a pass are those of its pieces. -/
theorem Sound.observed (sound : Sound setting history emitter) (naming : Naming)
    (pieces : PassPieces) :
    (pieces.pass setting naming).refs.dangerous emitter.filter = pieces.dangerous setting := by
  rw [PassPieces.pass_refs, sound.filter ()]
  rfl

/-- The second pass of a sound emitter. -/
theorem Sound.emitAgain (sound : Sound setting history emitter) (emitted : program ∈ history)
    (assumed : HostRefs) :
    ∃ (outcome : Except EmitError PassPieces) (reached : Emitter),
      PassOutcome setting history program outcome ∧ Sound setting history reached ∧
      reached.session.assumed = assumed ∧
      Emitter.emitAgain program assumed emitter =
        match outcome with
        | .error error => .error error reached
        | .ok pieces =>
          if pieces.dangerous setting = assumed then
            .ok (result setting.config (pieces.pass setting ⟨assumed⟩) assumed 2) reached
          else .error (.refsDiverged assumed (pieces.dangerous setting)) reached := by
  obtain ⟨outcome, reached, holds, kept, same, ends⟩ := (sound.assume assumed).pass emitted
  refine ⟨outcome, reached, holds, kept, same, ?_⟩
  rw [emitAgain_eq, ends]
  cases outcome with
  | error error => rfl
  | ok pieces =>
    simp only [Except.map, Step.ended, kept.observed, kept.config ()]
    rfl

/-- A run of a sound emitter. -/
theorem Sound.emit (sound : Sound setting history emitter)
    (emitted : (fresh setting default).check program = .ok () → program ∈ history) :
    ∃ (outcome : Except EmitError EmitResult) (reached : Emitter),
      Run setting history program emitter.session.assumed outcome ∧
      Sound setting history reached ∧
      (∀ result, outcome = .ok result → reached.session.assumed = result.dangerousRefs) ∧
      Emitter.emit program emitter = Step.ended outcome reached := by
  cases checked : (fresh setting default).check program with
  | error error =>
    exact ⟨.error error, emitter, .refused checked, sound, by rintro _ ⟨⟩,
      emit_refused (sound.check_eq.trans checked)⟩
  | ok =>
    obtain ⟨outcome, middle, holds, kept, same, ends⟩ := sound.pass (emitted checked)
    rw [emit_checked (sound.check_eq.trans checked), ends]
    cases outcome with
    | error error => exact ⟨.error error, middle, .failed checked holds, kept, by rintro _ ⟨⟩, rfl⟩
    | ok pieces =>
      simp only [Except.map, Step.ended, kept.observed, kept.config ()]
      by_cases stable : pieces.dangerous setting = emitter.session.assumed
      · refine ⟨_, middle, .stable checked holds stable, kept, ?_, ?_⟩
        · rintro _ ⟨⟩
          exact same
        · rw [if_pos (stable.trans same.symm), stable]
          rfl
      · rw [if_neg (same ▸ stable)]
        obtain ⟨second, last, holdsAgain, keptAgain, assumed, endsAgain⟩ :=
          kept.emitAgain (emitted checked) (pieces.dangerous setting)
        rw [endsAgain]
        cases second with
        | error error =>
          exact ⟨_, last, .failedAgain checked holds stable holdsAgain, keptAgain,
            by rintro _ ⟨⟩, rfl⟩
        | ok others =>
          by_cases settled : others.dangerous setting = pieces.dangerous setting
          · refine ⟨_, last, .again checked holds stable holdsAgain settled, keptAgain, ?_, ?_⟩
            · rintro _ ⟨⟩
              exact assumed
            · simp only [if_pos settled]
          · exact ⟨_, last, .diverged checked holds stable holdsAgain settled, keptAgain,
              by rintro _ ⟨⟩, if_neg settled⟩

/-- What a sound emitter gives when it succeeds: the pieces of its last pass, in a session that
assumes the dangerous names of these pieces. -/
theorem Sound.emit_ok (sound : Sound setting history emitter) (emitted : program ∈ history)
    {given : EmitResult} {reached : Emitter}
    (done : Emitter.emit program emitter = .ok given reached) :
    ∃ pieces passes, PassOutcome setting history program (.ok pieces) ∧
      pieces.dangerous setting = given.dangerousRefs ∧
      reached.session.assumed = given.dangerousRefs ∧
      given = result setting.config (pieces.pass setting reached.session.naming)
        given.dangerousRefs passes := by
  obtain ⟨outcome, last, run, -, assumed, ends⟩ := sound.emit (fun _ => emitted)
  rw [done] at ends
  cases outcome with
  | error => cases ends
  | ok found =>
    cases ends
    have naming : reached.session.naming = ⟨given.dangerousRefs⟩ := by
      rw [Session.naming, assumed given rfl]
    rw [naming]
    cases run with
    | stable _ holds stable => exact ⟨_, 1, holds, stable, assumed _ rfl, rfl⟩
    | again _ _ _ holds settled => exact ⟨_, 2, holds, settled, assumed _ rfl, rfl⟩

/-- The emitter after a run, be it successful or not. -/
def after (emitter : Emitter) (program : Program) : Emitter :=
  match emit program emitter with
  | .ok _ reached => reached
  | .error _ reached => reached

/-- The emitter after runs over some programs. -/
def afterAll (emitter : Emitter) (programs : List Program) : Emitter := programs.foldl after emitter

/-- A run keeps an emitter sound. -/
theorem Sound.after (sound : Sound setting history emitter)
    (emitted : (fresh setting default).check program = .ok () → program ∈ history) :
    Sound setting history (emitter.after program) := by
  obtain ⟨outcome, reached, -, kept, -, ends⟩ := sound.emit emitted
  have last : emitter.after program = reached := by
    unfold Emitter.after
    rw [ends]
    cases outcome <;> rfl
  rwa [last]

/-- Runs over programs keep an emitter sound if those that can be emitted are in the history. -/
theorem Sound.afterAll {programs : List Program} (sound : Sound setting history emitter)
    (emitted : ∀ program ∈ programs,
      (fresh setting default).check program = .ok () → program ∈ history) :
    Sound setting history (emitter.afterAll programs) := by
  induction programs generalizing emitter with
  | nil => exact sound
  | cons first rest ih =>
    exact ih (sound.after (emitted first List.mem_cons_self))
      (fun program found => emitted program (List.mem_cons_of_mem _ found))

end Emitter

end JsEmitter
