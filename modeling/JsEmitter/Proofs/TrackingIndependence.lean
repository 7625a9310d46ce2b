import JsEmitter.Proofs.EmitterRuns
import JsEmitter.Proofs.TrackedEmission

/-!
# Runs under another tracking mode

Two emitters whose configurations differ in the tracking mode alone emit the same programs. Their
caches are the same but for the host names in them, and what decides the course of a run are the
dangerous names, which both modes track.
-/
namespace JsEmitter

variable {ι α : Type}

/-! ## All names are kept -/

section All

/-- Keeping all members of a set changes nothing. -/
theorem SortedSet.filter_true {α : Type} [Ord α] [Std.TransOrd α] [Std.LawfulEqOrd α]
    (set : SortedSet α) : set.filter (fun _ => true) = set := by
  ext member
  simp

/-- Changing no value of a table changes nothing. -/
theorem Table.mapValues_id {κ : Type} (transform : α → α) (same : ∀ value, transform value = value)
    (table : Table κ α) : table.mapValues transform = table :=
  Table.eq_of_entries (by simp [mapValues, same])

/-- Keeping all names of an artifact changes nothing. -/
theorem Artifact.only_all (artifact : Artifact α) : artifact.only (fun _ => true) = artifact := by
  rw [only, SortedSet.filter_true]

/-- Keeping all names of an entry changes nothing. -/
theorem CacheEntry.only_all (entry : CacheEntry α) : entry.only (fun _ => true) = entry := by
  have same : (Artifact.only (fun _ => true) : Artifact α → Artifact α) = id :=
    funext Artifact.only_all
  rw [only, same, Option.map_id]
  rfl

/-- Keeping all names of a slot changes nothing. -/
theorem OneTimeSlot.only_all (slot : OneTimeSlot α) : slot.only (fun _ => true) = slot := by
  have same : (Artifact.only (fun _ => true) : Artifact α → Artifact α) = id :=
    funext Artifact.only_all
  rw [only, same, Option.map_id]
  rfl

/-- Keeping all names of a keyed cache changes nothing. -/
theorem KeyedCache.only_all {κ : Type} (cache : KeyedCache κ α) :
    cache.only (fun _ => true) = cache := by
  rw [only, Table.mapValues_id _ CacheEntry.only_all]

/-- Keeping all names of the caches changes nothing. -/
theorem Caches.only_all (caches : Caches) : caches.only (fun _ => true) = caches := by
  have shells := Table.mapValues_id (ClassShell.only (fun _ => true))
    (fun shell => by rw [ClassShell.only]; simp only [OneTimeSlot.only_all]) caches.classes.shells
  have definitions := Table.mapValues_id (FullClassEntry.only (fun _ => true))
    (fun entry => by rw [FullClassEntry.only, Artifact.only_all]) caches.classes.fullClasses.table
  have modules := Table.mapValues_id (ModuleEntries.only (fun _ => true))
    (fun entries => by rw [ModuleEntries.only]; simp only [CacheEntry.only_all])
    caches.modules.table
  simp only [only, ClassCaches.only, FullClassCache.only, ModuleCaches.only, KeyedCache.only_all,
    OneTimeSlot.only_all, shells, definitions, modules]

/-- Keeping all names of an output changes nothing. -/
theorem ModuleOutput.only_all (output : ModuleOutput) :
    output.only (fun _ => true) = output := by
  rw [only, SortedSet.filter_true]

/-- Keeping all names of a pass changes nothing. -/
theorem Pass.only_all (pass : Pass) : pass.only (fun _ => true) = pass := by
  have same : (ModuleOutput.only (fun _ => true) : ModuleOutput → ModuleOutput) = id :=
    funext ModuleOutput.only_all
  rw [only, same, List.map_id]

end All

/-- The setting with another tracking mode. -/
def Setting.under (mode : Tracking) (setting : Setting) : Setting :=
  ⟨setting.config.under mode, setting.filter⟩

/-- The result with the host names that are kept. -/
def EmitResult.only (names : String → Bool) (result : EmitResult) : EmitResult :=
  { result with
    modules := result.modules.map (ModuleOutput.only names)
    refs := result.refs.filter names }

/-- The dangerous names are tracked under every mode. -/
theorem HostRefs.dangerous_filter (filter : DangerFilter) (mode : Tracking) (refs : HostRefs) :
    HostRefs.dangerous (refs.filter (mode.tracks filter)) filter = refs.dangerous filter := by
  ext name
  simp only [dangerous, SortedSet.mem_filter]
  cases mode with
  | all => simp [Tracking.tracks]
  | dangerous => simp [Tracking.tracks]

/-- Of the recorded names of a pass those that are kept remain. -/
theorem Pass.only_refs (names : String → Bool) (pass : Pass) :
    (pass.only names).refs = pass.refs.filter names := by
  have all : ∀ (outputs : List ModuleOutput) (known : HostRefs),
      (outputs.map (ModuleOutput.only names)).foldl (fun refs output => refs ∪ output.refs)
          (known.filter names) =
        (outputs.foldl (fun refs output => refs ∪ output.refs) known).filter names := by
    intro outputs
    induction outputs with
    | nil => exact fun _ => rfl
    | cons head rest ih =>
      intro known
      rw [List.map_cons, List.foldl_cons, List.foldl_cons, ← ih, SortedSet.filter_union]
      rfl
  exact all pass.outputs ∅

namespace Emitter

/-- The emitter under another tracking mode, with the host names that the mode tracks. -/
def under (mode : Tracking) (emitter : Emitter) : Emitter :=
  { emitter with
    config := emitter.config.under mode
    session := { emitter.session with
      caches := emitter.session.caches.only (mode.tracks emitter.filter) } }

/-- A new emitter under a mode is a new emitter with this mode. -/
theorem fresh_under (setting : Setting) (mode : Tracking) (supply : TokenSupply) :
    fresh (setting.under mode) supply = (fresh (setting.under .all) supply).under mode := rfl

/-- A new session can be started before or after the mode is set. -/
theorem assume_under (mode : Tracking) (emitter : Emitter) (assumed : HostRefs) :
    (emitter.under mode).assume assumed = (emitter.assume assumed).under mode := rfl

/-- Forgetting recorded names of a pass is forgetting them in the result. -/
theorem result_only (names : String → Bool) (mode : Tracking) (config : Config) (pass : Pass)
    (dangerous : HostRefs) (passes : Nat) :
    result (config.under mode) (pass.only names) dangerous passes =
      (result config pass dangerous passes).only names := by
  have sorted := List.map_mergeSort (f := ModuleOutput.only names) (l := pass.outputs)
    (r := fun first second : ModuleOutput => (compare first.id second.id).isLE)
    (s := fun first second : ModuleOutput => (compare first.id second.id).isLE)
    (fun _ _ _ _ => rfl)
  simp only [result, EmitResult.only, Pass.only_refs, sorted]
  rfl

/-- A pass gives what it gives when every name is tracked, but for the names that the mode does not
track. -/
theorem pass_under (program : Program) {emitter : Emitter}
    (tracking : emitter.config.tracking = .all) (mode : Tracking) :
    pass program (emitter.under mode) =
      match pass program emitter with
      | .ok pass reached => .ok (pass.only (mode.tracks emitter.filter)) (reached.under mode)
      | .error error reached => .error error (reached.under mode) := by
  obtain ⟨config, filter, assumed, caches⟩ := emitter
  have tracksAll : config.under .all = config := by
    rw [Config.under, ← tracking]
  obtain ⟨outcome, reached, ends⟩ := (Emission.emitPass_keepNames (fun mode => mode) config filter
    ⟨assumed⟩ program).ends caches
  have same : Emission.emitPass config filter ⟨assumed⟩ program caches =
      Step.ended outcome reached := by
    have all := ends .all
    rw [tracksAll] at all
    change Emission.emitPass config filter ⟨assumed⟩ program (caches.only (fun _ => true)) =
      Step.ended (outcome.map (Pass.only (fun _ => true))) (reached.only (fun _ => true)) at all
    rw [Caches.only_all, Caches.only_all] at all
    rw [all]
    cases outcome with
    | error error => rfl
    | ok pass => rw [Except.map, Pass.only_all]
  have seen : Emission.emitPass (config.under mode) filter ⟨assumed⟩ program
      (caches.only (mode.tracks filter)) = _ := ends mode
  simp only [pass, Step.onPart, under, Session.naming, same, seen]
  cases outcome <;> rfl

end Emitter

/-- Emitters in step, each under a tracking mode of its own: what they keep is the same but for the
host names, and all assume the same names. -/
structure UnderModes (setting : Setting) (history : List Program) (assumed : HostRefs)
    (modes : ι → Tracking) (emitters : ι → Emitter) : Prop where
  full : ∃ full : ι → Emitter, EmittersInStep (setting.under .all) history full ∧
    (∀ side, (full side).session.assumed = assumed) ∧
    ∀ side, emitters side = (full side).under (modes side)

namespace UnderModes

variable {setting : Setting} {history : List Program} {assumed : HostRefs} {modes : ι → Tracking}
  {emitters : ι → Emitter} {program : Program}

/-- The emitters differ in the mode of their configuration only. -/
theorem config (under : UnderModes setting history assumed modes emitters) (side : ι) :
    (emitters side).config = setting.config.under (modes side) := by
  obtain ⟨full, inStep, -, same⟩ := under.full
  rw [same side, Emitter.under, inStep.config side]
  rfl

/-- The emitters have the filter of the setting. -/
theorem filter (under : UnderModes setting history assumed modes emitters) (side : ι) :
    (emitters side).filter = setting.filter := by
  obtain ⟨full, inStep, -, same⟩ := under.full
  rw [same side]
  exact inStep.filter side

/-- The sessions of the emitters assume the same names. -/
theorem session_assumed (under : UnderModes setting history assumed modes emitters) (side : ι) :
    (emitters side).session.assumed = assumed := by
  obtain ⟨full, -, assumes, same⟩ := under.full
  rw [same side]
  exact assumes side

/-- The emitters accept the same programs. -/
theorem check (under : UnderModes setting history assumed modes emitters) (side : ι) :
    (emitters side).check program = (Emitter.fresh setting default).check program := by
  unfold Emitter.check
  rw [under.config side]
  rfl

/-- New emitters, whatever their supplies of tokens. -/
theorem fresh (setting : Setting) (history : List Program) (modes : ι → Tracking)
    (supplies : ι → TokenSupply) :
    UnderModes setting history ∅ modes
      (fun side => Emitter.fresh (setting.under (modes side)) (supplies side)) where
  full := ⟨fun side => Emitter.fresh (setting.under .all) (supplies side),
    .start (fun _ => ∅) supplies (fun _ => rfl) (fun _ => rfl) (fun _ => rfl), fun _ => rfl,
    fun side => Emitter.fresh_under setting (modes side) (supplies side)⟩

/-- New sessions of emitters in step. -/
theorem assume (under : UnderModes setting history assumed modes emitters) (others : HostRefs) :
    UnderModes setting history others modes (fun side => (emitters side).assume others) := by
  obtain ⟨full, inStep, -, same⟩ := under.full
  refine ⟨fun side => (full side).assume others,
    .start (fun _ => others) (fun side => (full side).session.caches.supply) inStep.config
      inStep.filter (fun _ => rfl), fun _ => rfl, fun side => ?_⟩
  rw [same side, Emitter.assume_under]

/-- A pass of emitters in step gives the same but for the host names that each mode tracks. -/
theorem pass (under : UnderModes setting history assumed modes emitters)
    (emitted : program ∈ history) :
    ∃ (outcome : Except EmitError Pass) (reached : ι → Emitter),
      UnderModes setting history assumed modes reached ∧
      ∀ side, Emitter.pass program (emitters side) =
        Step.ended (outcome.map (Pass.only ((modes side).tracks setting.filter)))
          (reached side) := by
  obtain ⟨full, inStep, assumes, same⟩ := under.full
  obtain ⟨outcome, caches, -, kept, ends⟩ := inStep.pass emitted
  refine ⟨outcome.map (PassPieces.pass (setting.under .all) ⟨assumed⟩),
    fun side => ((full side).withCaches (caches side)).under (modes side),
    ⟨fun side => (full side).withCaches (caches side), kept, assumes, fun _ => rfl⟩,
    fun side => ?_⟩
  have tracking : (full side).config.tracking = .all := by
    rw [inStep.config side]
    rfl
  have naming : (full side).session.naming = ⟨assumed⟩ := by rw [Session.naming, assumes side]
  rw [same side, Emitter.pass_under program tracking, ends side, inStep.filter side, naming]
  cases outcome <;> rfl

/-- The second pass of emitters in step. -/
theorem emitAgain (under : UnderModes setting history assumed modes emitters)
    (emitted : program ∈ history) (others : HostRefs) :
    ∃ (outcome : Except EmitError EmitResult) (reached : ι → Emitter),
      UnderModes setting history others modes reached ∧
      (∀ result, outcome = .ok result → others = result.dangerousRefs) ∧
      ∀ side, Emitter.emitAgain program others (emitters side) =
        Step.ended (outcome.map (EmitResult.only ((modes side).tracks setting.filter)))
          (reached side) := by
  obtain ⟨outcome, reached, kept, ends⟩ := (under.assume others).pass emitted
  cases outcome with
  | error error =>
    refine ⟨.error error, reached, kept, by rintro _ ⟨⟩, fun side => ?_⟩
    rw [Emitter.emitAgain_eq, ends side]
    rfl
  | ok pass =>
    have observed : ∀ side, (pass.only ((modes side).tracks setting.filter)).refs.dangerous
        (reached side).filter = pass.refs.dangerous setting.filter := fun side => by
      rw [kept.filter side, Pass.only_refs, HostRefs.dangerous_filter]
    by_cases stable : pass.refs.dangerous setting.filter = others
    · refine ⟨.ok (Emitter.result setting.config pass others 2), reached, kept,
        by rintro _ ⟨⟩; rfl, fun side => ?_⟩
      rw [Emitter.emitAgain_eq, ends side]
      simp only [Except.map, Step.ended, observed, if_pos stable, kept.config side,
        Emitter.result_only]
    · refine ⟨.error (.refsDiverged others (pass.refs.dangerous setting.filter)), reached, kept,
        by rintro _ ⟨⟩, fun side => ?_⟩
      rw [Emitter.emitAgain_eq, ends side]
      simp only [Except.map, Step.ended, observed, if_neg stable]

/-- A run of emitters in step: all fail alike, or all give the same but for the host names that
each mode tracks. -/
theorem emit (under : UnderModes setting history assumed modes emitters)
    (emitted : program ∈ history) :
    ∃ (outcome : Except EmitError EmitResult) (reached : ι → Emitter) (last : HostRefs),
      UnderModes setting history last modes reached ∧
      (∀ result, outcome = .ok result → last = result.dangerousRefs) ∧
      ∀ side, Emitter.emit program (emitters side) =
        Step.ended (outcome.map (EmitResult.only ((modes side).tracks setting.filter)))
          (reached side) := by
  cases checked : (Emitter.fresh setting default).check program with
  | error error =>
    exact ⟨.error error, emitters, assumed, under, by rintro _ ⟨⟩,
      fun side => Emitter.emit_refused ((under.check side).trans checked)⟩
  | ok =>
    obtain ⟨outcome, reached, kept, ends⟩ := under.pass emitted
    cases outcome with
    | error error =>
      refine ⟨.error error, reached, assumed, kept, by rintro _ ⟨⟩, fun side => ?_⟩
      rw [Emitter.emit_checked ((under.check side).trans checked), ends side]
      rfl
    | ok pass =>
      have observed : ∀ side, (pass.only ((modes side).tracks setting.filter)).refs.dangerous
          (reached side).filter = pass.refs.dangerous setting.filter := fun side => by
        rw [kept.filter side, Pass.only_refs, HostRefs.dangerous_filter]
      by_cases stable : pass.refs.dangerous setting.filter = assumed
      · refine ⟨.ok (Emitter.result setting.config pass assumed 1), reached, assumed, kept,
          by rintro _ ⟨⟩; rfl, fun side => ?_⟩
        rw [Emitter.emit_checked ((under.check side).trans checked), ends side]
        simp only [Except.map, Step.ended, observed, kept.session_assumed side, stable, if_true,
          kept.config side, Emitter.result_only]
      · obtain ⟨outcome, last, keptAgain, assumes, endsAgain⟩ :=
          kept.emitAgain emitted (pass.refs.dangerous setting.filter)
        refine ⟨outcome, last, _, keptAgain, assumes, fun side => ?_⟩
        rw [Emitter.emit_checked ((under.check side).trans checked), ends side]
        simp only [Except.map, Step.ended, observed, kept.session_assumed side, if_neg stable]
        exact endsAgain side

/-- Runs over programs keep emitters in step. -/
theorem afterAll {programs : List Program}
    (under : UnderModes setting history assumed modes emitters)
    (emitted : ∀ program ∈ programs, program ∈ history) :
    ∃ last, UnderModes setting history last modes
      (fun side => (emitters side).afterAll programs) := by
  induction programs generalizing emitters assumed with
  | nil => exact ⟨assumed, under⟩
  | cons first rest ih =>
    obtain ⟨outcome, reached, last, kept, -, ends⟩ := under.emit (emitted first List.mem_cons_self)
    have after : (fun side => (emitters side).after first) = reached := by
      funext side
      rw [Emitter.after, ends side]
      cases outcome <;> rfl
    exact ih (after ▸ kept) (fun program found => emitted program (List.mem_cons_of_mem _ found))

end UnderModes

/-- Two results that differ in no more than the recorded host names: the second one has the
dangerous ones among those of the first. -/
structure EmitResult.SameProgram (filter : DangerFilter) (every dangerous : EmitResult) :
    Prop where
  header : dangerous.header = every.header
  ids : dangerous.modules.map ModuleOutput.id = every.modules.map ModuleOutput.id
  imports : dangerous.modules.map ModuleOutput.imports = every.modules.map ModuleOutput.imports
  bodies : dangerous.modules.map ModuleOutput.body = every.modules.map ModuleOutput.body
  moduleRefs : dangerous.modules.map ModuleOutput.refs =
    every.modules.map (fun output => output.refs.dangerous filter)
  refs : dangerous.refs = every.refs.dangerous filter
  dangerousRefs : dangerous.dangerousRefs = every.dangerousRefs
  stats : dangerous.stats = every.stats
  passes : dangerous.passes = every.passes

/-- What is kept under the two modes of one result. -/
theorem EmitResult.sameProgram_only (filter : DangerFilter) (result : EmitResult) :
    EmitResult.SameProgram filter (result.only (Tracking.all.tracks filter))
      (result.only (Tracking.dangerous.tracks filter)) where
  header := rfl
  ids := by simp only [only, List.map_map]; rfl
  imports := by simp only [only, List.map_map]; rfl
  bodies := by simp only [only, List.map_map]; rfl
  moduleRefs := by
    simp only [only, List.map_map]
    refine List.map_congr_left (fun output _ => ?_)
    exact (HostRefs.dangerous_filter filter .all output.refs).symm
  refs := (HostRefs.dangerous_filter filter .all result.refs).symm
  dangerousRefs := rfl
  stats := rfl
  passes := rfl

namespace Emitter

/-- After the same runs, two emitters whose configurations differ in the tracking mode alone emit a
program alike: both fail with one error, or both give the same, and go on under the same assumed
names. -/
theorem emit_under (config : Config) (filter : DangerFilter) (supply other : TokenSupply)
    (earlier : List Program) (program : Program) :
    match emit program ((fresh ⟨config.under .all, filter⟩ supply).afterAll earlier),
      emit program ((fresh ⟨config.under .dangerous, filter⟩ other).afterAll earlier) with
    | .ok every reached, .ok dangerous last =>
      every.SameProgram filter dangerous ∧ last.session.assumed = reached.session.assumed
    | .error error _, .error cause _ => cause = error
    | _, _ => False := by
  let supplies : Tracking → TokenSupply := fun mode => if mode = .all then supply else other
  obtain ⟨assumed, kept⟩ := (UnderModes.fresh ⟨config, filter⟩ (program :: earlier)
    (fun mode => mode) supplies).afterAll (fun _ found => List.mem_cons_of_mem program found)
  obtain ⟨outcome, reached, last, holds, -, ends⟩ := kept.emit List.mem_cons_self
  have every : emit program ((fresh ⟨config.under .all, filter⟩ supply).afterAll earlier) = _ :=
    ends .all
  have dangerous :
      emit program ((fresh ⟨config.under .dangerous, filter⟩ other).afterAll earlier) = _ :=
    ends .dangerous
  rw [every, dangerous]
  cases outcome with
  | error error => rfl
  | ok result =>
    exact ⟨result.sameProgram_only filter,
      (holds.session_assumed .dangerous).trans (holds.session_assumed .all).symm⟩

end Emitter

end JsEmitter
