import JsEmitter.Proofs.LocalRevisions
import JsEmitter.Proofs.Statistics

/-!
# Local invalidation

After a program has been emitted by a new emitter, one of its methods is revised. The program is
emitted again in one pass that generates the code of this method anew, puts the definition of its
class together anew if the method is a member of it, and takes all else from the caches.
-/
namespace JsEmitter

variable {revision : Revision} {program : Program} {unit : Module} {linked : LinkedClass}
  {method : Versioned MethodDef}

namespace Emission

variable {config : Config} {filter : DangerFilter} {naming : Naming}

/-- A revised program is emitted in the same contexts. -/
theorem emitUnits_revise : emitUnits config filter naming (program.revise revision) =
    (program.revise revision).dependencyOrder.mapM
      (emitUnit (contexts config filter naming program)
        (importedIds program (.ofProgram program))) := by
  unfold emitUnits contexts
  rw [ClassIndex.ofProgram_revise, importedIds_revise]

/-- The modules of a program, from caches without results, and of the revised program after it. -/
theorem emitUnits_revises (targets : revision.Targets program unit linked method)
    (checked : program.Checked) (unique : program.UniqueMethods)
    (versioned : program.AllVersioned) :
    Revises (revision.changes (.ofClass unit.id linked) (linked.isFreeFunction method))
      (programCells (contexts config filter naming program) program)
      (emitUnits config filter naming program)
      (emitUnits config filter naming (program.revise revision))
      (emitUnits config filter naming (program.revise revision))
      (fun _ => List.Forall₂ (ModuleOutput.KeptOutside unit.id)) (List.Forall₂ Eq) := by
  rw [emitUnits_revise]
  exact mapM_emitUnit_revises _ (fun _ => rfl) versioned
    (fun _ placed _ there => targets.fits checked unique rfl placed there)
    (fun _ placed _ there => targets.marks checked unique rfl placed there)
    (programCells_nodup checked unique (fun _ => rfl))

/-- What a pass over a revised program does after one over the original program. -/
structure Invalidated (changed : Cell → Bool) (home : ModuleId) (given again : Pass)
    (reached last : Caches) : Prop where
  outputs : List.Forall₂ (ModuleOutput.KeptOutside home) given.outputs again.outputs
  classes : again.stats.classesInvalidated = 0
  methods : again.stats.methodsInvalidated = 1
  kept : ∀ key, changed (.definition key) = false →
    last.classes.fullClasses.token? key = reached.classes.fullClasses.token? key
  replaced : ∀ key, changed (.definition key) = true → ∃ old new,
    reached.classes.fullClasses.token? key = some old ∧
    last.classes.fullClasses.token? key = some new ∧ new ≠ old

section Definitions

variable {contexts : ModuleId → Lowering.Context} {changed : Cell → Bool}
  {before reached last : Caches} {key : ClassKey}
  (touched : before.Touched (programCells contexts program) reached)
  (recomputed : reached.Recomputes changed (programCells contexts program)
    reached.endRun.startRun last)

include touched recomputed

/-- A definition that is requested is another one in the end exactly if it is changed. -/
theorem token?_of_mem (found : .definition key ∈ programCells contexts program) :
    ∃ old new, reached.endRun.classes.fullClasses.token? key = some old ∧
      last.endRun.classes.fullClasses.token? key = some new ∧
      (new = old ↔ changed (.definition key) = false) := by
  have token : ∀ caches : Caches, caches.classes.fullClasses.token? key =
      (caches.content (.definition key)).map (fun entry => entry.artifact.token) := fun _ => rfl
  obtain ⟨old, new, first, second, same⟩ := recomputed.follows _ found
  refine ⟨old.artifact.token, new.artifact.token, ?_, ?_, same⟩
  · rw [token, touched.content_endRun found, first]
    rfl
  · rw [token, recomputed.touched.content_endRun found, second]
    rfl

/-- A definition that is not requested is not there in the end. -/
theorem token?_of_not_mem (missing : .definition key ∉ programCells contexts program)
    (clean : before.content (.definition key) = none) :
    last.endRun.classes.fullClasses.token? key =
      reached.endRun.classes.fullClasses.token? key := by
  have absent : ∀ {caches : Caches}, caches.content (.definition key) = none →
      caches.endRun.content (.definition key) = none := fun empty =>
    (Table.get?_filterValues _ _ _).trans (congrArg (Option.filter _) empty)
  have first := absent ((touched.others _ missing).trans clean)
  have second : last.content (.definition key) = none := by
    rw [recomputed.touched.others _ missing, Caches.content_startRun, first]
    rfl
  exact congrArg (Option.map (fun entry => entry.artifact.token))
    ((absent second).trans first.symm)

end Definitions

/-- A pass from caches without results, and another one over a revised program. -/
theorem emitPass_revised (targets : revision.Targets program unit linked method)
    (checked : program.Checked) (unique : program.UniqueMethods) (versioned : program.AllVersioned)
    {before after blank : Caches}
    (clean : ∀ cell : Cell, cell.Blank (before.startRun.content cell))
    (cleanAgain : ∀ cell : Cell, cell.Blank (blank.startRun.content cell)) {given : Pass}
    (ran : emitPass config filter naming program before = .ok given after) :
    ∃ again last other final,
      emitPass config filter naming (program.revise revision) after = .ok again last ∧
      emitPass config filter naming (program.revise revision) blank = .ok other final ∧
      again.outputs = other.outputs ∧
      Invalidated (revision.changes (.ofClass unit.id linked) (linked.isFreeFunction method))
        unit.id given again after last := by
  rw [emitPass_eq] at ran
  cases first : emitUnits config filter naming program before.startRun with
  | error error reached =>
    rw [first] at ran
    cases ran
  | ok outputs reached =>
    rw [first] at ran
    obtain ⟨rfl, rfl⟩ := EStateM.Result.ok.inj ran
    obtain ⟨touched, repeated⟩ := emitUnits_revises targets checked unique versioned
      before.startRun outputs reached (fun cell _ => clean cell) first
    obtain ⟨results, last, others, final, second, third, related, same, recomputed, -⟩ :=
      repeated reached.endRun.startRun blank.startRun (Nat.le_refl _)
        (fun cell found => by
          rw [Caches.content_startRun reached.endRun, touched.content_endRun found])
        (fun cell _ => cleanAgain cell)
    have cell : revision.cell (.ofClass unit.id linked) (linked.isFreeFunction method) ∈
        programCells (contexts config filter naming program) program :=
      targets.cell_mem (fun _ => rfl) checked (fun _ => rfl)
    have methods := Revision.countP_changes_methods
      (programCells_nodup checked unique (fun _ => rfl)) cell
    have counts := fun sort => recomputed.counted sort
    simp only [Caches.counters_startRun, CacheCounters.zero, Nat.zero_add] at counts
    refine ⟨⟨results, .ofCaches last.classes⟩, last.endRun,
      ⟨others, .ofCaches final.classes⟩, final.endRun, by rw [emitPass_eq, second],
      by rw [emitPass_eq, third], List.forall₂_eq_eq_eq ▸ same, related, ?_, ?_, ?_, ?_⟩
    · exact (counts .shells).trans Revision.countP_changes_shells
    · rw [← methods, ← counts, ← counts]
      rfl
    · intro key kept
      by_cases found : .definition key ∈
          programCells (contexts config filter naming program) program
      · obtain ⟨old, new, first, second, same⟩ := token?_of_mem touched recomputed found
        rw [first, second, same.2 kept]
      · exact token?_of_not_mem touched recomputed found (clean (.definition key))
    · intro key changes
      obtain ⟨old, new, first, second, same⟩ := token?_of_mem touched recomputed
        (targets.definition_mem (fun _ => rfl) changes)
      exact ⟨old, new, first, second, fun equal => by simp [same.1 equal] at changes⟩

end Emission

/-- Sorting keeps a correspondence of two lists in which the order is the same. -/
theorem forall₂_mergeSort {α : Type} {relation : α → α → Prop} {before : α → α → Bool}
    {items others : List α} (related : List.Forall₂ relation items others)
    (alike : ∀ {first second other another}, relation first other → relation second another →
      before first second = before other another) :
    List.Forall₂ relation (items.mergeSort before) (others.mergeSort before) := by
  have length := related.length_eq
  have pairs : ∀ pair ∈ items.zip others, relation pair.1 pair.2 :=
    fun pair found => List.forall₂_zip related found
  let order (first second : α × α) : Bool := before first.1 second.1
  have firsts : ((items.zip others).mergeSort order).map Prod.fst = items.mergeSort before := by
    rw [List.map_mergeSort (f := Prod.fst) (fun _ _ _ _ => rfl), List.map_fst_zip length.le]
  have seconds : ((items.zip others).mergeSort order).map Prod.snd = others.mergeSort before := by
    rw [List.map_mergeSort (f := Prod.snd) (fun first here second there =>
      alike (pairs first here) (pairs second there)), List.map_snd_zip length.ge]
  rw [← firsts, ← seconds, List.forall₂_map_left_iff, List.forall₂_map_right_iff,
    List.forall₂_same]
  exact fun pair found => pairs pair (List.mem_mergeSort.1 found)

namespace Emitter

variable {setting : Setting} {supply : TokenSupply} {reached : Emitter}

/-- New caches hold nothing that a request would reuse. -/
theorem withSupply_blank (supply : TokenSupply) (cell : Cell) :
    cell.Blank ((Caches.withSupply supply).startRun.content cell) := by
  cases cell with
  | keyed sort key => cases sort <;> rfl
  | _ => rfl

/-- A successful pass through the caches of an emitter is one of the emitter. -/
theorem pass_of_emitPass {emitter : Emitter} {given : Pass} {caches : Caches}
    (ran : Emission.emitPass emitter.config emitter.filter emitter.session.naming program
      emitter.session.caches = .ok given caches) :
    pass program emitter = .ok given (emitter.withCaches caches) := by
  unfold pass Step.onPart
  rw [ran]

/-- Passes from new sessions succeed together, and find the same names. -/
theorem pass_ok_of_pass_ok {assumed : HostRefs} {another : TokenSupply} {given : Pass}
    (ran : pass program ⟨setting.config, setting.filter, .start assumed another⟩ =
      .ok given reached) (others : HostRefs) (supply : TokenSupply) :
    ∃ found caches, pass program ⟨setting.config, setting.filter, .start others supply⟩ =
        .ok found ((⟨setting.config, setting.filter, .start others supply⟩ : Emitter).withCaches
          caches) ∧
      found.refs = given.refs := by
  have same := pass_sameNames setting program others assumed supply another
  rw [ran] at same
  cases started : pass program ⟨setting.config, setting.filter, .start others supply⟩ with
  | error error middle =>
    rw [started] at same
    cases same
  | ok found middle =>
    rw [started] at same
    obtain ⟨caches, rfl, -⟩ := pass_eq_ok started
    cases same with
    | passed _ names => exact ⟨found, caches, rfl, names⟩

/-- A new emitter finds the dangerous names that any pass from a new session finds. -/
theorem emit_fresh_of_pass (checked : (fresh setting supply).check program = .ok ())
    {assumed : HostRefs} {another : TokenSupply} {given : Pass}
    (ran : pass program ⟨setting.config, setting.filter, .start assumed another⟩ =
      .ok given reached) :
    ∃ other last, emit program (fresh setting supply) = .ok other last ∧
      other.dangerousRefs = given.refs.dangerous setting.filter := by
  let found := given.refs.dangerous setting.filter
  obtain ⟨first, caches, started, names⟩ := pass_ok_of_pass_ok ran ∅ supply
  obtain ⟨second, others, repeated, namesAgain⟩ := pass_ok_of_pass_ok ran found caches.supply
  let middle := (fresh setting supply).withCaches caches
  have start : pass program (fresh setting supply) = .ok first middle := started
  have again : pass program (middle.assume found) =
      .ok second ((middle.assume found).withCaches others) := repeated
  have ends : emit program (fresh setting supply) =
      if first.refs.dangerous setting.filter = ∅ then
        .ok (result setting.config first (first.refs.dangerous setting.filter) 1) middle
      else emitAgain program (first.refs.dangerous setting.filter) middle := by
    rw [emit_checked checked, start]
    rfl
  rw [ends, names]
  split
  · exact ⟨_, _, rfl, rfl⟩
  · rw [emitAgain_eq, again]
    exact ⟨_, _, if_pos (congrArg (HostRefs.dangerous · setting.filter) namesAgain), rfl⟩

/-- The last pass of a new emitter starts in a new session. -/
theorem emit_fresh_lastPass {given : EmitResult}
    (done : emit program (fresh setting supply) = .ok given reached) :
    (fresh setting supply).check program = .ok () ∧ ∃ assumed another last,
      pass program ⟨setting.config, setting.filter, .start assumed another⟩ = .ok last reached ∧
      last.refs.dangerous setting.filter = assumed ∧
      given = result setting.config last assumed given.passes := by
  obtain ⟨accepted, start, last, config, filter, ran, stable, same, origin⟩ := emit_lastPass done
  obtain ⟨assumed, another, session⟩ :
      ∃ assumed another, start.session = .start assumed another := by
    rcases origin with ⟨-, rfl⟩ | ⟨-, fresh⟩
    · exact ⟨∅, supply, rfl⟩
    · exact fresh
  obtain rfl : start = ⟨setting.config, setting.filter, .start assumed another⟩ := by
    cases start
    cases config
    cases filter
    cases session
    rfl
  obtain ⟨caches, rfl, -⟩ := pass_eq_ok ran
  exact ⟨accepted, assumed, another, last, ran, stable, same⟩

/-- After a program has been emitted by a new emitter, a local revision of it that uses the same
dangerous names is emitted in one pass. The code of the revised method is the only code of methods
that is generated anew. The definition of its class is another one exactly if the method is a member
of it, all other definitions are the same, and so are the outputs of all other modules. -/
theorem emit_revised (targets : revision.Targets program unit linked method)
    (unique : program.UniqueMethods) (versioned : program.AllVersioned) {given : EmitResult}
    (done : emit program (fresh setting supply) = .ok given reached)
    (dangerous : ∀ other last,
      emit (program.revise revision) (fresh setting supply) = .ok other last →
        other.dangerousRefs = given.dangerousRefs) :
    ∃ again last, emit (program.revise revision) reached = .ok again last ∧
      again.passes = 1 ∧ again.stats.methodsInvalidated = 1 ∧ again.stats.classesInvalidated = 0 ∧
      (linked.isFreeFunction method = false → ∃ old new,
        reached.session.caches.classes.fullClasses.token? (.ofClass unit.id linked) = some old ∧
        last.session.caches.classes.fullClasses.token? (.ofClass unit.id linked) = some new ∧
        new ≠ old) ∧
      (∀ key, (key = .ofClass unit.id linked → linked.isFreeFunction method = true) →
        last.session.caches.classes.fullClasses.token? key =
          reached.session.caches.classes.fullClasses.token? key) ∧
      List.Forall₂ (ModuleOutput.KeptOutside unit.id) given.modules again.modules := by
  obtain ⟨accepted, assumed, another, last, ran, stable, same⟩ := emit_fresh_lastPass done
  obtain ⟨caches, rfl, ranCaches⟩ := pass_eq_ok ran
  have checked := Program.validate_eq_ok_iff.1 (validate_of_check accepted)
  obtain ⟨again, ended, other, final, second, third, outputs, invalidated⟩ :=
    Emission.emitPass_revised targets checked unique versioned (withSupply_blank another)
      (withSupply_blank another) ranCaches
  let start : Emitter := ⟨setting.config, setting.filter, .start assumed another⟩
  have acceptedAgain : (fresh setting supply).check (program.revise revision) = .ok () :=
    check_revise revision accepted
  obtain ⟨found, _, emitted, names⟩ := emit_fresh_of_pass acceptedAgain (pass_of_emitPass third)
  -- What the pass over the revised program finds is what a new emitter finds for it.
  have settled : again.refs.dangerous setting.filter = assumed := by
    have refs : again.refs = other.refs := by rw [Pass.refs, Pass.refs, outputs]
    rw [refs, ← names, dangerous found _ emitted, same]
    rfl
  have ends : emit (program.revise revision) (start.withCaches caches) =
      .ok (result setting.config again assumed 1) ((start.withCaches caches).withCaches ended) := by
    have next : pass (program.revise revision) (start.withCaches caches) =
        .ok again ((start.withCaches caches).withCaches ended) := pass_of_emitPass second
    have ready : (start.withCaches caches).check (program.revise revision) = .ok () := acceptedAgain
    rw [emit_checked ready, next]
    exact (if_pos settled).trans (by rw [← settled]; rfl)
  refine ⟨_, _, ends, rfl, invalidated.methods, invalidated.classes,
    fun member => invalidated.replaced _ (by simp [Revision.changes, member]),
    fun key only => invalidated.kept key ?_, ?_⟩
  · rw [Revision.changes]
    by_cases own : key = .ofClass unit.id linked
    · simp [only own]
    · simp [own]
  · rw [same]
    exact forall₂_mergeSort invalidated.outputs (fun here there => by rw [here.1, there.1])

/-- The dangerous names of a run are those that it finds. -/
theorem dangerousRefs_eq {emitter : Emitter} {given : EmitResult}
    (done : emit program emitter = .ok given reached) :
    given.dangerousRefs = given.refs.dangerous emitter.filter := by
  obtain ⟨-, start, last, -, filter, ran, stable, same, -⟩ := emit_lastPass done
  obtain ⟨caches, rfl, -⟩ := pass_eq_ok ran
  rw [same, ← filter]
  exact stable.symm

end Emitter

/-- Another body for the method of the layered program. -/
def emptiedRun : Revision := ⟨⟨"app.A"⟩, .instancePublic, ⟨"run"⟩, .skip, .ofInt 2⟩

/-- The only method of a program of two modules is revised. It is a member of its class, so the
definition of this class is replaced. -/
theorem Emitter.emit_revised_layered : ∃ given reached,
    Emitter.emit layeredProgram (.fresh ⟨{ Config.standard with moduleKind := .esModule },
      fun name => name = "TypeError"⟩ default) = .ok given reached ∧
    given.passes = 2 ∧
    ∃ again last, Emitter.emit (layeredProgram.revise emptiedRun) reached = .ok again last ∧
      again.passes = 1 ∧ again.stats.methodsInvalidated = 1 ∧ again.stats.classesInvalidated = 0 ∧
      last.session.caches.classes.fullClasses.token? ⟨⟨"main"⟩, [⟨"app.A"⟩, .root]⟩ ≠
        reached.session.caches.classes.fullClasses.token? ⟨⟨"main"⟩, [⟨"app.A"⟩, .root]⟩ ∧
      last.session.caches.classes.fullClasses.token? ⟨⟨"lib"⟩, [.root]⟩ =
        reached.session.caches.classes.fullClasses.token? ⟨⟨"lib"⟩, [.root]⟩ := by
  let setting : Setting := ⟨{ Config.standard with moduleKind := .esModule },
    fun name => name = "TypeError"⟩
  have accepted : (Emitter.fresh setting default).check layeredProgram = .ok () := by
    decide +kernel
  obtain ⟨given, reached, done⟩ := Emitter.emit_fresh_ok setting default accepted (by decide)
  have targets : emptiedRun.Targets layeredProgram layeredProgram.modules[0]
      layeredProgram.modules[0].classes[0] layeredProgram.modules[0].classes[0].methods[0] :=
    { placed := List.mem_cons_self
      there := List.mem_cons_self
      found := List.mem_cons_self
      hit := by decide
      generated := by decide
      emitted := by decide
      separate := by decide
      differs := by decide +kernel
      names := fun _ => .rfl }
  -- The only dangerous name is one that both programs use.
  have only : ∀ {program : Program} {given : EmitResult} {reached : Emitter},
      Emitter.emit program (.fresh setting default) = .ok given reached →
      ∀ unit ∈ program.modules, unit.isRoot = true → ∀ name,
        name ∈ given.dangerousRefs ↔ name = "TypeError" := by
    intro program given reached done unit placed root name
    have used := Emitter.mem_dangerous_of_root done placed root rfl
    rw [Emitter.dangerousRefs_eq done]
    constructor
    · intro found
      exact of_decide_eq_true (SortedSet.mem_filter.1 found).2
    · rintro rfl
      exact used
  obtain ⟨again, last, emitted, passes, methods, classes, replaced, kept, -⟩ :=
    Emitter.emit_revised targets (by decide) (by decide +kernel) done (fun other last ran =>
      SortedSet.ext (fun name => (only ran _ (List.mem_cons_of_mem _ List.mem_cons_self) rfl
        name).trans (only done _ (List.mem_cons_of_mem _ List.mem_cons_self) rfl name).symm))
  refine ⟨given, reached, done, Emitter.emit_fresh_twice done
    (List.mem_cons_of_mem _ List.mem_cons_self) rfl rfl, again, last, emitted, passes, methods,
    classes, ?_, kept _ (by decide)⟩
  obtain ⟨old, new, first, second, differ⟩ := replaced (by decide)
  exact fun same => differ (Option.some.inj (second.symm.trans (same.trans first)))

end JsEmitter
