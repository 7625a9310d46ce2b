import JsEmitter.Proofs.ClassLayouts
import JsEmitter.Proofs.EmittablePrograms
import JsEmitter.Proofs.LinkedModules
import JsEmitter.Proofs.ModuleLayout
import JsEmitter.Proofs.Rearrangement
import JsEmitter.Proofs.ReachableEmitters
import Mathlib.Data.Finset.Card
import Mathlib.Data.List.Flatten

/-!
# Initialization order

A module defines a class after its superclasses, declares static fields after all definitions, and
calls static initializers, those of superclasses first, before it exports anything. Stages come one
after another, and within a stage classes stand by the number of their ancestors. An ancestor has
fewer ancestors if the lists of ancestors are closed, so that `Emitter.emit_initialization_order`
follows for every module of every run.
-/
namespace JsEmitter

open Emission

/-- Of two elements of a sorted list, the one that may not stand after the other stands before. -/
theorem pair_sublist_of_pairwise {α : Type} {R : α → α → Prop} {list : List α}
    (sorted : list.Pairwise R) {first second : α} (here : first ∈ list) (there : second ∈ list)
    (differ : first ≠ second) (strict : ¬R second first) : [first, second].Sublist list := by
  induction list with
  | nil => cases here
  | cons head rest ih =>
    obtain ⟨least, sorted⟩ := List.pairwise_cons.1 sorted
    rcases List.mem_cons.1 here with rfl | later
    · exact (List.singleton_sublist.2 (List.mem_of_ne_of_mem differ.symm there)).cons_cons _
    · rcases List.mem_cons.1 there with rfl | there
      · exact (strict (least first later)).elim
      · exact (ih sorted later there).cons _

/-- Where two elements stand one after the other, so does what they are replaced by. -/
theorem pair_sublist_flatMap {α β : Type} {list : List α} {parts : α → List β} {first second : α}
    (order : [first, second].Sublist list) {before after : β} (here : before ∈ parts first)
    (there : after ∈ parts second) : [before, after].Sublist (list.flatMap parts) := by
  have both : [before, after].Sublist ([first, second].flatMap parts) := by
    simpa using (List.singleton_sublist.2 here).append (List.singleton_sublist.2 there)
  exact both.trans (order.flatMap parts)

/-- Whether a class, if it descends from another one, descends from the ancestors of that class too,
but that class does not descend from it. -/
def LinkedClass.ExtendsAncestors (linked other : LinkedClass) : Prop :=
  other.name ∈ linked.ancestors → other.name ≠ linked.name →
    (∀ name ∈ other.ancestors, name ∈ linked.ancestors) ∧ linked.name ∉ other.ancestors

instance (linked other : LinkedClass) : Decidable (linked.ExtendsAncestors other) :=
  inferInstanceAs (Decidable (_ → _ → _ ∧ _))

/-- Whether the lists of ancestors have no repetitions and are closed. The root class has no
ancestor but itself. -/
structure Program.OrderedAncestors (program : Program) : Prop where
  distinct : ∀ unit ∈ program.modules, ∀ linked ∈ unit.classes, linked.ancestors.Nodup
  closed : ∀ unit ∈ program.modules, ∀ linked ∈ unit.classes,
    ∀ other ∈ program.modules, ∀ ancestor ∈ other.classes, linked.ExtendsAncestors ancestor
  root : ∀ unit ∈ program.modules, ∀ linked ∈ unit.classes, linked.name.isRoot = true →
    ∀ ancestor ∈ linked.ancestors, ancestor = linked.name

/-- Whether a part stands before another one. -/
def BodyLayout.Precedes (layout : BodyLayout) (first second : BodyPart) : Prop :=
  [first, second].Sublist layout.labels

/-- The order in which a module is initialized: no part stands twice, superclasses are defined and
initialized before their subclasses, and the stages keep their order. -/
structure Module.InitializedInOrder (unit : Module) (layout : BodyLayout) : Prop where
  once : layout.labels.Nodup
  definitions : ∀ parent ∈ unit.classes, ∀ linked ∈ unit.classes,
    parent.name ∈ linked.ancestors → parent.name ≠ linked.name →
      ∀ first ∈ ClassPart.defining, ∀ second ∈ ClassPart.defining,
        layout.Precedes (.ofClass parent.name first) (.ofClass linked.name second)
  initializers : ∀ parent ∈ unit.classes, ∀ linked ∈ unit.classes,
    parent.name ∈ linked.ancestors → parent.name ≠ linked.name →
      layout.Precedes (.ofClass parent.name (.shell .staticInitializers))
        (.ofClass linked.name (.shell .staticInitializers))
  fields : ∀ linked ∈ unit.classes, ∀ other ∈ unit.classes, ∀ part ∈ ClassPart.defining,
    layout.Precedes (.ofClass linked.name part) (.ofClass other.name (.shell .staticFields))
  initialized : ∀ linked ∈ unit.classes, ∀ other ∈ unit.classes,
    layout.Precedes (.ofClass linked.name (.shell .staticFields))
      (.ofClass other.name (.shell .staticInitializers))
  exported : ∀ linked ∈ unit.classes,
    layout.Precedes (.ofClass linked.name (.shell .staticInitializers))
      (.ofModule .topLevelExports)
  called : layout.Precedes (.ofModule .topLevelExports) (.ofModule .initializers)
  beforeRoot : ∀ root ∈ unit.classes, root.name.isRoot = true → ∀ part ∈ ClassPart.defining,
    layout.Precedes (.ofModule .beforeRoot) (.ofClass root.name part)
  afterRoot : ∀ root ∈ unit.classes, root.name.isRoot = true → ∀ part ∈ ClassPart.defining,
    layout.Precedes (.ofClass root.name part) (.ofModule .afterRoot)
  others : ∀ linked ∈ unit.classes, linked.name.isRoot = false → ∀ part ∈ ClassPart.defining,
    layout.Precedes (.ofModule .afterRoot) (.ofClass linked.name part)
  afterClasses : ∀ linked ∈ unit.classes, ∀ part ∈ ClassPart.defining,
    layout.Precedes (.ofClass linked.name part) (.ofModule .afterClasses)

/-- How the body of a module is put together: every class has all of its parts there, and the parts
stand in the order of initialization. -/
structure ModulePieces.InOrder (setting : Setting) (naming : Naming) (history : List Program)
    (program : Program) (unit : Module) (pieces : ModulePieces) : Prop where
  made : pieces.MadeFor setting history program unit
  body : pieces.body setting naming = (pieces.layout setting naming).trees
  parts : ∀ linked ∈ unit.classes, ∃ classPieces ∈ pieces.classes,
    classPieces.MadeFor setting history (program.site unit) linked ∧
    ∀ part, (.ofClass linked.name part, classPieces.partTrees setting naming part) ∈
      pieces.layout setting naming
  order : unit.InitializedInOrder (pieces.layout setting naming)

section Order

variable {setting : Setting} {naming : Naming} {history : List Program} {program : Program}
  {unit : Module} {pieces : ModulePieces}

/-- An ancestor of a class has fewer ancestors. -/
theorem Program.OrderedAncestors.length_lt (ordered : program.OrderedAncestors)
    (checked : program.Checked) (placed : unit ∈ program.modules) {parent linked : LinkedClass}
    (here : parent ∈ unit.classes) (there : linked ∈ unit.classes)
    (inherits : parent.name ∈ linked.ancestors) (differ : parent.name ≠ linked.name) :
    parent.ancestors.length < linked.ancestors.length := by
  obtain ⟨among, absent⟩ := ordered.closed unit placed linked there unit placed parent here
    inherits differ
  have own : linked.name ∈ linked.ancestors :=
    List.mem_of_mem_head? (checked.first unit placed linked there)
  have proper : parent.ancestors.toFinset ⊂ linked.ancestors.toFinset := by
    refine Finset.ssubset_iff_subset_ne.2 ⟨?_, fun same => ?_⟩
    · exact fun name found => List.mem_toFinset.2 (among name (List.mem_toFinset.1 found))
    · exact absent (List.mem_toFinset.1 (same ▸ List.mem_toFinset.2 own))
  have fewer := Finset.card_lt_card proper
  rwa [List.toFinset_card_of_nodup (ordered.distinct unit placed parent here),
    List.toFinset_card_of_nodup (ordered.distinct unit placed linked there)] at fewer

/-- A class with fewer ancestors is emitted first. -/
theorem Module.pair_sublist_emissionOrder {parent linked : LinkedClass}
    (here : parent ∈ unit.classes) (there : linked ∈ unit.classes)
    (fewer : parent.ancestors.length < linked.ancestors.length) :
    [parent, linked].Sublist unit.emissionOrder := by
  refine pair_sublist_of_pairwise unit.emissionOrder_sorted (mem_emissionOrder.2 here)
    (mem_emissionOrder.2 there) ?_ (fun early => ?_)
  · rintro rfl
    exact absurd fewer (Nat.lt_irrefl _)
  · have greater : compare linked.ancestors.length parent.ancestors.length = .gt :=
      Nat.compare_eq_gt.2 fewer
    simp [comesFirst, greater, Ordering.then] at early

/-- The pieces of the classes of a module, class by class. -/
theorem ModulePieces.MadeFor.exists_classes (made : pieces.MadeFor setting history program unit)
    (checked : program.Checked) (placed : unit ∈ program.modules) :
    ∃ classes : LinkedClass → ClassPieces, pieces.classes = unit.emissionOrder.map classes ∧
      ∀ linked ∈ unit.classes,
        (classes linked).MadeFor setting history (program.site unit) linked := by
  have some : Nonempty ClassPieces := ⟨⟨.root, [], none, fun _ => none⟩⟩
  obtain ⟨classes, same, each⟩ :=
    exists_map_of_forall₂ made.classes (emissionOrder_nodup checked placed)
  exact ⟨classes, same, fun linked there => each linked (Module.mem_emissionOrder.2 there)⟩

namespace ModulePieces

/-- The root class has no type support outside of the bootstrap library. -/
theorem MadeFor.body_eq (made : pieces.MadeFor setting history program unit) :
    pieces.body setting naming = (pieces.layout setting naming).trees := by
  refine ModulePieces.body_eq (fun root found => ?_)
  obtain ⟨there, named⟩ := List.mem_filter.1 found
  obtain ⟨linked, -, classMade⟩ := exists_of_forall₂ made.classes there
  rw [classMade.name] at named
  have tests := classMade.absent .instanceTests (by simp [LinkedClass.hasShellPart, named])
  have data := classMade.absent .typeData (by simp [LinkedClass.hasShellPart, named])
  simp [ClassPieces.fragments, ClassPieces.shellTrees, tests, data, Tracked.untracked]

/-- A part of an earlier stage stands before one of a later stage. -/
theorem precedes_of_stage {first second : BodyPart}
    (here : first ∈ (pieces.layout setting naming).labels)
    (there : second ∈ (pieces.layout setting naming).labels)
    (order : [first.stage, second.stage].Sublist Stage.all) :
    (pieces.layout setting naming).Precedes first second := by
  obtain ⟨entry, found, rfl⟩ := List.mem_map.1 here
  obtain ⟨other, exist, rfl⟩ := List.mem_map.1 there
  obtain ⟨stage, -, found⟩ := List.mem_flatMap.1 found
  obtain ⟨later, -, exist⟩ := List.mem_flatMap.1 exist
  rw [stage_of_mem found, stage_of_mem exist] at order
  exact (pair_sublist_flatMap order found exist).map Prod.fst

/-- The parts that a stage has of one class stand before those of the next. -/
theorem precedes_of_classes {classes : List ClassPieces} {parts : List ClassPart} (stage : Stage)
    (own : pieces.stageLayout setting naming stage =
      classLayout setting naming classes parts)
    {parent linked : ClassPieces} (order : [parent, linked].Sublist classes)
    {first second : ClassPart} (here : first ∈ parts) (there : second ∈ parts) :
    (pieces.layout setting naming).Precedes (.ofClass parent.name first)
      (.ofClass linked.name second) := by
  have within : (classLayout setting naming classes parts).Sublist
      (pieces.layout setting naming) := by
    rw [← own]
    exact List.sublist_flatten_of_mem (List.mem_map_of_mem (Stage.mem_all stage))
  have pair := (pair_sublist_flatMap order (parent.mem_layout setting naming here)
    (linked.mem_layout setting naming there)).trans within
  exact pair.map Prod.fst

/-- What a stage has of the module itself stands in its body. -/
theorem ofModule_mem_labels {stage : Stage} {trees : List Js.Tree}
    (alone : pieces.stageLayout setting naming stage = [(.ofModule stage, trees)]) :
    .ofModule stage ∈ (pieces.layout setting naming).labels :=
  List.mem_map.2 ⟨(.ofModule stage, trees), List.mem_flatMap.2 ⟨stage, Stage.mem_all stage,
    alone ▸ List.mem_singleton_self _⟩, rfl⟩

namespace MadeFor

variable (made : pieces.MadeFor setting history program unit)

include made

/-- Every class of a module has all of its parts in the body. -/
theorem exists_parts {linked : LinkedClass} (there : linked ∈ unit.classes) :
    ∃ classPieces ∈ pieces.classes,
      classPieces.MadeFor setting history (program.site unit) linked ∧
      ∀ part, (.ofClass linked.name part, classPieces.partTrees setting naming part) ∈
        pieces.layout setting naming := by
  obtain ⟨classPieces, found, classMade⟩ :=
    exists_of_forall₂ made.classes.flip (Module.mem_emissionOrder.2 there)
  exact ⟨classPieces, found, classMade, fun part => classMade.name ▸ mem_layout found part⟩

/-- All parts of a class of the module are labelled in its layout. -/
theorem ofClass_mem_labels {linked : LinkedClass} (there : linked ∈ unit.classes)
    (part : ClassPart) :
    .ofClass linked.name part ∈ (pieces.layout setting naming).labels := by
  obtain ⟨classPieces, -, -, parts⟩ := made.exists_parts there
  exact List.mem_map_of_mem (parts part)

variable (checked : program.Checked) (placed : unit ∈ program.modules)

include checked placed

/-- The pieces of a module are of different classes. -/
theorem classes_nodup : (pieces.classes.map ClassPieces.name).Nodup := by
  have names : pieces.classes.map ClassPieces.name =
      unit.emissionOrder.map LinkedClass.name := by
    rw [map_eq_map_iff]
    exact made.classes.flip.imp (fun _ _ classMade => classMade.name)
  rw [names]
  exact ((List.mergeSort_perm unit.classes _).map _).nodup_iff.2 (checked.classNames_nodup placed)

/-- Of two classes of a module, those with fewer ancestors have their pieces first. -/
theorem pair_sublist_classes {parent linked : LinkedClass} (here : parent ∈ unit.classes)
    (there : linked ∈ unit.classes)
    (fewer : parent.ancestors.length < linked.ancestors.length) :
    ∃ before after : ClassPieces, before.name = parent.name ∧ after.name = linked.name ∧
      [before, after].Sublist pieces.classes := by
  obtain ⟨classes, same, each⟩ := made.exists_classes checked placed
  refine ⟨classes parent, classes linked, (each parent here).name, (each linked there).name, ?_⟩
  rw [same]
  exact (Module.pair_sublist_emissionOrder here there fewer).map classes

/-- The parts of a module stand in the order of initialization. -/
theorem initializedInOrder (ordered : program.OrderedAncestors) :
    unit.InitializedInOrder (pieces.layout setting naming) where
  once := labels_nodup (made.classes_nodup checked placed)
  definitions parent here linked there inherits differ first defines second forms := by
    have fewer := ordered.length_lt checked placed here there inherits differ
    obtain ⟨before, after, names, others, order⟩ :=
      made.pair_sublist_classes checked placed here there fewer
    have descends : linked.name.isRoot = false := by
      refine Bool.eq_false_iff.2 (fun root => differ ?_)
      exact ordered.root unit placed linked there root _ inherits
    cases root : parent.name.isRoot with
    | true =>
      refine precedes_of_stage (made.ofClass_mem_labels here first)
        (made.ofClass_mem_labels there second) ?_
      simp only [BodyPart.stage_of_defining defines, BodyPart.stage_of_defining forms, root,
        descends]
      decide
    | false =>
      rw [← names] at root ⊢
      rw [← others] at descends ⊢
      have among : [before, after].Sublist pieces.others := by
        simpa [ModulePieces.others, root, descends] using
          order.filter (fun classPieces => !classPieces.name.isRoot)
      exact precedes_of_classes .otherClasses rfl among defines forms
  initializers parent here linked there inherits differ := by
    have fewer := ordered.length_lt checked placed here there inherits differ
    obtain ⟨before, after, names, others, order⟩ :=
      made.pair_sublist_classes checked placed here there fewer
    rw [← names, ← others]
    exact precedes_of_classes .staticInitializers rfl order (List.mem_singleton_self _)
      (List.mem_singleton_self _)
  fields linked here other there part defines := by
    refine precedes_of_stage (made.ofClass_mem_labels here part)
      (made.ofClass_mem_labels there _) ?_
    rw [BodyPart.stage_of_defining defines]
    change [_, Stage.staticFields].Sublist _
    split <;> decide
  initialized linked here other there := by
    refine precedes_of_stage (made.ofClass_mem_labels here _) (made.ofClass_mem_labels there _) ?_
    change [Stage.staticFields, Stage.staticInitializers].Sublist _
    decide
  exported linked here := by
    refine precedes_of_stage (made.ofClass_mem_labels here _) (ofModule_mem_labels rfl) ?_
    change [Stage.staticInitializers, Stage.topLevelExports].Sublist _
    decide
  called := precedes_of_stage (ofModule_mem_labels rfl) (ofModule_mem_labels rfl) (by decide)
  beforeRoot root here named part defines := by
    refine precedes_of_stage (ofModule_mem_labels rfl) (made.ofClass_mem_labels here part) ?_
    rw [BodyPart.stage_of_defining defines, if_pos named]
    decide
  afterRoot root here named part defines := by
    refine precedes_of_stage (made.ofClass_mem_labels here part) (ofModule_mem_labels rfl) ?_
    rw [BodyPart.stage_of_defining defines, if_pos named]
    decide
  others linked here other part defines := by
    refine precedes_of_stage (ofModule_mem_labels rfl) (made.ofClass_mem_labels here part) ?_
    rw [BodyPart.stage_of_defining defines, other]
    decide
  afterClasses linked here part defines := by
    refine precedes_of_stage (made.ofClass_mem_labels here part) (ofModule_mem_labels rfl) ?_
    rw [BodyPart.stage_of_defining defines]
    split <;> decide

end MadeFor

end ModulePieces

end Order

/-- Every module of a run is put together in the order of initialization, if the ancestors of the
classes are closed. -/
theorem Emitter.emit_initialization_order {emitter : Emitter} (reachable : emitter.Reachable)
    {program : Program} (ordered : program.OrderedAncestors) {given : EmitResult}
    {reached : Emitter} (done : Emitter.emit program emitter = .ok given reached) :
    ∃ (history : List Program) (parts : Module → ModulePieces),
      given.modules.Perm (program.modules.map (fun unit =>
        (parts unit).output ⟨emitter.config, emitter.filter⟩ reached.session.naming)) ∧
      ∀ unit ∈ program.modules, (parts unit).InOrder ⟨emitter.config, emitter.filter⟩
        reached.session.naming history program unit := by
  obtain ⟨setting, history, emitted, sound⟩ := reachable.exists_sound program
  obtain rfl : setting = ⟨emitter.config, emitter.filter⟩ := by
    rw [sound.config (), sound.filter ()]
  obtain ⟨checked, parts, modules, made⟩ := Sound.emit_parts sound emitted done
  refine ⟨history, parts, modules, fun unit placed => ⟨made unit placed, ?_, ?_, ?_⟩⟩
  · exact (made unit placed).body_eq
  · exact fun linked there => (made unit placed).exists_parts there
  · exact (made unit placed).initializedInOrder checked placed ordered

/-- A class with a static field, a static initializer, and some ancestors. -/
def dynastClass (name : ClassName) (ancestors : List ClassName) : LinkedClass :=
  { ((LinkedClass.start name .plain).addField ⟨"count"⟩ .int true).addMethod
      ⟨⟨"<clinit>"⟩, .staticConstructor, [], .globalRef "log"⟩ firstVersion with
    ancestors := name :: ancestors
    superClass? := ancestors.head?
    hasInstances := true
    hasInstanceTests := true
    hasTypeData := true }

/-- A program of three generations in one module, the last one with the first name. -/
def dynastyProgram : Program :=
  ⟨[{ Module.start ⟨"main"⟩ with
      isRoot := true
      classes := [dynastClass ⟨"app.A"⟩ [⟨"app.B"⟩, .root], dynastClass ⟨"app.B"⟩ [.root],
        dynastClass .root []]
      topLevelExports := [⟨"A", .jsClass ⟨"app.A"⟩, firstVersion⟩]
      initializers := [⟨⟨"app.A"⟩, ⟨"main"⟩⟩] }]⟩

/-- Three generations in one module are initialized from the first to the last. -/
theorem Emitter.emit_initialization_order_dynasty : ∃ given reached,
    Emitter.emit dynastyProgram (.start .standard) = .ok given reached ∧
    ∃ (history : List Program) (parts : Module → ModulePieces),
      given.modules.Perm (dynastyProgram.modules.map (fun unit =>
        (parts unit).output ⟨.standard, .standard⟩ reached.session.naming)) ∧
      ∀ unit ∈ dynastyProgram.modules, (parts unit).InOrder ⟨.standard, .standard⟩
        reached.session.naming history dynastyProgram unit := by
  have accepted : (Emitter.start .standard).check dynastyProgram = .ok () := by decide +kernel
  have ordered : dynastyProgram.OrderedAncestors :=
    ⟨by decide +kernel, by decide +kernel, by decide +kernel⟩
  obtain ⟨given, reached, done⟩ :=
    Emitter.emit_fresh_ok ⟨.standard, .standard⟩ default accepted (by decide)
  exact ⟨given, reached, done, Emitter.emit_initialization_order (.start .standard) ordered done⟩

end JsEmitter
