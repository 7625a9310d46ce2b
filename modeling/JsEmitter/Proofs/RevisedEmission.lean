import JsEmitter.Proofs.RevisedCode
import JsEmitter.Proofs.RevisedRequests
import JsEmitter.Proofs.StableReemission

/-!
# Emission of revised programs

The functions of the emission make the same requests for a revised program as for the original one,
except that the revised method is requested under another version, and the definition of its class
is put together from another part. So every function of the emission corresponds to itself after the
revision, in the sense of `Revises`.
-/
namespace JsEmitter

open Js (Tree)
open Lowering (Context ConstructorParts Bootstrap)

/-- The cells that a revision of a method changes: those of its code and, unless the method is a
free function, of the definition of its class. -/
def Revision.changes (revision : Revision) (key : ClassKey) (free : Bool) : Cell → Bool
  | .keyed .functions other => free && decide (other = (key, revision.home, revision.name))
  | .keyed .members other => !free && decide (other = (key, revision.name))
  | .definition other => !free && decide (other = key)
  | _ => false

/-- Whether the changed cells of a class are those of the methods that are revised. -/
structure Revision.Marks (revision : Revision) (changed : Cell → Bool) (context : Context)
    (linked : LinkedClass) : Prop where
  functions : ∀ method ∈ context.freeFunctions linked,
    changed (.keyed .functions (.ofClass context.home linked, method.value.home,
      method.value.name)) = revision.hits linked.name method
  members : ∀ method ∈ Context.memberMethods linked,
    changed (.keyed .members (.ofClass context.home linked, method.value.name)) =
      revision.hits linked.name method
  definition : changed (.definition (.ofClass context.home linked)) =
    (Context.memberMethods linked).any (revision.hits linked.name)

/-- Whether the output of a module is as before, unless it is the one with some id. -/
def ModuleOutput.KeptOutside (home : ModuleId) (before after : ModuleOutput) : Prop :=
  after.id = before.id ∧ (before.id ≠ home → after = before)

namespace Emission

variable {revision : Revision} {key : ClassKey} {free : Bool} {context : Context}
  {linked : LinkedClass}

/-- How the code of a class before and after a revision corresponds: it is there in the same places,
and the same if nothing is changed. -/
structure SameOutline (first second : ClassFragments) : Prop where
  name : second.name = first.name
  main : second.main = [] ↔ first.main = []
  typeSupport : second.typeSupport = first.typeSupport
  staticFields : second.staticFields = first.staticFields
  staticInitializers : second.staticInitializers = first.staticInitializers

/-- The definition of a class from its parts. -/
def assembleDefinition (context : Context) (linked : LinkedClass)
    (ctor : Artifact ConstructorParts) (members : List (Artifact Tree))
    (exported : List (Artifact (List Tree))) : Step EmitError Caches (Tracked (List Tree)) := do
  let full ← Caches.requestFullClass (.ofClass context.home linked) (context.classVersion linked)
    ⟨some ctor.token, members.map Artifact.token, exported.map Artifact.token⟩
    (fun _ => .ok (context.fullClass linked ctor.value (members.map Artifact.value)
      (exported.map Artifact.value)))
  return ⟨full.value,
    ctor.refs ∪ (collect members).refs ∪ (collect exported).refs ∪ full.refs⟩

section Classes

variable (fits : revision.Fits context linked) (versioned : linked.AllVersioned)
  (marks : revision.Marks (revision.changes key free) context linked)

include fits

/-- Requests for some methods of a class. -/
theorem mapM_methods_revises (sort : KeyedSort) {methods : List (Versioned MethodDef)}
    {keyOf : Versioned MethodDef → sort.Key} {code : MethodDef → Tracked sort.Value}
    {changed : Cell → Bool} (versioned : linked.AllVersioned)
    (named : ∀ method, keyOf (revision.apply linked.name method) = keyOf method)
    (own : ∀ method ∈ methods, method ∈ linked.methods)
    (marks : ∀ method ∈ methods,
      changed (.keyed sort (keyOf method)) = revision.hits linked.name method)
    (distinct : (methods.map (fun method => Cell.keyed sort (keyOf method))).Nodup) :
    Revises changed (methods.map (fun method => .keyed sort (keyOf method)))
      (methods.mapM (fun method => Caches.requestKeyed sort (keyOf method)
        (context.methodVersion linked method) (fun _ => .ok (code method.value))))
      ((methods.map (revision.apply linked.name)).mapM (fun method =>
        Caches.requestKeyed sort (keyOf method)
          (context.methodVersion (linked.revise revision) method)
          (fun _ => .ok (code method.value))))
      ((methods.map (revision.apply linked.name)).mapM (fun method =>
        Caches.requestKeyed sort (keyOf method)
          (context.methodVersion (linked.revise revision) method)
          (fun _ => .ok (code method.value))))
      Artifact.AllKept (List.Forall₂ (fun value other => value.tracked = other.tracked)) := by
  rw [List.map_eq_flatMap (f := fun method => Cell.keyed sort (keyOf method))] at distinct ⊢
  rw [List.mapM_map]
  refine Revises.mapM .nil .cons distinct (fun method found => ?_)
  simp only [Function.comp_apply, named]
  cases hit : revision.hits linked.name method with
  | false =>
    rw [Revision.apply_of_misses hit]
    exact Revises.keyed_of_same sort _ (versioned.methodVersion context (own method found))
      ((marks method found).trans hit)
  | true =>
    exact Revises.keyed_of_differs sort _ _
      (Context.methodVersion_revise fits (own method found) hit) ((marks method found).trans hit)

include versioned marks

/-- The free functions of a class are emitted anew if the revision changes one of them. -/
theorem emitFunctions_revises (distinct : (functionCells context linked).Nodup) :
    Revises (revision.changes key free) (functionCells context linked)
      (emitFunctions context linked) (emitFunctions context (linked.revise revision))
      (emitFunctions context (linked.revise revision)) Artifact.AllKept
      (List.Forall₂ (fun value other => value.tracked = other.tracked)) := by
  unfold emitFunctions
  rw [Context.freeFunctions_revise fits]
  exact mapM_methods_revises fits .functions versioned (fun _ => by simp)
    (fun _ found => (List.mem_filter.1 found).1) marks.functions distinct

/-- The member methods of a class are emitted anew if the revision changes one of them. -/
theorem emitMembers_revises (distinct : ((Context.memberMethods linked).map (fun method =>
      Cell.keyed .members (.ofClass context.home linked, method.value.name))).Nodup) :
    Revises (revision.changes key free)
      ((Context.memberMethods linked).map (fun method =>
        .keyed .members (.ofClass context.home linked, method.value.name)))
      (emitMembers context linked) (emitMembers context (linked.revise revision))
      (emitMembers context (linked.revise revision)) Artifact.AllKept
      (List.Forall₂ (fun value other => value.tracked = other.tracked)) := by
  unfold emitMembers
  rw [Context.memberMethods_revise]
  exact mapM_methods_revises fits .members versioned (fun _ => by simp)
    (fun _ found => List.mem_of_mem_filter found) marks.members distinct

omit fits versioned marks in
/-- Requests to a keyed cache that are made for the same versions before and after a revision. -/
theorem mapM_keyed_revises {γ : Type} (sort : KeyedSort) {items : List γ} {keyOf : γ → sort.Key}
    {version : γ → Version} {own : γ → Tracked sort.Value} {changed : Cell → Bool}
    (versioned : ∀ item ∈ items, (version item).isVersioned = true)
    (kept : ∀ item ∈ items, changed (.keyed sort (keyOf item)) = false)
    (distinct : (items.map (fun item => Cell.keyed sort (keyOf item))).Nodup) :
    Revises changed (items.map (fun item => .keyed sort (keyOf item)))
      (items.mapM (fun item => Caches.requestKeyed sort (keyOf item) (version item)
        (fun _ => .ok (own item))))
      (items.mapM (fun item => Caches.requestKeyed sort (keyOf item) (version item)
        (fun _ => .ok (own item))))
      (items.mapM (fun item => Caches.requestKeyed sort (keyOf item) (version item)
        (fun _ => .ok (own item))))
      (fun _ => Artifact.AllKept false)
      (List.Forall₂ (fun value other => value.tracked = other.tracked)) := by
  have none : (items.map (fun item => Cell.keyed sort (keyOf item))).any changed = false := by
    simpa using kept
  rw [List.map_eq_flatMap (f := fun item => Cell.keyed sort (keyOf item))] at distinct none ⊢
  have all : Revises changed _ _ _ _ Artifact.AllKept _ :=
    Revises.mapM .nil .cons distinct (fun item found =>
      Revises.keyed_of_same sort (.ok (own item)) (versioned item found) (kept item found))
  exact all.imp (fun values results relation => none ▸ relation)

omit fits versioned marks in
/-- A class definition is never empty. -/
theorem fullClass_ne_nil (ctor : ConstructorParts) (members : List Tree)
    (exported : List (List Tree)) :
    (context.fullClass linked ctor members exported).value ≠ [] := by
  unfold Context.fullClass
  split
  · exact List.cons_ne_nil _ _
  · exact List.cons_ne_nil _ _

omit fits versioned marks in
/-- A definition is put together anew exactly if a part of it is another one. -/
theorem assembleDefinition_revises {changed : Cell → Bool}
    {ctor otherCtor moreCtor : Artifact ConstructorParts}
    {members others more : List (Artifact Tree)}
    {exported otherExported moreExported : List (Artifact (List Tree))}
    (versioned : (context.classVersion linked).isVersioned = true)
    (keptCtor : ctor.Kept false otherCtor)
    (keptMembers : Artifact.AllKept (changed (.definition (.ofClass context.home linked)))
      members others)
    (keptExported : Artifact.AllKept false exported otherExported)
    (sameCtor : otherCtor.tracked = moreCtor.tracked)
    (sameMembers : others.map Artifact.tracked = more.map Artifact.tracked)
    (sameExported : otherExported.map Artifact.tracked = moreExported.map Artifact.tracked) :
    Revises changed [.definition (.ofClass context.home linked)]
      (assembleDefinition context linked ctor members exported)
      (assembleDefinition context linked otherCtor others otherExported)
      (assembleDefinition context linked moreCtor more moreExported)
      (fun changed first second => (changed = false → second = first) ∧ first.value ≠ [] ∧
        second.value ≠ []) Eq := by
  have values : ∀ {α : Type} {firsts seconds : List (Artifact α)},
      firsts.map Artifact.tracked = seconds.map Artifact.tracked →
        firsts.map Artifact.value = seconds.map Artifact.value := by
    intro α firsts seconds same
    have read := congrArg (List.map Tracked.value) same
    rwa [List.map_map, List.map_map] at read
  have ctorTracked := keptCtor.tracked rfl
  have exportedTracked := keptExported.tracked rfl
  unfold assembleDefinition collect
  rw [← sameMembers, ← sameExported, ← values sameMembers, ← values sameExported,
    exportedTracked, values exportedTracked,
    show moreCtor.value = otherCtor.value from congrArg Tracked.value sameCtor.symm,
    show moreCtor.refs = otherCtor.refs from congrArg Tracked.refs sameCtor.symm,
    show otherCtor.value = ctor.value from congrArg Tracked.value ctorTracked,
    show otherCtor.refs = ctor.refs from congrArg Tracked.refs ctorTracked]
  have sameParts : changed (.definition (.ofClass context.home linked)) = false →
      others.map Artifact.token = members.map Artifact.token ∧
      others.map Artifact.tracked = members.map Artifact.tracked :=
    fun none => ⟨keptMembers.tokens.2 none, keptMembers.tracked none⟩
  refine (Revises.definition versioned (fun none => ⟨?_, ?_⟩) (fun changes same => ?_)).map
    (List.nodup_singleton _)
    (fun full other again relation agrees => ⟨⟨fun none => ?_, ?_, ?_⟩, ?_⟩)
  · rw [(sameParts none).1, keptCtor.token.2 rfl, keptExported.tokens.2 rfl]
  · rw [values (sameParts none).2]
  · have tokens := keptMembers.tokens.1 (congrArg DefinitionParts.members same)
    rw [changes] at tokens
    cases tokens
  · have tracked := (sameParts (by simpa using none)).2
    have whole : other.tracked = full.tracked := by
      rw [relation.1, relation.2, values tracked]
    rw [tracked, show other.value = full.value from congrArg Tracked.value whole,
      show other.refs = full.refs from congrArg Tracked.refs whole]
  · rw [show full.value = _ from congrArg Tracked.value relation.1]
    exact fullClass_ne_nil _ _ _
  · rw [show other.value = _ from congrArg Tracked.value relation.2]
    exact fullClass_ne_nil _ _ _
  · rw [show other.value = again.value from congrArg Tracked.value agrees,
      show other.refs = again.refs from congrArg Tracked.refs agrees]

/-- A definition is put together anew exactly if it has a revised member. -/
theorem emitDefinition_revises (distinct : (definitionCells context linked).Nodup) :
    Revises (revision.changes key free) (definitionCells context linked)
      (emitDefinition context linked) (emitDefinition context (linked.revise revision))
      (emitDefinition context (linked.revise revision))
      (fun changed first second => (changed = false → second = first) ∧ first.value ≠ [] ∧
        second.value ≠ []) Eq := by
  have parts := List.nodup_append.1 distinct
  have bridged := List.nodup_append.1 parts.2.1
  have built := List.nodup_cons.1 bridged.2.1
  have marked : ((Context.memberMethods linked).map (fun method =>
      Cell.keyed .members (.ofClass context.home linked, method.value.name))).any
        (revision.changes key free) =
      revision.changes key free (.definition (.ofClass context.home linked)) := by
    rw [marks.definition, List.any_map, Bool.eq_iff_iff, List.any_eq_true, List.any_eq_true]
    exact exists_congr (fun method => and_congr_right (fun found => by
      rw [Function.comp_apply, marks.members method found]))
  unfold emitDefinition definitionCells
  rw [emitBridges_revise, emitExportedMembers_revise fits, Context.constructorVersion_revise fits,
    Context.constructorParts_revise fits, Context.classVersion_revise fits]
  refine (emitMembers_revises fits versioned marks parts.1).andThen distinct
    (fun methods others more keptMethods sameMethods => ?_)
  refine Revises.andThen (mapM_keyed_revises .bridges (fun _ _ => rfl) (fun _ _ => rfl) bridged.1)
    parts.2.1 (fun bridges otherBridges moreBridges keptBridges sameBridges => ?_)
  refine Revises.request (Revises.keyed_of_same .constructors _
    (versioned.constructorVersion context) rfl) bridged.2.1
    (fun ctor otherCtor moreCtor keptCtor sameCtor => ?_)
  refine Revises.andThen (mapM_keyed_revises .exportedMembers
      (fun member found => versioned.exportedMemberVersion context
        (List.fst_mem_of_mem_zipIdx found)) (fun _ _ => rfl)
      (List.nodup_append.1 built.2).1)
    built.2 (fun exported otherExported moreExported keptExported sameExported => ?_)
  rw [marked] at keptMethods
  have members := keptMethods.append keptBridges
  rw [Bool.or_false] at members
  refine (assembleDefinition_revises (versioned.classVersion context) keptCtor members keptExported
    sameCtor (map_eq_map_iff.2 (List.rel_append sameMethods sameBridges))
    (map_eq_map_iff.2 sameExported)).imp (fun first second relation => ?_)
  refine ⟨fun none => relation.1 ?_, relation.2⟩
  simp only [Bool.or_eq_false_iff] at none
  exact none.2.2.2.2

omit fits versioned marks in
/-- A piece of a class is the same before and after a revision, and so are others after it. -/
theorem emitShellPart_andThen_revises {α : Type} {changed : Cell → Bool} {part : ShellPart}
    {present : Bool} {trees : Unit → Tracked (List Tree)} {others : List ShellPart}
    {next : Tracked (List Tree) → Step EmitError Caches α}
    (distinct : (Comparison.optionalPart part present ++ others).Nodup)
    (rest : ∀ piece, Revises changed (others.map (Cell.slot (.ofClass context.home linked)))
      (next piece) (next piece) (next piece) (fun _ first second => second = first) Eq) :
    Revises changed ((Comparison.optionalPart part present ++ others).map
        (Cell.slot (.ofClass context.home linked)))
      (emitShellPart context linked part present trees >>= next)
      (emitShellPart context linked part present trees >>= next)
      (emitShellPart context linked part present trees >>= next)
      (fun _ first second => second = first) Eq := by
  have apart : Function.Injective (Cell.slot (.ofClass context.home linked)) :=
    fun _ _ same => (Cell.slot.inj same).2
  have cells := distinct.map apart
  unfold emitShellPart
  cases present with
  | true =>
    rw [List.map_append] at cells ⊢
    simp only [if_true, bind_assoc, pure_bind]
    exact (Revises.slot (trees ())).andThen cells (fun value result other here there => by
      rw [show result.tracked = value.tracked from here.symm,
        show other.tracked = value.tracked from (here.trans there).symm]
      exact rest value.tracked)
  | false => exact rest _

omit marks in
/-- A revision leaves the shell of a class. -/
theorem emitShell_revises :
    Revises (revision.changes key free) (shellCells (.ofClass context.home linked))
      (emitShell context linked) (emitShell context (linked.revise revision))
      (emitShell context (linked.revise revision)) (fun _ first second => second = first) Eq := by
  have distinct : ∀ accessor tests data : Bool,
      (Comparison.optionalPart .moduleAccessor accessor ++
        (Comparison.optionalPart .instanceTests tests ++
        (Comparison.optionalPart .typeData data ++ (Comparison.optionalPart .staticFields true ++
          (Comparison.optionalPart .staticInitializers true ++ []))))).Nodup := by decide
  have all := distinct (linked.hasModuleAccessor && linked.kind.isModuleLike)
    (!linked.name.isRoot && linked.hasInstanceTests) (!linked.name.isRoot && linked.hasTypeData)
  have tests := (List.nodup_append.1 all).2.1
  have data := (List.nodup_append.1 tests).2.1
  have fields := (List.nodup_append.1 data).2.1
  have initializers := (List.nodup_append.1 fields).2.1
  rw [emitShell_revise fits]
  unfold emitShell
  refine Revises.opened (versioned.classVersion context) (fun cell found => ?_)
    (emitShellPart_andThen_revises all (fun accessor => ?_))
  · rcases List.mem_cons.1 found with rfl | slot
    · rfl
    · obtain ⟨part, -, rfl⟩ := List.mem_map.1 slot
      rfl
  refine emitShellPart_andThen_revises tests (fun tests => ?_)
  refine emitShellPart_andThen_revises data (fun data => ?_)
  refine emitShellPart_andThen_revises fields (fun fields => ?_)
  refine emitShellPart_andThen_revises initializers (fun initializers => ?_)
  exact .done rfl rfl

/-- A class definition is emitted anew if a revision changes one of its members. -/
theorem emitOptionalDefinition_revises
    (distinct : (if linked.needsDefinition then definitionCells context linked else []).Nodup) :
    Revises (revision.changes key free)
      (if linked.needsDefinition then definitionCells context linked else [])
      (emitOptionalDefinition context linked)
      (emitOptionalDefinition context (linked.revise revision))
      (emitOptionalDefinition context (linked.revise revision))
      (fun changed first second => (changed = false → second = first) ∧
        (second.value = [] ↔ first.value = [])) Eq := by
  unfold emitOptionalDefinition
  change Revises _ _ _ (if linked.needsDefinition then _ else _)
    (if linked.needsDefinition then _ else _) _ _
  by_cases defined : linked.needsDefinition = true
  · simp only [defined, if_true] at distinct ⊢
    exact (emitDefinition_revises fits versioned marks distinct).imp
      (fun first second relation => ⟨relation.1, iff_of_false relation.2.2 relation.2.1⟩)
  · simp only [defined]
    exact .done ⟨fun _ => rfl, .rfl⟩ rfl

/-- The code of a class corresponds to that before a revision. -/
theorem emitClass_revises (distinct : (classCells context linked).Nodup) :
    Revises (revision.changes key free) (classCells context linked) (emitClass context linked)
      (emitClass context (linked.revise revision)) (emitClass context (linked.revise revision))
      (fun changed first second => (changed = false → second = first) ∧
        SameOutline first.value second.value) Eq := by
  unfold classCells at distinct ⊢
  by_cases native : linked.kind = .nativeJsClass
  · have nativeAgain : (linked.revise revision).kind = .nativeJsClass := native
    unfold emitClass
    simp only [native, nativeAgain, if_true]
    exact .done ⟨fun _ => rfl, rfl, .rfl, rfl, rfl, rfl⟩ rfl
  simp only [native, if_false] at distinct ⊢
  have parts := List.nodup_append.1 distinct
  have rests := List.nodup_append.1 parts.2.1
  rw [emitClass_eq context native,
    emitClass_eq context (show (linked.revise revision).kind ≠ .nativeJsClass from native)]
  refine (emitFunctions_revises fits versioned marks parts.1).andThen distinct
    (fun functions others more kept same => ?_)
  refine (emitOptionalDefinition_revises fits versioned marks rests.1).andThen parts.2.1
    (fun definition otherDefinition _ relation agrees => ?_)
  subst agrees
  refine (emitShell_revises fits versioned).map rests.2.1
    (fun shell otherShell _ sameShell agrees => ?_)
  subst agrees sameShell
  have tracked : collect more = collect others :=
    congrArg Tracked.list (map_eq_map_iff.2 same).symm
  rw [tracked]
  refine ⟨⟨fun none => ?_, rfl, ?_, rfl, rfl, rfl⟩, rfl⟩
  · simp only [Bool.or_eq_false_iff] at none
    rw [relation.1 none.2.1, collect, collect, kept.tracked none.1]
    rfl
  · have functionsNone : (collect others).value = [] ↔ (collect functions).value = [] := by
      simp only [collect, Tracked.list_value, ← List.length_eq_zero_iff, List.length_map,
        kept.length]
    simp only [classFragments, Tracked.bind_value, Tracked.pure_value, List.append_eq_nil_iff,
      functionsNone, relation.2]

end Classes

/-- What holds of all elements of a list holds of all elements that correspond to them. -/
theorem forall_mem_iff_of_forall₂ {α β : Type} {relation : α → β → Prop} {items : List α}
    {others : List β} (related : List.Forall₂ relation items others) {first : α → Prop}
    {second : β → Prop} (each : ∀ item other, relation item other → (first item ↔ second other)) :
    (∀ item ∈ items, first item) ↔ ∀ other ∈ others, second other := by
  induction related with
  | nil => simp
  | cons here _ ih => simp [each _ _ here, ih]

/-- Classes with the same outlines have statements or have none. -/
theorem classStatements_eq_nil_iff {bootstrap? : Option Bootstrap}
    {firsts seconds : List ClassFragments} (same : List.Forall₂ SameOutline firsts seconds) :
    classStatements context bootstrap? firsts = [] ↔
      classStatements context bootstrap? seconds = [] := by
  have roots : firsts.filter (fun fragments => fragments.name.isRoot) = [] ↔
      seconds.filter (fun fragments => fragments.name.isRoot) = [] := by
    simp only [List.filter_eq_nil_iff]
    exact forall_mem_iff_of_forall₂ same (fun first second outline => by rw [outline.name])
  have rootsEmpty := Bool.eq_iff_iff.2 (List.isEmpty_iff.trans (roots.trans List.isEmpty_iff.symm))
  have main : (∀ fragments ∈ firsts, fragments.name.isRoot = true → fragments.main = []) ↔
      ∀ fragments ∈ seconds, fragments.name.isRoot = true → fragments.main = [] :=
    forall_mem_iff_of_forall₂ same (fun first second outline => by
      rw [outline.name, outline.main])
  have others : (∀ fragments ∈ firsts, (!fragments.name.isRoot) = true →
        fragments.main = [] ∧ fragments.typeSupport = []) ↔
      ∀ fragments ∈ seconds, (!fragments.name.isRoot) = true →
        fragments.main = [] ∧ fragments.typeSupport = [] :=
    forall_mem_iff_of_forall₂ same (fun first second outline => by
      rw [outline.name, outline.main, outline.typeSupport])
  have fields : (∀ fragments ∈ firsts, fragments.staticFields = []) ↔
      ∀ fragments ∈ seconds, fragments.staticFields = [] :=
    forall_mem_iff_of_forall₂ same (fun first second outline => by rw [outline.staticFields])
  have initializers : (∀ fragments ∈ firsts, fragments.staticInitializers = []) ↔
      ∀ fragments ∈ seconds, fragments.staticInitializers = [] :=
    forall_mem_iff_of_forall₂ same (fun first second outline => by
      rw [outline.staticInitializers])
  simp only [classStatements, rootsEmpty, List.append_eq_nil_iff, List.flatMap_eq_nil_iff,
    List.mem_filter, and_imp, main, others, fields, initializers]

/-- The output of a module from its parts. -/
def closeModule (context : Context) (unit : Module) (exported : Bool)
    (imports : Tracked (List Tree)) (bootstrap : Tracked (Option Bootstrap))
    (fragments : Tracked (List ClassFragments)) (exports initializers : Tracked (List Tree)) :
    Step EmitError Caches ModuleOutput :=
  let statements := classStatements context bootstrap.value fragments.value
  let internal := emitInternalExports context exported statements
  let body := statements ++ internal.value ++ exports.value ++ initializers.value
  if body.isEmpty then throw (.emptyModule unit.id (unit.classes.map LinkedClass.name))
  else return {
    id := unit.id
    imports := imports.value
    body := body
    refs := imports.refs ∪ fragments.refs ∪ bootstrap.refs ∪ internal.refs ∪ exports.refs ∪
      initializers.refs }

/-- A module that is put together from classes with the same outlines. -/
theorem closeModule_revises {changed : Cell → Bool} {unit : Module} {exported : Bool}
    {imports exports initializers : Tracked (List Tree)} {bootstrap : Tracked (Option Bootstrap)}
    {fragments others : Tracked (List ClassFragments)}
    (same : List.Forall₂ SameOutline fragments.value others.value) :
    Revises changed []
      (closeModule context unit exported imports bootstrap fragments exports initializers)
      (closeModule context (unit.revise revision) exported imports bootstrap others exports
        initializers)
      (closeModule context (unit.revise revision) exported imports bootstrap others exports
        initializers)
      (fun _ first second => first.id = unit.id ∧ second.id = unit.id ∧
        (others = fragments → second = first)) Eq := by
  have statements : classStatements context bootstrap.value fragments.value = [] ↔
      classStatements context bootstrap.value others.value = [] :=
    classStatements_eq_nil_iff same
  have body : ∀ {before after : List Tree}, (before = [] ↔ after = []) →
      (before ++ (emitInternalExports context exported before).value ++ exports.value ++
        initializers.value).isEmpty =
      (after ++ (emitInternalExports context exported after).value ++ exports.value ++
        initializers.value).isEmpty := by
    intro before after empty
    by_cases none : before = []
    · rw [none, empty.1 none]
    · rw [Bool.eq_iff_iff]
      simp [none, mt empty.2 none]
  have alike := body statements
  unfold closeModule
  dsimp only
  rw [← alike]
  split
  · intro before _ after _ ran
    cases ran
  · exact .done ⟨rfl, rfl, fun same => by rw [same]; rfl⟩ rfl

/-- A module is closed when its parts are there. -/
theorem emitModule_eq (library? : Option (Artifact Bootstrap)) (unit : Module) (exported : Bool) :
    emitModule context library? unit exported = (do
      let imports ← Caches.requestModulePart unit.id .imports (context.importsVersion unit)
        (fun _ => .ok (context.imports unit))
      let classes ← unit.emissionOrder.mapM (emitClass context)
      let exports ← Caches.requestModulePart unit.id .topLevelExports
        (context.topLevelExportsVersion unit)
        (fun _ => .ok (context.topLevelExports unit.topLevelExports))
      let initializers ← Caches.requestModulePart unit.id .initializers
        (context.initializersVersion unit)
        (fun _ => .ok (pure (context.moduleInitializers unit.initializers)))
      closeModule context unit exported imports.tracked (bootstrapOf unit library?)
        (Tracked.list classes) exports.tracked initializers.tracked) := rfl

section Modules

variable {unit : Module} (versioned : unit.AllVersioned)
  (fits : ∀ linked ∈ unit.classes, revision.Fits context linked)
  (marks : ∀ linked ∈ unit.classes,
    revision.Marks (revision.changes key free) context linked)

include versioned fits marks

/-- The classes of a module correspond to those before a revision. -/
theorem mapM_emitClass_revises
    (distinct : (unit.emissionOrder.flatMap (classCells context)).Nodup) :
    Revises (revision.changes key free) (unit.emissionOrder.flatMap (classCells context))
      (unit.emissionOrder.mapM (emitClass context))
      ((unit.revise revision).emissionOrder.mapM (emitClass context))
      ((unit.revise revision).emissionOrder.mapM (emitClass context))
      (fun changed firsts seconds => (changed = false → seconds = firsts) ∧
        List.Forall₂ SameOutline (firsts.map Tracked.value) (seconds.map Tracked.value))
      (List.Forall₂ Eq) := by
  have each := fun linked (found : linked ∈ unit.emissionOrder) =>
    have owned := Module.mem_emissionOrder.1 found
    emitClass_revises (fits linked owned) (versioned.classes linked owned) (marks linked owned)
      ((List.nodup_flatMap.1 distinct).1 linked found)
  rw [unit.emissionOrder_revise, List.mapM_map]
  refine Revises.mapM ⟨fun _ => rfl, .nil⟩ ?_ distinct each
  intro here there value result values results one rest
  refine ⟨fun none => ?_, .cons one.2 rest.2⟩
  obtain ⟨first, others⟩ := Bool.or_eq_false_iff.1 none
  rw [one.1 first, rest.1 others]

/-- A module is emitted anew where a revision changes it. -/
theorem emitModule_revises {library? other? more? : Option (Artifact Bootstrap)} (exported : Bool)
    (distinct : (moduleCells context unit).Nodup)
    (same : library?.map Artifact.tracked = other?.map Artifact.tracked)
    (alike : other?.map Artifact.tracked = more?.map Artifact.tracked) :
    Revises (revision.changes key free) (moduleCells context unit)
      (emitModule context library? unit exported)
      (emitModule context other? (unit.revise revision) exported)
      (emitModule context more? (unit.revise revision) exported)
      (fun changed first second => first.id = unit.id ∧ second.id = unit.id ∧
        (changed = false → second = first)) Eq := by
  have parts := List.nodup_cons.1 distinct
  have rests := List.nodup_append.1 parts.2
  have bootstrap : ∀ library?, bootstrapOf (unit.revise revision) library? =
      bootstrapOf unit library? := fun _ => rfl
  rw [emitModule_eq, emitModule_eq, emitModule_eq, bootstrap, bootstrap,
    bootstrapOf_congr unit same, bootstrapOf_congr unit alike]
  unfold moduleCells
  refine Revises.request (Revises.modulePart (context.imports unit) rfl rfl) distinct
    (fun imports otherImports moreImports sameImports alikeImports => ?_)
  refine (mapM_emitClass_revises versioned fits marks rests.1).andThen parts.2
    (fun classes others more relation agrees => ?_)
  obtain rfl : others = more := List.forall₂_eq_eq_eq ▸ agrees
  refine Revises.request (Revises.modulePart (context.topLevelExports unit.topLevelExports)
      (versioned.topLevelExportsVersion context) rfl) rests.2.1
    (fun exports otherExports moreExports sameExports alikeExports => ?_)
  refine Revises.request (Revises.modulePart (pure (context.moduleInitializers unit.initializers))
      (versioned.initializersVersion context) rfl) (List.nodup_singleton _)
    (fun initializers otherInitializers moreInitializers sameInitializers alikeInitializers => ?_)
  rw [sameImports, sameExports, sameInitializers, alikeImports, alikeExports, alikeInitializers]
  refine (closeModule_revises ?_).imp
    (fun first second related => ⟨related.1, related.2.1, fun none => ?_⟩)
  · rw [Tracked.list_value, Tracked.list_value]
    exact relation.2
  · simp only [Bool.or_eq_false_iff] at none
    exact related.2.2 (by rw [relation.1 none.2.1])

omit versioned fits marks in
/-- A module with its library is emitted anew where a revision changes it. -/
theorem emitUnit_revises {contexts : ModuleId → Context} (imported : List ModuleId)
    (versioned : unit.AllVersioned)
    (fits : ∀ linked ∈ unit.classes, revision.Fits (contexts unit.id) linked)
    (marks : ∀ linked ∈ unit.classes,
      revision.Marks (revision.changes key free) (contexts unit.id) linked)
    (distinct : (unitCells (contexts unit.id) unit).Nodup) :
    Revises (revision.changes key free) (unitCells (contexts unit.id) unit)
      (emitUnit contexts imported unit) (emitUnit contexts imported (unit.revise revision))
      (emitUnit contexts imported (unit.revise revision))
      (fun changed first second => first.id = unit.id ∧ second.id = unit.id ∧
        (changed = false → second = first)) Eq := by
  have again : emitUnit contexts imported (unit.revise revision) =
      (do
        let library? ← emitBootstrap (contexts unit.id) unit
        emitModule (contexts unit.id) library? (unit.revise revision)
          (imported.contains unit.id)) := rfl
  rw [again]
  unfold emitUnit emitBootstrap unitCells
  cases root : unit.isRoot with
  | true =>
    simp only [unitCells, root, if_true] at distinct ⊢
    simp only [bind_assoc, pure_bind]
    refine Revises.request (Revises.library _) distinct
      (fun library other more same alike => ?_)
    exact emitModule_revises versioned fits marks _ (List.nodup_cons.1 distinct).2
      (congrArg some same) (congrArg some alike)
  | false =>
    simp only [unitCells, root] at distinct ⊢
    exact emitModule_revises versioned fits marks _ distinct rfl rfl

end Modules

/-- What a revision changes belongs to its class. -/
theorem owner_of_changes {cell : Cell} (changes : revision.changes key free cell = true) :
    cell.owner? = some key := by
  cases cell with
  | keyed sort other =>
    cases sort <;> simp_all [Revision.changes, Cell.owner?, KeyedSort.owner]
  | definition other => simp_all [Revision.changes, Cell.owner?]
  | _ => cases changes

/-- The cells of other modules are not changed. -/
theorem any_changes_of_ne {unit : Module} (here : context.home = unit.id)
    (apart : unit.id ≠ key.home) :
    (unitCells context unit).any (revision.changes key free) = false := by
  refine List.any_eq_false.2 (fun cell found changes => apart ?_)
  have owner := owner_of_changes changes
  rcases home_of_mem_unitCells here found with home | ⟨rfl, -⟩
  · rw [Cell.home?, owner] at home
    exact (Option.some.inj home).symm
  · cases owner

/-- The modules of a program correspond to those before a revision. -/
theorem mapM_emitUnit_revises {contexts : ModuleId → Context} {program : Program}
    (imported : List ModuleId) (homes : ∀ id, (contexts id).home = id)
    (versioned : program.AllVersioned)
    (fits : ∀ unit ∈ program.modules, ∀ linked ∈ unit.classes,
      revision.Fits (contexts unit.id) linked)
    (marks : ∀ unit ∈ program.modules, ∀ linked ∈ unit.classes,
      revision.Marks (revision.changes key free) (contexts unit.id) linked)
    (distinct : (programCells contexts program).Nodup) :
    Revises (revision.changes key free) (programCells contexts program)
      (program.dependencyOrder.mapM (emitUnit contexts imported))
      ((program.revise revision).dependencyOrder.mapM (emitUnit contexts imported))
      ((program.revise revision).dependencyOrder.mapM (emitUnit contexts imported))
      (fun _ => List.Forall₂ (ModuleOutput.KeptOutside key.home)) (List.Forall₂ Eq) := by
  have each : ∀ unit ∈ program.dependencyOrder, Revises (revision.changes key free)
      (unitCells (contexts unit.id) unit) (emitUnit contexts imported unit)
      (emitUnit contexts imported (unit.revise revision))
      (emitUnit contexts imported (unit.revise revision))
      (fun _ => ModuleOutput.KeptOutside key.home) Eq := by
    intro unit found
    have placed := Program.mem_of_mem_dependencyOrder found
    refine (emitUnit_revises imported (versioned unit placed) (fits unit placed)
      (marks unit placed) ((List.nodup_flatMap.1 distinct).1 unit found)).imp ?_
    rintro first second ⟨id, same, kept⟩
    exact ⟨same.trans id.symm, fun apart => kept (any_changes_of_ne (homes _) (id ▸ apart))⟩
  rw [program.dependencyOrder_revise, List.mapM_map]
  exact Revises.mapM .nil .cons distinct each

end Emission

end JsEmitter
