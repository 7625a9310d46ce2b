import JsEmitter.Proofs.CheckedPrograms
import JsEmitter.Emission.Module
import JsEmitter.Proofs.Linkage
import JsEmitter.Proofs.Lockstep
import Mathlib.Data.List.Perm.Basic

/-!
# Rearranged programs

The order of the modules of a program carries no meaning, and neither does the order in which a
module lists its classes. A program in another order is still well-formed, classes are emitted in
the same order, and the index has the same facts.
-/
namespace JsEmitter

/-- Whether a module is another one with its classes in another order. -/
structure Module.Rearranged (unit other : Module) : Prop where
  order : unit.classes.Perm other.classes
  rest : other = { unit with classes := other.classes }

/-- Whether a program is another one with its modules, and the classes of each module, in another
order. -/
def Program.Rearranged (program other : Program) : Prop :=
  ∃ units, List.Forall₂ Module.Rearranged program.modules units ∧ units.Perm other.modules

section Lists

variable {α β γ : Type}

/-- Elements that are found by a property that only one of them has are found in every order. -/
theorem find?_perm {first second : List α} {found : α → Bool} (order : first.Perm second)
    (only : ∀ item ∈ first, ∀ other ∈ first, found item → found other → item = other) :
    first.find? found = second.find? found := by
  cases there : first.find? found with
  | none =>
    refine (List.find?_eq_none.2 (fun item inside => ?_)).symm
    exact List.find?_eq_none.1 there item (order.mem_iff.2 inside)
  | some item =>
    have inside := List.mem_of_find?_eq_some there
    have here := List.find?_some there
    cases too : second.find? found with
    | none => exact absurd here (List.find?_eq_none.1 too item (order.mem_iff.1 inside))
    | some other =>
      rw [only item inside other (order.mem_iff.2 (List.mem_of_find?_eq_some too)) here
        (List.find?_some too)]

/-- Entries with distinct keys are looked up in every order. -/
theorem lookup_perm [DecidableEq α] {first second : List (α × β)} (order : first.Perm second)
    (distinct : (first.map Prod.fst).Nodup) (key : α) : first.lookup key = second.lookup key := by
  have found : ∀ entries : List (α × β),
      entries.lookup key = (entries.find? (fun entry => entry.1 = key)).map Prod.snd := by
    intro entries
    induction entries with
    | nil => rfl
    | cons entry rest ih =>
      rw [List.lookup_cons, List.find?_cons, ih]
      by_cases same : entry.1 = key
      · simp [same]
      · simp [same, beq_eq_false_iff_ne.2 (Ne.symm same)]
  rw [found, found, find?_perm order (fun entry here other there one two =>
    List.inj_on_of_nodup_map distinct here there (by simp_all))]

/-- Elements whose images are the same in some order give the same in this order. -/
theorem flatMap_perm {first second : α → List β} {items others : List α}
    (related : List.Forall₂ (fun item other => (first item).Perm (second other)) items others) :
    (items.flatMap first).Perm (others.flatMap second) := by
  induction related with
  | nil => exact .refl _
  | cons here _ ih =>
    rw [List.flatMap_cons, List.flatMap_cons]
    exact here.append ih

/-- A list is sorted by a comparison after sorting. -/
theorem pairwise_mergeSort_isLE (comparison : α → α → Ordering) [Std.TransCmp comparison]
    (items : List α) : List.Pairwise (fun item other => (comparison item other).isLE)
      (items.mergeSort (fun item other => (comparison item other).isLE)) := by
  have total : ∀ item other,
      ((comparison item other).isLE || (comparison other item).isLE) = true := by
    intro item other
    have swapped : comparison item other = (comparison other item).swap :=
      Std.OrientedCmp.eq_swap
    rw [swapped]
    cases comparison other item <;> rfl
  have transitive : ∀ item other last, (comparison item other).isLE →
      (comparison other last).isLE → (comparison item last).isLE :=
    fun _ _ _ => Std.TransCmp.isLE_trans
  exact List.pairwise_mergeSort transitive total items

/-- A sorted list in which no two elements are equivalent does not depend on the order before. -/
theorem mergeSort_perm_eq (comparison : α → α → Ordering) [Std.TransCmp comparison]
    {first second : List α} (order : first.Perm second)
    (only : ∀ item ∈ first, ∀ other ∈ first, comparison item other = .eq → item = other) :
    first.mergeSort (fun item other => (comparison item other).isLE) =
      second.mergeSort (fun item other => (comparison item other).isLE) := by
  refine List.Perm.eq_of_pairwise (fun item other here there before after => ?_)
    (pairwise_mergeSort_isLE comparison first) (pairwise_mergeSort_isLE comparison second)
    ((List.mergeSort_perm _ _).trans (order.trans (List.mergeSort_perm _ _).symm))
  exact only item (List.mem_mergeSort.1 here) other (order.mem_iff.2 (List.mem_mergeSort.1 there))
    (Std.OrientedCmp.isLE_antisymm before after)

end Lists

/-- Classes are emitted by the number of their ancestors, and then by name. -/
theorem Module.emissionOrder_sorted (unit : Module) :
    unit.emissionOrder.Pairwise (fun first second => comesFirst first second = true) :=
  pairwise_mergeSort_isLE (compareLex
    (compareOn (fun linked : LinkedClass => linked.ancestors.length))
    (compareOn LinkedClass.name)) unit.classes

/-- The order of emission of classes with distinct names does not depend on the order before. -/
theorem Module.Rearranged.emissionOrder_eq {unit other : Module}
    (rearranged : unit.Rearranged other)
    (distinct : (unit.classes.map LinkedClass.name).Nodup) :
    other.emissionOrder = unit.emissionOrder := by
  refine (mergeSort_perm_eq (compareLex
    (compareOn (fun linked : LinkedClass => linked.ancestors.length))
    (compareOn LinkedClass.name)) rearranged.order (fun linked here other there same => ?_)).symm
  have names : compare linked.name other.name = .eq := (Ordering.then_eq_eq.1 same).2
  exact List.inj_on_of_nodup_map distinct here there (Std.LawfulEqOrd.eq_of_compare names)

namespace Program.Rearranged

variable {program other : Program} (rearranged : program.Rearranged other)

include rearranged

/-- What does not depend on the classes of modules is the same in some order. -/
theorem map_perm {β : Type} (read : Module → β)
    (same : ∀ unit classes, read { unit with classes := classes } = read unit) :
    (program.modules.map read).Perm (other.modules.map read) := by
  obtain ⟨units, related, order⟩ := rearranged
  have reads : program.modules.map read = units.map read :=
    map_eq_map_iff.2 (related.imp (fun unit other here => by
      rw [here.rest]
      exact (same unit other.classes).symm))
  exact reads ▸ order.map read

/-- The classes with the ids of their modules are the same in some order. -/
theorem owned_perm : (program.classes.map (fun owned => (owned.1.id, owned.2))).Perm
    (other.classes.map (fun owned => (owned.1.id, owned.2))) := by
  obtain ⟨units, related, order⟩ := rearranged
  have owned : ∀ modules : List Module, (Program.mk modules).classes.map
      (fun owned => (owned.1.id, owned.2)) =
      modules.flatMap (fun unit => unit.classes.map (fun linked => (unit.id, linked))) := by
    simp [classes, List.map_flatMap, Function.comp_def]
  rw [owned program.modules, owned other.modules]
  refine .trans (flatMap_perm (related.imp (fun unit other here => ?_))) (order.flatMap_right _)
  rw [show other.id = unit.id by rw [here.rest]]
  exact here.order.map _

/-- Rearranged programs have the same ids. -/
theorem ids_perm : program.ids.Perm other.ids := rearranged.map_perm _ (fun _ _ => rfl)

/-- Rearranged programs have the same names of classes. -/
theorem names_perm : (program.classes.map (fun owned => owned.2.name)).Perm
    (other.classes.map (fun owned => owned.2.name)) := by
  simpa [List.map_map, Function.comp_def] using
    rearranged.owned_perm.map (fun owned => owned.2.name)

/-- Every module of the other program is one of the program with its classes in another order. -/
theorem exists_unit {unit : Module} (placed : unit ∈ other.modules) :
    ∃ origin ∈ program.modules, origin.Rearranged unit := by
  obtain ⟨units, related, order⟩ := rearranged
  exact exists_of_forall₂ related (order.mem_iff.2 placed)

/-- The modules of the other program in some order are modules of the program in this order, with
their classes in another order. -/
theorem exists_order {modules : List Module} (order : other.modules.Perm modules) :
    ∃ units, program.modules.Perm units ∧ List.Forall₂ Module.Rearranged units modules := by
  obtain ⟨units, related, perm⟩ := rearranged
  have composed :
      Relation.Comp (List.Forall₂ Module.Rearranged) List.Perm program.modules modules :=
    ⟨units, related, perm.trans order⟩
  rwa [List.forall₂_comp_perm_eq_perm_comp_forall₂] at composed

/-- Rearranged programs have the same root modules. -/
theorem rootIds_perm : program.rootIds.Perm other.rootIds := by
  have roots : ∀ modules : List Module, (Program.mk modules).rootIds =
      (modules.map (fun unit => (unit.id, unit.isRoot))).filterMap
        (fun unit => if unit.2 then some unit.1 else none) := by
    intro modules
    induction modules with
    | nil => rfl
    | cons unit rest ih =>
      simp only [rootIds] at ih ⊢
      cases root : unit.isRoot <;> simp [root, ih]
  rw [roots program.modules, roots other.modules]
  exact (rearranged.map_perm _ (fun _ _ => rfl)).filterMap _

/-- A program in another order is well-formed. -/
theorem checked (checked : program.Checked) : other.Checked where
  ids := rearranged.ids_perm.nodup_iff.1 checked.ids
  roots := by
    refine checked.roots.imp (fun none => ?_) (fun ⟨id, one⟩ => ⟨id, ?_⟩)
    · simpa [ids, none] using rearranged.ids_perm
    · exact List.perm_singleton.1 (one ▸ rearranged.rootIds_perm).symm
  dependencies unit placed id found := by
    obtain ⟨origin, there, same⟩ := rearranged.exists_unit placed
    rw [same.rest] at found
    exact rearranged.ids_perm.mem_iff.1 (checked.dependencies origin there id found)
  first unit placed linked found := by
    obtain ⟨origin, there, same⟩ := rearranged.exists_unit placed
    exact checked.first origin there linked (same.order.mem_iff.2 found)
  distinct := rearranged.names_perm.nodup_iff.1 checked.distinct

end Program.Rearranged

/-- Whether two indexes give the same answers. -/
structure ClassIndex.Alike (first second : ClassIndex) : Prop where
  get : ∀ name, first.get? name = second.get? name
  root : first.rootModule? = second.rootModule?
  rootMethods : first.rootMethods = second.rootMethods

section Index

variable {program other : Program} (rearranged : program.Rearranged other)
  (checked : program.Checked)

include rearranged

/-- A class is extended by a class of the other program if one of the program extends it. -/
theorem ClassIndex.canInline_rearranged (linked : LinkedClass) :
    canInline (parents other) linked = canInline (parents program) linked := by
  have owned : ∀ program : Program, parents program =
      (program.classes.map (fun owned => (owned.1.id, owned.2))).filterMap
        (fun owned => owned.2.superClass?) := by
    intro program
    simp [parents, List.filterMap_map]
  have same := (rearranged.owned_perm.filterMap (fun owned => owned.2.superClass?)).contains_eq
    (a := linked.name)
  rw [canInline, canInline, owned, owned, same]

include checked

/-- The index of a checked program does not depend on the order of the program. -/
theorem Program.Rearranged.index_alike :
    (ClassIndex.ofProgram program).Alike (.ofProgram other) where
  get name := by
    have entries : (ClassIndex.ofProgram program).entries.Perm
        (ClassIndex.ofProgram other).entries := by
      have made := rearranged.owned_perm.map (fun owned => ClassIndex.entry
        (ClassIndex.parents program) { (default : Module) with id := owned.1 } owned.2)
      refine (List.reverse_perm _).trans (.trans ?_ (List.reverse_perm _).symm)
      simp only [List.map_map, ClassIndex.entry, Function.comp_def,
        ← ClassIndex.canInline_rearranged rearranged] at made ⊢
      exact made
    refine lookup_perm entries ?_ name
    simpa [ClassIndex.ofProgram, ClassIndex.entry, Function.comp_def] using checked.distinct
  root := by
    have roots : ∀ program : Program, program.rootModule?.map Module.id =
        program.rootIds.head? := by
      intro program
      rw [rootModule?, rootIds, List.head?_map, List.head?_filter]
    change program.rootModule?.map Module.id = other.rootModule?.map Module.id
    rw [roots, roots]
    rcases checked.roots with none | ⟨id, one⟩
    · have empty : program.rootIds = [] := by simp [rootIds, none]
      have order := rearranged.rootIds_perm
      rw [empty, List.nil_perm] at order
      rw [empty, order]
    · have order := rearranged.rootIds_perm
      rw [one, List.singleton_perm] at order
      rw [one, order]
  rootMethods := by
    have methods : ∀ program : Program, (ClassIndex.ofProgram program).rootMethods =
        (((program.classes.map Prod.snd).reverse.find? (fun linked => linked.name.isRoot)).map
          ClassIndex.publicMethods).getD ∅ := by
      intro program
      rw [← List.map_reverse, List.find?_map, Option.map_map]
      simp only [ClassIndex.ofProgram, Function.comp_def]
      cases program.classes.reverse.find? (fun owned => owned.2.name.isRoot) <;> rfl
    have order : (program.classes.map Prod.snd).reverse.Perm
        (other.classes.map Prod.snd).reverse := by
      refine (List.reverse_perm _).trans (.trans ?_ (List.reverse_perm _).symm)
      simpa [List.map_map, Function.comp_def] using rearranged.owned_perm.map Prod.snd
    have names : ((program.classes.map Prod.snd).reverse.map LinkedClass.name).Nodup := by
      rw [List.map_reverse, List.nodup_reverse, List.map_map]
      exact checked.distinct
    rw [methods, methods, find?_perm order (fun linked here other there root too => ?_)]
    refine List.inj_on_of_nodup_map names here there ?_
    simp_all [ClassName.isRoot]

end Index

end JsEmitter
