import JsEmitter.Linked.Order
import Mathlib.Data.List.Perm.Subperm
import Mathlib.Data.List.Nodup
import Mathlib.Data.List.Induction

/-!
# The order of modules

Dependency order neither loses nor repeats a module. A search finishes every node that it discovers,
and it discovers a node once; that a path is long enough is not needed for this, because every node
is visited in its turn. `Program.dependencyOrder_perm` is the main statement.
-/
namespace JsEmitter

namespace Search

/-- What a part of a search does: what it discovers it also finishes, and it finishes nothing that
was discovered before. -/
structure Grows (inside : Nat → Prop) (before after : Search) : Prop where
  discovered : before.discovered ⊆ after.discovered
  finished : before.finished ⊆ after.finished
  done : ∀ node ∈ after.discovered, node ∈ before.discovered ∨ node ∈ after.finished
  new : ∀ node ∈ after.finished, node ∈ before.finished ∨
    (node ∉ before.discovered ∧ node ∈ after.discovered ∧ inside node)
  nodup : before.finished ⊆ before.discovered → before.finished.Nodup → after.finished.Nodup

namespace Grows

variable {inside : Nat → Prop} {first second third : Search}

/-- A search that does nothing grows. -/
theorem refl (search : Search) : Grows inside search search where
  discovered := List.Subset.refl _
  finished := List.Subset.refl _
  done _ found := .inl found
  new _ found := .inl found
  nodup _ distinct := distinct

/-- Finished nodes stay discovered. -/
theorem subset (grows : Grows inside first second)
    (known : first.finished ⊆ first.discovered) : second.finished ⊆ second.discovered := by
  intro node found
  rcases grows.new node found with earlier | ⟨-, there, -⟩
  · exact grows.discovered (known earlier)
  · exact there

/-- Searches one after the other grow together. -/
theorem trans (start : Grows inside first second) (rest : Grows inside second third) :
    Grows inside first third where
  discovered := List.Subset.trans start.discovered rest.discovered
  finished := List.Subset.trans start.finished rest.finished
  done node found := by
    rcases rest.done node found with earlier | done
    · exact (start.done node earlier).imp_right (fun done => rest.finished done)
    · exact .inr done
  new node found := by
    rcases rest.new node found with earlier | ⟨fresh, there, within⟩
    · exact (start.new node earlier).imp_right
        (fun ⟨fresh, there, within⟩ => ⟨fresh, rest.discovered there, within⟩)
    · exact .inr ⟨fun known => fresh (start.discovered known), there, within⟩
  nodup known distinct := rest.nodup (start.subset known) (start.nodup known distinct)

end Grows

variable {inside : Nat → Prop} {successors : Nat → List Nat}

/-- A fold of searches grows if each step does. -/
theorem foldl_grows {step : Search → Nat → Search} {nodes : List Nat} (search : Search)
    (each : ∀ node ∈ nodes, ∀ search, Grows inside search (step search node)) :
    Grows inside search (nodes.foldl step search) := by
  induction nodes generalizing search with
  | nil => exact .refl search
  | cons node rest ih =>
    exact (each node List.mem_cons_self search).trans
      (ih _ (fun other found => each other (List.mem_cons_of_mem _ found)))

/-- A visit grows a search. -/
theorem visit_grows (closed : ∀ node, ∀ next ∈ successors node, inside next) (bound : Nat)
    (search : Search) {node : Nat} (within : inside node) :
    Grows inside search (visit successors bound search node) := by
  induction bound generalizing search node with
  | zero => exact .refl search
  | succ bound ih =>
    unfold visit
    split
    · exact .refl search
    · rename_i fresh
      have unknown : node ∉ search.discovered := by simpa using fresh
      let start : Search := { search with discovered := node :: search.discovered }
      have inner : Grows inside start ((successors node).foldl (visit successors bound) start) :=
        foldl_grows start (fun next found search => ih search (closed node next found))
      refine ⟨fun other found => inner.discovered (List.mem_cons_of_mem _ found),
        fun other found => List.mem_cons_of_mem _ (inner.finished found), ?_, ?_, ?_⟩
      · intro other found
        rcases inner.done other found with earlier | done
        · rcases List.mem_cons.1 earlier with rfl | known
          · exact .inr List.mem_cons_self
          · exact .inl known
        · exact .inr (List.mem_cons_of_mem _ done)
      · intro other found
        rcases List.mem_cons.1 found with rfl | there
        · exact .inr ⟨unknown, inner.discovered List.mem_cons_self, within⟩
        · exact (inner.new other there).imp_right (fun ⟨fresh, known, inside⟩ =>
            ⟨fun earlier => fresh (List.mem_cons_of_mem _ earlier), known, inside⟩)
      · intro known distinct
        have known' : start.finished ⊆ start.discovered :=
          fun other found => List.mem_cons_of_mem _ (known found)
        refine List.nodup_cons.2 ⟨fun found => ?_, inner.nodup known' distinct⟩
        rcases inner.new node found with earlier | ⟨fresh, -, -⟩
        · exact unknown (known earlier)
        · exact fresh List.mem_cons_self

/-- A visit with a positive bound discovers its node. -/
theorem mem_discovered_visit (closed : ∀ node, ∀ next ∈ successors node, inside next)
    (bound : Nat) (search : Search) (node : Nat) :
    node ∈ (visit successors (bound + 1) search node).discovered := by
  unfold visit
  split
  · rename_i known
    simpa using known
  · exact (foldl_grows _ (fun next found search =>
      visit_grows closed bound search (closed node next found))).discovered List.mem_cons_self

end Search

/-- A search from every node in turn finishes every node once. -/
theorem depthFirst_perm {successors : Nat → List Nat} {count : Nat}
    (closed : ∀ node, ∀ next ∈ successors node, next < count) :
    (depthFirst successors count).Perm (List.range count) := by
  let step := Search.visit successors (count + 1)
  have grows : ∀ (nodes : List Nat) search, (∀ node ∈ nodes, node < count) →
      Search.Grows (· < count) search (nodes.foldl step search) :=
    fun nodes search within => Search.foldl_grows search (fun node found search =>
      Search.visit_grows closed _ search (within node found))
  have all : ∀ (nodes : List Nat) search, (∀ node ∈ nodes, node < count) → ∀ node ∈ nodes,
      node ∈ (nodes.foldl step search).discovered := by
    intro nodes
    induction nodes with
    | nil => simp
    | cons head rest ih =>
      intro search within node found
      have later : ∀ node ∈ rest, node < count :=
        fun node found => within node (List.mem_cons_of_mem _ found)
      rcases List.mem_cons.1 found with rfl | there
      · exact (grows rest _ later).discovered
          (Search.mem_discovered_visit closed count search node)
      · exact ih _ later node there
  have within : ∀ node ∈ List.range count, node < count := fun node => List.mem_range.1
  have whole := grows (List.range count) ⟨[], []⟩ within
  refine (List.perm_ext_iff_of_nodup (whole.nodup (List.Subset.refl _) List.nodup_nil)
    List.nodup_range).2 (fun node => ⟨fun found => ?_, fun found => ?_⟩)
  · rcases whole.new node found with earlier | ⟨-, -, inside⟩
    · cases earlier
    · exact List.mem_range.2 inside
  · rcases whole.done node (all _ _ within node found) with earlier | done
    · cases earlier
    · exact done

/-- The elements at all positions of a list are the list. -/
theorem filterMap_getElem?_range {α : Type} (items : List α) :
    (List.range items.length).filterMap (fun position => items[position]?) = items := by
  induction items using List.reverseRecOn with
  | nil => rfl
  | append_singleton front last ih =>
    have before : (List.range front.length).filterMap
        (fun position => (front ++ [last])[position]?) = front := by
      refine .trans (List.filterMap_congr (fun position found => ?_)) ih
      exact List.getElem?_append_left (List.mem_range.1 found)
    rw [List.length_append, List.length_singleton, List.range_succ, List.filterMap_append, before]
    simp

namespace Program

/-- The position of a module is one in the list. -/
theorem lastPosition?_lt {modules : List Module} {id : ModuleId} {position : Nat}
    (found : lastPosition? modules id = some position) : position < modules.length := by
  obtain ⟨entry, there, equal⟩ := List.exists_of_findSome?_eq_some found
  have inside := List.mem_zipIdx (List.mem_reverse.1 there)
  simp only [Option.ite_none_right_eq_some, Option.some.injEq] at equal
  rw [← equal.2]
  simpa using inside.2.1

/-- An edge goes to the last module with the id of one that has the dependency. -/
theorem mem_targets_dependencyEdges {modules : List Module} {node next : Nat} :
    next ∈ targets (dependencyEdges modules) node ↔
      ∃ unit ∈ modules, ∃ dependency ∈ unit.internalDependencies,
        lastPosition? modules dependency = some node ∧
          lastPosition? modules unit.id = some next := by
  simp only [targets, dependencyEdges, List.mem_map, List.mem_filter, List.mem_flatMap,
    List.mem_filterMap, Option.bind_eq_bind, Option.bind_eq_some_iff, Option.some.injEq,
    decide_eq_true_eq]
  constructor
  · rintro ⟨_, ⟨⟨unit, placed, dependency, found, source, first, target, last, rfl⟩, rfl⟩, rfl⟩
    exact ⟨unit, placed, dependency, found, first, last⟩
  · rintro ⟨unit, placed, dependency, found, first, last⟩
    exact ⟨(node, next),
      ⟨⟨unit, placed, dependency, found, node, first, next, last, rfl⟩, rfl⟩, rfl⟩

/-- Edges between modules lead to positions in the list. -/
theorem targets_dependencyEdges_lt {modules : List Module} (node : Nat) :
    ∀ next ∈ targets (dependencyEdges modules) node, next < modules.length := by
  intro next found
  obtain ⟨unit, -, dependency, -, -, last⟩ := mem_targets_dependencyEdges.1 found
  exact lastPosition?_lt last

/-- Dependency order neither loses nor repeats a module. -/
theorem dependencyOrder_perm (program : Program) :
    program.dependencyOrder.Perm program.modules := by
  have sorted : program.sortedModules.Perm program.modules := List.mergeSort_perm _ _
  simp only [dependencyOrder]
  split
  · refine .trans ((depthFirst_perm targets_dependencyEdges_lt).filterMap _) (.trans ?_ sorted)
    rw [filterMap_getElem?_range]
  · exact sorted

end Program

end JsEmitter
