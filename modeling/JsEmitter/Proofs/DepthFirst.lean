import JsEmitter.Proofs.ModuleOrder
import Mathlib.Data.Finset.Card
import Mathlib.Logic.Relation

/-!
# Depth-first order

The nodes of a graph in the reverse of the order in which a depth-first search finishes them: every
edge goes forward in this order exactly if the graph has no cycle, `goesForward_depthFirst_iff`.
While a node is visited, the nodes that have been reached and are not done are those on the path to
it, so in a graph without cycles an edge never leads to one of them. The bound on the length of a
path is never met, because every step of a path discovers a node.
-/
namespace JsEmitter

open Relation (TransGen)

variable {successors : Nat → List Nat}

/-- Whether an edge goes from a node to another one. -/
def Edge (successors : Nat → List Nat) (node next : Nat) : Prop := next ∈ successors node

/-- Whether no path of edges leads from a node back to it. An edge from a node to itself is such a
path. -/
def Acyclic (successors : Nat → List Nat) : Prop := ∀ node, ¬ TransGen (Edge successors) node node

/-! ## Orders without backward edges -/

/-- An order goes forward if its first node leads into the rest and the rest goes forward. -/
@[simp] theorem goesForward_cons (node : Nat) (rest : List Nat) :
    goesForward successors (node :: rest) = true ↔
      successors node ⊆ rest ∧ goesForward successors rest = true := by
  simp [goesForward, List.subset_def]

/-- In an order that goes forward, a node leads only to later ones. -/
theorem subset_of_goesForward {before after : List Nat} {node : Nat}
    (forward : goesForward successors (before ++ node :: after) = true) :
    successors node ⊆ after := by
  induction before with
  | nil => exact ((goesForward_cons node after).1 forward).1
  | cons head rest ih => exact ih ((goesForward_cons head _).1 forward).2

/-- An edge goes from an earlier to a later node. -/
theorem pair_sublist_of_goesForward {order : List Nat} {node next : Nat}
    (forward : goesForward successors order = true) (inside : node ∈ order)
    (edge : next ∈ successors node) : [node, next].Sublist order := by
  obtain ⟨before, after, rfl⟩ := List.append_of_mem inside
  have behind : next ∈ after := subset_of_goesForward forward edge
  have pair : [node, next].Sublist (node :: after) :=
    (List.singleton_sublist.2 behind).cons_cons node
  exact pair.trans (List.sublist_append_right before _)

/-- Every path from a node stays behind it. -/
theorem mem_of_transGen_of_goesForward {before after : List Nat} {node next : Nat}
    (forward : goesForward successors (before ++ node :: after) = true)
    (path : TransGen (Edge successors) node next) : next ∈ after := by
  induction path with
  | single edge => exact subset_of_goesForward forward edge
  | @tail middle next _ edge behind =>
    obtain ⟨between, rest, rfl⟩ := List.append_of_mem behind
    have split : before ++ node :: (between ++ middle :: rest) =
        (before ++ node :: between) ++ middle :: rest := by simp
    rw [split] at forward
    exact List.mem_append_right _ (List.mem_cons_of_mem _ (subset_of_goesForward forward edge))

/-- A graph is acyclic if its nodes stand in an order without backward edges. -/
theorem acyclic_of_goesForward {order : List Nat}
    (forward : goesForward successors order = true) (distinct : order.Nodup)
    (complete : ∀ node, ∀ next ∈ successors node, node ∈ order) : Acyclic successors := by
  intro node cycle
  obtain ⟨next, edge, -⟩ := TransGen.head'_iff.1 cycle
  obtain ⟨before, after, rfl⟩ := List.append_of_mem (complete node next edge)
  have again := mem_of_transGen_of_goesForward forward cycle
  exact (List.nodup_cons.1 (List.nodup_append.1 distinct).2.1).1 again

/-! ## The search -/

namespace Search

/-- Number of nodes below a limit that have not been reached. -/
def unreached (count : Nat) (search : Search) : Nat :=
  (Finset.range count \ search.discovered.toFinset).card

/-- A search that has discovered more has less left. -/
theorem unreached_le {count : Nat} {before after : Search}
    (more : before.discovered ⊆ after.discovered) :
    after.unreached count ≤ before.unreached count := by
  refine Finset.card_le_card (fun node left => ?_)
  simp only [Finset.mem_sdiff, List.mem_toFinset] at left ⊢
  exact ⟨left.1, fun known => left.2 (more known)⟩

/-- Discovering a new node leaves less. -/
theorem unreached_lt {count node : Nat} {search : Search} (within : node < count)
    (fresh : node ∉ search.discovered) :
    ({ search with discovered := node :: search.discovered } : Search).unreached count <
      search.unreached count := by
  have left : node ∈ Finset.range count \ search.discovered.toFinset := by simp [within, fresh]
  rw [unreached, List.toFinset_cons, Finset.sdiff_insert]
  exact Finset.card_erase_lt_of_mem left

/-- Whether a search can visit a node: what is done stands in an order without backward edges, a
path leads to the node from each node that has been reached and is not done, and the bound exceeds
the number of nodes that are left. -/
structure Ready (successors : Nat → List Nat) (count bound : Nat) (search : Search) (node : Nat) :
    Prop where
  known : search.finished ⊆ search.discovered
  forward : goesForward successors search.finished = true
  above : ∀ other ∈ search.discovered, other ∉ search.finished →
    TransGen (Edge successors) other node
  enough : search.unreached count < bound
  within : node < count

variable {count bound : Nat}

/-- What has been done meanwhile does not matter, if it keeps the order. -/
theorem Ready.later {before after : Search} {node : Nat}
    (ready : Ready successors count bound before node) (grows : Grows (· < count) before after)
    (forward : goesForward successors after.finished = true) :
    Ready successors count bound after node where
  known := grows.subset ready.known
  forward := forward
  above other reached unfinished := by
    rcases grows.done other reached with earlier | done
    · exact ready.above other earlier (fun finished => unfinished (grows.finished finished))
    · exact (unfinished done).elim
  enough := Nat.lt_of_le_of_lt (unreached_le grows.discovered) ready.enough
  within := ready.within

/-- Visits of nodes that are ready finish them all and keep the order, if each visit does. -/
theorem foldl_forward (closed : ∀ node, ∀ next ∈ successors node, next < count)
    (each : ∀ {search node}, Ready successors count bound search node →
      goesForward successors (visit successors bound search node).finished = true ∧
        node ∈ (visit successors bound search node).finished)
    {nodes : List Nat} {search : Search}
    (forward : goesForward successors search.finished = true)
    (ready : ∀ node ∈ nodes, Ready successors count bound search node) :
    goesForward successors (nodes.foldl (visit successors bound) search).finished = true ∧
      nodes ⊆ (nodes.foldl (visit successors bound) search).finished := by
  induction nodes generalizing search with
  | nil => exact ⟨forward, List.nil_subset _⟩
  | cons node rest ih =>
    obtain ⟨here, others⟩ := List.forall_mem_cons.1 ready
    obtain ⟨kept, done⟩ := each here
    have grows := visit_grows closed bound search here.within
    obtain ⟨after, all⟩ := ih kept (fun other found => (others other found).later grows kept)
    have remains : Grows (· < count) (visit successors bound search node)
        (rest.foldl (visit successors bound) (visit successors bound search node)) :=
      foldl_grows _ (fun other found search =>
        visit_grows closed bound search (others other found).within)
    exact ⟨after, List.cons_subset.2 ⟨remains.finished done, all⟩⟩

/-- In an acyclic graph, the visit of a node that is ready finishes it and keeps the order. -/
theorem visit_forward (acyclic : Acyclic successors)
    (closed : ∀ node, ∀ next ∈ successors node, next < count) {search : Search} {node : Nat}
    (ready : Ready successors count bound search node) :
    goesForward successors (visit successors bound search node).finished = true ∧
      node ∈ (visit successors bound search node).finished := by
  induction bound generalizing search node with
  | zero => exact (Nat.not_lt_zero _ ready.enough).elim
  | succ bound ih =>
    unfold visit
    split
    · rename_i reached
      refine ⟨ready.forward, ?_⟩
      by_contra unfinished
      exact acyclic node (ready.above node (by simpa using reached) unfinished)
    · rename_i unknown
      have fresh : node ∉ search.discovered := by simpa using unknown
      let start : Search := { search with discovered := node :: search.discovered }
      -- the path to a successor goes through the node
      have next_ready : ∀ next ∈ successors node, Ready successors count bound start next := by
        intro next edge
        refine ⟨fun other done => List.mem_cons_of_mem _ (ready.known done), ready.forward, ?_,
          Nat.lt_of_lt_of_le (unreached_lt ready.within fresh) (Nat.le_of_lt_succ ready.enough),
          closed node next edge⟩
        intro other reached unfinished
        rcases List.mem_cons.1 reached with rfl | earlier
        · exact .single edge
        · exact (ready.above other earlier unfinished).tail edge
      have kept : goesForward successors start.finished = true := ready.forward
      obtain ⟨forward, all⟩ := foldl_forward closed ih kept next_ready
      exact ⟨(goesForward_cons node _).2 ⟨all, forward⟩, List.mem_cons_self⟩

end Search

/-- Every edge goes forward in the depth-first order exactly if the graph has no cycle. -/
theorem goesForward_depthFirst_iff {count : Nat}
    (closed : ∀ node, ∀ next ∈ successors node, node < count ∧ next < count) :
    goesForward successors (depthFirst successors count) = true ↔ Acyclic successors := by
  have targets : ∀ node, ∀ next ∈ successors node, next < count :=
    fun node next edge => (closed node next edge).2
  have order := depthFirst_perm targets
  constructor
  · intro forward
    refine acyclic_of_goesForward forward (order.nodup_iff.2 List.nodup_range) ?_
    exact fun node next edge => order.mem_iff.2 (List.mem_range.2 (closed node next edge).1)
  · intro acyclic
    refine (Search.foldl_forward targets (Search.visit_forward acyclic targets) rfl ?_).1
    intro node found
    refine ⟨List.Subset.refl _, rfl, by simp, ?_, List.mem_range.1 found⟩
    exact Nat.lt_succ_of_le ((Finset.card_le_card Finset.sdiff_subset).trans_eq
      (Finset.card_range count))

end JsEmitter
