import JsEmitter.Linked.Program

/-!
# Dependency order

Modules are put in an order in which every module comes after the modules it depends on. The
modules, sorted by id, are the nodes of a graph with an edge from each module to its dependents.
A depth-first search from every node in turn visits the dependents in id order; the reverse of
the order in which nodes are finished is the answer, unless some edge goes backwards in it. Then
the graph has a cycle, and the modules stay sorted by id. If an id is repeated, it stands for
the last module that has it.
-/
namespace JsEmitter

/-- The progress of a depth-first search. -/
structure Search where
  /-- Nodes that have been reached. -/
  discovered : List Nat
  /-- Nodes that are done, the last one first. -/
  finished : List Nat

/-- Visit a node and everything reachable from it that has not been reached before; the bound
limits the length of the path. -/
def Search.visit (successors : Nat → List Nat) : Nat → Search → Nat → Search
  | 0, search, _ => search
  | bound + 1, search, node =>
    if search.discovered.contains node then search
    else
      let inner := (successors node).foldl (Search.visit successors bound)
        { search with discovered := node :: search.discovered }
      { inner with finished := node :: inner.finished }

/-- Nodes below `count` in the reverse of the order in which a search from every node in turn
finishes them. A path is never longer than the number of nodes. -/
def depthFirst (successors : Nat → List Nat) (count : Nat) : List Nat :=
  ((List.range count).foldl (Search.visit successors (count + 1)) ⟨[], []⟩).finished

/-- Whether every edge goes from an earlier to a later node of a list. -/
def goesForward (successors : Nat → List Nat) : List Nat → Bool
  | [] => true
  | node :: rest =>
    (successors node).all (fun successor => rest.contains successor) && goesForward successors rest

namespace Program

/-- The modules sorted by id; modules with equal ids keep their order. -/
def sortedModules (program : Program) : List Module :=
  program.modules.mergeSort (fun first second => (compare first.id second.id).isLE)

/-- The last position of an id in a list of modules. -/
def lastPosition? (modules : List Module) (id : ModuleId) : Option Nat :=
  modules.zipIdx.reverse.findSome? (fun (unit, position) =>
    if unit.id = id then some position else none)

/-- The edges from dependencies to dependents, in the order of the dependents. -/
def dependencyEdges (modules : List Module) : List (Nat × Nat) :=
  modules.flatMap (fun unit => unit.internalDependencies.toList.filterMap (fun dependency => do
    let source ← lastPosition? modules dependency
    let target ← lastPosition? modules unit.id
    some (source, target)))

/-- The targets of the edges from a node. -/
def targets (edges : List (Nat × Nat)) (node : Nat) : List Nat :=
  (edges.filter (fun edge => edge.1 = node)).map Prod.snd

/-- The modules with dependencies first, or sorted by id if there is a cycle. -/
def dependencyOrder (program : Program) : List Module :=
  let sorted := program.sortedModules
  let successors := targets (dependencyEdges sorted)
  let order := depthFirst successors sorted.length
  if goesForward successors order then order.filterMap (fun position => sorted[position]?)
  else sorted

end Program

end JsEmitter
