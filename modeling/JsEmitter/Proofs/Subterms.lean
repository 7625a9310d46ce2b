import JsEmitter.Js.Walk
import JsEmitter.Lowering.Body

/-!
# Subterms of bodies

Lowering keeps every subterm: the tree of an expression is reached by a walk through the tree of
every expression that it stands in, in the same scope. Only statement lists are flattened on the
way, so this is not so for empty statements and blocks.
-/
namespace JsEmitter

open Js (Tree)
open Lowering (Context Scope)

namespace Expr

/-- The expressions that stand directly in an expression. -/
def children : Expr → List Expr
  | skip | literal _ | this | localVar _ | globalRef _ | loadModule _ | loadJsConstructor _
  | selectStatic _ _ => []
  | block statements => statements
  | varDef _ value | ret value | raise value | unary _ value | isInstanceOf value _
  | asInstanceOf value _ => [value]
  | select qualifier _ | jsSelect qualifier _ => [qualifier]
  | assign target value => [target, value]
  | branch cond thenBranch elseBranch? => cond :: thenBranch :: elseBranch?.toList
  | apply receiver _ args => receiver :: args
  | jsCall function args => function :: args
  | applySuper _ args | applyStatic _ _ args | applyConstructor _ _ args | new _ _ args => args
  | binary _ left right => [left, right]

/-- Whether an expression stands in another one, or is it. -/
inductive Inside (sub : Expr) : Expr → Prop
  | refl : Inside sub sub
  | child {inner expr : Expr} : Inside sub inner → inner ∈ expr.children → Inside sub expr

end Expr

namespace Js.Tree

/-- Whether a tree is a statement or expression of its own: not an empty statement, and no block,
whose statements may become those of another block. -/
def isOwn : Tree → Bool
  | skip | block _ => false
  | _ => true

/-- A walk through trees visits what it visits in each of them. -/
theorem visitedAll_eq_flatMap (trees : List Tree) : visitedAll trees = trees.flatMap visited := by
  induction trees with
  | nil => rfl
  | cons head rest ih => rw [visitedAll, ih, List.flatMap_cons]

/-- A walk through trees visits what it visits in one of them. -/
theorem mem_visitedAll {trees : List Tree} {tree : Tree} :
    tree ∈ visitedAll trees ↔ ∃ outer ∈ trees, tree ∈ visited outer := by
  rw [visitedAll_eq_flatMap, List.mem_flatMap]

/-- A walk starts with the tree itself. -/
theorem mem_visited_self (tree : Tree) : tree ∈ visited tree := by
  cases tree <;> simp [visited]

/-- A list of statements becomes one statement that a walk finds the same trees in. -/
theorem mem_visited_ofStatements {trees : List Tree} {tree : Tree} (own : tree.isOwn = true)
    (found : tree ∈ visitedAll trees) : tree ∈ visited (ofStatements trees) := by
  have inner : tree ∈ visitedAll (trees.flatMap statements) := by
    obtain ⟨outer, among, found⟩ := mem_visitedAll.1 found
    have inside : tree ∈ visitedAll outer.statements := by
      cases outer with
      | skip =>
        obtain rfl : tree = skip := by simpa [visited] using found
        cases own
      | block inner =>
        rcases List.mem_cons.1 found with rfl | found
        · cases own
        · exact found
      | _ => simpa [statements, visitedAll] using found
    obtain ⟨statement, there, found⟩ := mem_visitedAll.1 inside
    exact mem_visitedAll.2 ⟨statement, List.mem_flatMap.2 ⟨outer, among, there⟩, found⟩
  unfold ofStatements
  split
  · next none =>
    rw [none] at inner
    cases inner
  · next only one =>
    rw [one] at inner
    simpa [visitedAll] using inner
  · exact List.mem_cons_of_mem _ inner

end Js.Tree

namespace Lowering.Context

open Js.Tree

variable (context : Context) (scope : Scope)

/-- A list of expressions is lowered one by one. -/
theorem lowerAll_value (exprs : List Expr) :
    (context.lowerAll scope exprs).value =
      exprs.map (fun expr => (context.lower scope expr).value) := by
  induction exprs with
  | nil => rfl
  | cons head rest ih => simp [lowerAll, ih]

/-- The trees of the arguments are reached through the trees that hold them. -/
theorem mem_visitedAll_lowerAll {exprs : List Expr} {inner : Expr} (among : inner ∈ exprs)
    {tree : Tree} (found : tree ∈ visited (context.lower scope inner).value) :
    tree ∈ visitedAll (context.lowerAll scope exprs).value := by
  rw [lowerAll_value]
  exact mem_visitedAll.2 ⟨_, List.mem_map_of_mem among, found⟩

/-- A selection is walked through to what it selects from. -/
theorem mem_visited_propSelect {qualifier tree : Tree} (property : String)
    (found : tree ∈ visited qualifier) :
    tree ∈ visited (context.propSelect qualifier property) := by
  unfold propSelect
  split <;> simp [visited, found]

/-- What holds of variables and is kept by selecting properties holds of native classes: these are
found by a path that starts at a variable, or are referred to like other classes. -/
theorem loadNative_induction (holds : Tree → Prop) (owner : ClassName)
    (start : ∀ name, holds (.varRef name)) (own : holds (context.classRef owner))
    (select : ∀ tree property, holds tree → holds (context.propSelect tree property)) :
    holds (context.loadNative owner).value := by
  have selected (path : List String) (name : String) :
      holds (path.foldl context.propSelect (.varRef name)) :=
    List.foldlRecOn path _ (start name) (fun tree found property _ => select tree property found)
  unfold loadNative
  cases context.index.nativeLoadSpec? owner with
  | none => exact own
  | some spec =>
    rcases spec with ⟨_ | ⟨first, rest⟩⟩ | ⟨source, _ | ⟨first, rest⟩⟩ <;>
      dsimp only <;> try split
    all_goals first
      | exact start _
      | exact selected _ _

/-- The trees of the arguments are kept when an instance is created. -/
theorem mem_visited_newInstance (owner : ClassName) (ctor : MethodName) {args : List Tree}
    {tree : Tree} (found : tree ∈ visitedAll args) :
    tree ∈ visited (context.newInstance owner ctor args).value := by
  unfold newInstance
  split
  · simp [visited, found]
  · simp [visited, found]
  · change tree ∈ visited (.new (context.loadNative owner).value args)
    simp [visited, found]
  · split <;> simp [visited, visitedAll, found]

/-- The tree of an expression holds the trees of the expressions in it. -/
theorem mem_visited_lower_child {expr inner : Expr} (child : inner ∈ expr.children) {tree : Tree}
    (own : tree.isOwn = true) (found : tree ∈ visited (context.lower scope inner).value) :
    tree ∈ visited (context.lower scope expr).value := by
  have args : ∀ {exprs : List Expr}, inner ∈ exprs →
      tree ∈ visitedAll (context.lowerAll scope exprs).value :=
    fun among => context.mem_visitedAll_lowerAll scope among found
  cases expr with
  | block statements =>
    simp only [lower]
    exact mem_visited_ofStatements own (args child)
  | branch cond thenBranch elseBranch? =>
    simp only [Expr.children, List.mem_cons, Option.mem_toList] at child
    rcases child with rfl | rfl | rfl <;> simp [lower, lowerElse, visited, found]
  | apply receiver method exprs =>
    rcases List.mem_cons.1 child with rfl | among
    · simp [lower, visited, found]
    · simp [lower, visited, args among]
  | jsCall function exprs =>
    rcases List.mem_cons.1 child with rfl | among
    · simp [lower, visited, found]
    · simp [lower, visited, args among]
  | applySuper method exprs =>
    have there : tree ∈ visitedAll (context.lowerAll scope exprs).value := args child
    simp only [lower, superCall]
    split <;> simp [visited, visitedAll, there]
  | applyStatic owner method exprs =>
    have there : tree ∈ visitedAll (context.lowerAll scope exprs).value := args child
    simp [lower, visited, there]
  | applyConstructor owner ctor exprs =>
    have there : tree ∈ visitedAll (context.lowerAll scope exprs).value := args child
    simp [lower, visited, visitedAll, there]
  | new owner ctor exprs =>
    exact context.mem_visited_newInstance owner ctor (args child)
  | jsSelect qualifier property =>
    obtain rfl := List.mem_singleton.1 child
    exact context.mem_visited_propSelect property found
  | isInstanceOf value owner =>
    obtain rfl := List.mem_singleton.1 child
    simp only [lower, instanceTest]
    split <;> simp [visited, visitedAll, found]
  | assign target value | binary operator target value =>
    simp only [Expr.children, List.mem_cons, List.not_mem_nil, or_false] at child
    rcases child with rfl | rfl <;> simp [lower, visited, found]
  | varDef _ value | ret value | raise value | unary _ value | asInstanceOf value _
  | select value _ =>
    obtain rfl := List.mem_singleton.1 child
    simp [lower, visited, visitedOption, visitedAll, found]
  | _ => cases child

/-- The tree of an expression holds what the trees of its subterms hold. -/
theorem mem_visited_lower_of_inside {expr sub : Expr} (inside : sub.Inside expr) {tree : Tree}
    (own : tree.isOwn = true) (found : tree ∈ visited (context.lower scope sub).value) :
    tree ∈ visited (context.lower scope expr).value := by
  induction inside with
  | refl => exact found
  | child _ among ih => exact context.mem_visited_lower_child scope among own ih

/-- The tree of an expression holds the trees of all subterms. -/
theorem mem_visited_lower {expr sub : Expr} (inside : sub.Inside expr)
    (own : (context.lower scope sub).value.isOwn = true) :
    (context.lower scope sub).value ∈ visited (context.lower scope expr).value :=
  context.mem_visited_lower_of_inside scope inside own (mem_visited_self _)

end Lowering.Context

end JsEmitter
