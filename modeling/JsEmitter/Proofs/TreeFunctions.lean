import JsEmitter.Proofs.SameCode
import JsEmitter.Proofs.Subterms
import JsEmitter.Proofs.Variables

/-!
# Functions in generated code

A walk through generated code meets functions, each with its parameters and a body. Lowering writes
none of them: the trees of a body hold no function, whatever the body is, so functions come from the
generators alone. And lowering writes every name that a body takes from the host.
-/
namespace JsEmitter

open Js (Tree)
open Js.Tree (visited visitedAll visitedOption visitedProperties mem_visitedAll)
open Lowering (Context Scope)

namespace Expr

/-- Children are smaller than their expression. -/
theorem sizeOf_lt_of_mem_children {expr child : Expr} (among : child ∈ expr.children) :
    sizeOf child < sizeOf expr := by
  cases expr with
  | branch cond thenBranch elseBranch? =>
    cases elseBranch? <;>
      simp only [children, Option.toList, List.mem_cons, List.not_mem_nil, or_false] at among <;>
      rcases among with rfl | rfl | rfl <;> simp <;> omega
  | block exprs | applyStatic _ _ exprs | applySuper _ exprs | applyConstructor _ _ exprs
  | new _ _ exprs =>
    have smaller : sizeOf child < sizeOf exprs := List.sizeOf_lt_of_mem among
    simp
    omega
  | apply first _ exprs | jsCall first exprs =>
    rcases List.mem_cons.1 among with rfl | among
    · simp
      omega
    · have smaller := List.sizeOf_lt_of_mem among
      simp
      omega
  | _ =>
    simp only [children, List.mem_cons, List.not_mem_nil, or_false] at among
    try rcases among with rfl | rfl
    all_goals simp <;> omega

/-- What holds of an expression whenever it holds of the expressions that stand directly in it. -/
theorem children_induction {holds : Expr → Prop}
    (step : ∀ expr, (∀ child ∈ expr.children, holds child) → holds expr) (expr : Expr) :
    holds expr :=
  step expr (fun child among =>
    have := sizeOf_lt_of_mem_children among
    children_induction step child)
termination_by sizeOf expr

/-- What an expression has only from itself or from the expressions that stand directly in it, some
expression in it has from itself. -/
theorem exists_inside {has here : Expr → Prop}
    (step : ∀ expr, has expr → here expr ∨ ∃ child ∈ expr.children, has child) {expr : Expr}
    (there : has expr) : ∃ sub : Expr, sub.Inside expr ∧ here sub := by
  induction expr using children_induction with
  | step expr ih =>
    rcases step expr there with own | ⟨child, among, below⟩
    · exact ⟨expr, .refl, own⟩
    · obtain ⟨sub, inside, own⟩ := ih child among below
      exact ⟨sub, inside.child among, own⟩

end Expr

namespace Js

/-- A function in generated code: its parameters, with the one for the rest of the arguments last,
and its body. -/
structure FunctionNode where
  params : List String
  body : Tree

namespace Tree

/-- The function that a tree is, if it is one. -/
@[simp] def function? : Tree → Option FunctionNode
  | functionDef _ params rest? body | methodDef _ _ params rest? body =>
    some ⟨params ++ rest?.toList, body⟩
  | function params body => some ⟨params, body⟩
  | getterDef _ _ body => some ⟨[], body⟩
  | setterDef _ _ param body => some ⟨[param], body⟩
  | _ => none

/-- The functions among the trees that a walk visits. -/
def functions (visits : List Tree) : List FunctionNode := visits.filterMap function?

/-- Of no trees, none is a function. -/
@[simp] theorem functions_nil : functions [] = [] := rfl

/-- The functions of a list are that of its head, if it is one, and those of the rest. -/
@[simp] theorem functions_cons (head : Tree) (rest : List Tree) :
    functions (head :: rest) = head.function?.toList ++ functions rest := by
  rw [functions, List.filterMap_cons]
  cases head.function? <;> rfl

/-- The functions of a concatenation are those of its parts in turn. -/
@[simp] theorem functions_append (left right : List Tree) :
    functions (left ++ right) = functions left ++ functions right :=
  List.filterMap_append

/-- The functions in trees are those in each of them. -/
theorem functions_visitedAll (trees : List Tree) :
    functions (visitedAll trees) = trees.flatMap (fun tree => functions tree.visited) := by
  rw [visitedAll_eq_flatMap, functions, List.filterMap_flatMap]
  rfl

/-- The functions in a concatenation of trees are those in its parts. -/
@[simp] theorem functions_visitedAll_append (left right : List Tree) :
    functions (visitedAll (left ++ right)) =
      functions (visitedAll left) ++ functions (visitedAll right) := by
  simp only [functions_visitedAll, List.flatMap_append]

/-- A list of statements becomes one statement with the same functions. -/
@[simp] theorem functions_ofStatements (trees : List Tree) :
    functions (ofStatements trees).visited = functions (visitedAll trees) := by
  have each (tree : Tree) : functions (visitedAll tree.statements) = functions tree.visited := by
    cases tree <;> simp [statements, visited, visitedAll]
  have all : functions (visitedAll (trees.flatMap statements)) = functions (visitedAll trees) := by
    simp only [functions_visitedAll, List.flatMap_assoc] at each ⊢
    simp only [each]
  rw [← all, ofStatements]
  cases trees.flatMap statements with
  | nil => rfl
  | cons head rest => cases rest <;> simp [visited, visitedAll]

end Tree

end Js

namespace Lowering.Context

open Js.Tree

variable (context : Context)

/-- A qualified name holds no function. -/
@[simp] theorem qualify_functions (owner? : Option ModuleId) (name : String) :
    functions (context.qualify owner? name).visited = [] := by
  unfold qualify
  cases owner? with
  | none => rfl
  | some owner =>
    dsimp only
    split <;> rfl

/-- A reference to a member of a class holds no function. -/
@[simp] theorem classMemberRef_functions (owner : ClassName) (name : String) :
    functions (context.classMemberRef owner name).visited = [] :=
  context.qualify_functions _ _

/-- A reference to the bootstrap library holds no function. -/
@[simp] theorem bootstrapRef_functions (name : String) :
    functions (context.bootstrapRef name).visited = [] :=
  context.qualify_functions _ _

/-- A selected property holds the functions of its qualifier. -/
@[simp] theorem propSelect_functions (qualifier : Tree) (property : String) :
    functions (context.propSelect qualifier property).visited = functions qualifier.visited := by
  unfold propSelect
  split <;> simp [visited]

/-- A reference to a class holds no function. -/
@[simp] theorem classRef_functions (owner : ClassName) :
    functions (context.classRef owner).visited = [] :=
  context.classMemberRef_functions owner _

/-- Loading a native class holds no function. -/
@[simp] theorem loadNative_functions (owner : ClassName) :
    functions (context.loadNative owner).value.visited = [] :=
  context.loadNative_induction (fun tree => functions tree.visited = []) owner (fun _ => rfl)
    (context.classRef_functions owner)
    (fun tree property none => (context.propSelect_functions tree property).trans none)

/-- Loading a foreign class holds no function. -/
@[simp] theorem loadJsConstructor_functions (owner : ClassName) :
    functions (context.loadJsConstructor owner).value.visited = [] := by
  unfold loadJsConstructor
  split <;> simp

/-- Creating an instance holds the functions of its arguments. -/
@[simp] theorem newInstance_functions (owner : ClassName) (ctor : MethodName) (args : List Tree) :
    functions (context.newInstance owner ctor args).value.visited =
      functions (visitedAll args) := by
  unfold newInstance
  split
  · simp [visited]
  · simp [visited]
  · simp [visited]
  · split <;> simp [visited, visitedAll, functionRef]

/-- A reference to a type test holds no function. -/
@[simp] theorem typeTestRef_functions (owner : ClassName) (name : String) :
    functions (context.typeTestRef owner name).visited = [] := by
  unfold typeTestRef
  split <;> exact context.qualify_functions _ _

/-- Whether what a body refers to without naming it holds no function. -/
structure ScopePlain (scope : Scope) : Prop where
  receiver : functions scope.receiver.visited = []
  parent : ∀ parent ∈ scope.parent?, functions parent.visited = []

/-- Lowering writes no function: the trees of an expression hold none. -/
theorem lower_functions {scope : Scope} (plain : ScopePlain scope) (expr : Expr) :
    functions (context.lower scope expr).value.visited = [] := by
  induction expr using Expr.children_induction with
  | step expr ih =>
    have none {exprs : List Expr} (among : ∀ inner ∈ exprs, inner ∈ expr.children) :
        functions (visitedAll (context.lowerAll scope exprs).value) = [] := by
      rw [lowerAll_value, functions_visitedAll, List.flatMap_eq_nil_iff]
      exact List.forall_mem_map.2 (fun inner there => ih inner (among inner there))
    cases expr with
    | literal value => cases value <;> rfl
    | this => exact plain.receiver
    | loadJsConstructor owner => exact context.loadJsConstructor_functions owner
    | block statements =>
      have inner := @none statements (fun _ there => there)
      simp [lower, inner]
    | branch cond thenBranch elseBranch? =>
      have first := ih cond (by simp [Expr.children])
      have second := ih thenBranch (by simp [Expr.children])
      cases elseBranch? with
      | none => simp [lower, lowerElse, visited, first, second]
      | some other =>
        have third := ih other (by simp [Expr.children])
        simp [lower, lowerElse, visited, first, second, third]
    | apply first _ args | jsCall first args =>
      have callee := ih first List.mem_cons_self
      simp [lower, visited, callee, none (fun _ => List.mem_cons_of_mem _)]
    | applySuper method args =>
      have given := @none args (fun _ there => there)
      have parent : functions (scope.parent?.getD (context.classRef .root)).visited = [] := by
        cases found : scope.parent? with
        | none => exact context.classRef_functions _
        | some parent => exact plain.parent parent found
      simp only [lower, superCall]
      split <;> simp [visited, visitedAll, given, parent, plain.receiver]
    | applyStatic _ _ args | applyConstructor _ _ args | new _ _ args =>
      have given := @none args (fun _ there => there)
      simp [lower, visited, visitedAll, functionRef, given, plain.receiver]
    | isInstanceOf value owner =>
      have inner := ih value List.mem_cons_self
      simp only [lower, instanceTest]
      split <;> simp [visited, visitedAll, typeTestRef_functions, inner]
    | asInstanceOf value owner =>
      have inner := ih value List.mem_cons_self
      simp [lower, visited, visitedAll, typeTestRef_functions, inner]
    | assign first second | binary _ first second =>
      have left := ih first (by simp [Expr.children])
      have right := ih second (by simp [Expr.children])
      simp [lower, visited, left, right]
    | varDef _ value | ret value | raise value | unary _ value | select value _
    | jsSelect value _ =>
      have inner := ih value List.mem_cons_self
      simp [lower, visited, visitedOption, inner]
    | _ => simp [lower, visited, hostRef, visitedAll]

/-- Lowered expressions hold no function, if what their scope refers to holds none. -/
theorem lowerAll_functions {scope : Scope} (plain : ScopePlain scope) (exprs : List Expr) :
    functions (visitedAll (context.lowerAll scope exprs).value) = [] := by
  rw [lowerAll_value, functions_visitedAll, List.flatMap_eq_nil_iff]
  exact List.forall_mem_map.2 (fun expr _ => context.lower_functions plain expr)

end Lowering.Context

namespace HostNames

variable {config : Config} {index : ClassIndex} {name : String}

/-- Whether an expression itself takes a name from the host: it refers to it, or it loads a native
class that is found by it. -/
inductive TakenBy (config : Config) (index : ClassIndex) (name : String) : Expr → Prop
  | globalRef : TakenBy config index name (.globalRef name)
  | loaded {owner : ClassName} : name ∈ ofClass config index owner →
    TakenBy config index name (.loadJsConstructor owner)
  | created {owner : ClassName} {ctor : MethodName} {args : List Expr} :
    name ∈ ofClass config index owner → TakenBy config index name (.new owner ctor args)

/-- Expressions take a name from the host if one of them does. -/
theorem mem_ofExprs {exprs : List Expr} :
    name ∈ ofExprs config index exprs ↔ ∃ expr ∈ exprs, name ∈ ofExpr config index expr := by
  induction exprs with
  | nil => simp [ofExprs]
  | cons head rest ih => simp [ofExprs, ih]

/-- The names that an expression takes from the host are those that the expressions in it take by
themselves. -/
theorem exists_takenBy {expr : Expr} (found : name ∈ ofExpr config index expr) :
    ∃ sub : Expr, sub.Inside expr ∧ TakenBy config index name sub := by
  refine @Expr.exists_inside (fun expr => name ∈ ofExpr config index expr) _ ?_ _ found
  intro expr found
  cases expr with
  | skip | literal _ | this | localVar _ | loadModule _ | selectStatic _ _ =>
    simp [ofExpr] at found
  | globalRef other =>
    obtain rfl := List.mem_singleton.1 found
    exact .inl .globalRef
  | loadJsConstructor owner => exact .inl (.loaded found)
  | new owner ctor args =>
    rcases List.mem_append.1 found with found | found
    · exact .inr (mem_ofExprs.1 found)
    · exact .inl (.created found)
  | branch cond thenBranch elseBranch? =>
    refine .inr ?_
    cases elseBranch? <;> simpa [ofExpr, ofElse, Expr.children, or_assoc] using found
  | _ => exact .inr (by simpa [ofExpr, Expr.children, mem_ofExprs] using found)

end HostNames

/-- An expression that makes super calls has a super call in it. -/
theorem Expr.exists_applySuper {expr : Expr} (calls : expr.callsSuper = true) :
    ∃ method args, (Expr.applySuper method args).Inside expr := by
  have found : ∃ sub : Expr, sub.Inside expr ∧ ∃ method args, sub = .applySuper method args := by
    refine @exists_inside (fun expr => expr.callsSuper = true) _ ?_ _ calls
    intro expr calls
    cases expr with
    | skip | literal _ | this | localVar _ | globalRef _ | loadModule _ | loadJsConstructor _
    | selectStatic _ _ =>
      simp [callsSuper] at calls
    | applySuper method args => exact .inl ⟨method, args, rfl⟩
    | branch cond thenBranch elseBranch? =>
      refine .inr ?_
      cases elseBranch? <;> simpa [callsSuper, optionCallsSuper, children, or_assoc] using calls
    | _ => exact .inr (by simpa [callsSuper, children, anyCallsSuper_iff] using calls)
  obtain ⟨sub, inside, method, args, rfl⟩ := found
  exact ⟨method, args, inside⟩

namespace Lowering.Context

open HostNames
open Js.Tree (functions)

variable (context : Context)

/-- A reference to a host name refers to it. -/
theorem hostRef_references (name : String) :
    (context.hostRef name).value.references name = true := by
  simp [hostRef, Tree.references_iff, visited]

/-- A selected property refers to whatever its qualifier refers to. -/
theorem propSelect_references {qualifier : Tree} {name : String}
    (refers : qualifier.references name = true) (property : String) :
    (context.propSelect qualifier property).references name = true :=
  Tree.references_iff.2 (context.mem_visited_propSelect property (Tree.references_iff.1 refers))

/-- A native class is referred to by the name of the host that it is found by. -/
theorem loadNative_references {owner : ClassName} {name : String}
    (found : name ∈ ofNative context.config context.index owner) :
    (context.loadNative owner).value.references name = true := by
  have select (path : List String) (start : Tree) (refers : start.references name = true) :
      (path.foldl context.propSelect start).references name = true :=
    List.foldlRecOn (motive := fun tree : Tree => tree.references name = true) path _ refers
      (fun _ found head _ => context.propSelect_references found head)
  unfold ofNative at found
  unfold loadNative
  cases given : context.index.nativeLoadSpec? owner with
  | none => simp [given] at found
  | some spec =>
    rw [given] at found
    rcases spec with ⟨_ | ⟨first, rest⟩⟩ | ⟨source, path⟩
    · obtain rfl := List.mem_singleton.1 found
      exact context.hostRef_references _
    · obtain rfl := List.mem_singleton.1 found
      exact select rest _ (context.hostRef_references _)
    · dsimp only at found ⊢
      split at found
      · next script =>
        rw [if_pos script]
        obtain rfl := List.mem_singleton.1 found
        cases path with
        | nil => exact context.hostRef_references _
        | cons first rest => exact select rest _ (context.hostRef_references _)
      · cases found

/-- The code that loads a native class refers to the host names read off it. -/
theorem loadJsConstructor_references {owner : ClassName} {name : String}
    (found : name ∈ ofClass context.config context.index owner) :
    (context.loadJsConstructor owner).value.references name = true := by
  unfold ofClass at found
  unfold loadJsConstructor
  split at found
  · next native =>
    rw [if_pos native]
    exact context.loadNative_references found
  · cases found

/-- Creating an instance refers to the host names read off the class. -/
theorem newInstance_references {owner : ClassName} {name : String}
    (found : name ∈ ofClass context.config context.index owner) (ctor : MethodName)
    (args : List Tree) : (context.newInstance owner ctor args).value.references name = true := by
  unfold ofClass at found
  split at found
  · next native =>
    have loaded := Tree.references_iff.1 (context.loadNative_references found)
    simp [newInstance, native, Tree.references_iff, visited, loaded]
  · cases found

/-- Every name that a body takes from the host is referred to by its tree. -/
theorem lower_references (scope : Scope) {expr : Expr} {name : String}
    (found : name ∈ ofExpr context.config context.index expr) :
    (context.lower scope expr).value.references name = true := by
  obtain ⟨sub, inside, taken⟩ := exists_takenBy found
  refine Tree.references_iff.2 (context.mem_visited_lower_of_inside scope inside rfl
    (Tree.references_iff.1 ?_))
  cases taken with
  | globalRef => exact context.hostRef_references name
  | loaded native => exact context.loadJsConstructor_references native
  | created native => exact context.newInstance_references native _ _

/-- Every variable of the parent is referred to by the tree of a body that makes super calls, unless
these are written with `super`. -/
theorem lower_references_parent {scope : Scope} {parent : Tree} {expr : Expr} {name : String}
    (given : scope.parent? = some parent) (named : scope.usesSuper = false)
    (calls : expr.callsSuper = true) (refers : parent.references name = true) :
    (context.lower scope expr).value.references name = true := by
  obtain ⟨method, args, inside⟩ := Expr.exists_applySuper calls
  refine Tree.references_iff.2 (context.mem_visited_lower_of_inside scope inside rfl ?_)
  simp [lower, superCall, given, named, visited, Tree.references_iff.1 refers]

/-- The names that the parent of a class takes from the host are referred to by its tree. -/
theorem parentRef_references {linked : LinkedClass} {name : String}
    (found : name ∈ ofParent context.config context.index linked) :
    ∃ parent, (context.parentRef linked).value = some parent ∧ parent.references name = true := by
  unfold ofParent at found
  unfold parentRef
  change ∃ parent, Tracked.value (if HostNames.extendsHostError context.config linked then _
    else _) = some parent ∧ _
  split at found
  · next rewired =>
    obtain rfl := List.mem_singleton.1 found
    exact ⟨_, by rw [if_pos rewired]; rfl, context.hostRef_references _⟩
  · next ordinary =>
    rw [if_neg ordinary]
    split at found
    · next foreign =>
      rw [if_pos foreign]
      cases extended : linked.jsSuperClass? with
      | some expr =>
        rw [extended] at found
        exact ⟨_, rfl, context.lower_references .plain found⟩
      | none =>
        rw [extended] at found
        cases above : linked.superClass? with
        | some owner =>
          rw [above] at found
          exact ⟨_, rfl, context.loadJsConstructor_references found⟩
        | none =>
          rw [above] at found
          cases found
    · cases found

/-- The parent of a class is the error type of the host, the tree of the expression that the class
extends, or another class. -/
theorem parentRef_cases {linked : LinkedClass} {parent : Tree}
    (found : parent ∈ (context.parentRef linked).value) :
    parent = (context.hostRef hostErrorName).value ∨
      (∃ expr ∈ linked.jsSuperClass?, parent = (context.lower .plain expr).value) ∨
      ∃ owner, parent = (context.loadJsConstructor owner).value ∨
        parent = context.classRef owner := by
  unfold parentRef at found
  split at found
  · exact .inl (Option.some.inj found).symm
  · split at found
    · split at found
      · next expr given => exact .inr (.inl ⟨expr, given, (Option.some.inj found).symm⟩)
      · exact .inr (.inr ⟨_, .inl (Option.some.inj found).symm⟩)
      · cases found
    · obtain ⟨owner, -, same⟩ := Option.map_eq_some_iff.1 found
      exact .inr (.inr ⟨owner, .inr same.symm⟩)

/-- The parent of a class holds no function. -/
theorem parentRef_functions {linked : LinkedClass} :
    ∀ parent ∈ (context.parentRef linked).value, functions parent.visited = [] := by
  intro parent found
  rcases context.parentRef_cases found with rfl | ⟨expr, -, rfl⟩ | ⟨owner, rfl | rfl⟩
  · rfl
  · exact context.lower_functions ⟨rfl, by simp [Scope.plain]⟩ expr
  · exact context.loadJsConstructor_functions owner
  · exact context.classRef_functions owner

end Lowering.Context

end JsEmitter
