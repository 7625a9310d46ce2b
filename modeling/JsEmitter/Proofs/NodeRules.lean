import JsEmitter.Proofs.TreeFunctions

/-!
# Rules for blocks and assignments

Whether generated code is as it should be is often a question about its blocks and its assignments
alone. A rule says which of these are allowed. Lowering writes an assignment only where the body has
one, and a block only where the body has one; there it merges the statements of inner blocks.
-/
namespace JsEmitter

open Js (Tree)
open Js.Tree (visited visitedAll visitedOption visitedProperties statements ofStatements
  visitedAll_eq_flatMap)
open Lowering (Context Scope)

namespace Js

/-- Which blocks, by their statements, and which assignments are allowed. -/
structure NodeRule where
  block : List Tree → Prop
  assign : Tree → Tree → Prop

namespace NodeRule

variable (rule : NodeRule)

/-- Whether a tree is allowed, whatever its parts are. -/
@[simp] def Allows : Tree → Prop
  | .block statements => rule.block statements
  | .assign target value => rule.assign target value
  | _ => True

/-- Whether all trees that a walk visits are allowed. -/
def Holds (visits : List Tree) : Prop := ∀ node ∈ visits, rule.Allows node

/-- Of no trees, none breaks a rule. -/
@[simp] theorem holds_nil : rule.Holds [] := List.forall_mem_nil _

/-- A rule holds of a list if it holds of its head and of the rest. -/
@[simp] theorem holds_cons {head : Tree} {rest : List Tree} :
    rule.Holds (head :: rest) ↔ rule.Allows head ∧ rule.Holds rest :=
  List.forall_mem_cons

/-- A rule holds of a concatenation if it holds of both parts. -/
@[simp] theorem holds_append {left right : List Tree} :
    rule.Holds (left ++ right) ↔ rule.Holds left ∧ rule.Holds right :=
  List.forall_mem_append

/-- A rule holds of a walk through trees if it holds of the walk through each of them. -/
theorem holds_visitedAll {trees : List Tree} :
    rule.Holds (visitedAll trees) ↔ ∀ tree ∈ trees, rule.Holds tree.visited := by
  rw [visitedAll_eq_flatMap]
  exact List.forall_mem_flatMap

/-- A list of statements becomes one allowed statement if the statements that are left after
flattening are allowed, and so is the block of them if there are several. -/
theorem holds_ofStatements {trees : List Tree} :
    rule.Holds (ofStatements trees).visited ↔
      (2 ≤ (trees.flatMap statements).length → rule.block (trees.flatMap statements)) ∧
        ∀ statement ∈ trees.flatMap statements, rule.Holds statement.visited := by
  unfold ofStatements
  rcases trees.flatMap statements with _ | ⟨first, _ | ⟨second, rest⟩⟩
  · simp [visited]
  · simp
  · simp [visited, holds_visitedAll, visitedAll]

/-- The statements that a tree contributes to a block are allowed if the tree is. -/
theorem holds_statements {tree : Tree} (holds : rule.Holds tree.visited) :
    ∀ statement ∈ tree.statements, rule.Holds statement.visited := by
  cases tree with
  | skip => simp [statements]
  | block inner =>
    rw [visited, holds_cons, holds_visitedAll] at holds
    exact holds.2
  | _ => simpa [statements] using holds

/-- A rule that allows all blocks says the same about statements before and after flattening. -/
theorem holds_ofStatements_of_free (free : ∀ statements, rule.block statements)
    {trees : List Tree} : rule.Holds (ofStatements trees).visited ↔
      ∀ tree ∈ trees, rule.Holds tree.visited := by
  have each (tree : Tree) : (∀ statement ∈ tree.statements, rule.Holds statement.visited) ↔
      rule.Holds tree.visited := by
    refine ⟨fun inner => ?_, rule.holds_statements⟩
    cases tree with
    | skip => simp [visited]
    | block parts => simpa [visited, free, holds_visitedAll, statements] using inner
    | _ => simpa [statements] using inner
  rw [holds_ofStatements, and_iff_right (fun _ => free _), List.forall_mem_flatMap]
  exact forall₂_congr (fun tree _ => each tree)

end NodeRule

end Js

open Js (NodeRule)

namespace Lowering.Context

variable (context : Context) (rule : NodeRule)

section References

/-- A qualified name is as every rule allows. -/
@[simp] theorem qualify_holds (owner? : Option ModuleId) (name : String) :
    rule.Holds (context.qualify owner? name).visited := by
  unfold qualify
  cases owner? with
  | none => simp [visited]
  | some owner =>
    dsimp only
    split <;> simp [visited]

/-- A reference to a member of a class is as every rule allows. -/
@[simp] theorem classMemberRef_holds (owner : ClassName) (name : String) :
    rule.Holds (context.classMemberRef owner name).visited :=
  context.qualify_holds rule _ _

/-- A reference to a class is as every rule allows. -/
@[simp] theorem classRef_holds (owner : ClassName) :
    rule.Holds (context.classRef owner).visited :=
  context.classMemberRef_holds rule owner _

/-- A reference to a function is as every rule allows. -/
@[simp] theorem functionRef_holds (home : MemberNamespace) (owner : ClassName)
    (method : MethodName) : rule.Holds (context.functionRef home owner method).visited :=
  context.classMemberRef_holds rule owner _

/-- A reference to the bootstrap library is as every rule allows. -/
@[simp] theorem bootstrapRef_holds (name : String) :
    rule.Holds (context.bootstrapRef name).visited :=
  context.qualify_holds rule _ _

/-- A reference to a type test is as every rule allows. -/
@[simp] theorem typeTestRef_holds (owner : ClassName) (name : String) :
    rule.Holds (context.typeTestRef owner name).visited := by
  unfold typeTestRef
  split
  · exact context.qualify_holds rule _ _
  · exact context.classMemberRef_holds rule owner name

/-- A reference to a host name is as every rule allows. -/
@[simp] theorem hostRef_holds (name : String) :
    rule.Holds (context.hostRef name).value.visited := by
  simp [hostRef, visited]

/-- A selected property is as a rule allows if its qualifier is. -/
@[simp] theorem propSelect_holds {qualifier : Tree} {property : String} :
    rule.Holds (context.propSelect qualifier property).visited ↔
      rule.Holds qualifier.visited := by
  unfold propSelect
  split <;> simp [visited]

/-- Loading a native class is as every rule allows. -/
@[simp] theorem loadNative_holds (owner : ClassName) :
    rule.Holds (context.loadNative owner).value.visited :=
  context.loadNative_induction (fun tree => rule.Holds tree.visited) owner
    (fun _ => by simp [visited]) (context.classRef_holds rule owner)
    (fun _ _ holds => (context.propSelect_holds rule).2 holds)

/-- Loading a foreign class is as every rule allows. -/
@[simp] theorem loadJsConstructor_holds (owner : ClassName) :
    rule.Holds (context.loadJsConstructor owner).value.visited := by
  unfold loadJsConstructor
  split
  · exact context.loadNative_holds rule owner
  · exact context.classRef_holds rule owner

end References

section Bodies

/-- Creating an instance is as a rule allows if its arguments are. -/
@[simp] theorem newInstance_holds {owner : ClassName} {ctor : MethodName} {args : List Tree} :
    rule.Holds (context.newInstance owner ctor args).value.visited ↔
      ∀ arg ∈ args, rule.Holds arg.visited := by
  have direct : rule.Holds (visited (.new (context.classRef owner) args)) ↔
      ∀ arg ∈ args, rule.Holds arg.visited := by
    simp [visited, rule.holds_visitedAll]
  unfold newInstance
  split
  · exact direct
  · exact direct
  · simp [visited, rule.holds_visitedAll]
  · split
    · exact direct
    · simp [visited, visitedAll, rule.holds_visitedAll]

/-- A test of an instance is as a rule allows if its value is. -/
@[simp] theorem instanceTest_holds {owner : ClassName} {value : Tree} :
    rule.Holds (context.instanceTest owner value).visited ↔ rule.Holds value.visited := by
  unfold instanceTest
  split <;> simp [visited, visitedAll]

/-- Whether what bodies refer to without naming it is allowed. -/
structure ScopeHolds (scope : Scope) : Prop where
  receiver : rule.Holds scope.receiver.visited
  parent : ∀ parent ∈ scope.parent?, rule.Holds parent.visited

variable {context rule} {scope : Scope}

/-- A super call is as a rule allows if its arguments are. -/
theorem superCall_holds (inside : ScopeHolds rule scope) {method : MethodName}
    {args : List Tree} : rule.Holds (context.superCall scope method args).visited ↔
      ∀ arg ∈ args, rule.Holds arg.visited := by
  have parent : rule.Holds (scope.parent?.getD (context.classRef .root)).visited := by
    cases found : scope.parent? with
    | none => exact context.classRef_holds rule .root
    | some parent => exact inside.parent parent found
  unfold superCall
  split
  · simp [visited, rule.holds_visitedAll]
  · simp [visited, visitedAll, rule.holds_visitedAll, parent, inside.receiver]

/-- The code of expressions is as a rule allows if that of each of them is. -/
theorem lowerAll_holds {exprs : List Expr} :
    rule.Holds (visitedAll (context.lowerAll scope exprs).value) ↔
      ∀ expr ∈ exprs, rule.Holds (context.lower scope expr).value.visited := by
  rw [lowerAll_value, rule.holds_visitedAll]
  exact List.forall_mem_map

/-- Whether the tree of an expression is allowed if it is an assignment. -/
def AssignsAsAllowed (context : Context) (rule : NodeRule) (scope : Scope) : Expr → Prop
  | .assign target value =>
    rule.assign (context.lower scope target).value (context.lower scope value).value
  | _ => True

/-- The tree of an expression that is no block is allowed, with all that is in it, if the trees of
the expressions in it are, and the assignment if it is one. -/
theorem lower_holds_iff (inside : ScopeHolds rule scope) {expr : Expr}
    (other : ∀ statements, expr ≠ .block statements) :
    rule.Holds (context.lower scope expr).value.visited ↔
      context.AssignsAsAllowed rule scope expr ∧
        ∀ child ∈ expr.children, rule.Holds (context.lower scope child).value.visited := by
  cases expr with
  | block statements => exact absurd rfl (other statements)
  | this => simpa [lower, AssignsAsAllowed, Expr.children] using inside.receiver
  | literal value =>
    cases value <;> simp [lower, literal, visited, AssignsAsAllowed, Expr.children]
  | branch cond thenBranch elseBranch? =>
    cases elseBranch? <;>
      simp [lower, lowerElse, visited, AssignsAsAllowed, Expr.children]
  | applySuper method args =>
    simp [lower, AssignsAsAllowed, Expr.children, superCall_holds inside, lowerAll_value]
  | applyConstructor owner ctor args =>
    simp [lower, visited, visitedAll, AssignsAsAllowed, Expr.children, lowerAll_holds,
      inside.receiver]
  | new owner ctor args => simp [lower, AssignsAsAllowed, Expr.children, lowerAll_value]
  | apply first _ args | jsCall first args =>
    simp [lower, visited, AssignsAsAllowed, Expr.children, lowerAll_holds]
  | _ =>
    simp [lower, visited, visitedAll, visitedOption, AssignsAsAllowed, Expr.children,
      lowerAll_holds]

/-- Under a rule that allows all blocks, the tree of an expression is allowed if all assignments in
the expression are. -/
theorem lower_holds_of_free (free : ∀ statements, rule.block statements)
    (inside : ScopeHolds rule scope) {expr : Expr}
    (assigns : ∀ sub : Expr, sub.Inside expr → context.AssignsAsAllowed rule scope sub) :
    rule.Holds (context.lower scope expr).value.visited := by
  induction expr using Expr.children_induction with
  | step expr ih =>
    have parts : ∀ child ∈ expr.children,
        rule.Holds (context.lower scope child).value.visited :=
      fun child among => ih child among (fun sub deeper => assigns sub (deeper.child among))
    by_cases nested : ∃ exprs, expr = .block exprs
    · obtain ⟨exprs, rfl⟩ := nested
      change rule.Holds (ofStatements (context.lowerAll scope exprs).value).visited
      rw [rule.holds_ofStatements_of_free free, lowerAll_value]
      exact List.forall_mem_map.2 parts
    · exact (lower_holds_iff inside (not_exists.1 nested)).2 ⟨assigns expr .refl, parts⟩

/-- The parent of a class is allowed if the expression that it extends is. -/
theorem parentRef_holds {linked : LinkedClass}
    (extended : ∀ body ∈ linked.jsSuperClass?,
      rule.Holds (context.lower .plain body).value.visited) :
    ∀ parent ∈ (context.parentRef linked).value, rule.Holds parent.visited := by
  intro parent found
  rcases context.parentRef_cases found with rfl | ⟨body, given, rfl⟩ | ⟨owner, rfl | rfl⟩
  · exact context.hostRef_holds rule _
  · exact extended body given
  · exact context.loadJsConstructor_holds rule owner
  · exact context.classRef_holds rule owner

end Bodies

end Lowering.Context

section Flat

namespace Expr

mutual

/-- The statements that an expression contributes to a block: none if it is empty, and if it is a
block those that its expressions contribute. -/
def flat : Expr → List Expr
  | skip => []
  | block statements => flatAll statements
  | other => [other]

/-- The statements that some expressions contribute to a block. -/
def flatAll : List Expr → List Expr
  | [] => []
  | head :: rest => flat head ++ flatAll rest

end

/-- The flattened statements of a list are those of its expressions. -/
theorem flatAll_eq_flatMap (exprs : List Expr) : flatAll exprs = exprs.flatMap flat := by
  induction exprs with
  | nil => rfl
  | cons head rest ih => rw [flatAll, ih, List.flatMap_cons]

/-- An expression that is neither empty nor a block is its only statement. -/
theorem flat_of_busy {expr : Expr} (busy : expr ≠ skip)
    (other : ∀ statements, expr ≠ block statements) : expr.flat = [expr] := by
  cases expr with
  | skip => exact absurd rfl busy
  | block statements => exact absurd rfl (other statements)
  | _ => rfl

/-- What is contributed to a block is neither empty nor a block. -/
theorem of_mem_flat {statement expr : Expr} (found : statement ∈ expr.flat) :
    statement ≠ skip ∧ ∀ statements, statement ≠ block statements := by
  induction expr using children_induction with
  | step expr ih =>
    cases expr with
    | skip => cases found
    | block exprs =>
      rw [flat, flatAll_eq_flatMap] at found
      obtain ⟨inner, among, found⟩ := List.mem_flatMap.1 found
      exact ih inner among found
    | _ =>
      obtain rfl := List.mem_singleton.1 found
      exact ⟨by simp, by simp⟩

end Expr

namespace Js.Tree

/-- A tree that is neither empty nor a block is its only statement. -/
theorem statements_of_isOwn {tree : Tree} (own : tree.isOwn = true) : tree.statements = [tree] := by
  cases tree <;> first | rfl | cases own

/-- Statements that are neither empty nor blocks are flattened for good: as one statement they
contribute to a block what they contribute one by one. -/
theorem statements_ofStatements {trees : List Tree}
    (own : ∀ statement ∈ trees.flatMap statements, statement.isOwn = true) :
    (ofStatements trees).statements = trees.flatMap statements := by
  unfold ofStatements
  rcases same : trees.flatMap statements with _ | ⟨only, _ | ⟨second, rest⟩⟩
  · rfl
  · exact statements_of_isOwn (own only (by simp [same]))
  · rfl

end Js.Tree

namespace Js.Tree

/-- Whether a tree is a variable or the selection of a property. -/
def isReference : Tree → Bool
  | varRef _ | dotSelect _ _ | bracketSelect _ _ => true
  | _ => false

/-- Whether a tree calls a function or applies an operator to two operands. -/
def isCall : Tree → Bool
  | apply _ _ | new _ _ | binary _ _ _ => true
  | _ => false

variable {tree : Tree}

/-- A reference is neither empty nor a block. -/
theorem isOwn_of_isReference (reference : tree.isReference = true) : tree.isOwn = true := by
  cases tree <;> first | rfl | cases reference

/-- A reference defines no name. -/
theorem definedName?_of_isReference (reference : tree.isReference = true) :
    tree.definedName? = none := by
  cases tree <;> first | rfl | cases reference

/-- A call is neither empty nor a block. -/
theorem isOwn_of_isCall (call : tree.isCall = true) : tree.isOwn = true := by
  cases tree <;> first | rfl | cases call

/-- A call defines no name. -/
theorem definedName?_of_isCall (call : tree.isCall = true) : tree.definedName? = none := by
  cases tree <;> first | rfl | cases call

/-- A call is no reference. -/
theorem isReference_of_isCall (call : tree.isCall = true) : tree.isReference = false := by
  cases tree <;> first | rfl | cases call

end Js.Tree

namespace Lowering.Context

open Js.Tree (isOwn_of_isReference isOwn_of_isCall)

variable (context : Context) {scope : Scope}

/-- A qualified name is a reference. -/
@[simp] theorem qualify_isReference (owner? : Option ModuleId) (name : String) :
    (context.qualify owner? name).isReference = true := by
  unfold qualify
  cases owner? with
  | none => rfl
  | some owner =>
    dsimp only
    split <;> rfl

/-- A selected property is a reference. -/
@[simp] theorem propSelect_isReference (qualifier : Tree) (property : String) :
    (context.propSelect qualifier property).isReference = true := by
  unfold propSelect
  split <;> rfl

/-- A native class is loaded by a reference. -/
theorem loadNative_isReference (owner : ClassName) :
    (context.loadNative owner).value.isReference = true :=
  context.loadNative_induction (fun tree => tree.isReference = true) owner (fun _ => rfl)
    (context.qualify_isReference _ _)
    (fun tree property _ => context.propSelect_isReference tree property)

/-- A foreign class is loaded by a reference. -/
theorem loadJsConstructor_isReference (owner : ClassName) :
    (context.loadJsConstructor owner).value.isReference = true := by
  unfold loadJsConstructor
  split
  · exact context.loadNative_isReference owner
  · exact context.qualify_isReference _ _

/-- A super call is a call. -/
theorem superCall_isCall (scope : Scope) (method : MethodName) (args : List Tree) :
    (context.superCall scope method args).isCall = true := by
  unfold superCall
  split <;> rfl

/-- An instance is created by a call. -/
theorem newInstance_isCall (owner : ClassName) (ctor : MethodName) (args : List Tree) :
    (context.newInstance owner ctor args).value.isCall = true := by
  unfold newInstance
  split
  · rfl
  · rfl
  · rfl
  · split <;> rfl

/-- An instance is tested by a call. -/
theorem instanceTest_isCall (owner : ClassName) (value : Tree) :
    (context.instanceTest owner value).isCall = true := by
  unfold instanceTest
  split <;> rfl

variable {context}

/-- An expression that is no block and does something becomes a statement of its own. -/
theorem lower_isOwn (receiver : scope.receiver.isOwn = true) {expr : Expr}
    (other : ∀ statements, expr ≠ .block statements) (busy : expr ≠ .skip) :
    (context.lower scope expr).value.isOwn = true := by
  cases expr with
  | skip => exact absurd rfl busy
  | block statements => exact absurd rfl (other statements)
  | this => exact receiver
  | literal value => cases value <;> rfl
  | jsSelect qualifier property =>
    exact isOwn_of_isReference (context.propSelect_isReference _ property)
  | selectStatic owner field => exact isOwn_of_isReference (context.qualify_isReference _ _)
  | loadJsConstructor owner =>
    exact isOwn_of_isReference (context.loadJsConstructor_isReference owner)
  | applySuper method args => exact isOwn_of_isCall (context.superCall_isCall scope method _)
  | new owner ctor args => exact isOwn_of_isCall (context.newInstance_isCall owner ctor _)
  | isInstanceOf value owner => exact isOwn_of_isCall (context.instanceTest_isCall owner _)
  | _ => rfl

/-- The flattened statements of an expression become trees that are neither empty nor blocks. -/
theorem flat_isOwn (receiver : scope.receiver.isOwn = true) (expr : Expr) :
    ∀ statement ∈ expr.flat, (context.lower scope statement).value.isOwn = true := by
  intro statement found
  obtain ⟨busy, other⟩ := Expr.of_mem_flat found
  exact lower_isOwn receiver other busy

/-- What the tree of an expression contributes to a block are the trees of what the expression
contributes, however deep its blocks are nested. -/
theorem lower_statements {expr : Expr}
    (own : ∀ statement ∈ expr.flat, (context.lower scope statement).value.isOwn = true) :
    (context.lower scope expr).value.statements =
      expr.flat.map (fun statement => (context.lower scope statement).value) := by
  induction expr using Expr.children_induction with
  | step expr ih =>
    by_cases blank : expr = .skip
    · rw [blank]
      rfl
    by_cases nested : ∃ exprs, expr = .block exprs
    · obtain ⟨exprs, rfl⟩ := nested
      simp only [Expr.flat, Expr.flatAll_eq_flatMap, List.forall_mem_flatMap] at own ⊢
      have inner : (context.lowerAll scope exprs).value.flatMap statements =
          (exprs.flatMap Expr.flat).map
            (fun statement => (context.lower scope statement).value) := by
        rw [lowerAll_value, List.flatMap_map, List.map_flatMap]
        exact List.flatMap_congr (fun expr among => ih expr among (own expr among))
      refine (Js.Tree.statements_ofStatements ?_).trans inner
      rw [inner]
      exact List.forall_mem_map.2 (List.forall_mem_flatMap.2 own)
    · have single : expr.flat = [expr] := Expr.flat_of_busy blank (not_exists.1 nested)
      rw [single] at own ⊢
      exact Js.Tree.statements_of_isOwn (own expr (List.mem_singleton_self expr))

/-- An expression that contributes one statement is lowered like this statement. -/
theorem lower_of_flat {expr statement : Expr} (single : expr.flat = [statement])
    (own : (context.lower scope statement).value.isOwn = true) :
    (context.lower scope expr).value = (context.lower scope statement).value := by
  by_cases nested : ∃ exprs, expr = .block exprs
  · obtain ⟨exprs, rfl⟩ := nested
    have each : ∀ expr ∈ exprs, ∀ inner ∈ expr.flat,
        (context.lower scope inner).value.isOwn = true := by
      intro expr among inner found
      rw [Expr.flat, Expr.flatAll_eq_flatMap] at single
      have there : inner ∈ exprs.flatMap Expr.flat := List.mem_flatMap.2 ⟨expr, among, found⟩
      rw [single] at there
      rwa [List.mem_singleton.1 there]
    have trees : (context.lowerAll scope exprs).value.flatMap statements =
        [(context.lower scope statement).value] := by
      rw [lowerAll_value, List.flatMap_map,
        List.flatMap_congr (fun expr among => lower_statements (each expr among)),
        ← List.map_flatMap, ← Expr.flatAll_eq_flatMap]
      exact congrArg _ single
    change ofStatements (context.lowerAll scope exprs).value = _
    rw [ofStatements, trees]
  · have busy : expr ≠ .skip := by
      rintro rfl
      cases single
    rw [Expr.flat_of_busy busy (not_exists.1 nested)] at single
    rw [(List.cons.inj single).1]

/-- An expression that becomes a statement of its own contributes one statement. -/
theorem exists_flat_of_isOwn (receiver : scope.receiver.isOwn = true) {expr : Expr}
    (own : (context.lower scope expr).value.isOwn = true) :
    ∃ statement, expr.flat = [statement] := by
  have single : [(context.lower scope expr).value] = _ :=
    (Js.Tree.statements_of_isOwn own).symm.trans (lower_statements (flat_isOwn receiver expr))
  obtain ⟨statement, flat, -⟩ := List.map_eq_singleton_iff.1 single.symm
  exact ⟨statement, flat⟩

end Lowering.Context

end Flat

end JsEmitter
