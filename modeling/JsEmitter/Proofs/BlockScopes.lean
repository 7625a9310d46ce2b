import JsEmitter.Linked.Building
import JsEmitter.Proofs.NodeRules
import Mathlib.Data.List.Nodup

/-!
# Scopes of blocks

With class syntax a variable belongs to the block that declares it. Lowering flattens blocks: the
statements of a block that stands directly in another one become statements of the outer block, and
then the variables of both belong to one scope. So that no block of an expression declares a name
twice is not enough for its tree. Enough, and needed, is that no name is declared twice in a block
together with the blocks that stand directly in it: `Lowering.Context.lower_blocksDistinct_iff`.
-/
namespace JsEmitter

open Js (Tree NodeRule)
open Js.Tree (visited statements ofStatements definedNames)
open Lowering (Context Scope)

namespace Expr

/-- The name that a statement declares, if it declares one. -/
def declared? : Expr → Option String
  | varDef name _ => some name
  | _ => none

/-- The names that some statements declare, together with the blocks that stand directly among
them. -/
def mergedNames (exprs : List Expr) : List String := (flatAll exprs).filterMap declared?

mutual

/-- The statements of each block of an expression. -/
def blocks : Expr → List (List Expr)
  | skip | literal _ | this | localVar _ | globalRef _ | loadModule _ | loadJsConstructor _
  | selectStatic _ _ => []
  | block statements => statements :: blocksOfAll statements
  | varDef _ value | ret value | raise value | unary _ value | isInstanceOf value _
  | asInstanceOf value _ => blocks value
  | select qualifier _ | jsSelect qualifier _ => blocks qualifier
  | assign target value => blocks target ++ blocks value
  | branch cond thenBranch elseBranch? =>
    blocks cond ++ blocks thenBranch ++ blocksOfOption elseBranch?
  | apply receiver _ args => blocks receiver ++ blocksOfAll args
  | jsCall function args => blocks function ++ blocksOfAll args
  | applySuper _ args | applyStatic _ _ args | applyConstructor _ _ args | new _ _ args =>
    blocksOfAll args
  | binary _ left right => blocks left ++ blocks right

/-- The statements of each block of some expressions. -/
def blocksOfAll : List Expr → List (List Expr)
  | [] => []
  | head :: rest => blocks head ++ blocksOfAll rest

/-- The statements of each block of an expression, if there is one. -/
def blocksOfOption : Option Expr → List (List Expr)
  | none => []
  | some expr => blocks expr

end

/-- Whether no block declares a name twice among its own statements. -/
def BlocksDistinct (expr : Expr) : Prop :=
  ∀ statements, (block statements).Inside expr → (statements.filterMap declared?).Nodup

/-- Whether no name is declared twice in a block together with the blocks that stand directly in it,
however deep these are nested. -/
def ScopesDistinct (expr : Expr) : Prop :=
  ∀ statements, (block statements).Inside expr → (mergedNames statements).Nodup

/-- An expression stands in another if it is that one or stands in a child of it. -/
theorem inside_iff {sub expr : Expr} :
    sub.Inside expr ↔ sub = expr ∨ ∃ child ∈ expr.children, sub.Inside child := by
  constructor
  · intro inside
    cases inside with
    | refl => exact .inl rfl
    | child deeper among => exact .inr ⟨_, among, deeper⟩
  · rintro (rfl | ⟨child, among, deeper⟩)
    · exact .refl
    · exact deeper.child among

/-- The blocks of a list are those of its expressions. -/
theorem mem_blocksOfAll {exprs : List Expr} {statements : List Expr} :
    statements ∈ blocksOfAll exprs ↔ ∃ expr ∈ exprs, statements ∈ blocks expr := by
  induction exprs with
  | nil => simp [blocksOfAll]
  | cons head rest ih => simp [blocksOfAll, ih]

/-- The blocks of an expression are the statements of the blocks that stand in it. -/
theorem mem_blocks {statements : List Expr} {expr : Expr} :
    statements ∈ expr.blocks ↔ (block statements).Inside expr := by
  induction expr using children_induction with
  | step expr ih =>
    have parts : (∃ child ∈ expr.children, statements ∈ child.blocks) ↔
        ∃ child ∈ expr.children, (block statements).Inside child :=
      exists_congr (fun child => and_congr_right (ih child))
    rw [inside_iff, ← parts]
    cases expr with
    | branch cond thenBranch elseBranch? =>
      cases elseBranch? <;> simp [blocks, blocksOfOption, children]
    | _ => simp [blocks, children, mem_blocksOfAll]

instance (expr : Expr) : Decidable expr.BlocksDistinct :=
  decidable_of_iff (∀ statements ∈ expr.blocks, (statements.filterMap declared?).Nodup)
    (forall_congr' (fun _ => imp_congr_left mem_blocks))

instance (expr : Expr) : Decidable expr.ScopesDistinct :=
  decidable_of_iff (∀ statements ∈ expr.blocks, (mergedNames statements).Nodup)
    (forall_congr' (fun _ => imp_congr_left mem_blocks))

/-- Scopes are distinct if those of the parts are, and the own one if the expression is a block. -/
theorem scopesDistinct_iff {expr : Expr} : expr.ScopesDistinct ↔
    (∀ statements, expr = block statements → (mergedNames statements).Nodup) ∧
      ∀ child ∈ expr.children, child.ScopesDistinct := by
  constructor
  · exact fun distinct => ⟨fun statements same => distinct statements (same ▸ .refl),
      fun child among statements deeper => distinct statements (deeper.child among)⟩
  · rintro ⟨own, parts⟩ statements inside
    rcases inside_iff.1 inside with same | ⟨child, among, deeper⟩
    · exact own statements same.symm
    · exact parts child among statements deeper

/-- A block by itself declares no more names than together with the blocks in it. -/
theorem ScopesDistinct.blocksDistinct {expr : Expr} (distinct : expr.ScopesDistinct) :
    expr.BlocksDistinct := by
  have own : ∀ expr : Expr, ((declared? expr).toList).Sublist (expr.flat.filterMap declared?) := by
    intro expr
    cases expr <;> simp [declared?, flat]
  have all : ∀ exprs : List Expr, (exprs.filterMap declared?).Sublist (mergedNames exprs) := by
    intro exprs
    induction exprs with
    | nil => exact .refl _
    | cons head rest ih =>
      have both := (own head).append ih
      cases first : declared? head <;> simpa [first, mergedNames, flatAll] using both
  exact fun statements inside => (distinct statements inside).sublist (all statements)

end Expr

namespace Js

/-- No block declares a name twice. -/
def NodeRule.distinctNames : NodeRule where
  block statements := (definedNames statements).Nodup
  assign _ _ := True

namespace Tree

/-- Whether no block, among those that a walk visits, declares a name twice among its
statements. -/
def BlocksDistinct (tree : Tree) : Prop :=
  ∀ statements, .block statements ∈ tree.visited → (definedNames statements).Nodup

/-- Blocks with distinct names are a rule about the nodes of a tree. -/
theorem blocksDistinct_iff_holds {tree : Tree} :
    tree.BlocksDistinct ↔ NodeRule.distinctNames.Holds tree.visited := by
  refine ⟨fun distinct node found => ?_, fun holds statements found => holds _ found⟩
  cases node with
  | block statements => exact distinct statements found
  | _ => trivial

/-- The names that a concatenation defines are those of its parts in turn. -/
theorem definedNames_flatMap {α : Type} (items : List α) (trees : α → List Tree) :
    definedNames (items.flatMap trees) =
      items.flatMap (fun item => definedNames (trees item)) :=
  List.filterMap_flatMap

/-- One statement defines no name twice. -/
theorem definedNames_singleton_nodup (tree : Tree) : (definedNames [tree]).Nodup := by
  cases defined : tree.definedName? <;> simp [definedNames, defined]

/-- A tree declares no name twice in a block if its statements do not, neither together nor in
their own blocks. -/
theorem blocksDistinct_iff_statements {tree : Tree} : tree.BlocksDistinct ↔
    (definedNames tree.statements).Nodup ∧
      ∀ statement ∈ tree.statements, statement.BlocksDistinct := by
  simp only [blocksDistinct_iff_holds]
  cases tree with
  | skip => simp [statements, visited, definedNames]
  | block inner =>
    simp [statements, visited, NodeRule.holds_visitedAll, NodeRule.distinctNames]
  | _ =>
    simp only [statements, List.forall_mem_singleton]
    exact (and_iff_right (definedNames_singleton_nodup _)).symm

/-- Flattening statements keeps the names of a block apart only if no name is declared by two of
them, counting what inner blocks declare. -/
theorem blocksDistinct_ofStatements {trees : List Tree} : (ofStatements trees).BlocksDistinct ↔
    (definedNames (trees.flatMap statements)).Nodup ∧ ∀ tree ∈ trees, tree.BlocksDistinct := by
  have several (flat : List Tree) :
      (2 ≤ flat.length → NodeRule.distinctNames.block flat) ↔ (definedNames flat).Nodup := by
    refine ⟨fun block => ?_, fun distinct _ => distinct⟩
    rcases flat with _ | ⟨only, _ | ⟨second, rest⟩⟩
    · exact .nil
    · exact definedNames_singleton_nodup only
    · exact block (by simp)
  have each : (definedNames (trees.flatMap statements)).Nodup →
      ((∀ statement ∈ trees.flatMap statements, statement.BlocksDistinct) ↔
        ∀ tree ∈ trees, tree.BlocksDistinct) := by
    intro distinct
    rw [List.forall_mem_flatMap]
    refine forall₂_congr (fun tree among => ?_)
    have own : (definedNames tree.statements).Nodup := by
      rw [definedNames_flatMap] at distinct
      exact (List.nodup_flatMap.1 distinct).1 tree among
    exact ((and_iff_right own).symm.trans blocksDistinct_iff_statements.symm)
  rw [blocksDistinct_iff_holds, NodeRule.holds_ofStatements, several]
  simp only [← blocksDistinct_iff_holds]
  exact and_congr_right each

end Tree

end Js

namespace Lowering.Context

open Js.Tree (blocksDistinct_iff_holds blocksDistinct_ofStatements definedName?_of_isReference
  definedName?_of_isCall)

/-- Whether what bodies refer to without naming it declares nothing twice: `this` stands for itself
or for a variable. -/
structure ScopeDistinct (scope : Scope) : Prop where
  receiver : scope.receiver = .this ∨ ∃ name, scope.receiver = .varRef name
  parent : ∀ parent ∈ scope.parent?, parent.BlocksDistinct

variable {context : Context} {scope : Scope}

/-- What a scope brings into bodies keeps the rule of distinct names if the scope does. -/
theorem ScopeDistinct.holds (distinct : ScopeDistinct scope) :
    ScopeHolds NodeRule.distinctNames scope where
  receiver := by
    rcases distinct.receiver with same | ⟨name, same⟩ <;> simp [same, visited]
  parent parent found := blocksDistinct_iff_holds.1 (distinct.parent parent found)

/-- The receiver of such a scope is no block. -/
theorem ScopeDistinct.receiver_isOwn (distinct : ScopeDistinct scope) :
    scope.receiver.isOwn = true := by
  rcases distinct.receiver with same | ⟨name, same⟩ <;> simp [same, Js.Tree.isOwn]

/-- A statement introduces the name that it declares. -/
theorem lower_definedName? (distinct : ScopeDistinct scope) {statement : Expr}
    (other : ∀ statements, statement ≠ .block statements) :
    (context.lower scope statement).value.definedName? = statement.declared? := by
  cases statement with
  | block statements => exact absurd rfl (other statements)
  | this =>
    rcases distinct.receiver with same | ⟨name, same⟩ <;> simp only [lower, same] <;> rfl
  | literal value => cases value <;> rfl
  | jsSelect qualifier property =>
    exact definedName?_of_isReference (context.propSelect_isReference _ property)
  | selectStatic owner field => exact definedName?_of_isReference (context.qualify_isReference _ _)
  | loadJsConstructor owner =>
    exact definedName?_of_isReference (context.loadJsConstructor_isReference owner)
  | applySuper method args => exact definedName?_of_isCall (context.superCall_isCall scope method _)
  | new owner ctor args => exact definedName?_of_isCall (context.newInstance_isCall owner ctor _)
  | isInstanceOf value owner => exact definedName?_of_isCall (context.instanceTest_isCall owner _)
  | _ => rfl

/-- The statements that an expression contributes to a block introduce the names that it declares,
together with the blocks that stand directly in it. -/
theorem definedNames_lower (distinct : ScopeDistinct scope) (expr : Expr) :
    definedNames (context.lower scope expr).value.statements =
      expr.flat.filterMap Expr.declared? := by
  rw [lower_statements (flat_isOwn distinct.receiver_isOwn expr), definedNames, List.filterMap_map]
  exact List.filterMap_congr
    (fun statement found => lower_definedName? distinct (Expr.of_mem_flat found).2)

/-- The tree of an expression is as the rule says exactly if no scope of the expression declares a
name twice. -/
theorem lower_holds_distinctNames (distinct : ScopeDistinct scope) (expr : Expr) :
    NodeRule.distinctNames.Holds (context.lower scope expr).value.visited ↔
      expr.ScopesDistinct := by
  induction expr using Expr.children_induction with
  | step expr ih =>
    rw [Expr.scopesDistinct_iff]
    by_cases nested : ∃ exprs, expr = .block exprs
    · obtain ⟨exprs, rfl⟩ := nested
      have merged : definedNames ((context.lowerAll scope exprs).value.flatMap statements) =
          Expr.mergedNames exprs := by
        rw [lowerAll_value, Js.Tree.definedNames_flatMap, List.flatMap_map, Expr.mergedNames,
          Expr.flatAll_eq_flatMap, List.filterMap_flatMap]
        exact List.flatMap_congr (fun expr _ => definedNames_lower distinct expr)
      have parts : (∀ tree ∈ (context.lowerAll scope exprs).value, tree.BlocksDistinct) ↔
          ∀ child ∈ exprs, child.ScopesDistinct := by
        rw [lowerAll_value, List.forall_mem_map]
        simp only [blocksDistinct_iff_holds]
        exact forall₂_congr ih
      rw [← blocksDistinct_iff_holds]
      change (ofStatements (context.lowerAll scope exprs).value).BlocksDistinct ↔ _
      rw [blocksDistinct_ofStatements, merged, parts]
      simp [Expr.children]
    · have assigns : context.AssignsAsAllowed NodeRule.distinctNames scope expr := by
        cases expr <;> trivial
      rw [lower_holds_iff distinct.holds (not_exists.1 nested), and_iff_right assigns,
        forall₂_congr ih]
      exact (and_iff_right (fun exprs same => absurd ⟨exprs, same⟩ nested)).symm

/-- The members of a class are lowered in a scope that declares nothing twice, unless what the class
extends does. -/
theorem memberScope_distinct {linked : LinkedClass}
    (extended : ∀ expr ∈ linked.jsSuperClass?, expr.ScopesDistinct) :
    ScopeDistinct (context.memberScope linked).value where
  receiver := .inl rfl
  parent parent found := by
    have plain : ScopeDistinct .plain := ⟨.inl rfl, by simp [Scope.plain]⟩
    exact blocksDistinct_iff_holds.2 (parentRef_holds
      (fun body given => (lower_holds_distinctNames plain body).2 (extended body given))
      parent found)

/-- The tree of an expression declares no name twice in a block exactly if the expression declares
none twice in a block together with the blocks that stand directly in it. -/
theorem lower_blocksDistinct_iff (context : Context) {scope : Scope}
    (distinct : ScopeDistinct scope) (expr : Expr) :
    (context.lower scope expr).value.BlocksDistinct ↔ expr.ScopesDistinct :=
  blocksDistinct_iff_holds.trans (lower_holds_distinctNames distinct expr)

end Lowering.Context

/-- A body that declares a variable in a block and again in a branch. -/
def branchingBody : Expr :=
  .block [.varDef "x" (.literal (.int 1)),
    .branch (.localVar "x") (.block [.varDef "x" (.literal (.int 2)), .ret (.localVar "x")]) none]

/-- In a member of a class that extends another one, the variable of a branch keeps its own
scope. -/
theorem Lowering.Context.lower_blocksDistinct_iff_branching :
    let context : Context := ⟨.standard, ⟨∅⟩, default, .standard, ⟨"main"⟩⟩
    let linked : LinkedClass := (LinkedClass.start ⟨"app.A"⟩ .plain).extend .root
    let scope := (context.memberScope linked).value
    ScopeDistinct scope ∧
      ((context.lower scope branchingBody).value.BlocksDistinct ↔ branchingBody.ScopesDistinct) ∧
      branchingBody.ScopesDistinct := by
  intro context linked scope
  have none : linked.jsSuperClass? = none := rfl
  have distinct : ScopeDistinct scope := memberScope_distinct (by simp [none])
  exact ⟨distinct, context.lower_blocksDistinct_iff distinct branchingBody, by decide⟩

/-- A body whose inner block declares a variable of its own under the name of an outer one. -/
def shadowingBody : Expr :=
  .block [.varDef "x" (.literal (.int 1)),
    .block [.varDef "x" (.literal (.int 2)), .jsCall (.globalRef "log") [.localVar "x"]],
    .jsCall (.globalRef "log") [.localVar "x"]]

/-- No block of the body declares a name twice, but the one block of its tree does, with block
scope. -/
theorem Lowering.Context.lower_merges_shadowing :
    let context : Context := ⟨.standard, ⟨∅⟩, default, .standard, ⟨"main"⟩⟩
    let log : Tree := .apply (.varRef "log") [.varRef "x"]
    context.config.classSyntax = true ∧ shadowingBody.BlocksDistinct ∧
      (context.lower .plain shadowingBody).value =
        .block [.varDef .blockScoped "x" (some (.int 1)), .varDef .blockScoped "x" (some (.int 2)),
          log, log] ∧
      ¬(context.lower .plain shadowingBody).value.BlocksDistinct := by
  intro context log
  have merged : (context.lower .plain shadowingBody).value =
      .block [.varDef .blockScoped "x" (some (.int 1)), .varDef .blockScoped "x" (some (.int 2)),
        log, log] := rfl
  refine ⟨rfl, by decide, merged, fun distinct => ?_⟩
  rw [merged] at distinct
  have twice := distinct _ (Js.Tree.mem_visited_self _)
  simp [definedNames, Js.Tree.definedName?] at twice

end JsEmitter
