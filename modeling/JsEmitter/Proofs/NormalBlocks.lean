import JsEmitter.Proofs.EmittedBodies
import JsEmitter.Proofs.NodeRules
import JsEmitter.Proofs.TreePositions

/-!
# Normal form of blocks

A block is normal if it has several statements and none of them is empty or a block itself.
`Tree.ofStatements` flattens one level only, which is enough where the blocks in its statements are
normal already. Generation never gives it others: the trees of bodies are normal at every position,
and so is what is put together from them. On such trees it makes no difference whether statements
are put together at once or part by part.
-/
namespace JsEmitter

open Js (Tree)
open Js.Tree (ofStatements)
open Lowering (Context Scope ConstructorParts receiverParam)

namespace Js.Tree

variable {tree : Tree}

/-- Whether every block of a tree, at whatever position, has at least two statements, and none of
them is empty or a block itself. -/
def BlocksNormal (tree : Tree) : Prop :=
  ∀ path inner, tree.at? path = some (block inner) →
    2 ≤ inner.length ∧ ∀ statement ∈ inner, statement.isOwn = true

/-- The blocks of a tree are those of its children, and the tree itself if it is one. -/
theorem blocksNormal_iff : tree.BlocksNormal ↔
    (∀ inner, tree = block inner →
      2 ≤ inner.length ∧ ∀ statement ∈ inner, statement.isOwn = true) ∧
    ∀ child ∈ tree.children, child.tree.BlocksNormal := by
  constructor
  · refine fun normal => ⟨fun inner same => normal [] inner (congrArg some same), ?_⟩
    intro child among path inner found
    obtain ⟨index, there⟩ := List.mem_iff_getElem?.1 among
    exact normal (index :: path) inner (by simpa [at?, there] using found)
  -- The empty position is that of the tree itself, and any other leads into a child.
  · rintro ⟨own, parts⟩ (_ | ⟨index, path⟩) inner found
    · exact own inner (Option.some.inj found)
    · obtain ⟨child, there, below⟩ := Option.bind_eq_some_iff.1 found
      exact parts child (List.mem_of_getElem? there) path inner below

attribute [simp] children

/-- A name that is an identifier has no children. -/
@[simp] theorem nameChildren_ident (role : ChildRole) (name : String) :
    nameChildren role (.ident name) = [] := rfl

/-- A tree that is no block is as normal as its children. -/
@[simp] theorem blocksNormal_iff_children (other : ∀ inner, tree ≠ block inner) :
    tree.BlocksNormal ↔ ∀ child ∈ tree.children, child.tree.BlocksNormal := by
  rw [blocksNormal_iff, and_iff_right (fun inner same => absurd same (other inner))]

/-- The children for a list of trees are normal if the trees are. -/
@[simp] theorem forall_mem_parts {trees : List Tree} :
    (∀ child ∈ parts trees, child.tree.BlocksNormal) ↔ ∀ tree ∈ trees, tree.BlocksNormal :=
  List.forall_mem_map

/-- A function is normal if its body is. -/
theorem functionDef_normal {name : String} {params : List String} {rest? : Option String} :
    (functionDef name params rest? tree).BlocksNormal ↔ tree.BlocksNormal := by
  simp

namespace BlocksNormal

/-- What a tree contributes to a block need not be flattened again. -/
theorem statements_isOwn (normal : tree.BlocksNormal) :
    ∀ statement ∈ tree.statements, statement.isOwn = true := by
  cases tree with
  | skip => simp [statements]
  | block inner => exact (normal [] inner rfl).2
  | _ => simp [statements, isOwn]

/-- The statements of a normal tree are normal. -/
theorem statements_normal (normal : tree.BlocksNormal) :
    ∀ statement ∈ tree.statements, statement.BlocksNormal := by
  cases tree with
  | skip => simp [statements]
  | block inner => exact forall_mem_parts.1 (blocksNormal_iff.1 normal).2
  | _ => exact List.forall_mem_singleton.2 normal

/-- A tree in normal form is one statement already: a block in it keeps its several statements. -/
theorem ofStatements_singleton (normal : tree.BlocksNormal) : ofStatements [tree] = tree := by
  cases tree with
  | block inner =>
    obtain ⟨several, -⟩ := normal [] inner rfl
    rcases inner with _ | ⟨first, _ | ⟨second, rest⟩⟩
    · simp at several
    · simp at several
    · simp [ofStatements, statements]
  | _ => rfl

end BlocksNormal

/-- Flattening one level keeps the normal form. -/
theorem ofStatements_normal {trees : List Tree} (normal : ∀ tree ∈ trees, tree.BlocksNormal) :
    (ofStatements trees).BlocksNormal := by
  have own : ∀ statement ∈ trees.flatMap statements, statement.isOwn = true :=
    List.forall_mem_flatMap.2 (fun tree among => (normal tree among).statements_isOwn)
  have inner : ∀ statement ∈ trees.flatMap statements, statement.BlocksNormal :=
    List.forall_mem_flatMap.2 (fun tree among => (normal tree among).statements_normal)
  unfold ofStatements
  generalize trees.flatMap statements = flat at own inner
  rcases flat with _ | ⟨only, _ | ⟨second, rest⟩⟩
  · simp
  · exact inner only (List.mem_singleton_self only)
  · refine blocksNormal_iff.2 ⟨fun _ same => ?_, forall_mem_parts.2 inner⟩
    cases same
    exact ⟨by simp, own⟩

/-- Statements in normal form can be put together part by part. -/
theorem ofStatements_flatten {lists : List (List Tree)}
    (normal : ∀ trees ∈ lists, ∀ tree ∈ trees, tree.BlocksNormal) :
    ofStatements (lists.map ofStatements) = ofStatements lists.flatten := by
  have each : ∀ trees ∈ lists, (ofStatements trees).statements = trees.flatMap statements :=
    fun trees among => statements_ofStatements (List.forall_mem_flatMap.2
      (fun tree there => (normal trees among tree there).statements_isOwn))
  have same := calc (lists.map ofStatements).flatMap statements
    _ = lists.flatMap (fun trees => (ofStatements trees).statements) := List.flatMap_map ..
    _ = lists.flatMap (fun trees => trees.flatMap statements) := List.flatMap_congr each
    _ = lists.flatten.flatMap statements := by
      rw [← List.flatMap_id, List.flatMap_assoc]
      rfl
  rw [ofStatements, same, ← ofStatements]

/-- Not so where a block is not normal: here the first round only brings out the inner block, and a
second one flattens it. -/
example :
    let nested := block [block [this, null]]
    ofStatements [ofStatements [nested], ofStatements [super]] = block [this, null, super] ∧
      ofStatements ([nested] ++ [super]) = block [block [this, null], super] :=
  ⟨rfl, rfl⟩

end Js.Tree

namespace Lowering

/-- What holds of all trees of a constructor holds of its parts one by one. -/
theorem ConstructorParts.forall_mem_trees {parts : ConstructorParts} {holds : Tree → Prop} :
    (∀ tree ∈ parts.trees, holds tree) ↔
      (∀ parent ∈ parts.parent?, holds parent) ∧ (∀ tree ∈ parts.beforeSuper, holds tree) ∧
        (∀ args ∈ parts.superArgs?, ∀ tree ∈ args, holds tree) ∧
          ∀ tree ∈ parts.afterSuper, holds tree := by
  cases given : parts.superArgs? <;>
    simp [trees, given, or_imp, forall_and]

open Js.Tree (blocksNormal_iff_children nameChildren)

/-- Whether what bodies refer to without naming it is in normal form: the receiver, and the parent
unless super calls are written with `super`. -/
structure Scope.BlocksNormal (scope : Scope) : Prop where
  receiver : scope.receiver.BlocksNormal
  parent : scope.usesSuper = false → ∀ parent ∈ scope.parent?, parent.BlocksNormal

namespace Context

variable (context : Context)

section References

/-- A qualified name has normal blocks. -/
@[simp] theorem qualify_normal (owner? : Option ModuleId) (name : String) :
    (context.qualify owner? name).BlocksNormal := by
  unfold qualify
  cases owner? with
  | none => simp
  | some owner =>
    dsimp only
    split <;> simp

/-- A reference to a member of a class has normal blocks. -/
@[simp] theorem classMemberRef_normal (owner : ClassName) (name : String) :
    (context.classMemberRef owner name).BlocksNormal :=
  context.qualify_normal _ name

/-- A reference to a class has normal blocks. -/
@[simp] theorem classRef_normal (owner : ClassName) : (context.classRef owner).BlocksNormal :=
  context.classMemberRef_normal owner _

/-- A reference to a type test has normal blocks. -/
@[simp] theorem typeTestRef_normal (owner : ClassName) (name : String) :
    (context.typeTestRef owner name).BlocksNormal := by
  unfold typeTestRef
  split <;> exact context.qualify_normal _ name

/-- A reference to a host name has normal blocks. -/
@[simp] theorem hostRef_normal (name : String) : (context.hostRef name).value.BlocksNormal := by
  simp [hostRef]

/-- A selected property has normal blocks if its qualifier has. -/
@[simp] theorem propSelect_normal {qualifier : Tree} {property : String} :
    (context.propSelect qualifier property).BlocksNormal ↔ qualifier.BlocksNormal := by
  unfold propSelect
  split <;> simp

/-- Loading a native class has normal blocks. -/
@[simp] theorem loadNative_normal (owner : ClassName) :
    (context.loadNative owner).value.BlocksNormal :=
  context.loadNative_induction Tree.BlocksNormal owner (fun _ => by simp)
    (context.classRef_normal owner) (fun _ _ normal => context.propSelect_normal.2 normal)

/-- Loading a foreign class has normal blocks. -/
@[simp] theorem loadJsConstructor_normal (owner : ClassName) :
    (context.loadJsConstructor owner).value.BlocksNormal := by
  unfold loadJsConstructor
  split
  · exact context.loadNative_normal owner
  · exact context.classRef_normal owner

end References

section Bodies

/-- Creating an instance has normal blocks if its arguments have. -/
@[simp] theorem newInstance_normal {owner : ClassName} {ctor : MethodName} {args : List Tree} :
    (context.newInstance owner ctor args).value.BlocksNormal ↔
      ∀ arg ∈ args, arg.BlocksNormal := by
  have direct : (Tree.new (context.classRef owner) args).BlocksNormal ↔
      ∀ arg ∈ args, arg.BlocksNormal := by
    simp
  unfold newInstance
  split
  · exact direct
  · exact direct
  · simp
  · split
    · exact direct
    · simp [functionRef]

/-- A test of an instance has normal blocks if its value has. -/
@[simp] theorem instanceTest_normal {owner : ClassName} {value : Tree} :
    (context.instanceTest owner value).BlocksNormal ↔ value.BlocksNormal := by
  unfold instanceTest
  split <;> simp

variable {scope : Scope}

/-- A super call is in normal form if and only if its arguments are and, unless it is written with
`super`, the receiver and the parent, which it holds. -/
theorem superCall_normal {method : MethodName} {args : List Tree} :
    (context.superCall scope method args).BlocksNormal ↔
      (scope.usesSuper = false →
        scope.receiver.BlocksNormal ∧ ∀ parent ∈ scope.parent?, parent.BlocksNormal) ∧
      ∀ arg ∈ args, arg.BlocksNormal := by
  have parent : (scope.parent?.getD (context.classRef .root)).BlocksNormal ↔
      ∀ parent ∈ scope.parent?, parent.BlocksNormal := by
    cases scope.parent? <;> simp
  unfold superCall
  cases scope.usesSuper with
  | true => simp
  | false => simp [parent, and_assoc, and_left_comm]

/-- The tree of every body in a scope is in normal form if the scope is. -/
theorem lower_normal (normal : scope.BlocksNormal) (expr : Expr) :
    (context.lower scope expr).value.BlocksNormal := by
  induction expr using Expr.children_induction with
  | step expr ih =>
    cases expr with
    -- The statements are normal already, blocks among them included.
    | block statements =>
      refine Js.Tree.ofStatements_normal ?_
      rw [lowerAll_value]
      exact List.forall_mem_map.2 ih
    | this => exact normal.receiver
    | literal value => cases value <;> simp [lower, literal]
    | branch cond thenBranch elseBranch? =>
      cases elseBranch? <;>
        simpa [lower, lowerElse, Expr.children] using ih
    | applySuper method args =>
      refine context.superCall_normal.2 ⟨fun named => ⟨normal.receiver, normal.parent named⟩, ?_⟩
      rw [lowerAll_value]
      exact List.forall_mem_map.2 ih
    | applyConstructor owner ctor args =>
      simpa [lower, functionRef, lowerAll_value, normal.receiver, Expr.children] using ih
    | new owner ctor args => simpa [lower, lowerAll_value, Expr.children] using ih
    | skip | localVar _ | globalRef _ | loadModule _ | loadJsConstructor _ | selectStatic _ _ =>
      simp [lower]
    | _ =>
      simpa [lower, functionRef, lowerAll_value, Expr.children] using ih

/-- The trees of all bodies in a scope are in normal form exactly if the scope is: a body may be the
receiver alone, or a super call without arguments. -/
theorem lower_normal_iff :
    (∀ expr, (context.lower scope expr).value.BlocksNormal) ↔ scope.BlocksNormal := by
  refine ⟨fun bodies => ⟨bodies .this, fun named => ?_⟩, context.lower_normal⟩
  have call : (context.superCall scope ⟨"m"⟩ []).BlocksNormal := bodies (.applySuper ⟨"m"⟩ [])
  exact ((context.superCall_normal.1 call).1 named).2

/-- The code of expressions has normal blocks. -/
theorem lowerAll_normal (normal : scope.BlocksNormal) (exprs : List Expr) :
    ∀ tree ∈ (context.lowerAll scope exprs).value, tree.BlocksNormal := by
  rw [lowerAll_value]
  exact List.forall_mem_map.2 (fun expr _ => context.lower_normal normal expr)

/-- The scope outside of classes is normal. -/
theorem plain_normal : Scope.plain.BlocksNormal where
  receiver := by simp [Scope.plain]
  parent _ := by simp [Scope.plain]

end Bodies

section Classes

variable (linked : LinkedClass)

/-- What a class extends is in normal form, also where it is an expression of its own. -/
theorem parentRef_normal :
    ∀ parent ∈ (context.parentRef linked).value, parent.BlocksNormal := by
  intro parent found
  rcases context.parentRef_cases found with rfl | ⟨expr, -, rfl⟩ | ⟨owner, rfl | rfl⟩
  · exact context.hostRef_normal _
  · exact context.lower_normal plain_normal expr
  · exact context.loadJsConstructor_normal owner
  · exact context.classRef_normal owner

/-- The scope of members is normal. -/
theorem memberScope_normal : (context.memberScope linked).value.BlocksNormal where
  receiver := by simp [memberScope]
  parent _ := context.parentRef_normal linked

/-- The scope of free functions is normal. -/
theorem functionScope_normal (home : MemberNamespace) :
    (context.functionScope linked home).BlocksNormal where
  receiver := by
    unfold functionScope
    cases home.isStatic <;> simp
  parent _ := context.parentRef_normal linked

/-- What members are assigned to has normal blocks. -/
@[simp] theorem memberTarget_normal (isStatic : Bool) :
    (context.memberTarget linked isStatic).BlocksNormal := by
  cases isStatic <;> simp [memberTarget]

/-- A free function has normal blocks. -/
theorem freeFunction_normal (method : MethodDef) :
    (context.freeFunction linked method).value.BlocksNormal := by
  have body := context.lower_normal (context.functionScope_normal linked method.home) method.body
  have result : ∀ tree ∈ (if method.home = .constructor then [Tree.ret (.varRef receiverParam)]
      else []), tree.BlocksNormal := by
    split <;> simp
  have whole := Js.Tree.ofStatements_normal (List.forall_mem_cons.2 ⟨body, result⟩)
  exact Js.Tree.functionDef_normal.2 whole

/-- A member method has normal blocks. -/
theorem memberMethod_normal (method : MethodDef) :
    (context.memberMethod linked method).value.BlocksNormal := by
  have body := context.lower_normal (context.memberScope_normal linked) method.body
  simp only [memberMethod, Tracked.bind_value, Tracked.pure_value]
  split
  · simpa using body
  · simpa using body

/-- A bridge has normal blocks. -/
theorem bridge_normal (method : MethodName) : (context.bridge method).value.BlocksNormal := by
  simp [bridge]

/-- Names of properties are never computed. -/
@[simp] theorem propName_children (role : Js.ChildRole) (property : String) :
    nameChildren role (context.propName property) = [] := by
  unfold propName
  split <;> rfl

/-- An exported member has normal blocks. -/
theorem exportedMember_normal (member : ExportedMember) :
    ∀ tree ∈ (context.exportedMember linked member).value, tree.BlocksNormal := by
  have body (expr : Expr) := context.lower_normal (context.memberScope_normal linked) expr
  cases member with
  | method name isStatic params inner =>
    simp only [exportedMember, exportedMethod, Tracked.bind_value, Tracked.pure_value]
    split <;> simp [body]
  | property name isStatic getter? setter? =>
    simp only [exportedMember, Tracked.bind_value]
    split
    · cases getter? <;> cases setter? <;>
        simp [exportedAccessors, lowerGetter, lowerSetter, body]
    · cases getter? <;> cases setter? <;>
        simp [definedProperty, propertyDescriptor, lowerGetter, lowerSetter, or_imp, forall_and,
          body]

/-- Initializations of fields have normal blocks. -/
theorem fieldInits_normal : ∀ tree ∈ fieldInits linked, tree.BlocksNormal := by
  have zero (type : FieldType) : (zeroValue type).BlocksNormal := by
    cases type <;> simp [zeroValue]
  simp [fieldInits, zero]

/-- The constructor of a foreign class has normal blocks. -/
theorem jsConstructorParts_normal (ctor : JsConstructorDef) :
    ∀ tree ∈ (context.jsConstructorParts linked ctor).value.trees, tree.BlocksNormal := by
  have scope := context.memberScope_normal linked
  have args : ∀ args ∈ (context.superArgs (context.memberScope linked).value ctor.superArgs).value,
      ∀ tree ∈ args, tree.BlocksNormal := by
    intro args found
    unfold superArgs at found
    split at found
    · obtain rfl := Option.some.inj found
      exact context.lowerAll_normal scope _
    · cases found
  exact ConstructorParts.forall_mem_trees.2 ⟨context.parentRef_normal linked,
    context.lowerAll_normal scope _, args,
    List.forall_mem_append.2 ⟨fieldInits_normal linked, context.lowerAll_normal scope _⟩⟩

/-- The constructor of an ordinary class has normal blocks. -/
theorem plainConstructorParts_normal :
    ∀ tree ∈ (context.plainConstructorParts linked).value.trees, tree.BlocksNormal := by
  have parent := context.parentRef_normal linked
  have args : ∀ args ∈ (context.parentRef linked).value.map (fun _ => ([] : List Tree)),
      ∀ tree ∈ args, tree.BlocksNormal := by
    intro args found
    obtain ⟨parent, -, rfl⟩ := Option.map_eq_some_iff.1 found
    exact List.forall_mem_nil _
  have inits := fieldInits_normal linked
  refine ConstructorParts.forall_mem_trees.2 ?_
  unfold plainConstructorParts
  cases context.inlinedConstructor? linked with
  | none =>
    exact ⟨parent, List.forall_mem_nil _, args,
      List.forall_mem_append.2 ⟨inits, List.forall_mem_nil _⟩⟩
  | some ctor =>
    have body := context.lower_normal (context.memberScope_normal linked) ctor.value.body
    exact ⟨parent, List.forall_mem_nil _, args,
      List.forall_mem_append.2 ⟨inits, List.forall_mem_singleton.2 body⟩⟩

/-- What a constructor is put together from is in normal form. -/
theorem constructorParts_normal {parts : Tracked ConstructorParts}
    (made : context.constructorParts linked = .ok parts) :
    ∀ tree ∈ parts.value.trees, tree.BlocksNormal := by
  unfold constructorParts at made
  split at made
  · split at made
    · next ctor _ =>
      obtain rfl := Except.ok.inj made
      exact context.jsConstructorParts_normal linked ctor.value
    · cases made
  · obtain rfl := Except.ok.inj made
    exact context.plainConstructorParts_normal linked

end Classes

section Definitions

variable (linked : LinkedClass)

/-- The link of a prototype to its parent has normal blocks if the parent has. -/
theorem prototypeLink_normal (name : String) {parent? : Option Tree}
    (parents : ∀ parent ∈ parent?, parent.BlocksNormal) :
    ∀ tree ∈ (context.prototypeLink linked name parent?).value, tree.BlocksNormal := by
  cases parent? with
  | none => exact List.forall_mem_nil _
  | some parent =>
    have inherited := parents parent rfl
    have value : (context.prototypeValue linked parent).value.BlocksNormal := by
      unfold prototypeValue
      split
      · simp [hostRef, inherited]
      · cases linked.superClass? <;>
          simp [helperRef, inherited]
    simp [prototypeLink, value]

/-- A helper function has normal blocks. -/
theorem helperDefinition_normal (name : String) :
    ∀ tree ∈ context.helperDefinition linked name, tree.BlocksNormal := by
  unfold helperDefinition
  split <;> simp

variable {ctor : ConstructorParts} (parts : ∀ tree ∈ ctor.trees, tree.BlocksNormal)
  {members : List Tree} (inside : ∀ tree ∈ members, tree.BlocksNormal)

include parts

/-- The body of a constructor has normal blocks if its parts and the super call have. -/
theorem constructorBody_normal {superCall : List Tree}
    (call : ∀ tree ∈ superCall, tree.BlocksNormal) :
    (ofStatements (ctor.beforeSuper ++ superCall ++ ctor.afterSuper)).BlocksNormal := by
  obtain ⟨-, before, -, after⟩ := ConstructorParts.forall_mem_trees.1 parts
  exact Js.Tree.ofStatements_normal
    (List.forall_mem_append.2 ⟨List.forall_mem_append.2 ⟨before, call⟩, after⟩)

include inside

/-- A class definition in class syntax has normal blocks if its parts have. -/
theorem classSyntaxDefinition_normal (name : String) :
    (classSyntaxDefinition name ctor members).BlocksNormal := by
  obtain ⟨parent, -, args, -⟩ := ConstructorParts.forall_mem_trees.1 parts
  have superCall : ∀ tree ∈ (ctor.superArgs?.map (fun args => Tree.apply .super args)).toList,
      tree.BlocksNormal := by
    simpa using args
  have body := constructorBody_normal parts superCall
  simp only [classSyntaxDefinition]
  refine (blocksNormal_iff_children (by simp)).2 (Js.Tree.forall_mem_parts.2
    (List.forall_mem_append.2 ⟨fun _ found => parent _ (Option.mem_toList.1 found),
      List.forall_mem_cons.2 ⟨?_, inside⟩⟩))
  simpa using body

/-- A class definition with a prototype has normal blocks if its parts have. -/
theorem prototypeDefinition_normal :
    ∀ tree ∈ (context.prototypeDefinition linked ctor members).value, tree.BlocksNormal := by
  obtain ⟨parent, -, args, -⟩ := ConstructorParts.forall_mem_trees.1 parts
  have superCall : ∀ tree ∈ ctor.superCall, tree.BlocksNormal := by
    unfold ConstructorParts.superCall
    split
    · next extended given =>
      have tree := args _ given
      simpa [parent _ extended] using tree
    · exact List.forall_mem_nil _
  refine List.forall_mem_append.2 ⟨List.forall_mem_append.2 ⟨List.forall_mem_cons.2 ⟨?_,
    context.prototypeLink_normal linked _ parent⟩, context.helperDefinition_normal linked _⟩,
    inside⟩
  exact Js.Tree.functionDef_normal.2 (constructorBody_normal parts superCall)

omit inside in
/-- A class definition is in normal form if its constructor and its members are. -/
theorem fullClass_normal {exported : List (List Tree)}
    (all : ∀ tree ∈ members ++ exported.flatten, tree.BlocksNormal) :
    ∀ tree ∈ (context.fullClass linked ctor members exported).value, tree.BlocksNormal := by
  unfold fullClass
  split
  · exact List.forall_mem_singleton.2 (classSyntaxDefinition_normal parts all _)
  · exact context.prototypeDefinition_normal linked parts all

end Definitions

/-- The trees of all bodies in a scope are in normal form if and only if what they refer to without
naming it is, and so it is in every scope that generation lowers bodies in. Methods, exported
members and the parts of constructors are in normal form, whatever the class is, and a class
definition is if what it is put together from is. On trees in normal form `Tree.ofStatements` is
idempotent and associative. -/
theorem generated_blocksNormal :
    (∀ scope : Scope,
      (∀ expr, (context.lower scope expr).value.BlocksNormal) ↔ scope.BlocksNormal) ∧
    Scope.plain.BlocksNormal ∧
    (∀ method, (context.bridge method).value.BlocksNormal) ∧
    (∀ linked : LinkedClass,
      (context.memberScope linked).value.BlocksNormal ∧
      (∀ home, (context.functionScope linked home).BlocksNormal) ∧
      (∀ method, (context.freeFunction linked method).value.BlocksNormal) ∧
      (∀ method, (context.memberMethod linked method).value.BlocksNormal) ∧
      (∀ member, ∀ tree ∈ (context.exportedMember linked member).value, tree.BlocksNormal) ∧
      (∀ ctor, context.constructorParts linked = .ok ctor →
        ∀ tree ∈ ctor.value.trees, tree.BlocksNormal) ∧
      ∀ (ctor : ConstructorParts) (members : List Tree) (exported : List (List Tree)),
        (∀ tree ∈ ctor.trees, tree.BlocksNormal) →
        (∀ tree ∈ members ++ exported.flatten, tree.BlocksNormal) →
          ∀ tree ∈ (context.fullClass linked ctor members exported).value, tree.BlocksNormal) ∧
    (∀ tree : Tree, tree.BlocksNormal → ofStatements [tree] = tree) ∧
    ∀ trees others : List Tree,
      (∀ tree ∈ trees, tree.BlocksNormal) → (∀ tree ∈ others, tree.BlocksNormal) →
        ofStatements [ofStatements trees] = ofStatements trees ∧
        ofStatements [ofStatements trees, ofStatements others] =
          ofStatements (trees ++ others) := by
  refine ⟨fun scope => context.lower_normal_iff, plain_normal, context.bridge_normal,
    fun linked => ?_, fun tree normal => normal.ofStatements_singleton,
    fun trees others normal further => ?_⟩
  · exact ⟨context.memberScope_normal linked, context.functionScope_normal linked,
      context.freeFunction_normal linked, context.memberMethod_normal linked,
      context.exportedMember_normal linked, fun _ => context.constructorParts_normal linked,
      fun _ _ _ parts all => context.fullClass_normal linked parts all⟩
  · have idempotent := (Js.Tree.ofStatements_normal normal).ofStatements_singleton
    have associative := Js.Tree.ofStatements_flatten
      (List.forall_mem_cons.2 ⟨normal, List.forall_mem_singleton.2 further⟩)
    exact ⟨idempotent, by simpa using associative⟩

end Context

end Lowering

/-- A body of blocks in blocks, with empty ones among them. -/
def nestedBody : Expr :=
  .block [.skip, .block [.varDef "x" (.literal (.int 1)), .block []],
    .block [.block [.ret (.localVar "x")], .skip]]

/-- The nested blocks become one, in a method of a class and in the definition of the class. -/
theorem Lowering.Context.generated_blocksNormal_nested :
    let context : Context := ⟨.standard, ⟨∅⟩, default, .standard, ⟨"main"⟩⟩
    let linked : LinkedClass := (LinkedClass.start ⟨"app.A"⟩ .plain).extend .root
    let body := (context.lower (context.memberScope linked).value nestedBody).value
    let method := (context.memberMethod linked ⟨⟨"m"⟩, .instancePublic, [], nestedBody⟩).value
    let ctor := (context.plainConstructorParts linked).value
    body = .block [.varDef .blockScoped "x" (some (.int 1)), .ret (.varRef "x")] ∧
      body.BlocksNormal ∧ method.BlocksNormal ∧
      (∀ tree ∈ (context.fullClass linked ctor [method] []).value, tree.BlocksNormal) ∧
      ofStatements [body] = body ∧
      ofStatements [ofStatements [body, method], ofStatements [body]] =
        ofStatements [body, method, body] := by
  intro context linked body method ctor
  obtain ⟨bodies, -, -, classes, singleton, laws⟩ := context.generated_blocksNormal
  obtain ⟨scope, -, -, methods, -, constructors, definitions⟩ := classes linked
  have normal : body.BlocksNormal := (bodies _).2 scope nestedBody
  have member : method.BlocksNormal := methods _
  have parts : ∀ tree ∈ ctor.trees, tree.BlocksNormal := constructors _ rfl
  refine ⟨rfl, normal, member, ?_, singleton body normal, ?_⟩
  · exact definitions ctor [method] [] parts (List.forall_mem_singleton.2 member)
  · exact (laws [body, method] [body]
      (List.forall_mem_cons.2 ⟨normal, List.forall_mem_singleton.2 member⟩)
      (List.forall_mem_singleton.2 normal)).2

end JsEmitter
