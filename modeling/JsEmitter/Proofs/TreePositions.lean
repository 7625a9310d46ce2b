import JsEmitter.Proofs.Subterms
import JsEmitter.Proofs.Variables
import Mathlib.Data.List.Nodup

/-!
# Positions in trees

A position in a tree is the way down to a subtree: which child to take at every step. A walk visits
every position once and parents before children, unless the way goes through the computed name of an
accessor or of a property in an object literal: `Tree.walk_positions`. So a reference to a variable
is seen wherever it stands, except there.
-/
namespace JsEmitter.Js

/-- What a child is for the tree that it stands directly in: the computed name of a method, of an
accessor or of a property in an object literal, or any other part. -/
inductive ChildRole where
  | part
  | methodName
  | accessorName
  | propertyName
deriving DecidableEq

/-- Whether a walk passes over children of a kind. -/
def ChildRole.isOverlooked : ChildRole → Bool
  | accessorName | propertyName => true
  | part | methodName => false

/-- A tree that stands directly in another one. -/
structure Child where
  role : ChildRole
  tree : Tree

namespace Tree

/-- The tree of a computed name. -/
def nameChildren (role : ChildRole) : PropName → List Child
  | .computed tree => [⟨role, tree⟩]
  | .ident _ | .str _ => []

/-- Trees that are no names. -/
def parts (trees : List Tree) : List Child := trees.map (Child.mk .part)

/-- The trees that stand directly in a tree, in the order in which they are written. -/
def children : Tree → List Child
  | block statements => parts statements
  | varDef _ _ value? => parts value?.toList
  | functionDef _ _ _ body | function _ body => parts [body]
  | classDef _ parent? members => parts (parent?.toList ++ members)
  | methodDef _ name _ _ body => nameChildren .methodName name ++ parts [body]
  | getterDef _ name body | setterDef _ name _ body =>
    nameChildren .accessorName name ++ parts [body]
  | ret value | raise value | spread value | unary _ value | dotSelect value _ => parts [value]
  | assign left right | bracketSelect left right | binary _ left right => parts [left, right]
  | branch cond thenBranch elseBranch => parts [cond, thenBranch, elseBranch]
  | apply callee args | new callee args => parts (callee :: args)
  | objectLiteral properties => properties.flatMap (fun
    | .mk name value => nameChildren .propertyName name ++ parts [value])
  | skip | varRef _ | this | super | undefined | null | bool _ | int _ | double _ | str _
  | importNamespace _ _ | exportNames _ => []

/-- The subtree at a position, if the position is one of the tree. -/
def at? (tree : Tree) : List Nat → Option Tree
  | [] => some tree
  | index :: path => tree.children[index]?.bind (fun child => child.tree.at? path)

/-- Whether the way to a position goes through a child that a walk passes over. -/
def overlooks (tree : Tree) : List Nat → Bool
  | [] => false
  | index :: path =>
    match tree.children[index]? with
    | some child => child.role.isOverlooked || child.tree.overlooks path
    | none => false

/-! ## Children -/

/-- The children made of trees are these trees. -/
theorem mem_parts {trees : List Tree} {child : Child} (among : child ∈ parts trees) :
    child.tree ∈ trees := by
  obtain ⟨tree, found, rfl⟩ := List.mem_map.1 among
  exact found

/-- A tree in a name is smaller than the name. -/
theorem sizeOf_lt_of_mem_nameChildren {role : ChildRole} {name : PropName} {child : Child}
    (among : child ∈ nameChildren role name) : sizeOf child.tree < sizeOf name := by
  cases name with
  | ident | str => cases among
  | computed tree =>
    obtain rfl := List.mem_singleton.1 among
    simp

/-- A child is smaller than its tree, so that positions can be defined by recursion. -/
theorem sizeOf_lt_of_mem_children {tree : Tree} {child : Child} (among : child ∈ tree.children) :
    sizeOf child.tree < sizeOf tree := by
  cases tree with
  | block statements =>
    have smaller := List.sizeOf_lt_of_mem (mem_parts among)
    simp
    omega
  | varDef kind name value? =>
    obtain rfl : value? = some child.tree := by simpa using mem_parts among
    simp
    omega
  | classDef name parent? members =>
    rcases List.mem_append.1 (mem_parts among) with found | found
    · obtain rfl : parent? = some child.tree := by simpa using found
      simp
      omega
    · have smaller := List.sizeOf_lt_of_mem found
      simp
      omega
  | apply callee args | new callee args =>
    rcases List.mem_cons.1 (mem_parts among) with same | found
    · simp [same]
      omega
    · have smaller := List.sizeOf_lt_of_mem found
      simp
      omega
  | objectLiteral properties =>
    obtain ⟨⟨name, value⟩, found, inside⟩ := List.mem_flatMap.1 among
    have smaller := List.sizeOf_lt_of_mem found
    simp only [Property.mk.sizeOf_spec, objectLiteral.sizeOf_spec] at smaller ⊢
    rcases List.mem_append.1 inside with inside | inside
    · have deeper := sizeOf_lt_of_mem_nameChildren inside
      omega
    · rw [List.mem_singleton.1 (mem_parts inside)]
      omega
  | methodDef isStatic name params rest? body | getterDef isStatic name body
  | setterDef isStatic name param body =>
    rcases List.mem_append.1 among with inside | inside
    · have deeper := sizeOf_lt_of_mem_nameChildren inside
      simp only [methodDef.sizeOf_spec, getterDef.sizeOf_spec, setterDef.sizeOf_spec]
      omega
    · rw [List.mem_singleton.1 (mem_parts inside)]
      simp only [methodDef.sizeOf_spec, getterDef.sizeOf_spec, setterDef.sizeOf_spec]
      omega
  | functionDef _ _ _ body | function _ body | ret body | raise body | spread body | unary _ body
  | dotSelect body _ =>
    rw [List.mem_singleton.1 (mem_parts among)]
    simp only [functionDef.sizeOf_spec, function.sizeOf_spec, ret.sizeOf_spec, raise.sizeOf_spec,
      spread.sizeOf_spec, unary.sizeOf_spec, dotSelect.sizeOf_spec]
    omega
  | assign left right | bracketSelect left right | binary _ left right =>
    have found := mem_parts among
    simp only [List.mem_cons, List.not_mem_nil, or_false] at found
    simp only [assign.sizeOf_spec, bracketSelect.sizeOf_spec, binary.sizeOf_spec]
    rcases found with same | same <;> (rw [same]; omega)
  | branch cond thenBranch elseBranch =>
    have found := mem_parts among
    simp only [List.mem_cons, List.not_mem_nil, or_false] at found
    rw [branch.sizeOf_spec]
    rcases found with same | same | same <;> (rw [same]; omega)
  | _ => cases among

/-- What holds of a tree whenever it holds of the trees that stand directly in it. -/
theorem children_induction {holds : Tree → Prop}
    (step : ∀ tree, (∀ child ∈ tree.children, holds child.tree) → holds tree) (tree : Tree) :
    holds tree :=
  step tree (fun child among =>
    have := sizeOf_lt_of_mem_children among
    children_induction step child.tree)
termination_by sizeOf tree

/-! ## Walks -/

/-- What a walk visits in a child. -/
def visitedChild (child : Child) : List Tree :=
  if child.role.isOverlooked then [] else child.tree.visited

/-- A walk visits trees as it visits the children made of them. -/
@[simp] theorem flatMap_parts (trees : List Tree) :
    (parts trees).flatMap visitedChild = visitedAll trees := by
  rw [visitedAll_eq_flatMap, parts, List.flatMap_map]
  rfl

/-- A walk enters the computed name of a method. -/
@[simp] theorem flatMap_methodName (name : PropName) :
    (nameChildren .methodName name).flatMap visitedChild = visitedName name := by
  cases name <;>
    simp [nameChildren, visitedChild, ChildRole.isOverlooked, visitedName]

/-- A walk does not enter names that it passes over. -/
theorem flatMap_overlooked {role : ChildRole} (passed : role.isOverlooked = true)
    (name : PropName) : (nameChildren role name).flatMap visitedChild = [] := by
  cases name <;> simp [nameChildren, visitedChild, passed]

/-- A walk does not enter the computed name of an accessor. -/
@[simp] theorem flatMap_accessorName (name : PropName) :
    (nameChildren .accessorName name).flatMap visitedChild = [] :=
  flatMap_overlooked rfl name

/-- A walk does not enter the computed name of a property in an object literal. -/
@[simp] theorem flatMap_propertyName (name : PropName) :
    (nameChildren .propertyName name).flatMap visitedChild = [] :=
  flatMap_overlooked rfl name

/-- A walk visits the values in an object literal and not the names. -/
theorem visitedProperties_eq (properties : List Property) :
    visitedProperties properties = (objectLiteral properties).children.flatMap visitedChild := by
  induction properties with
  | nil => rfl
  | cons property rest ih =>
    obtain ⟨name, value⟩ := property
    simp only [children, List.flatMap_cons, List.flatMap_append] at ih ⊢
    rw [visitedProperties, ih]
    simp [visitedAll]

/-- A walk visits a tree before what it visits in its children. -/
theorem visited_eq (tree : Tree) :
    tree.visited = tree :: tree.children.flatMap visitedChild := by
  cases tree with
  | varDef kind name value? =>
    cases value? <;> simp [visited, visitedOption, children, visitedAll]
  | classDef name parent? members =>
    cases parent? <;> simp [visited, visitedOption, children, visitedAll]
  | objectLiteral properties => rw [visited, visitedProperties_eq]
  | _ => simp [visited, children, visitedAll]

/-! ## Positions of a walk -/

/-- The positions that a walk comes to, in its order. -/
def walkedPositions (tree : Tree) : List (List Nat) :=
  [] :: tree.children.zipIdx.attach.flatMap (fun ⟨(child, index), among⟩ =>
    have := sizeOf_lt_of_mem_children (List.fst_mem_of_mem_zipIdx among)
    if child.role.isOverlooked then [] else child.tree.walkedPositions.map (index :: ·))
termination_by sizeOf tree

/-- The positions that a walk comes to in a child. -/
def childPositions (entry : Child × Nat) : List (List Nat) :=
  if entry.1.role.isOverlooked then [] else entry.1.tree.walkedPositions.map (entry.2 :: ·)

/-- A walk comes to the tree itself and then to the positions in its children. -/
theorem walkedPositions_eq (tree : Tree) :
    tree.walkedPositions = [] :: tree.children.zipIdx.flatMap childPositions := by
  have all := List.flatMap_map Subtype.val childPositions tree.children.zipIdx.attach
  rw [List.attach_map_subtype_val] at all
  rw [all, walkedPositions]
  rfl

/-- A walk comes to a position in a child if it enters the child and comes to the rest of the
way. -/
theorem mem_childPositions {child : Child} {index : Nat} {path : List Nat} :
    path ∈ childPositions (child, index) ↔ child.role.isOverlooked = false ∧
      ∃ deeper ∈ child.tree.walkedPositions, index :: deeper = path := by
  unfold childPositions
  cases child.role.isOverlooked <;> simp

/-- A walk comes to a position below the tree if the first step leads to a child that it enters. -/
theorem cons_mem_walkedPositions {tree : Tree} {index : Nat} {path : List Nat} :
    index :: path ∈ tree.walkedPositions ↔ ∃ child, tree.children[index]? = some child ∧
      child.role.isOverlooked = false ∧ path ∈ child.tree.walkedPositions := by
  rw [walkedPositions_eq, List.mem_cons, or_iff_right (List.cons_ne_nil _ _), List.mem_flatMap]
  constructor
  · rintro ⟨⟨child, position⟩, among, here⟩
    obtain ⟨enters, deeper, there, same⟩ := mem_childPositions.1 here
    obtain ⟨rfl, rfl⟩ := List.cons.inj same
    exact ⟨child, List.mem_zipIdx_iff_getElem?.1 among, enters, there⟩
  · rintro ⟨child, found, enters, there⟩
    exact ⟨(child, index), List.mem_zipIdx_iff_getElem?.2 found,
      mem_childPositions.2 ⟨enters, path, there, rfl⟩⟩

/-- A walk comes to a position exactly if it is one of the tree and the way to it goes through no
child that the walk passes over. -/
theorem mem_walkedPositions {tree : Tree} {path : List Nat} :
    path ∈ tree.walkedPositions ↔
      (tree.at? path).isSome = true ∧ tree.overlooks path = false := by
  induction path generalizing tree with
  | nil =>
    rw [walkedPositions_eq]
    simp [at?, overlooks]
  | cons index path ih =>
    rw [cons_mem_walkedPositions]
    cases found : tree.children[index]? with
    | none => simp [at?, found]
    | some child =>
      simp only [Option.some.injEq, exists_eq_left', ih, at?, found, Option.bind_some, overlooks,
        Bool.or_eq_false_iff]
      exact and_left_comm

/-- The subtrees at the positions that a walk comes to are those that it visits. -/
theorem map_at?_walkedPositions (tree : Tree) :
    tree.walkedPositions.map tree.at? = tree.visited.map some := by
  induction tree using children_induction with
  | step tree ih =>
    have below : ∀ entry ∈ tree.children.zipIdx,
        (childPositions entry).map tree.at? = (visitedChild entry.1).map some := by
      rintro ⟨child, index⟩ among
      have found : tree.children[index]? = some child := List.mem_zipIdx_iff_getElem?.1 among
      unfold childPositions visitedChild
      split
      · rfl
      · rw [← ih child (List.mem_of_getElem? found), List.map_map]
        exact List.map_congr_left (fun path _ => by simp [at?, found])
    have unindexed := List.flatMap_map Prod.fst (fun child => (visitedChild child).map some)
      tree.children.zipIdx
    rw [List.zipIdx_map_fst] at unindexed
    rw [walkedPositions_eq, visited_eq, List.map_cons, List.map_cons, List.map_flatMap,
      List.map_flatMap, List.flatMap_congr below, unindexed]
    rfl

/-- The positions that a walk comes to increase: a position stands before those below it, and a
child before the next one. -/
theorem walkedPositions_increasing (tree : Tree) :
    tree.walkedPositions.Pairwise (· < ·) := by
  induction tree using children_induction with
  | step tree ih =>
    rw [walkedPositions_eq, List.pairwise_cons, List.pairwise_flatMap]
    refine ⟨?_, ?_, ?_⟩
    · intro path found
      obtain ⟨⟨child, index⟩, -, here⟩ := List.mem_flatMap.1 found
      obtain ⟨-, deeper, -, rfl⟩ := mem_childPositions.1 here
      exact List.nil_lt_cons _ _
    · rintro ⟨child, index⟩ among
      unfold childPositions
      split
      · exact .nil
      · rw [List.pairwise_map]
        exact (ih child (List.fst_mem_of_mem_zipIdx among)).imp
          (fun below => List.cons_lt_cons_iff.2 (.inr ⟨rfl, below⟩))
    · have indices : (tree.children.zipIdx.map Prod.snd).Pairwise (· < ·) := by
        rw [List.zipIdx_map_snd]
        exact List.pairwise_lt_range'
      refine (List.pairwise_map.1 indices).imp ?_
      rintro ⟨child, index⟩ ⟨other, later⟩ below path here another there
      obtain ⟨-, deeper, -, rfl⟩ := mem_childPositions.1 here
      obtain ⟨-, further, -, rfl⟩ := mem_childPositions.1 there
      exact List.cons_lt_cons_iff.2 (.inl below)

/-- Whether a walk visits the subtrees at some positions, in their order: each position once, a
position before those below it, and all of them except where the way goes through a child that is
passed over. -/
structure WalksThrough (tree : Tree) (positions : List (List Nat)) : Prop where
  visits : tree.visited.map some = positions.map tree.at?
  once : positions.Nodup
  parentsFirst : positions.Pairwise (fun earlier later => ¬later <+: earlier)
  everywhere : ∀ path, path ∈ positions ↔
    (tree.at? path).isSome = true ∧ tree.overlooks path = false

/-- A walk visits the subtrees at the positions to which it comes. -/
theorem walksThrough_walkedPositions (tree : Tree) :
    tree.WalksThrough tree.walkedPositions where
  visits := tree.map_at?_walkedPositions.symm
  once := tree.walkedPositions_increasing.imp (fun below same => by
    subst same
    exact List.lt_irrefl _ below)
  parentsFirst := tree.walkedPositions_increasing.imp (fun below begins =>
    List.not_lt.2 (List.IsPrefix.le begins) below)
  everywhere _ := mem_walkedPositions

/-- A walk visits the subtree at every position once and parents first, and a tree refers to a
variable exactly if a reference to it stands at some position, unless the way there goes through the
computed name of an accessor or of a property in an object literal. -/
theorem walk_positions (tree : Tree) :
    (∃ positions, tree.WalksThrough positions) ∧
      ∀ name, tree.references name = true ↔
        ∃ path, tree.at? path = some (varRef name) ∧ tree.overlooks path = false := by
  have walks := tree.walksThrough_walkedPositions
  refine ⟨⟨_, walks⟩, fun name => ?_⟩
  have seen : varRef name ∈ tree.visited ↔
      some (varRef name) ∈ tree.walkedPositions.map tree.at? := by
    rw [← walks.visits]
    simp
  rw [references_iff, seen, List.mem_map]
  refine exists_congr (fun path => ?_)
  rw [walks.everywhere]
  constructor
  · rintro ⟨⟨-, entered⟩, there⟩
    exact ⟨there, entered⟩
  · rintro ⟨there, entered⟩
    exact ⟨⟨by simp [there], entered⟩, there⟩

/-- A reference to a variable in the computed name of a getter, of a setter and of a property is not
seen, though one in the computed name of a method is. -/
theorem references_misses_names :
    let name := PropName.computed (varRef "x")
    let getter := getterDef false name skip
    let setter := setterDef false name "value" skip
    let literal := objectLiteral [.mk name null]
    let method := methodDef false name [] none skip
    (getter.at? [0] = some (varRef "x") ∧ getter.references "x" = false) ∧
      (setter.at? [0] = some (varRef "x") ∧ setter.references "x" = false) ∧
      (literal.at? [0] = some (varRef "x") ∧ literal.references "x" = false) ∧
      method.at? [0] = some (varRef "x") ∧ method.references "x" = true :=
  ⟨⟨rfl, rfl⟩, ⟨rfl, rfl⟩, ⟨rfl, rfl⟩, rfl, rfl⟩

end Tree

end JsEmitter.Js
