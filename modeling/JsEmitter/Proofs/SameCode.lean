import JsEmitter.Proofs.Linkage
import JsEmitter.Proofs.HostNames

/-!
# Code under another index

Generated code reads some facts about the classes that it refers to, the root module, and the parent
that super calls go to. Where two indexes agree in these facts, generation under one of them gives
the same code as under the other, with the same host names.
-/
namespace JsEmitter

open Js (Tree)
open Lowering (Context Scope ConstructorParts Bootstrap)

namespace Expr

mutual

/-- Whether an expression calls the implementation of the parent class. -/
def callsSuper : Expr → Bool
  | skip | literal _ | this | localVar _ | globalRef _ | loadModule _ | loadJsConstructor _
  | selectStatic _ _ => false
  | block statements => anyCallsSuper statements
  | varDef _ value | ret value | raise value | unary _ value => callsSuper value
  | select qualifier _ | jsSelect qualifier _ => callsSuper qualifier
  | assign target value => callsSuper target || callsSuper value
  | branch cond thenBranch elseBranch? =>
    callsSuper cond || callsSuper thenBranch || optionCallsSuper elseBranch?
  | apply receiver _ args => callsSuper receiver || anyCallsSuper args
  | applySuper _ _ => true
  | applyStatic _ _ args | applyConstructor _ _ args | new _ _ args => anyCallsSuper args
  | jsCall function args => callsSuper function || anyCallsSuper args
  | binary _ left right => callsSuper left || callsSuper right
  | isInstanceOf value _ | asInstanceOf value _ => callsSuper value

/-- Whether one of some expressions calls the implementation of the parent class. -/
def anyCallsSuper : List Expr → Bool
  | [] => false
  | head :: rest => callsSuper head || anyCallsSuper rest

/-- Whether an expression, if there is one, calls the implementation of the parent class. -/
def optionCallsSuper : Option Expr → Bool
  | none => false
  | some expr => callsSuper expr

end

end Expr

/-- The classes whose facts the code of an expression reads that stands in no class: those that it
names, and the root class if it makes super calls. -/
def Expr.reads (expr : Expr) : List ClassName :=
  expr.classes ++ if expr.callsSuper then [.root] else []

/-- One of some expressions calls the parent implementation if they do. -/
theorem Expr.anyCallsSuper_iff {exprs : List Expr} :
    anyCallsSuper exprs = true ↔ ∃ expr ∈ exprs, expr.callsSuper = true := by
  induction exprs with
  | nil => simp [anyCallsSuper]
  | cons head rest ih => simp [anyCallsSuper, ih]

/-- Tracked values continue alike if they have the same host names. -/
theorem Tracked.bind_eq_bind {α β γ : Type} {first : Tracked α} {second : Tracked β}
    {next : α → Tracked γ} {another : β → Tracked γ} (refs : first.refs = second.refs)
    (same : next first.value = another second.value) : first >>= next = second >>= another :=
  ext' (by simp only [bind_value, same]) (by simp only [bind_refs, refs, same])

namespace Lowering.Context

variable (context : Context) (index : ClassIndex)

/-- The context with another index. -/
def reindex : Context := { context with index := index }

/-- Whether two indexes agree in what code reads that names a class: the facts about the class, and
the root module, which has the tests of the root class. -/
structure SameReads (name : ClassName) : Prop extends context.index.SameFacts index name where
  root : name = .root → context.index.rootModule? = index.rootModule?

/-- What a super call goes to, unless it is written with `super`. -/
def superTarget (scope : Scope) : Option Tree :=
  if scope.usesSuper then none else some (scope.parent?.getD (context.classRef .root))

variable {context index}

/-- Indexes that agree in the facts about a class and in the root module agree in all that code
reads. -/
theorem SameReads.of_root {owner : ClassName} (facts : context.index.SameFacts index owner)
    (root : context.index.rootModule? = index.rootModule?) : context.SameReads index owner :=
  ⟨facts, fun _ => root⟩

/-- An index that agrees in the owner of a class gives the same references to its members. -/
theorem classMemberRef_reindex {owner : ClassName}
    (owned : context.index.owner? owner = index.owner? owner) (name : String) :
    (context.reindex index).classMemberRef owner name = context.classMemberRef owner name := by
  unfold classMemberRef
  rw [owned]
  rfl

section Facts

variable {owner : ClassName} (facts : context.index.SameFacts index owner)

include facts

/-- An index that agrees in the facts gives the same reference to a class. -/
theorem classRef_reindex : (context.reindex index).classRef owner = context.classRef owner :=
  classMemberRef_reindex facts.owner _

/-- An index that agrees in the facts gives the same reference to a function. -/
theorem functionRef_reindex (home : MemberNamespace) (method : MethodName) :
    (context.reindex index).functionRef home owner method =
      context.functionRef home owner method :=
  classMemberRef_reindex facts.owner _

/-- An index that agrees in the facts loads a native class in the same way. -/
theorem loadNative_reindex :
    (context.reindex index).loadNative owner = context.loadNative owner := by
  unfold loadNative
  rw [facts.native, classRef_reindex facts]
  rfl

/-- An index that agrees in the facts loads a foreign class in the same way. -/
theorem loadJsConstructor_reindex :
    (context.reindex index).loadJsConstructor owner = context.loadJsConstructor owner := by
  unfold loadJsConstructor
  rw [facts.kind, classRef_reindex facts, loadNative_reindex facts]
  rfl

/-- An index that agrees in the facts creates instances in the same way. -/
theorem newInstance_reindex (ctor : MethodName) (args : List Tree) :
    (context.reindex index).newInstance owner ctor args = context.newInstance owner ctor args := by
  unfold newInstance
  rw [facts.kind, facts.inlines, classRef_reindex facts, loadNative_reindex facts,
    functionRef_reindex facts]
  rfl

end Facts

section Tests

variable {owner : ClassName} (reads : context.SameReads index owner)

include reads

/-- An index that agrees in what code reads gives the same reference to a type test. -/
theorem typeTestRef_reindex (name : String) :
    (context.reindex index).typeTestRef owner name = context.typeTestRef owner name := by
  unfold typeTestRef
  rw [classMemberRef_reindex reads.owner]
  split
  · next tests =>
    rw [rootModuleRef, rootModuleRef, reads.root (of_decide_eq_true tests)]
    rfl
  · rfl

/-- An index that agrees in what code reads tests instances in the same way. -/
theorem instanceTest_reindex (value : Tree) :
    (context.reindex index).instanceTest owner value = context.instanceTest owner value := by
  unfold instanceTest
  rw [typeTestRef_reindex reads]
  rfl

end Tests

/-- Super calls with the same target are the same. -/
theorem superCall_reindex {scope other : Scope} (receiver : other.receiver = scope.receiver)
    (target : (context.reindex index).superTarget other = context.superTarget scope)
    (method : MethodName) (args : List Tree) :
    (context.reindex index).superCall other method args = context.superCall scope method args := by
  unfold superTarget at target
  unfold superCall
  cases one : scope.usesSuper <;> cases two : other.usesSuper <;>
    simp_all

section Bodies

variable {scope other : Scope}

mutual

/-- An expression has the same code under an index that agrees in what it reads. -/
theorem lower_reindex (receivers : other.receiver = scope.receiver) : (expr : Expr) →
    (∀ owner ∈ expr.classes, context.SameReads index owner) →
    (expr.callsSuper = true →
      (context.reindex index).superTarget other = context.superTarget scope) →
    (context.reindex index).lower other expr = context.lower scope expr
  | .skip, _, _ | .literal _, _, _ | .localVar _, _, _ | .globalRef _, _, _ => rfl
  | .this, _, _ => by simp only [lower, receivers]
  | .loadModule owner, reads, _ | .selectStatic owner _, reads, _ => by
    simp only [lower, classMemberRef_reindex (reads owner List.mem_cons_self).owner]
    rfl
  | .loadJsConstructor owner, reads, _ => by
    simp only [lower, loadJsConstructor_reindex (reads owner List.mem_cons_self).toSameFacts]
  | .block statements, reads, calls => by
    simp only [lower, lowerAll_reindex receivers statements reads calls]
  | .varDef _ value, reads, calls | .jsSelect value _, reads, calls => by
    simp only [lower, lower_reindex receivers value reads calls]
    rfl
  | .ret value, reads, calls | .raise value, reads, calls | .unary _ value, reads, calls
  | .select value _, reads, calls => by
    simp only [lower, lower_reindex receivers value reads calls]
  | .assign target value, reads, calls | .binary _ target value, reads, calls => by
    simp only [Expr.classes, List.mem_append, or_imp, forall_and] at reads
    simp only [Expr.callsSuper, Bool.or_eq_true, or_imp] at calls
    simp only [lower, lower_reindex receivers target reads.1 calls.1,
      lower_reindex receivers value reads.2 calls.2]
  | .branch cond thenBranch elseBranch?, reads, calls => by
    simp only [Expr.classes, List.mem_append, or_imp, forall_and] at reads
    simp only [Expr.callsSuper, Bool.or_eq_true, or_imp] at calls
    simp only [lower, lower_reindex receivers cond reads.1.1 calls.1.1,
      lower_reindex receivers thenBranch reads.1.2 calls.1.2,
      lowerElse_reindex receivers elseBranch? reads.2 calls.2]
  | .apply receiver _ args, reads, calls | .jsCall receiver args, reads, calls => by
    simp only [Expr.classes, List.mem_append, or_imp, forall_and] at reads
    simp only [Expr.callsSuper, Bool.or_eq_true, or_imp] at calls
    simp only [lower, lower_reindex receivers receiver reads.1 calls.1,
      lowerAll_reindex receivers args reads.2 calls.2]
  | .applySuper method args, reads, calls => by
    have others : Expr.anyCallsSuper args = true → _ := fun _ => calls rfl
    simp only [lower, lowerAll_reindex receivers args reads others,
      superCall_reindex receivers (calls rfl)]
  | .applyStatic owner _ args, reads, calls => by
    simp only [Expr.classes, List.forall_mem_cons] at reads
    simp only [lower, lowerAll_reindex receivers args reads.2 calls,
      functionRef_reindex reads.1.toSameFacts]
  | .applyConstructor owner _ args, reads, calls => by
    simp only [Expr.classes, List.forall_mem_cons] at reads
    simp only [lower, lowerAll_reindex receivers args reads.2 calls,
      functionRef_reindex reads.1.toSameFacts, receivers]
  | .new owner _ args, reads, calls => by
    simp only [Expr.classes, List.forall_mem_cons] at reads
    simp only [lower, lowerAll_reindex receivers args reads.2 calls,
      newInstance_reindex reads.1.toSameFacts]
  | .isInstanceOf value owner, reads, calls => by
    simp only [Expr.classes, List.forall_mem_cons] at reads
    simp only [lower, lower_reindex receivers value reads.2 calls,
      instanceTest_reindex reads.1]
  | .asInstanceOf value owner, reads, calls => by
    simp only [Expr.classes, List.forall_mem_cons] at reads
    simp only [lower, lower_reindex receivers value reads.2 calls,
      typeTestRef_reindex reads.1]
    rfl

/-- Expressions have the same code under an index that agrees in what they read. -/
theorem lowerAll_reindex (receivers : other.receiver = scope.receiver) : (exprs : List Expr) →
    (∀ owner ∈ Expr.classesOfAll exprs, context.SameReads index owner) →
    (Expr.anyCallsSuper exprs = true →
      (context.reindex index).superTarget other = context.superTarget scope) →
    (context.reindex index).lowerAll other exprs = context.lowerAll scope exprs
  | [], _, _ => rfl
  | head :: rest, reads, calls => by
    simp only [Expr.classesOfAll, List.mem_append, or_imp, forall_and] at reads
    simp only [Expr.anyCallsSuper, Bool.or_eq_true, or_imp] at calls
    simp only [lowerAll, lower_reindex receivers head reads.1 calls.1,
      lowerAll_reindex receivers rest reads.2 calls.2]

/-- An optional expression has the same code under an index that agrees in what it reads. -/
theorem lowerElse_reindex (receivers : other.receiver = scope.receiver) : (expr? : Option Expr) →
    (∀ owner ∈ Expr.classesOfOption expr?, context.SameReads index owner) →
    (Expr.optionCallsSuper expr? = true →
      (context.reindex index).superTarget other = context.superTarget scope) →
    (context.reindex index).lowerElse other expr? = context.lowerElse scope expr?
  | none, _, _ => rfl
  | some expr, reads, calls => lower_reindex receivers expr reads calls

end

/-- An expression that stands in no class has the same code under an index that agrees in what the
code reads. -/
theorem lower_plain_reindex {expr : Expr}
    (reads : ∀ owner ∈ expr.reads, context.SameReads index owner) :
    (context.reindex index).lower .plain expr = context.lower .plain expr := by
  refine lower_reindex rfl expr (fun owner named => reads owner (List.mem_append_left _ named))
    (fun makes => ?_)
  have root := reads .root (List.mem_append_right _ (by simp [makes]))
  simp only [superTarget, classRef_reindex root.toSameFacts]

end Bodies

/-- What the members of a class take from its parent: the target of super calls, if they make any,
and the host names that the parent uses. -/
def parentUse (context : Context) (linked : LinkedClass) (usesSuper calls : Bool) :
    Tracked (List (Option Tree)) :=
  (context.parentRef linked).map (fun parent? =>
    if calls then [context.superTarget ⟨.this, parent?, usesSuper⟩] else [])

section Members

variable {linked other : LinkedClass} (names : other.name = linked.name)

/-- Bodies that take the same from the parent of their class have the same code. -/
theorem lower_parentUse (receiver : Tree) {usesSuper otherUses : Bool} {body : Expr} {calls : Bool}
    (reads : ∀ owner ∈ body.classes, context.SameReads index owner)
    (within : body.callsSuper = true → calls = true)
    (use : (context.reindex index).parentUse other otherUses calls =
      context.parentUse linked usesSuper calls) :
    (context.reindex index).lower
        ⟨receiver, ((context.reindex index).parentRef other).value, otherUses⟩ body =
      context.lower ⟨receiver, (context.parentRef linked).value, usesSuper⟩ body := by
  refine lower_reindex ?_ body reads (fun makes => ?_)
  · rfl
  have target := congrArg Tracked.value use
  simp only [parentUse, Tracked.map_value', within makes, if_true, List.cons.injEq, and_true]
    at target
  exact target

/-- References to a parent that are used alike record the same host names. -/
theorem parentUse_refs {usesSuper otherUses calls : Bool}
    (use : (context.reindex index).parentUse other otherUses calls =
      context.parentUse linked usesSuper calls) :
    ((context.reindex index).parentRef other).refs = (context.parentRef linked).refs :=
  (congrArg Tracked.refs use : _)

include names

/-- A free function has the same code under an index that agrees in what it reads. -/
theorem freeFunction_reindex {method : MethodDef}
    (reads : ∀ owner ∈ method.body.classes, context.SameReads index owner)
    (use : (context.reindex index).parentUse other false method.body.callsSuper =
      context.parentUse linked false method.body.callsSuper) :
    (context.reindex index).freeFunction other method = context.freeFunction linked method := by
  have body := fun receiver : Tree => lower_parentUse receiver reads id use
  refine Tracked.ext' ?_ ?_
  · simp only [freeFunction, Tracked.bind_value, Tracked.pure_value, body, names]
    rfl
  · simp only [freeFunction, Tracked.bind_refs, Tracked.pure_refs, body, parentUse_refs use]

/-- Members are assigned to the same place under an index that agrees in the facts about the
class. -/
theorem memberTarget_reindex (self : context.index.SameFacts index linked.name) (isStatic : Bool) :
    (context.reindex index).memberTarget other isStatic = context.memberTarget linked isStatic := by
  unfold memberTarget
  rw [names, classRef_reindex self]

/-- A member method has the same code under an index that agrees in what it reads. -/
theorem memberMethod_reindex {method : MethodDef}
    (self : context.index.SameFacts index linked.name)
    (reads : ∀ owner ∈ method.body.classes, context.SameReads index owner)
    (use : (context.reindex index).parentUse other ((context.reindex index).usesSuper other)
        method.body.callsSuper =
      context.parentUse linked (context.usesSuper linked) method.body.callsSuper) :
    (context.reindex index).memberMethod other method = context.memberMethod linked method := by
  have body := lower_parentUse .this reads id use
  have target := memberTarget_reindex names self false
  refine Tracked.ext' ?_ ?_
  · simp only [memberMethod, memberScope, Tracked.bind_value, Tracked.map_value',
      Tracked.pure_value, body, target]
    rfl
  · simp only [memberMethod, memberScope, Tracked.bind_refs, Tracked.map_refs',
      Tracked.map_value', Tracked.pure_refs, body, parentUse_refs use]

/-- After its scope an exported member goes on alike in classes that lower its bodies alike. -/
theorem exportedMember_continues {member : ExportedMember}
    (foreign : other.kind.isJsClass = linked.kind.isJsClass)
    (self : context.index.SameFacts index linked.name)
    (lowers : ∀ body ∈ member.bodies,
      (context.reindex index).lower ((context.reindex index).memberScope other).value body =
        context.lower (context.memberScope linked).value body) :
    ∃ next another : Scope → Tracked (List Tree),
      context.exportedMember linked member = context.memberScope linked >>= next ∧
      (context.reindex index).exportedMember other member =
        (context.reindex index).memberScope other >>= another ∧
      another ((context.reindex index).memberScope other).value =
        next (context.memberScope linked).value := by
  have target := memberTarget_reindex names self
  refine ⟨_, _, rfl, rfl, ?_⟩
  cases member with
  | method name isStatic params body =>
    simp only [lowers body (by simp [ExportedMember.bodies]), exportedMethod, target, foreign]
    rfl
  | property name isStatic getter? setter? =>
    have getters : (context.reindex index).lowerGetter
        ((context.reindex index).memberScope other).value getter? =
          context.lowerGetter (context.memberScope linked).value getter? := by
      cases getter? with
      | none => rfl
      | some body => simp only [lowerGetter, lowers body (by simp [ExportedMember.bodies])]
    have setters : (context.reindex index).lowerSetter
        ((context.reindex index).memberScope other).value setter? =
          context.lowerSetter (context.memberScope linked).value setter? := by
      cases setter? with
      | none => rfl
      | some setter =>
        simp only [lowerSetter, lowers setter.2 (by simp [ExportedMember.bodies])]
    simp only [getters, setters, definedProperty, target, foreign]
    rfl

/-- An exported member has the same code under an index that agrees in what it reads. -/
theorem exportedMember_reindex {member : ExportedMember}
    (foreign : other.kind.isJsClass = linked.kind.isJsClass)
    (self : context.index.SameFacts index linked.name)
    (reads : ∀ body ∈ member.bodies, ∀ owner ∈ body.classes, context.SameReads index owner)
    (use : (context.reindex index).parentUse other ((context.reindex index).usesSuper other)
        (Expr.anyCallsSuper member.bodies) =
      context.parentUse linked (context.usesSuper linked) (Expr.anyCallsSuper member.bodies)) :
    (context.reindex index).exportedMember other member =
      context.exportedMember linked member := by
  obtain ⟨next, another, here, there, same⟩ := exportedMember_continues names foreign self
    (fun body found => lower_parentUse .this (reads body found)
      (fun makes => Expr.anyCallsSuper_iff.2 ⟨body, found, makes⟩) use)
  have refs : ((context.reindex index).memberScope other).refs =
      (context.memberScope linked).refs :=
    parentUse_refs use
  rw [here, there]
  exact Tracked.bind_eq_bind refs same

/-- Exported members have the same trees in classes in which super calls go to the same parent. -/
theorem exportedMember_value_reindex {member : ExportedMember}
    (foreign : other.kind.isJsClass = linked.kind.isJsClass)
    (self : context.index.SameFacts index linked.name)
    (reads : ∀ body ∈ member.bodies, ∀ owner ∈ body.classes, context.SameReads index owner)
    (target : Expr.anyCallsSuper member.bodies = true →
      (context.reindex index).superTarget ((context.reindex index).memberScope other).value =
        context.superTarget (context.memberScope linked).value) :
    ((context.reindex index).exportedMember other member).value =
      (context.exportedMember linked member).value := by
  have receivers : ((context.reindex index).memberScope other).value.receiver =
      (context.memberScope linked).value.receiver := rfl
  obtain ⟨next, another, here, there, same⟩ := exportedMember_continues names foreign self
    (fun body found => lower_reindex receivers body (reads body found)
      (fun makes => target (Expr.anyCallsSuper_iff.2 ⟨body, found, makes⟩)))
  rw [here, there, Tracked.bind_value, Tracked.bind_value, same]

end Members

end Lowering.Context

end JsEmitter
