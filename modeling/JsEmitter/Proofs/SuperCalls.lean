import JsEmitter.Linked.Building
import JsEmitter.Proofs.EmittedBodies

/-!
# Super calls

A super call of an ordinary class goes to the parent that its definition extends. This is the
superclass, in methods, in the constructor that is part of the definition and in exported members
alike, except for the root throwable with class syntax: there the parent is the error type of the
host, which does not have the methods of the superclass.
-/
namespace JsEmitter

open Js (Tree)
open Js.Tree (visited visitedAll mem_visitedAll)
open Lowering (Context Scope ConstructorParts receiverParam)

namespace Lowering.Context

/-- The call of the implementation of a method in a class, with lowered arguments. -/
def implementationCall (context : Context) (owner : ClassName) (receiver : Tree)
    (method : MethodName) (args : List Tree) : Tree :=
  .apply (.dotSelect (.dotSelect (.dotSelect (context.classRef owner) "prototype")
    (Naming.methodProperty method)) "call") (receiver :: args)

/-- The scope of a body whose super calls go to a class. -/
def scopeBelow (context : Context) (owner : ClassName) (receiver : Tree) : Scope :=
  ⟨receiver, some (context.classRef owner), false⟩

/-- Whether some trees have a body such that its super calls are calls of the implementations in a
class on a receiver, and nothing else in it depends on the class. -/
structure SuperCallsReach (context : Context) (owner : ClassName) (receiver : Tree) (body : Expr)
    (trees : List Tree) : Prop where
  emitted : context.EmitsIn (context.scopeBelow owner receiver) body trees
  calls : ∀ method args, (Expr.applySuper method args).Inside body →
    context.implementationCall owner receiver method
      (context.lowerAll (context.scopeBelow owner receiver) args).value ∈ visitedAll trees

section Bodies

variable {context : Context} {owner : ClassName} {receiver : Tree} {body : Expr}
  {trees others : List Tree}

/-- In the scope below a class, a super call is a call of the implementation in the class. -/
theorem lower_applySuper (method : MethodName) (args : List Expr) :
    (context.lower (context.scopeBelow owner receiver) (.applySuper method args)).value =
      context.implementationCall owner receiver method
        (context.lowerAll (context.scopeBelow owner receiver) args).value := rfl

/-- Super calls reach a class where the body is lowered in the scope below it. -/
theorem EmitsIn.superCallsReach {scope : Scope} (emitted : context.EmitsIn scope body trees)
    (below : scope = context.scopeBelow owner receiver) :
    context.SuperCallsReach owner receiver body trees := by
  subst below
  refine ⟨emitted, fun method args inside => ?_⟩
  rw [← lower_applySuper]
  exact emitted.subterm inside rfl

end Bodies

section Classes

variable {context : Context} {linked : LinkedClass} {parent : ClassName}
  (ordinary : linked.kind.isClass = true) (extended : linked.superClass? = some parent)
  (own : context.extendsHostError linked = false)

include ordinary extended own

/-- An ordinary class that does not extend the error type of the host extends its superclass. -/
theorem parentRef_eq_superClass :
    (context.parentRef linked).value = some (context.classRef parent) := by
  have local' : linked.kind.isJsClass = false := by
    cases kind : linked.kind <;> simp_all [ClassKind.isClass, ClassKind.isJsClass]
  unfold parentRef
  rw [own, local', extended]
  rfl

/-- The scope of free functions is the one below the parent, with the receiver of the function. -/
theorem functionScope_eq_scopeBelow (home : MemberNamespace) :
    context.functionScope linked home =
      context.scopeBelow parent (if home.isStatic then .this else .varRef receiverParam) := by
  unfold functionScope scopeBelow
  rw [parentRef_eq_superClass ordinary extended own]

/-- The scope of members is the one below the parent, with this as its receiver. -/
theorem memberScope_eq_scopeBelow :
    (context.memberScope linked).value = context.scopeBelow parent .this := by
  have uses : context.usesSuper linked = false := by
    unfold usesSuper
    cases kind : linked.kind <;> simp_all [ClassKind.isClass, ClassKind.isJsClass]
  simp only [memberScope, Tracked.map_value', uses,
    parentRef_eq_superClass ordinary extended own, scopeBelow]

end Classes

/-- The super calls of an ordinary class that does not extend the error type of the host reach its
superclass: in free functions, in members, in the constructor that is part of the definition, and
in exported members. -/
theorem superCalls_reach_superClass (context : Context) (linked : LinkedClass) {parent : ClassName}
    (ordinary : linked.kind.isClass = true) (extended : linked.superClass? = some parent)
    (own : context.extendsHostError linked = false) :
    (∀ method : MethodDef, context.SuperCallsReach parent
      (if method.home.isStatic then .this else .varRef receiverParam) method.body
      [(context.freeFunction linked method).value]) ∧
    (∀ method : MethodDef, context.SuperCallsReach parent .this method.body
      [(context.memberMethod linked method).value]) ∧
    (∀ ctor ∈ context.inlinedConstructor? linked, ∃ parts,
      context.constructorParts linked = .ok parts ∧ ∀ members exported,
        context.SuperCallsReach parent .this ctor.value.body
          (context.fullClass linked parts.value members exported).value) ∧
    (∀ member : ExportedMember, ∀ body ∈ member.bodies, context.SuperCallsReach parent .this body
      (context.exportedMember linked member).value) := by
  have scope := memberScope_eq_scopeBelow ordinary extended own
  refine ⟨fun method => ?_, fun method => ?_, fun ctor inlined => ?_, fun member body among => ?_⟩
  · exact (freeFunction_emitsIn linked method).superCallsReach
      (functionScope_eq_scopeBelow ordinary extended own method.home)
  · exact (memberMethod_emitsIn linked method).superCallsReach scope
  · have plain : context.constructorParts linked = .ok (context.plainConstructorParts linked) := by
      unfold constructorParts
      cases kind : linked.kind <;> simp_all [ClassKind.isClass, ClassKind.isJsClass]
    refine ⟨_, plain, fun members exported => ?_⟩
    refine EmitsIn.superCallsReach (fun tree whole found => ?_) scope
    have inCtor := plainConstructorParts_emitsIn inlined tree whole found
    refine mem_visitedAll_fullClass (plainConstructorParts_both context linked) whole ?_
    obtain ⟨outer, there, inside⟩ := mem_visitedAll.1 inCtor
    exact mem_visitedAll.2
      ⟨outer, List.mem_append_left _ (List.mem_append_left _ there), inside⟩
  · exact (exportedMember_emitsIn linked member among).superCallsReach scope

/-- A super call without arguments. -/
def callAbove : Expr := .applySuper ⟨"run"⟩ []

/-- A class with a method, a constructor and an exported member that make a super call. -/
def classBelow (name parent : ClassName) : LinkedClass :=
  ((((LinkedClass.start name .plain).extend parent).addPublicMethod ⟨"run"⟩
    callAbove).addConstructor ⟨"<init>"⟩ [] callAbove).addExportedMember
      (.method "go" false [] callAbove) firstVersion

/-- The context of a program of a class and its superclass. -/
def contextBelow (name parent : ClassName) : Context :=
  let program : Program := ⟨[{ Module.start ⟨"main"⟩ with
    isRoot := true, classes := [.start parent .plain, classBelow name parent] }]⟩
  ⟨.standard, default, .ofProgram program, .standard, ⟨"main"⟩⟩

/-- All super calls of a class reach its superclass, in the constructor as in exported members. -/
theorem superCalls_reach_superClass_below :
    let linked := classBelow ⟨"app.C"⟩ .root
    let context := contextBelow ⟨"app.C"⟩ .root
    let call := context.implementationCall .root .this ⟨"run"⟩ []
    (∃ parts, context.constructorParts linked = .ok parts ∧
      call ∈ visitedAll (context.fullClass linked parts.value [] []).value) ∧
    call ∈ visitedAll (context.exportedMember linked (.method "go" false [] callAbove)).value := by
  intro linked context call
  obtain ⟨-, -, inlined, exported⟩ := superCalls_reach_superClass context linked (by decide)
    (show linked.superClass? = some .root from rfl) (by decide)
  obtain ⟨parts, made, reach⟩ := inlined ⟨⟨⟨"<init>"⟩, .constructor, [], callAbove⟩, firstVersion⟩
    rfl
  have reaches := exported (.method "go" false [] callAbove) callAbove List.mem_cons_self
  exact ⟨⟨parts, made, (reach [] []).calls ⟨"run"⟩ [] .refl⟩, reaches.calls ⟨"run"⟩ [] .refl⟩

/-- With class syntax, super calls of the root throwable miss its superclass: they look for the
method in the error type of the host. -/
theorem superCalls_miss_superClass :
    let linked := classBelow ⟨"lang.Throwable"⟩ .root
    let context := contextBelow ⟨"lang.Throwable"⟩ .root
    let tree := (context.memberMethod linked
      ⟨⟨"run"⟩, .instancePublic, [], callAbove⟩).value
    context.config.classSyntax = true ∧ linked.kind.isClass = true ∧
      linked.superClass? = some .root ∧
      tree.references (context.naming.classConstructor .root) = false ∧
      tree.references "Error" = true := by
  decide +kernel

end Lowering.Context

end JsEmitter
