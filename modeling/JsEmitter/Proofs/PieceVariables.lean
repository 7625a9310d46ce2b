import JsEmitter.Proofs.PieceHosts
import JsEmitter.Proofs.SameParts
import JsEmitter.Proofs.WrittenNames

/-!
# Variables of pieces

The code for a part of a class uses what generation adds by itself, the host names and the local
variables that the part writes, and definitions of the classes that the part names. So if these are
among some names, then all variables of the code are.
-/
namespace JsEmitter

open Js (Tree PropName Property)
open Lowering (Context Scope ConstructorParts Bootstrap)

namespace LinkedClass

/-- The names of variables that the code of a class writes: of the host, and of local variables. -/
def writtenNames (context : Context) (linked : LinkedClass) : List String :=
  HostNames.ofParent context.config context.index linked ++
    HostNames.ofClass context.config context.index linked.name ++
    linked.bodies.flatMap context.writtenNames

/-- The classes that the members of a class refer to whatever their bodies are: the root class, the
class itself and its parent. -/
def frameClasses (linked : LinkedClass) : List ClassName :=
  .root :: linked.name :: (linked.superClass?.toList ++ Expr.classesOfOption linked.jsSuperClass?)

/-- The local variables that the parent of a class reads or assigns. -/
def parentLocals (linked : LinkedClass) : List String := Expr.localsOfOption linked.jsSuperClass?

/-- The inlined body of a class is one of its bodies. -/
theorem mem_bodies_of_inlinedBody {index : ClassIndex} {linked : LinkedClass} {body : Expr}
    (found : HostNames.inlinedBody? index linked = some body) : body ∈ linked.bodies := by
  unfold HostNames.inlinedBody? constructors at found
  split at found
  · obtain ⟨ctor, first, rfl⟩ := Option.map_eq_some_iff.1 found
    exact mem_bodies_of_method (List.mem_of_mem_filter (List.mem_of_mem_head? first))
  · cases found

end LinkedClass

namespace ExportedMember

/-- The classes that the bodies of a member name. -/
def classes : ExportedMember → List ClassName
  | method _ _ _ body => body.classes
  | property _ _ getter? setter? =>
    Expr.classesOfOption getter? ++ Expr.classesOfOption (setter?.map Prod.snd)

/-- The local variables that the bodies of a member read or assign. -/
def locals : ExportedMember → List String
  | method _ _ _ body => body.locals
  | property _ _ getter? setter? =>
    Expr.localsOfOption getter? ++ Expr.localsOfOption (setter?.map Prod.snd)

end ExportedMember

namespace Lowering

/-- Whether the parts of a constructor only use some names. -/
structure ConstructorParts.Within (names : String → Prop) (parts : ConstructorParts) : Prop where
  parent : ∀ parent ∈ parts.parent?, parent.Within names
  before : ∀ tree ∈ parts.beforeSuper, tree.Within names
  args : ∀ args ∈ parts.superArgs?, ∀ tree ∈ args, tree.Within names
  after : ∀ tree ∈ parts.afterSuper, tree.Within names

/-- The call of the superclass in the constructor function of a class. -/
def ConstructorParts.superCall (parts : ConstructorParts) : List Tree :=
  match parts.parent?, parts.superArgs? with
  | some parent, some args => [.apply (.dotSelect parent "call") (.this :: args)]
  | _, _ => []

/-- The super call of a constructor uses the names of its parts. -/
theorem ConstructorParts.Within.superCall {names : String → Prop} {parts : ConstructorParts}
    (within : parts.Within names) : ∀ tree ∈ parts.superCall, tree.Within names := by
  unfold ConstructorParts.superCall
  cases parent? : parts.parent? with
  | none => simp
  | some parent =>
    cases args? : parts.superArgs? with
    | none => simp
    | some args => simpa using ⟨within.parent parent parent?, within.args args args?⟩

namespace Context

/-- Whether code may refer to definitions of some classes, to some names of the host and to some
local variables, next to what generation adds to it by itself: all of that is among some names. -/
structure Permits (context : Context) (names : String → Prop) (owners : List ClassName)
    (hosts locals : List String) : Prop where
  supplies : context.Supplies names
  reached : ∀ owner ∈ owners, context.Reaches names owner
  taken : ∀ name ∈ hosts, names name
  written : ∀ name ∈ locals, names name

/-- Whether what a body refers to is among some names. -/
abbrev BodyWithin (context : Context) (names : String → Prop) (body : Expr) : Prop :=
  context.Permits names body.classes (HostNames.ofExpr context.config context.index body)
    body.locals

/-- Whether what a list of bodies refers to is among some names. -/
abbrev BodiesWithin (context : Context) (names : String → Prop) (bodies : List Expr) : Prop :=
  context.Permits names (Expr.classesOfAll bodies)
    (HostNames.ofExprs context.config context.index bodies) (Expr.localsOfAll bodies)

/-- Whether what a body refers to is among some names, if there is one. -/
abbrev OptionWithin (context : Context) (names : String → Prop) (body? : Option Expr) : Prop :=
  context.Permits names (Expr.classesOfOption body?)
    (HostNames.ofElse context.config context.index body?) (Expr.localsOfOption body?)

/-- Whether what the members of a class refer to besides their bodies is among some names. -/
abbrev FrameWithin (context : Context) (names : String → Prop) (linked : LinkedClass) : Prop :=
  context.Permits names linked.frameClasses
    (HostNames.ofParent context.config context.index linked) linked.parentLocals

namespace Permits

variable {context : Context} {names : String → Prop} {owners others : List ClassName}
  {hosts locals moreHosts moreLocals : List String}

/-- What refers to nothing is permitted. -/
theorem blank (supplies : context.Supplies names) : context.Permits names [] [] [] :=
  ⟨supplies, List.forall_mem_nil _, List.forall_mem_nil _, List.forall_mem_nil _⟩

/-- What two parts refer to is permitted together. -/
theorem append (first : context.Permits names owners hosts locals)
    (second : context.Permits names others moreHosts moreLocals) :
    context.Permits names (owners ++ others) (hosts ++ moreHosts) (locals ++ moreLocals) :=
  ⟨first.supplies, List.forall_mem_append.2 ⟨first.reached, second.reached⟩,
    List.forall_mem_append.2 ⟨first.taken, second.taken⟩,
    List.forall_mem_append.2 ⟨first.written, second.written⟩⟩

/-- A part of what is permitted is permitted. -/
theorem mono (permits : context.Permits names others moreHosts moreLocals)
    (named : owners ⊆ others) (taken : hosts ⊆ moreHosts) (written : locals ⊆ moreLocals) :
    context.Permits names owners hosts locals :=
  ⟨permits.supplies, fun owner found => permits.reached owner (named found),
    fun name found => permits.taken name (taken found),
    fun name found => permits.written name (written found)⟩

/-- What two parts refer to is permitted if it is so for each part. -/
theorem append_iff :
    context.Permits names (owners ++ others) (hosts ++ moreHosts) (locals ++ moreLocals) ↔
      context.Permits names owners hosts locals ∧
        context.Permits names others moreHosts moreLocals := by
  constructor
  · rintro ⟨supplies, reached, taken, written⟩
    rw [List.forall_mem_append] at reached taken written
    exact ⟨⟨supplies, reached.1, taken.1, written.1⟩, ⟨supplies, reached.2, taken.2, written.2⟩⟩
  · exact fun both => both.1.append both.2

variable {scope : Scope}

/-- A permitted body uses permitted names. -/
theorem lower {body : Expr} (permits : context.BodyWithin names body)
    (inside : context.ScopeWithin names scope) : (context.lower scope body).value.Within names :=
  lower_within permits.supplies.lends inside body permits.reached permits.taken permits.written

/-- Permitted bodies use permitted names. -/
theorem lowerAll {bodies : List Expr} (permits : context.BodiesWithin names bodies)
    (inside : context.ScopeWithin names scope) :
    ∀ tree ∈ (context.lowerAll scope bodies).value, tree.Within names :=
  lowerAll_within permits.supplies.lends inside bodies permits.reached permits.taken permits.written

end Permits

variable {context : Context} {names : String → Prop} {linked : LinkedClass}

/-- A method in a class definition uses the names of its body. -/
theorem methodDef_within {body : Tree} (inside : body.Within names) (isStatic : Bool)
    (property : String) (params : List String) :
    (Tree.methodDef isStatic (context.propName property) params none body).Within names := by
  unfold propName
  split <;> simpa using inside

/-- The descriptor of a property uses the names of its accessors. -/
theorem propertyDescriptor_within {getter? : Option Tree} {setter? : Option (String × Tree)}
    (getter : ∀ tree ∈ getter?, tree.Within names)
    (setter : ∀ pair ∈ setter?, pair.2.Within names) :
    (propertyDescriptor getter? setter?).Within names := by
  refine (Tree.within_objectLiteral _).2 (fun name value found => ?_)
  rcases List.mem_append.1 found with found | found
  · rcases List.mem_append.1 found with found | found
    · cases getter? with
      | none => cases found
      | some tree =>
        cases List.mem_singleton.1 found
        exact (Tree.within_function []).2 (getter tree rfl)
    · cases setter? with
      | none => cases found
      | some pair =>
        cases List.mem_singleton.1 found
        exact (Tree.within_function [pair.1]).2 (setter pair rfl)
  · cases List.mem_singleton.1 found
    exact Tree.within_bool true

/-- Accessors of a property use the names of their bodies. -/
theorem exportedAccessors_within {getter? : Option Tree} {setter? : Option (String × Tree)}
    (getter : ∀ tree ∈ getter?, tree.Within names)
    (setter : ∀ pair ∈ setter?, pair.2.Within names) (name : String) (isStatic : Bool) :
    ∀ tree ∈ context.exportedAccessors name isStatic getter? setter?, tree.Within names := by
  refine List.forall_mem_append.2 ⟨?_, ?_⟩
  · cases getter? with
    | none => simp
    | some tree => simpa using getter tree rfl
  · cases setter? with
    | none => simp
    | some pair => simpa using setter pair rfl

/-- Initializations of fields use no further name. -/
theorem fieldInits_within : ∀ tree ∈ fieldInits linked, tree.Within names := by
  refine List.forall_mem_map.2 (fun field _ => ?_)
  cases field.type <;> simp [zeroValue]

/-- Static fields use no further name. -/
theorem staticFields_within : ∀ tree ∈ context.staticFields linked, tree.Within names := by
  refine List.forall_mem_map.2 (fun field _ => ?_)
  cases field.type <;> simp [zeroValue]

/-- The type data of a class use the names of the constructor of type data. -/
theorem classTypeData_within {constructor : Tree} (inside : constructor.Within names)
    (owner : ClassName) (isInterface : Bool) (ancestors : List ClassName) :
    (classTypeData constructor owner isInterface ancestors).Within names := by
  have literal : (Tree.objectLiteral (ancestors.map (fun ancestor =>
      .mk (.ident ancestor.encoded) (.int 1)))).Within names := by
    refine (Tree.within_objectLiteral _).2 (fun name value found => ?_)
    obtain ⟨_, -, same⟩ := List.mem_map.1 found
    cases same
    exact Tree.within_int 1
  simp [classTypeData, inside, literal]

/-- What members are assigned to uses permitted names. -/
theorem memberTarget_within (supplies : context.Supplies names)
    (self : context.Reaches names linked.name) (isStatic : Bool) :
    (context.memberTarget linked isStatic).Within names := by
  have constructor := classRef_within supplies.lends self
  unfold memberTarget
  split <;> simpa using constructor

/-- The parent of a class uses no more names than what it is found by or made from. -/
theorem parentTree_within (lends : context.Lends names)
    (reached : ∀ owner ∈ linked.frameClasses, context.Reaches names owner)
    (taken : ∀ name ∈ HostNames.ofParent context.config context.index linked, names name)
    (written : ∀ name ∈ linked.parentLocals, names name) :
    ∀ parent ∈ (context.parentRef linked).value, parent.Within names := by
  have extended : ∀ parent, linked.superClass? = some parent → context.Reaches names parent :=
    fun parent found => reached parent (by simp [LinkedClass.frameClasses, found])
  have plain : context.ScopeWithin names .plain :=
    ⟨Tree.within_this, by simp [Scope.plain], reached .root List.mem_cons_self⟩
  unfold HostNames.ofParent at taken
  unfold parentRef
  rw [show HostNames.extendsHostError context.config linked =
    context.extendsHostError linked from rfl] at taken
  split
  · next host =>
    rw [if_pos host] at taken
    simpa [hostRef] using taken
  · next host =>
    rw [if_neg host] at taken
    split
    · next foreign =>
      rw [if_pos foreign] at taken
      cases expr? : linked.jsSuperClass? with
      | some expr =>
        have body : (context.lower .plain expr).value.Within names := by
          refine lower_within lends plain expr (fun owner named => reached owner ?_) ?_
            (fun name found => written name ?_)
          · simp [LinkedClass.frameClasses, expr?, Expr.classesOfOption, named]
          · simpa [expr?] using taken
          · simpa [LinkedClass.parentLocals, expr?, Expr.localsOfOption] using found
        simpa using body
      | none =>
        cases parent? : linked.superClass? with
        | some parent =>
          have loaded := loadJsConstructor_within lends (extended parent parent?)
            (by simpa [expr?, parent?] using taken)
          simpa using loaded
        | none => simp
    · cases parent? : linked.superClass? with
      | some parent => simpa using classRef_within lends (extended parent parent?)
      | none => simp

section Class

variable (frame : context.FrameWithin names linked)

include frame

/-- The frame of a class reaches the root class. -/
theorem FrameWithin.root : context.Reaches names .root := frame.reached .root List.mem_cons_self

/-- The frame of a class reaches the class itself. -/
theorem FrameWithin.self : context.Reaches names linked.name :=
  frame.reached linked.name (List.mem_cons_of_mem _ List.mem_cons_self)

/-- The parent of a class uses permitted names. -/
theorem parentRef_within : ∀ parent ∈ (context.parentRef linked).value, parent.Within names :=
  parentTree_within frame.supplies.lends frame.reached frame.taken frame.written

/-- A scope with the parent of a class uses permitted names if its receiver does. -/
theorem frameScope_within {receiver : Tree} (inside : receiver.Within names) (usesSuper : Bool) :
    context.ScopeWithin names ⟨receiver, (context.parentRef linked).value, usesSuper⟩ :=
  ⟨inside, parentRef_within frame, FrameWithin.root frame⟩

/-- The scope of members uses permitted names. -/
theorem memberScope_within : context.ScopeWithin names (context.memberScope linked).value :=
  frameScope_within frame Tree.within_this _

/-- A free function uses permitted names if its body is permitted. -/
theorem freeFunction_within {method : MethodDef} (code : context.BodyWithin names method.body) :
    (context.freeFunction linked method).value.Within names := by
  have receiver : (Tree.varRef receiverParam).Within names :=
    Tree.within_varRef.2 (frame.supplies.own _ (by decide))
  have either : (if method.home.isStatic then .this else Tree.varRef receiverParam).Within
      names := by
    split
    · exact Tree.within_this
    · exact receiver
  simp only [freeFunction, Tracked.bind_value, Tracked.pure_value, Tree.within_functionDef,
    Tree.within_ofStatements, List.forall_mem_cons]
  refine ⟨code.lower (frameScope_within frame either false), ?_⟩
  split <;> simp [receiver]

/-- A member method uses permitted names if its body is permitted. -/
theorem memberMethod_within {method : MethodDef} (code : context.BodyWithin names method.body) :
    (context.memberMethod linked method).value.Within names := by
  have body := code.lower (memberScope_within frame)
  have target := memberTarget_within frame.supplies (FrameWithin.self frame) false
  simp only [memberMethod, Tracked.bind_value, Tracked.pure_value]
  split <;> simp [body, target]

end Class

/-- Arguments of a super call use permitted names. -/
theorem superArgs_within {scope : Scope} (inside : context.ScopeWithin names scope)
    {args : List Expr} (code : context.Permits names (Expr.classesOfAll args)
      (if scope.parent?.isSome then HostNames.ofExprs context.config context.index args else [])
      (Expr.localsOfAll args)) :
    ∀ trees ∈ (context.superArgs scope args).value, ∀ tree ∈ trees, tree.Within names := by
  unfold superArgs
  cases parent? : scope.parent? with
  | none => simp
  | some parent =>
    have bodies : context.BodiesWithin names args := by simpa [parent?] using code
    simpa using bodies.lowerAll inside

/-- The constructor of a foreign class uses permitted names. -/
theorem jsConstructorParts_within {ctor : JsConstructorDef}
    (permits : context.Permits names
      (linked.frameClasses ++ Expr.classesOfAll ctor.beforeSuper ++
        Expr.classesOfAll ctor.superArgs ++ Expr.classesOfAll ctor.afterSuper)
      (HostNames.ofJsConstructor context.config context.index linked ctor)
      (linked.parentLocals ++ Expr.localsOfAll ctor.beforeSuper ++
        Expr.localsOfAll ctor.superArgs ++ Expr.localsOfAll ctor.afterSuper)) :
    (context.jsConstructorParts linked ctor).value.Within names := by
  unfold HostNames.ofJsConstructor at permits
  rw [← context.memberScope_parent linked] at permits
  obtain ⟨⟨⟨frame, before⟩, args⟩, after⟩ := by
    simpa only [Permits.append_iff] using permits
  have scope := memberScope_within frame
  refine ⟨scope.parent, before.lowerAll scope, superArgs_within scope args, ?_⟩
  simp only [jsConstructorParts, Tracked.bind_value, Tracked.pure_value, List.forall_mem_append]
  exact ⟨fieldInits_within, after.lowerAll scope⟩

/-- The inlined body of a class is that of its inlined constructor. -/
theorem inlinedBody?_eq : HostNames.inlinedBody? context.index linked =
    (context.inlinedConstructor? linked).map (fun ctor => ctor.value.body) := by
  unfold HostNames.inlinedBody? inlinedConstructor?
  split <;> rfl

/-- The constructor of an ordinary class uses permitted names. -/
theorem plainConstructorParts_within
    (permits : context.Permits names
      (linked.frameClasses ++ Expr.classesOfOption (HostNames.inlinedBody? context.index linked))
      (HostNames.ofPlainConstructor context.config context.index linked)
      (linked.parentLocals ++ Expr.localsOfOption (HostNames.inlinedBody? context.index linked))) :
    (context.plainConstructorParts linked).value.Within names := by
  obtain ⟨frame, code⟩ : context.FrameWithin names linked ∧
      context.OptionWithin names (HostNames.inlinedBody? context.index linked) :=
    Permits.append_iff.1 permits
  have scope := memberScope_within frame
  rw [inlinedBody?_eq] at code
  unfold plainConstructorParts
  cases inlined : context.inlinedConstructor? linked with
  | none =>
    refine ⟨scope.parent, by simp, by simp +contextual, ?_⟩
    simpa using fieldInits_within
  | some ctor =>
    rw [inlined] at code
    have body : context.BodyWithin names ctor.value.body := code
    refine ⟨scope.parent, by simp, by simp +contextual, ?_⟩
    refine List.forall_mem_append.2 ⟨fieldInits_within, ?_⟩
    simpa using body.lower scope

/-- A getter uses permitted names. -/
theorem lowerGetter_within {scope : Scope} (inside : context.ScopeWithin names scope)
    {getter? : Option Expr} (code : context.OptionWithin names getter?) :
    ∀ tree ∈ (context.lowerGetter scope getter?).value, tree.Within names := by
  cases getter? with
  | none => simp [lowerGetter]
  | some body =>
    have body : context.BodyWithin names body := code
    simpa [lowerGetter] using body.lower inside

/-- A setter uses permitted names. -/
theorem lowerSetter_within {scope : Scope} (inside : context.ScopeWithin names scope)
    {setter? : Option (String × Expr)}
    (code : context.OptionWithin names (setter?.map Prod.snd)) :
    ∀ pair ∈ (context.lowerSetter scope setter?).value, pair.2.Within names := by
  cases setter? with
  | none => simp [lowerSetter]
  | some setter =>
    have body : context.BodyWithin names setter.2 := code
    simpa [lowerSetter] using body.lower inside

/-- An exported member uses permitted names. -/
theorem exportedMember_within {member : ExportedMember}
    (permits : context.Permits names (linked.frameClasses ++ member.classes)
      (HostNames.ofExportedMember context.config context.index linked member)
      (linked.parentLocals ++ member.locals)) :
    ∀ tree ∈ (context.exportedMember linked member).value, tree.Within names := by
  cases member with
  | method name isStatic params body =>
    obtain ⟨frame, code⟩ : context.FrameWithin names linked ∧ context.BodyWithin names body :=
      Permits.append_iff.1 permits
    have tree := code.lower (memberScope_within frame)
    have target := memberTarget_within frame.supplies frame.self
    simp only [exportedMember, Tracked.bind_value, Tracked.pure_value, exportedMethod]
    split
    · simpa [propName, apply_ite] using methodDef_within tree _ _ _
    · simpa [tree] using propSelect_within (target _) name
  | property name isStatic getter? setter? =>
    obtain ⟨frame, all⟩ : context.FrameWithin names linked ∧ context.Permits names
        (Expr.classesOfOption getter? ++ Expr.classesOfOption (setter?.map Prod.snd))
        (HostNames.ofElse context.config context.index getter? ++
          HostNames.ofElse context.config context.index (setter?.map Prod.snd) ++
          (if context.config.classSyntax then [] else ["Object"]))
        (Expr.localsOfOption getter? ++ Expr.localsOfOption (setter?.map Prod.snd)) :=
      Permits.append_iff.1 permits
    obtain ⟨getterCode, setterCode⟩ := Permits.append_iff.1
      (all.mono (List.Subset.refl _) (List.subset_append_left _ _) (List.Subset.refl _))
    have scope := memberScope_within frame
    have getter := lowerGetter_within scope getterCode
    have setter := lowerSetter_within scope setterCode
    simp only [exportedMember, Tracked.bind_value]
    split
    · exact exportedAccessors_within getter setter _ _
    · next prototypes =>
      have object : names "Object" := all.taken _ (by simp [prototypes])
      have target := memberTarget_within frame.supplies frame.self
      have descriptor := propertyDescriptor_within getter setter
      simp only [definedProperty, Tracked.map_value', hostRef, List.forall_mem_singleton,
        Tree.within_apply, Tree.within_dotSelect, Tree.within_varRef, List.forall_mem_cons]
      exact ⟨object, target _, Tree.within_str _, descriptor⟩

/-- A bridge uses permitted names. -/
theorem bridge_within (permits : context.Permits names [.root] [] []) (method : MethodName) :
    (context.bridge method).value.Within names := by
  have root := classRef_within permits.supplies.lends (permits.reached _ List.mem_cons_self)
  have args : names "args" := permits.supplies.own _ (by decide)
  simp [bridge, root, args]

/-- Instance tests use permitted names. -/
theorem instanceTests_within (supplies : context.Supplies names) :
    ∀ tree ∈ context.instanceTests linked, tree.Within names := by
  have value : names "x" := supplies.own _ (by decide)
  have test : names (context.naming.instanceTest linked.name) :=
    supplies.single .test _ (by decide)
  have failure : (context.bootstrapRef "throwClassCastException").Within names :=
    rootModuleRef_within supplies.lends supplies.castFailure
  have accepted : (isInstanceExpr linked.name (.varRef "x")).Within names := by
    unfold isInstanceExpr
    split <;> simp [value]
  simp [instanceTests, value, test, failure, accepted]

/-- The type data of a class use permitted names. -/
theorem typeData_within (supplies : context.Supplies names)
    (self : context.Reaches names linked.name) :
    ∀ tree ∈ context.typeData linked, tree.Within names := by
  have constructor : (context.bootstrapRef "TypeData").Within names :=
    rootModuleRef_within supplies.lends supplies.typeDataClass
  have own : names (context.naming.typeData linked.name) :=
    supplies.single .typeData _ (by decide)
  have target := memberTarget_within supplies self false
  refine List.forall_mem_cons.2 ⟨?_, ?_⟩
  · simpa using classTypeData_within constructor _ _ _
  · split <;> simp [own, target]

/-- Static initializers use permitted names. -/
theorem staticInitializers_within (supplies : context.Supplies names) :
    ∀ tree ∈ context.staticInitializers linked, tree.Within names := by
  unfold staticInitializers
  cases linked.staticInitializer? with
  | none => simp
  | some method =>
    have function := supplies.freeFunction .staticConstructor linked.name method.value.name
    simpa using function

/-- A module accessor uses permitted names. -/
theorem moduleAccessor_within (supplies : context.Supplies names)
    (self : context.Reaches names linked.name)
    (taken : ∀ name ∈ HostNames.ofClass context.config context.index linked.name, names name) :
    ∀ tree ∈ (context.moduleAccessor linked).value, tree.Within names := by
  have holder : (Tree.varRef (context.naming.moduleInstance linked.name)).Within names :=
    Tree.within_varRef.2 (supplies.single .singleton _ (by decide))
  have created := newInstance_within supplies.lends self taken (accessorConstructor linked)
    (List.forall_mem_nil _)
  simp [moduleAccessor, holder, created]

/-- A part of a class shell uses permitted names. -/
theorem shellTrees_within {part : ShellPart}
    (permits : context.Permits names [linked.name]
      (HostNames.ofShellPart context.config context.index linked part) []) :
    ∀ tree ∈ (shellTrees context linked part).value, tree.Within names := by
  have self : context.Reaches names linked.name := permits.reached _ List.mem_cons_self
  cases part with
  | moduleAccessor => exact moduleAccessor_within permits.supplies self permits.taken
  | instanceTests => exact instanceTests_within permits.supplies
  | typeData => exact typeData_within permits.supplies self
  | staticFields => exact staticFields_within
  | staticInitializers => exact staticInitializers_within permits.supplies

/-- The link of a prototype to its parent uses permitted names. -/
theorem prototypeLink_within (supplies : context.Supplies names) {parent? : Option Tree}
    (extended : ∀ parent, linked.superClass? = some parent → context.Reaches names parent)
    (object : linked.kind.isJsClass = true → parent?.isSome = true → names "Object")
    (parents : ∀ parent ∈ parent?, parent.Within names) :
    ∀ tree ∈ (context.prototypeLink linked (context.naming.classConstructor linked.name)
      parent?).value, tree.Within names := by
  have own : names (context.naming.classConstructor linked.name) :=
    supplies.single .constructor _ (by decide)
  cases parent? with
  | none => simp [prototypeLink]
  | some parent =>
    have inherited := parents parent rfl
    have value : (context.prototypeValue linked parent).value.Within names := by
      unfold prototypeValue
      split
      · next foreign => simp [hostRef, object foreign rfl, inherited]
      · cases ancestor? : linked.superClass? with
        | none => simpa using inherited
        | some ancestor => simpa using helperRef_within supplies.lends (extended ancestor ancestor?)
    simp [prototypeLink, own, value]

/-- A helper function uses permitted names. -/
theorem helperDefinition_within (supplies : context.Supplies names) :
    ∀ tree ∈ context.helperDefinition linked (context.naming.classConstructor linked.name),
      tree.Within names := by
  have own : names (context.naming.classConstructor linked.name) :=
    supplies.single .constructor _ (by decide)
  have helper : names (context.naming.classHelper linked.name) :=
    supplies.single .helper _ (by decide)
  unfold helperDefinition
  split <;> simp [own, helper]

/-- The definition of a class uses no more names than its parts, its parent and the host's `Object`
if a prototype is made with it. -/
theorem fullClass_within {ctor : ConstructorParts} {members : List Tree}
    {exported : List (List Tree)}
    (permits : context.Permits names linked.superClass?.toList
      (if !context.config.classSyntax && linked.kind.isJsClass && ctor.parent?.isSome
        then ["Object"] else []) [])
    (parts : ctor.Within names) (inside : ∀ tree ∈ members, tree.Within names)
    (outside : ∀ trees ∈ exported, ∀ tree ∈ trees, tree.Within names) :
    ∀ tree ∈ (context.fullClass linked ctor members exported).value, tree.Within names := by
  have all : ∀ tree ∈ members ++ exported.flatten, tree.Within names :=
    List.forall_mem_append.2 ⟨inside, List.forall_mem_flatten.2 outside⟩
  have before := parts.before
  have after := parts.after
  unfold fullClass
  split
  · have superCall : ∀ tree ∈ (ctor.superArgs?.map (fun args =>
        Tree.apply .super args)).toList, tree.Within names := by
      cases args? : ctor.superArgs? with
      | none => simp
      | some args => simpa using parts.args args args?
    have body := Tree.within_ofStatements.2 (List.forall_mem_append.2
      ⟨List.forall_mem_append.2 ⟨before, superCall⟩, after⟩)
    refine List.forall_mem_singleton.2 ((Tree.within_classDef _ _).2 ⟨parts.parent, ?_⟩)
    exact List.forall_mem_cons.2 ⟨(Tree.within_methodDef_ident _ _ _ _).2 body, all⟩
  · next prototypes =>
    have body := Tree.within_ofStatements.2 (List.forall_mem_append.2
      ⟨List.forall_mem_append.2 ⟨before, parts.superCall⟩, after⟩)
    have extended : ∀ parent, linked.superClass? = some parent → context.Reaches names parent :=
      fun parent found => permits.reached parent (by simp [found])
    have object : linked.kind.isJsClass = true → ctor.parent?.isSome = true → names "Object" :=
      fun foreign present => permits.taken _ (by simp [prototypes, foreign, present])
    refine List.forall_mem_append.2 ⟨List.forall_mem_append.2 ⟨List.forall_mem_cons.2 ⟨?_, ?_⟩,
      helperDefinition_within permits.supplies⟩, all⟩
    · exact (Tree.within_functionDef _ _ _).2 body
    · exact prototypeLink_within permits.supplies extended object parts.parent

/-- Whether what a class names and writes is among some names. -/
structure ClassWithin (context : Context) (names : String → Prop) (linked : LinkedClass) :
    Prop where
  allows : context.Allows names
  reached : ∀ owner ∈ linked.referencedClasses.insert .root, context.Reaches names owner
  self : context.Reaches names linked.name
  written : ∀ name ∈ linked.writtenNames context, names name

namespace ClassWithin

variable (within : context.ClassWithin names linked)

include within

/-- A body of the class is permitted. -/
theorem body {body : Expr} (found : body ∈ linked.bodies) : context.BodyWithin names body := by
  have written : ∀ name ∈ context.writtenNames body, names name := fun name there =>
    within.written name (List.mem_append_right _ (List.mem_flatMap.2 ⟨body, found, there⟩))
  exact ⟨within.allows.supplies,
    fun owner named => within.reached owner
      (SortedSet.mem_insert.2 (.inr (LinkedClass.mem_referencedClasses_of_body found named))),
    fun name there => written name (List.mem_append_left _ there),
    fun name there => written name (List.mem_append_right _ there)⟩

/-- A body that the class may lack is permitted. -/
theorem option {body? : Option Expr} (found : ∀ body ∈ body?, body ∈ linked.bodies) :
    context.OptionWithin names body? := by
  cases body? with
  | none => exact .blank within.allows.supplies
  | some body => exact within.body (found body rfl)

/-- Some bodies of the class are permitted. -/
theorem bodies {exprs : List Expr} (found : ∀ body ∈ exprs, body ∈ linked.bodies) :
    context.BodiesWithin names exprs := by
  induction exprs with
  | nil => exact .blank within.allows.supplies
  | cons head rest ih =>
    exact (within.body (found head List.mem_cons_self)).append
      (ih (fun body there => found body (List.mem_cons_of_mem _ there)))

/-- References to the root class are permitted. -/
theorem rootClass : context.Permits names [.root] [] [] :=
  ⟨within.allows.supplies,
    List.forall_mem_singleton.2 (within.reached _ (SortedSet.mem_insert.2 (.inl rfl))),
    List.forall_mem_nil _, List.forall_mem_nil _⟩

/-- References to the superclass are permitted. -/
theorem superClass : context.Permits names linked.superClass?.toList [] [] := by
  refine ⟨within.allows.supplies, fun owner found => within.reached owner ?_,
    List.forall_mem_nil _, List.forall_mem_nil _⟩
  exact SortedSet.mem_insert.2 (.inr
    (LinkedClass.mem_referencedClasses_of_superClass (Option.mem_toList.1 found)))

/-- The frame of the class is permitted. -/
theorem frame : context.FrameWithin names linked := by
  have parent : context.OptionWithin names linked.jsSuperClass? :=
    within.option (fun body found => LinkedClass.mem_bodies_of_jsSuperClass found)
  refine ⟨within.allows.supplies, ?_, fun name there => ?_, parent.written⟩
  · exact List.forall_mem_cons.2 ⟨within.rootClass.reached _ List.mem_cons_self,
      List.forall_mem_cons.2 ⟨within.self,
        List.forall_mem_append.2 ⟨within.superClass.reached, parent.reached⟩⟩⟩
  · exact within.written name (List.mem_append_left _ (List.mem_append_left _ there))

/-- What a part of the class shell refers to is permitted. -/
theorem shell (part : ShellPart) : context.Permits names [linked.name]
    (HostNames.ofShellPart context.config context.index linked part) [] := by
  refine ⟨within.allows.supplies, List.forall_mem_singleton.2 within.self, ?_,
    List.forall_mem_nil _⟩
  cases part with
  | moduleAccessor =>
    exact fun name there =>
      within.written name (List.mem_append_left _ (List.mem_append_right _ there))
  | _ => exact List.forall_mem_nil _

/-- What the constructor of a foreign class refers to is permitted. -/
theorem jsConstructor {ctor : Versioned JsConstructorDef}
    (found : linked.jsConstructor? = some ctor) :
    context.Permits names
      (linked.frameClasses ++ Expr.classesOfAll ctor.value.beforeSuper ++
        Expr.classesOfAll ctor.value.superArgs ++ Expr.classesOfAll ctor.value.afterSuper)
      (HostNames.ofJsConstructor context.config context.index linked ctor.value)
      (linked.parentLocals ++ Expr.localsOfAll ctor.value.beforeSuper ++
        Expr.localsOfAll ctor.value.superArgs ++ Expr.localsOfAll ctor.value.afterSuper) := by
  have part := fun {exprs : List Expr} (inside : ∀ body ∈ exprs, body ∈ ctor.value.beforeSuper ++
      ctor.value.superArgs ++ ctor.value.afterSuper) =>
    within.bodies (fun body there =>
      LinkedClass.mem_bodies_of_jsConstructor found (inside body there))
  have args := @part ctor.value.superArgs (by simp +contextual)
  refine ((within.frame.append (part (by simp +contextual))).append
    ⟨args.supplies, args.reached, ?_, args.written⟩).append (part (by simp +contextual))
  split
  · exact args.taken
  · exact List.forall_mem_nil _

/-- The inlined body of the class is permitted. -/
theorem inlinedBody :
    context.OptionWithin names (HostNames.inlinedBody? context.index linked) := by
  exact within.option (fun body found => LinkedClass.mem_bodies_of_inlinedBody found)

/-- What an exported member of the class refers to is permitted. -/
theorem exportedMember {member : Versioned ExportedMember}
    (found : member ∈ linked.exportedMembers) :
    context.Permits names (linked.frameClasses ++ member.value.classes)
      (HostNames.ofExportedMember context.config context.index linked member.value)
      (linked.parentLocals ++ member.value.locals) := by
  have body := fun {body : Expr} (there : body ∈ member.value.bodies) =>
    LinkedClass.mem_bodies_of_exportedMember found there
  refine within.frame.append ?_
  cases shape : member.value with
  | method name isStatic params code =>
    exact within.body (body (by simp [shape, ExportedMember.bodies]))
  | property name isStatic getter? setter? =>
    have getter : context.OptionWithin names getter? := within.option (fun code there =>
      body (by simp [shape, ExportedMember.bodies, Option.mem_def.1 there]))
    have setter : context.OptionWithin names (setter?.map Prod.snd) :=
      within.option (fun code there => body (by
        rw [shape, ExportedMember.bodies, there]
        simp))
    have both := getter.append setter
    have object : names "Object" := within.allows.other _ (by decide)
    refine ⟨both.supplies, both.reached, List.forall_mem_append.2 ⟨both.taken, ?_⟩, both.written⟩
    split <;> simp [object]

end ClassWithin

end Context

end Lowering

end JsEmitter
