import JsEmitter.Lowering.Body
import JsEmitter.EmitError

/-!
# Parts of a class

Methods, constructors and exported members become trees one by one, and a class definition is
put together from them. With class syntax a class is one definition; otherwise it is a
constructor function with a prototype, and a helper function that shares the prototype so that
subclasses can inherit without running the constructor.
-/
namespace JsEmitter.Lowering

open Js (Tree DeclKind PropName Property)

/-- The constructor of a class in pieces, before the class is put together. -/
structure ConstructorParts where
  parent? : Option Tree
  params : List String
  beforeSuper : List Tree
  /-- The arguments of the parent constructor, if there is a parent. -/
  superArgs? : Option (List Tree)
  afterSuper : List Tree

/-- The parameter that is the receiver of a method outside its class definition. -/
def receiverParam : String := "$thiz"

/-- The property that holds the type data of an instance. -/
def typeDataProperty : String := "$classData"

namespace Context

/-- The parent that a class extends, if it has one. -/
def parentRef (context : Context) (linked : LinkedClass) : Tracked (Option Tree) :=
  if context.extendsHostError linked then (context.hostRef hostErrorName).map some
  else if linked.kind.isJsClass then
    match linked.jsSuperClass?, linked.superClass? with
    | some expr, _ => (context.lower .plain expr).map some
    | none, some parent => (context.loadJsConstructor parent).map some
    | none, none => pure none
  else pure (linked.superClass?.map context.classRef)

/-- Whether super calls in the members of a class can be written with `super`. -/
def usesSuper (context : Context) (linked : LinkedClass) : Bool :=
  linked.kind.isJsClass && context.config.classSyntax

/-- The scope of the members of a class. -/
def memberScope (context : Context) (linked : LinkedClass) : Tracked Scope :=
  (context.parentRef linked).map (fun parent? => ⟨.this, parent?, context.usesSuper linked⟩)

/-- What members of a class are assigned to: its prototype, or for static members itself. -/
def memberTarget (context : Context) (linked : LinkedClass) (isStatic : Bool) : Tree :=
  if isStatic then context.classRef linked.name
  else .dotSelect (context.classRef linked.name) "prototype"

/-- A method as a free function. A method with a receiver takes it as first parameter, and a
constructor returns it. -/
def freeFunction (context : Context) (linked : LinkedClass) (method : MethodDef) :
    Tracked Tree := do
  let parent? ← context.parentRef linked
  let receiver : Tree := if method.home.isStatic then .this else .varRef receiverParam
  let body ← context.lower ⟨receiver, parent?, false⟩ method.body
  let params := if method.home.isStatic then method.params else receiverParam :: method.params
  let result : List Tree :=
    if method.home = .constructor then [.ret (.varRef receiverParam)] else []
  let name := context.naming.freeFunction method.home linked.name method.name
  return .functionDef name params none (.ofStatements (body :: result))

/-- A public method inside the class definition. -/
def memberMethod (context : Context) (linked : LinkedClass) (method : MethodDef) :
    Tracked Tree := do
  let scope ← context.memberScope linked
  let body ← context.lower scope method.body
  let property := Naming.methodProperty method.name
  return if context.config.classSyntax then
    .methodDef false (.ident property) method.params none body
  else
    .assign (.dotSelect (context.memberTarget linked false) property)
      (.function method.params body)

/-- A method that forwards to the implementation of the root class. A class that extends the
error type of the host does not inherit it. -/
def bridge (context : Context) (method : MethodName) : Tracked Tree :=
  let property := Naming.methodProperty method
  let target : Tree := .dotSelect (.dotSelect (context.classRef .root) "prototype") property
  let call : Tree := .apply (.dotSelect target "call") [.this, .spread (.varRef "args")]
  pure (.methodDef false (.ident property) [] (some "args") (.ret call))

/-- The assignments of the zero values of the instance fields. -/
def fieldInits (linked : LinkedClass) : List Tree :=
  linked.instanceFields.map (fun field =>
    .assign (.dotSelect .this (Naming.fieldProperty field.name)) (zeroValue field.type))

/-- The constructor that is part of the class definition, if there is one. -/
def inlinedConstructor? (context : Context) (linked : LinkedClass) :
    Option (Versioned MethodDef) :=
  if context.index.inlinesConstructor linked.name then linked.constructors.head? else none

/-- The arguments of the parent constructor, lowered only if there is a parent. -/
def superArgs (context : Context) (scope : Scope) (args : List Expr) :
    Tracked (Option (List Tree)) :=
  match scope.parent? with
  | some _ => (context.lowerAll scope args).map some
  | none => pure none

/-- The constructor of a foreign class. -/
def jsConstructorParts (context : Context) (linked : LinkedClass) (ctor : JsConstructorDef) :
    Tracked ConstructorParts := do
  let scope ← context.memberScope linked
  let beforeSuper ← context.lowerAll scope ctor.beforeSuper
  let superArgs? ← context.superArgs scope ctor.superArgs
  let afterSuper ← context.lowerAll scope ctor.afterSuper
  return {
    parent? := scope.parent?
    params := ctor.params
    beforeSuper := beforeSuper
    superArgs? := superArgs?
    afterSuper := fieldInits linked ++ afterSuper }

/-- The constructor of an ordinary class, which runs the inlined constructor if there is one. -/
def plainConstructorParts (context : Context) (linked : LinkedClass) :
    Tracked ConstructorParts := do
  let scope ← context.memberScope linked
  let body : List Tree ← match context.inlinedConstructor? linked with
    | some ctor => (context.lower scope ctor.value.body).map (fun tree => [tree])
    | none => pure []
  return {
    parent? := scope.parent?
    params := ((context.inlinedConstructor? linked).map (fun ctor => ctor.value.params)).getD []
    beforeSuper := []
    superArgs? := scope.parent?.map (fun _ => [])
    afterSuper := fieldInits linked ++ body }

/-- The constructor of a class with instances. -/
def constructorParts (context : Context) (linked : LinkedClass) :
    Except EmitError (Tracked ConstructorParts) :=
  if linked.kind.isJsClass then
    match linked.jsConstructor? with
    | some ctor => .ok (context.jsConstructorParts linked ctor.value)
    | none => .error (.missingJsConstructor linked.name)
  else .ok (context.plainConstructorParts linked)

/-- A class definition with class syntax. -/
def classSyntaxDefinition (name : String) (ctor : ConstructorParts) (members : List Tree) :
    Tree :=
  let superCall : List Tree := (ctor.superArgs?.map (fun args => .apply .super args)).toList
  let body : Tree := .ofStatements (ctor.beforeSuper ++ superCall ++ ctor.afterSuper)
  .classDef name ctor.parent?
    (.methodDef false (.ident "constructor") ctor.params none body :: members)

/-- The prototype of a class that has a parent. -/
def prototypeValue (context : Context) (linked : LinkedClass) (parent : Tree) : Tracked Tree :=
  if linked.kind.isJsClass then
    (context.hostRef "Object").map (fun object =>
      .apply (.dotSelect object "create") [.dotSelect parent "prototype"])
  else
    match linked.superClass? with
    | some superClass => pure (.new (context.helperRef superClass) [])
    | none => pure (.new parent [])

/-- The statements that link the prototype of a class to its parent, if it has one. -/
def prototypeLink (context : Context) (linked : LinkedClass) (name : String)
    (parent? : Option Tree) : Tracked (List Tree) :=
  match parent? with
  | some parent =>
    (context.prototypeValue linked parent).map (fun value =>
      let prototype : Tree := .dotSelect (.varRef name) "prototype"
      [.assign prototype value, .assign (.dotSelect prototype "constructor") (.varRef name)])
  | none => pure []

/-- The function without a body that shares the prototype of an ordinary class. -/
def helperDefinition (context : Context) (linked : LinkedClass) (name : String) : List Tree :=
  if linked.kind.isJsClass then []
  else
    let helper := context.naming.classHelper linked.name
    [.functionDef helper [] none .skip,
      .assign (.dotSelect (.varRef helper) "prototype") (.dotSelect (.varRef name) "prototype")]

/-- A class definition as a constructor function and statements about its prototype. -/
def prototypeDefinition (context : Context) (linked : LinkedClass) (ctor : ConstructorParts)
    (members : List Tree) : Tracked (List Tree) :=
  let name := context.naming.classConstructor linked.name
  let superCall : List Tree :=
    match ctor.parent?, ctor.superArgs? with
    | some parent, some args => [.apply (.dotSelect parent "call") (.this :: args)]
    | _, _ => []
  let body : Tree := .ofStatements (ctor.beforeSuper ++ superCall ++ ctor.afterSuper)
  (context.prototypeLink linked name ctor.parent?).map (fun link =>
    .functionDef name ctor.params none body :: link ++ context.helperDefinition linked name ++
      members)

/-- The definition of a class from its constructor, its members and its exported members. -/
def fullClass (context : Context) (linked : LinkedClass) (ctor : ConstructorParts)
    (members : List Tree) (exported : List (List Tree)) : Tracked (List Tree) :=
  let allMembers := members ++ exported.flatten
  if context.config.classSyntax then
    pure [classSyntaxDefinition (context.naming.classConstructor linked.name) ctor allMembers]
  else context.prototypeDefinition linked ctor allMembers

/-- An exported method. -/
def exportedMethod (context : Context) (linked : LinkedClass) (name : String) (isStatic : Bool)
    (params : List String) (body : Tree) : List Tree :=
  if context.config.classSyntax then
    [.methodDef isStatic (context.propName name) params none body]
  else
    [.assign (context.propSelect (context.memberTarget linked isStatic) name)
      (.function params body)]

/-- An exported property with class syntax. -/
def exportedAccessors (context : Context) (name : String) (isStatic : Bool)
    (getter? : Option Tree) (setter? : Option (String × Tree)) : List Tree :=
  (getter?.map (fun body => .getterDef isStatic (context.propName name) body)).toList ++
  (setter?.map (fun setter =>
    .setterDef isStatic (context.propName name) setter.1 setter.2)).toList

/-- The description of an exported property without class syntax. -/
def propertyDescriptor (getter? : Option Tree) (setter? : Option (String × Tree)) : Tree :=
  .objectLiteral (
    (getter?.map (fun body => .mk (.ident "get") (.function [] body))).toList ++
    (setter?.map (fun setter =>
      .mk (.ident "set") (.function [setter.1] setter.2))).toList ++
    [.mk (.ident "configurable") (.bool true)])

/-- The definition of an exported property without class syntax. -/
def definedProperty (context : Context) (linked : LinkedClass) (name : String) (isStatic : Bool)
    (getter? : Option Tree) (setter? : Option (String × Tree)) : Tracked (List Tree) :=
  (context.hostRef "Object").map (fun object =>
    [.apply (.dotSelect object "defineProperty")
      [context.memberTarget linked isStatic, .str name, propertyDescriptor getter? setter?]])

/-- The body of a getter, if there is one. -/
def lowerGetter (context : Context) (scope : Scope) : Option Expr → Tracked (Option Tree)
  | some body => (context.lower scope body).map some
  | none => pure none

/-- The parameter and the body of a setter, if there is one. -/
def lowerSetter (context : Context) (scope : Scope) :
    Option (String × Expr) → Tracked (Option (String × Tree))
  | some (param, body) => (context.lower scope body).map (fun tree => some (param, tree))
  | none => pure none

/-- A member exported under a name that the host sees. Only foreign classes have static ones. -/
def exportedMember (context : Context) (linked : LinkedClass) (member : ExportedMember) :
    Tracked (List Tree) := do
  let scope ← context.memberScope linked
  match member with
  | .method name isStatic params body =>
    let tree ← context.lower scope body
    return context.exportedMethod linked name (isStatic && linked.kind.isJsClass) params tree
  | .property name isStatic getter setter =>
    let isStatic := isStatic && linked.kind.isJsClass
    let getter? ← context.lowerGetter scope getter
    let setter? ← context.lowerSetter scope setter
    if context.config.classSyntax then
      return context.exportedAccessors name isStatic getter? setter?
    else context.definedProperty linked name isStatic getter? setter?

end Context

end JsEmitter.Lowering
