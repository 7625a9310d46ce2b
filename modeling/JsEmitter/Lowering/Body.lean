import JsEmitter.Lowering.Context

/-!
# Lowering of bodies

An expression becomes a tree, with the host names that it uses. Lowering goes by the shape of the
expression alone; what it depends on besides is the context, the receiver that `this` stands for,
and the parent that super calls go to.
-/
namespace JsEmitter.Lowering

open Js (Tree DeclKind PropName Property)

/-- What a body refers to without naming it. -/
structure Scope where
  /-- What `this` stands for. -/
  receiver : Tree
  /-- The constructor of the parent class. -/
  parent? : Option Tree
  /-- Whether `super` can be written for the parent. -/
  usesSuper : Bool

/-- The scope of a body with `this` as receiver and without a parent. -/
def Scope.plain : Scope := ⟨.this, none, false⟩

namespace Context

/-- A native class, found by its path from an import or from the global scope. Without a module
system, what would be imported is looked up in the global scope. -/
def loadNative (context : Context) (owner : ClassName) : Tracked Tree :=
  let fromGlobal (path : List String) : Tracked Tree :=
    match path with
    | first :: rest => (context.hostRef first).map (rest.foldl context.propSelect)
    | [] => context.hostRef "globalThis"
  match context.index.nativeLoadSpec? owner with
  | some (.fromModule source path) =>
    if context.config.moduleKind = .script then fromGlobal path
    else pure (path.foldl context.propSelect (.varRef (context.naming.externalImport source)))
  | some (.fromGlobal path) => fromGlobal path
  | none => pure (context.classRef owner)

/-- The constructor of a foreign class. -/
def loadJsConstructor (context : Context) (owner : ClassName) : Tracked Tree :=
  if context.index.kind? owner = some .nativeJsClass then context.loadNative owner
  else pure (context.classRef owner)

/-- A reference to an instance test or cast; those of the root class are in the bootstrap
library. -/
def typeTestRef (context : Context) (owner : ClassName) (name : String) : Tree :=
  if owner.isRoot then context.rootModuleRef name else context.classMemberRef owner name

/-- A reference to the free function of a method. -/
def functionRef (context : Context) (home : MemberNamespace) (owner : ClassName)
    (method : MethodName) : Tree :=
  context.classMemberRef owner (context.naming.freeFunction home owner method)

/-- The creation of an instance with lowered arguments. -/
def newInstance (context : Context) (owner : ClassName) (ctor : MethodName) (args : List Tree) :
    Tracked Tree :=
  let direct : Tree := .new (context.classRef owner) args
  let initialized : Tree :=
    .apply (context.functionRef .constructor owner ctor) (.new (context.classRef owner) [] :: args)
  match context.index.kind? owner with
  | some .jsClass | some .jsModuleClass => pure direct
  | some .nativeJsClass => (context.loadNative owner).map (fun loaded => .new loaded args)
  | _ => pure (if context.index.inlinesConstructor owner then direct else initialized)

/-- The call of the parent implementation of a method with lowered arguments. -/
def superCall (context : Context) (scope : Scope) (method : MethodName) (args : List Tree) : Tree :=
  let property := Naming.methodProperty method
  if scope.usesSuper then .apply (.dotSelect .super property) args
  else
    let parent := scope.parent?.getD (context.classRef .root)
    .apply (.dotSelect (.dotSelect (.dotSelect parent "prototype") property) "call")
      (scope.receiver :: args)

/-- The test whether a lowered value is an instance of a class. -/
def instanceTest (context : Context) (owner : ClassName) (value : Tree) : Tree :=
  match owner.primitiveType? with
  | some typeName => .binary "===" (.unary "typeof" value) (.str typeName)
  | none => .apply (context.typeTestRef owner (context.naming.instanceTest owner)) [value]

/-- A constant. -/
def literal : Literal → Tree
  | .undefined => .undefined
  | .null => .null
  | .boolean value => .bool value
  | .int value => .int value
  | .double value => .double value
  | .string value => .str value

mutual

/-- The tree of an expression. -/
def lower (context : Context) (scope : Scope) : Expr → Tracked Tree
  | .skip => pure .skip
  | .block statements => do return .ofStatements (← lowerAll context scope statements)
  | .varDef name value => do
    return .varDef context.variableKind name (some (← lower context scope value))
  | .assign target value => do
    return .assign (← lower context scope target) (← lower context scope value)
  | .ret value => do return .ret (← lower context scope value)
  | .branch cond thenBranch elseBranch? => do
    return .branch (← lower context scope cond) (← lower context scope thenBranch)
      (← lowerElse context scope elseBranch?)
  | .raise value => do return .raise (← lower context scope value)
  | .literal value => pure (literal value)
  | .this => pure scope.receiver
  | .localVar name => pure (.varRef name)
  | .globalRef name => context.hostRef name
  | .apply receiver method args => do
    return .apply (.dotSelect (← lower context scope receiver) (Naming.methodProperty method))
      (← lowerAll context scope args)
  | .applyStatic owner method args => do
    return .apply (context.functionRef .staticPublic owner method)
      (← lowerAll context scope args)
  | .applySuper method args => do
    return context.superCall scope method (← lowerAll context scope args)
  | .applyConstructor owner ctor args => do
    return .apply (context.functionRef .constructor owner ctor)
      (scope.receiver :: (← lowerAll context scope args))
  | .new owner ctor args => do
    context.newInstance owner ctor (← lowerAll context scope args)
  | .loadModule owner =>
    pure (.apply (context.classMemberRef owner (context.naming.moduleAccessor owner)) [])
  | .loadJsConstructor owner => context.loadJsConstructor owner
  | .select qualifier field => do
    return .dotSelect (← lower context scope qualifier) (Naming.fieldProperty field)
  | .selectStatic owner field =>
    pure (context.classMemberRef owner (context.naming.staticField owner field))
  | .jsSelect qualifier property => do
    return context.propSelect (← lower context scope qualifier) property
  | .jsCall function args => do
    return .apply (← lower context scope function) (← lowerAll context scope args)
  | .unary operator arg => do return .unary operator (← lower context scope arg)
  | .binary operator left right => do
    return .binary operator (← lower context scope left) (← lower context scope right)
  | .isInstanceOf value owner => do
    return context.instanceTest owner (← lower context scope value)
  | .asInstanceOf value owner => do
    return .apply (context.typeTestRef owner (context.naming.instanceCast owner))
      [← lower context scope value]

/-- The trees of a list of expressions. -/
def lowerAll (context : Context) (scope : Scope) : List Expr → Tracked (List Tree)
  | [] => pure []
  | head :: rest => do
    return (← lower context scope head) :: (← lowerAll context scope rest)

/-- The tree of the second branch, empty if there is none. -/
def lowerElse (context : Context) (scope : Scope) : Option Expr → Tracked Tree
  | none => pure .skip
  | some expr => lower context scope expr

end

end Context

end JsEmitter.Lowering
