import JsEmitter.Lowering.ClassParts

/-!
# Support definitions of a class

What stands around a class definition: the instance test and the cast, the type data, the
instance of a singleton with its accessor, the static fields, and the call of the static
initializer.
-/
namespace JsEmitter.Lowering

open Js (Tree DeclKind PropName Property)

namespace Context

/-- The property of the ancestors in type data. -/
def ancestorsProperty : String := "ancestors"

/-- Whether a value is an instance of a class, by its host type or by its type data. -/
def isInstanceExpr (owner : ClassName) (value : Tree) : Tree :=
  match owner.primitiveType? with
  | some typeName => .binary "===" (.unary "typeof" value) (.str typeName)
  | none =>
    let typeData : Tree := .dotSelect value typeDataProperty
    .unary "!!" (.binary "&&" (.binary "&&" value typeData)
      (.dotSelect (.dotSelect typeData ancestorsProperty) owner.encoded))

/-- The functions that test for a class and cast to it. -/
def instanceTests (context : Context) (linked : LinkedClass) : List Tree :=
  let value : Tree := .varRef "x"
  let test := context.naming.instanceTest linked.name
  let accepted : Tree :=
    .binary "||" (.apply (.varRef test) [value]) (.binary "===" value .null)
  let refused : Tree :=
    .apply (context.bootstrapRef "throwClassCastException") [value, .str linked.name.text]
  [.functionDef test ["x"] none (.ret (isInstanceExpr linked.name value)),
    .functionDef (context.naming.instanceCast linked.name) ["x"] none
      (.branch accepted (.ret value) refused)]

/-- New type data with a name, whether it is of an interface, and the ancestors. -/
def classTypeData (constructor : Tree) (owner : ClassName) (isInterface : Bool)
    (ancestors : List ClassName) : Tree :=
  .apply (.dotSelect (.new constructor []) "initClass")
    [.str owner.text, .bool isInterface,
      .objectLiteral (ancestors.map (fun ancestor => .mk (.ident ancestor.encoded) (.int 1)))]

/-- The type data of a class, and its link from the instances of an ordinary class. -/
def typeData (context : Context) (linked : LinkedClass) : List Tree :=
  let name := context.naming.typeData linked.name
  let value := classTypeData (context.bootstrapRef "TypeData") linked.name
    (linked.kind = .interface) linked.ancestors
  let link : List Tree :=
    if linked.kind.isClass && linked.hasInstances then
      [.assign (.dotSelect (context.memberTarget linked false) typeDataProperty) (.varRef name)]
    else []
  .varDef context.constantKind name (some value) :: link

/-- The constructor that makes the instance of a singleton. -/
def accessorConstructor (linked : LinkedClass) : MethodName :=
  (linked.constructors.head?.map (fun ctor => ctor.value.name)).getD ⟨"init___"⟩

/-- The variable of the instance of a singleton, and the function that makes it on first use. -/
def moduleAccessor (context : Context) (linked : LinkedClass) : Tracked (List Tree) :=
  let instanceName := context.naming.moduleInstance linked.name
  let holder : Tree := .varRef instanceName
  (context.newInstance linked.name (accessorConstructor linked) []).map (fun created =>
    [.varDef context.variableKind instanceName none,
      .functionDef (context.naming.moduleAccessor linked.name) [] none
        (.ofStatements
          [.branch (.unary "!" holder) (.assign holder created) .skip, .ret holder])])

/-- The variables of the static fields with their zero values. -/
def staticFields (context : Context) (linked : LinkedClass) : List Tree :=
  linked.staticFields.map (fun field =>
    .varDef context.variableKind (context.naming.staticField linked.name field.name)
      (some (zeroValue field.type)))

/-- The call of the static initializer, if there is one. -/
def staticInitializers (context : Context) (linked : LinkedClass) : List Tree :=
  (linked.staticInitializer?.map (fun method =>
    .apply (.varRef (context.naming.freeFunction .staticConstructor linked.name
      method.value.name)) [])).toList

end Context

end JsEmitter.Lowering
