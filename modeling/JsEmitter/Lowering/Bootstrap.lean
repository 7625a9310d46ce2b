import JsEmitter.Lowering.ClassSupport

/-!
# Bootstrap library

The definitions that all generated code relies on live in the root module, in three parts. What
the root class may call comes before it; type support that refers to the root class comes after
it; the type data of primitive types comes after all classes.
-/
namespace JsEmitter.Lowering

open Js (Tree DeclKind PropName Property)

/-- The bootstrap library in the parts that the root module puts at different places. -/
structure Bootstrap where
  beforeRoot : List Tree
  afterRoot : List Tree
  afterClasses : List Tree

/-- A primitive type: the end of its name, how it is shown, and its zero value. -/
structure PrimitiveType where
  suffix : String
  display : String
  zero : Tree

/-- The primitive types. -/
def primitiveTypes : List PrimitiveType := [
  ⟨"I", "int", .int 0⟩, ⟨"Z", "boolean", .bool false⟩, ⟨"D", "double", .double .zero⟩]

/-- A method of type data: its name, its parameters and its body. -/
structure TypeDataMethod where
  name : String
  params : List String
  body : Tree

/-- An assignment to a property of the receiver. -/
def setOwn (property : String) (value : Tree) : Tree := .assign (.dotSelect .this property) value

/-- What the constructor of type data does. -/
def typeDataConstructor : Tree := .ofStatements [
  setOwn "name" (.str ""),
  setOwn "isPrimitive" (.bool false),
  setOwn "isInterface" (.bool false),
  setOwn "zero" .null,
  setOwn "ancestors" .null]

/-- The methods of type data. -/
def typeDataMethods : List TypeDataMethod := [
  ⟨"initClass", ["name", "isInterface", "ancestors"], .ofStatements [
    setOwn "name" (.varRef "name"),
    setOwn "isInterface" (.varRef "isInterface"),
    setOwn "ancestors" (.varRef "ancestors"),
    .ret .this]⟩,
  ⟨"initPrim", ["name", "zero"], .ofStatements [
    setOwn "name" (.varRef "name"),
    setOwn "isPrimitive" (.bool true),
    setOwn "zero" (.varRef "zero"),
    setOwn "ancestors" (.objectLiteral []),
    .ret .this]⟩]

namespace Context

/-- The function that reports a failed cast. -/
def castFailure (context : Context) : Tracked Tree :=
  (context.hostRef "TypeError").map (fun typeError =>
    .functionDef (context.naming.bootstrap "throwClassCastException")
      ["instance", "classFullName"] none
      (.raise (.new typeError [.binary "+"
        (.binary "+" (.varRef "instance") (.str " is not an instance of "))
        (.varRef "classFullName")])))

/-- The name of the constructor of type data. -/
def typeDataName (context : Context) : String := context.naming.bootstrap "TypeData"

/-- The definition of type data. -/
def typeDataDefinition (context : Context) : List Tree :=
  if context.config.classSyntax then
    let constructor : Tree := .methodDef false (.ident "constructor") [] none typeDataConstructor
    [.classDef context.typeDataName none (constructor :: typeDataMethods.map (fun method =>
      .methodDef false (.ident method.name) method.params none method.body))]
  else
    .functionDef context.typeDataName [] none typeDataConstructor ::
      typeDataMethods.map (fun method =>
        .assign (.dotSelect (.dotSelect (.varRef context.typeDataName) "prototype") method.name)
          (.function method.params method.body))

/-- The instance test, the cast and the type data of the root class. -/
def rootSupport (context : Context) : List Tree :=
  [.functionDef (context.naming.instanceTest .root) ["x"] none
      (.ret (.binary "!==" (.varRef "x") .null)),
    .functionDef (context.naming.instanceCast .root) ["x"] none (.ret (.varRef "x")),
    .varDef context.constantKind (context.naming.typeData .root)
      (some (classTypeData (.varRef context.typeDataName) .root false [.root]))]

/-- The type data of a primitive type. -/
def primitiveTypeData (context : Context) (type : PrimitiveType) : Tree :=
  .varDef context.constantKind (context.naming.bootstrap ("d_" ++ type.suffix))
    (some (.apply (.dotSelect (.new (.varRef context.typeDataName) []) "initPrim")
      [.str type.display, type.zero]))

/-- The bootstrap library. -/
def bootstrap (context : Context) : Tracked Bootstrap :=
  context.castFailure.map (fun castFailure => {
    beforeRoot := [castFailure]
    afterRoot := context.typeDataDefinition ++ context.rootSupport
    afterClasses := primitiveTypes.map context.primitiveTypeData })

/-- The link from instances of the root class to its type data. -/
def rootTypeDataLink (context : Context) : Tree :=
  .assign
    (.dotSelect (.dotSelect (.varRef (context.naming.classConstructor .root)) "prototype")
      typeDataProperty)
    (.varRef (context.naming.typeData .root))

end Context

end JsEmitter.Lowering
