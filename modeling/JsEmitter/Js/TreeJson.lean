import JsEmitter.Js.Walk
import JsEmitter.Json

/-!
# JSON form of trees

A tree is an object with one member, named for its shape; shapes without parts are strings.
-/
namespace JsEmitter.Js

/-- A kind of declaration as JSON. -/
def DeclKind.toJson : DeclKind → Json
  | functionScoped => .str "Var"
  | blockScoped => .str "Let"
  | constant => .str "Const"

namespace Tree

/-- Names as an array of strings. -/
def namesToJson (names : List String) : Json := .ofList .str names

/-- A name as a string, or `null` for none. -/
def nameToJson (name? : Option String) : Json := .ofOption .str name?

mutual

/-- A tree as JSON. -/
def toJson : Tree → Json
  | skip => .str "Skip"
  | this => .str "This"
  | super => .str "Super"
  | undefined => .str "Undefined"
  | null => .str "Null"
  | block statements => .obj [("Block", .arr (toJsonAll statements))]
  | varDef kind name value? =>
    .obj [("VarDef", .obj [("kind", kind.toJson), ("name", .str name),
      ("rhs", toJsonOption value?)])]
  | functionDef name params rest? body =>
    .obj [("FunctionDef", .obj [("name", .str name), ("params", namesToJson params),
      ("rest", nameToJson rest?), ("body", toJson body)])]
  | function params body =>
    .obj [("Function", .obj [("params", namesToJson params), ("body", toJson body)])]
  | classDef name parent? members =>
    .obj [("ClassDef", .obj [("name", .str name), ("parent", toJsonOption parent?),
      ("members", .arr (toJsonAll members))])]
  | methodDef isStatic name params rest? body =>
    .obj [("MethodDef", .obj [("is_static", .bool isStatic), ("name", propNameToJson name),
      ("params", namesToJson params), ("rest", nameToJson rest?), ("body", toJson body)])]
  | getterDef isStatic name body =>
    .obj [("GetterDef", .obj [("is_static", .bool isStatic), ("name", propNameToJson name),
      ("body", toJson body)])]
  | setterDef isStatic name param body =>
    .obj [("SetterDef", .obj [("is_static", .bool isStatic), ("name", propNameToJson name),
      ("param", .str param), ("body", toJson body)])]
  | assign target value =>
    .obj [("Assign", .obj [("lhs", toJson target), ("rhs", toJson value)])]
  | ret value => .obj [("Return", toJson value)]
  | branch cond thenBranch elseBranch =>
    .obj [("If", .obj [("cond", toJson cond), ("then_branch", toJson thenBranch),
      ("else_branch", toJson elseBranch)])]
  | raise value => .obj [("Throw", toJson value)]
  | varRef name => .obj [("VarRef", .str name)]
  | bool value => .obj [("Bool", .bool value)]
  | int value => .obj [("Int", .int value.toInt)]
  | double value => .obj [("Double", .double value)]
  | str value => .obj [("Str", .str value)]
  | dotSelect qualifier item =>
    .obj [("DotSelect", .obj [("qualifier", toJson qualifier), ("item", .str item)])]
  | bracketSelect qualifier item =>
    .obj [("BracketSelect", .obj [("qualifier", toJson qualifier), ("item", toJson item)])]
  | apply callee args =>
    .obj [("Apply", .obj [("fun", toJson callee), ("args", .arr (toJsonAll args))])]
  | new ctor args =>
    .obj [("New", .obj [("ctor", toJson ctor), ("args", .arr (toJsonAll args))])]
  | spread value => .obj [("Spread", toJson value)]
  | unary operator arg => .obj [("Unary", .obj [("op", .str operator), ("arg", toJson arg)])]
  | binary operator left right =>
    .obj [("Binary", .obj [("op", .str operator), ("lhs", toJson left), ("rhs", toJson right)])]
  | objectLiteral properties => .obj [("ObjectConstr", .arr (propertiesToJson properties))]
  | importNamespace binding source =>
    .obj [("ImportNamespace", .obj [("binding", .str binding), ("from", .str source)])]
  | exportNames names =>
    .obj [("Export", .ofList (fun (inner, outer) => .arr [.str inner, .str outer]) names)]

/-- Trees as JSON. -/
def toJsonAll : List Tree → List Json
  | [] => []
  | head :: rest => toJson head :: toJsonAll rest

/-- A tree as JSON, or `null` for none. -/
def toJsonOption : Option Tree → Json
  | none => .null
  | some tree => toJson tree

/-- The name of a property as JSON. -/
def propNameToJson : PropName → Json
  | .ident name => .obj [("Ident", .str name)]
  | .str text => .obj [("Str", .str text)]
  | .computed tree => .obj [("Computed", toJson tree)]

/-- Properties as pairs of a name and a value. -/
def propertiesToJson : List Property → List Json
  | [] => []
  | .mk name value :: rest => .arr [propNameToJson name, toJson value] :: propertiesToJson rest

end

/-- A list of trees as a JSON array. -/
def listToJson (trees : List Tree) : Json := .arr (toJsonAll trees)

end Tree

end JsEmitter.Js
