import JsEmitter.Js.TreeJson
import JsEmitter.Linked.ExprJson

/-!
# Trees from JSON

Reading takes the form in which trees are written. Members that a shape does not have are
ignored.
-/
namespace JsEmitter.Js

/-- A kind of declaration from JSON. -/
def DeclKind.ofJson? (json : Json) : Option DeclKind :=
  json.unitVariant? [("Var", functionScoped), ("Let", blockScoped), ("Const", constant)]

namespace Tree

/-- The tree shapes without parts. -/
def unitVariants : List (String × Tree) :=
  [("Skip", skip), ("This", this), ("Super", super), ("Undefined", undefined), ("Null", null)]

/-- A local name with the name under which it is exported. -/
def exportedName? : Json → Option (String × String)
  | .arr [inner, outer] => return (← inner.string?, ← outer.string?)
  | _ => none

/-- A tree from JSON. -/
def ofJson? (json : Json) : Option Tree :=
  match json with
  | .obj [(shape, body)] =>
    let tree (key : String) : Option Tree := do
      let inner ← body.member? key
      ofJson? inner.1
    let tree? (key : String) : Option (Option Tree) := do
      match ← body.optionalMember? key with
      | none => some none
      | some inner => (ofJson? inner.1).map some
    let trees (list : { value : Json // sizeOf value ≤ sizeOf body }) : Option (List Tree) := do
      let elements ← list.1.elements?
      elements.mapM (fun element => ofJson? element.1)
    let treesAt (key : String) : Option (List Tree) := do
      let inner ← body.member? key
      trees ⟨inner.1, Nat.le_of_lt inner.2⟩
    let propName (name : { value : Json // sizeOf value < sizeOf body }) : Option PropName := do
      match ← name.1.tagged? with
      | ("Ident", ident) => ident.1.string?.map .ident
      | ("Str", text) => text.1.string?.map .str
      | ("Computed", computed) => (ofJson? computed.1).map .computed
      | _ => none
    let property (pair : { value : Json // sizeOf value < sizeOf body }) : Option Property := do
      let (name, value) ← pair.1.pair?
      return .mk (← propName ⟨name.1, Nat.lt_trans name.2 pair.2⟩) (← ofJson? value.1)
    let name : Option PropName := do
      let inner ← body.member? "name"
      propName inner
    let text (key : String) : Option String := body.required? key Json.string?
    let params : Option (List String) := body.required? "params" Json.strings?
    let rest : Option (Option String) := body.optional? "rest" Json.string?
    let isStatic : Option Bool := body.required? "is_static" Json.bool?
    match shape with
    | "Block" => return block (← trees ⟨body, Nat.le_refl _⟩)
    | "VarDef" => do
      let kind ← body.required? "kind" DeclKind.ofJson?
      return varDef kind (← text "name") (← tree? "rhs")
    | "FunctionDef" => return functionDef (← text "name") (← params) (← rest) (← tree "body")
    | "Function" => return function (← params) (← tree "body")
    | "ClassDef" => return classDef (← text "name") (← tree? "parent") (← treesAt "members")
    | "MethodDef" =>
      return methodDef (← isStatic) (← name) (← params) (← rest) (← tree "body")
    | "GetterDef" => return getterDef (← isStatic) (← name) (← tree "body")
    | "SetterDef" => return setterDef (← isStatic) (← name) (← text "param") (← tree "body")
    | "Assign" => return assign (← tree "lhs") (← tree "rhs")
    | "Return" => return ret (← ofJson? body)
    | "If" => return branch (← tree "cond") (← tree "then_branch") (← tree "else_branch")
    | "Throw" => return raise (← ofJson? body)
    | "VarRef" => return varRef (← body.string?)
    | "Bool" => return bool (← body.bool?)
    | "Int" => return int (← body.int32?)
    | "Double" => return double (← body.double?)
    | "Str" => return str (← body.string?)
    | "DotSelect" => return dotSelect (← tree "qualifier") (← text "item")
    | "BracketSelect" => return bracketSelect (← tree "qualifier") (← tree "item")
    | "Apply" => return apply (← tree "fun") (← treesAt "args")
    | "New" => return new (← tree "ctor") (← treesAt "args")
    | "Spread" => return spread (← ofJson? body)
    | "Unary" => return unary (← text "op") (← tree "arg")
    | "Binary" => return binary (← text "op") (← tree "lhs") (← tree "rhs")
    | "ObjectConstr" => do
      let elements ← body.elements?
      return objectLiteral (← elements.mapM property)
    | "ImportNamespace" => return importNamespace (← text "binding") (← text "from")
    | "Export" => return exportNames (← body.listOf? exportedName?)
    | _ => json.unitVariant? unitVariants
  | _ => json.unitVariant? unitVariants
termination_by sizeOf json
decreasing_by
  all_goals simp only [Json.obj.sizeOf_spec, List.cons.sizeOf_spec, Prod.mk.sizeOf_spec]
  all_goals omega

end Tree

end JsEmitter.Js
