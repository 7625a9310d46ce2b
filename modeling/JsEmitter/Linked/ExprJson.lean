import JsEmitter.Json
import JsEmitter.Linked.Expr

/-!
# JSON form of expressions

An expression is written as an object with one member, named for its shape; shapes without
parts are written as strings. Reading ignores members that a shape does not have. An object that
has one of the expected members twice is refused.
-/
namespace JsEmitter

namespace Json

/-- A name as a string. -/
def ofName {kind : NameKind} (name : Name kind) : Json := str name.text

/-- A name from a string. -/
def name? {kind : NameKind} (json : Json) : Option (Name kind) := json.string?.map Name.mk

/-- A list of strings. -/
def strings? (json : Json) : Option (List String) := json.listOf? string?

/-- A number written as a whole number of thirty-two bits. -/
def int32? (json : Json) : Option Int32 := do
  let value ← json.int?
  if Int32.minValue.toInt ≤ value ∧ value ≤ Int32.maxValue.toInt then some (.ofInt value) else none

end Json

namespace Literal

/-- A literal as JSON. -/
def toJson : Literal → Json
  | undefined => .str "undefined"
  | null => .str "null"
  | boolean value => .obj [("boolean", .bool value)]
  | int value => .obj [("int", .int value.toInt)]
  | double value => .obj [("double", .double value)]
  | string value => .obj [("string", .str value)]

/-- The literal shapes without parts. -/
def unitVariants : List (String × Literal) := [("undefined", undefined), ("null", null)]

/-- A literal from JSON. -/
def ofJson? (json : Json) : Option Literal :=
  match json with
  | .obj [("boolean", body)] => body.bool?.map boolean
  | .obj [("int", body)] => body.int32?.map int
  | .obj [("double", body)] => body.double?.map double
  | .obj [("string", body)] => body.string?.map string
  | _ => json.unitVariant? unitVariants

end Literal

namespace Expr

mutual

/-- An expression as JSON. -/
def toJson : Expr → Json
  | skip => .str "skip"
  | block statements => .obj [("block", .arr (toJsonAll statements))]
  | varDef name value => .obj [("var_def", .obj [("name", .str name), ("rhs", toJson value)])]
  | assign target value =>
    .obj [("assign", .obj [("lhs", toJson target), ("rhs", toJson value)])]
  | ret value => .obj [("return", toJson value)]
  | branch cond thenBranch elseBranch? =>
    .obj [("if", .obj [("cond", toJson cond), ("then_branch", toJson thenBranch),
      ("else_branch", toJsonOption elseBranch?)])]
  | raise value => .obj [("throw", toJson value)]
  | literal value => .obj [("literal", value.toJson)]
  | this => .str "this"
  | localVar name => .obj [("local", .str name)]
  | globalRef name => .obj [("global_ref", .str name)]
  | apply receiver method args =>
    .obj [("apply", .obj [("receiver", toJson receiver), ("method", .ofName method),
      ("args", .arr (toJsonAll args))])]
  | applyStatic owner method args =>
    .obj [("apply_static", .obj [("class", .ofName owner), ("method", .ofName method),
      ("args", .arr (toJsonAll args))])]
  | applySuper method args =>
    .obj [("apply_super", .obj [("method", .ofName method), ("args", .arr (toJsonAll args))])]
  | applyConstructor owner ctor args =>
    .obj [("apply_constructor", .obj [("class", .ofName owner), ("ctor", .ofName ctor),
      ("args", .arr (toJsonAll args))])]
  | new owner ctor args =>
    .obj [("new", .obj [("class", .ofName owner), ("ctor", .ofName ctor),
      ("args", .arr (toJsonAll args))])]
  | loadModule owner => .obj [("load_module", .ofName owner)]
  | loadJsConstructor owner => .obj [("load_js_constructor", .ofName owner)]
  | select qualifier field =>
    .obj [("select", .obj [("qualifier", toJson qualifier), ("field", .ofName field)])]
  | selectStatic owner field =>
    .obj [("select_static", .obj [("class", .ofName owner), ("field", .ofName field)])]
  | jsSelect qualifier property =>
    .obj [("js_select", .obj [("qualifier", toJson qualifier), ("property", .str property)])]
  | jsCall function args =>
    .obj [("js_call", .obj [("function", toJson function), ("args", .arr (toJsonAll args))])]
  | unary operator arg =>
    .obj [("unary_op", .obj [("op", .str operator), ("arg", toJson arg)])]
  | binary operator left right =>
    .obj [("binary_op", .obj [("op", .str operator), ("lhs", toJson left),
      ("rhs", toJson right)])]
  | isInstanceOf value owner =>
    .obj [("is_instance_of", .obj [("expr", toJson value), ("class", .ofName owner)])]
  | asInstanceOf value owner =>
    .obj [("as_instance_of", .obj [("expr", toJson value), ("class", .ofName owner)])]

/-- Expressions as JSON. -/
def toJsonAll : List Expr → List Json
  | [] => []
  | head :: rest => toJson head :: toJsonAll rest

/-- An expression as JSON, or `null` for none. -/
def toJsonOption : Option Expr → Json
  | none => .null
  | some expr => toJson expr

end

/-- The expression shapes without parts. -/
def unitVariants : List (String × Expr) := [("skip", skip), ("this", this)]

/-- An expression from JSON. -/
def ofJson? (json : Json) : Option Expr :=
  match json with
  | .obj [(shape, body)] =>
    let expr (key : String) : Option Expr := do
      let inner ← body.member? key
      ofJson? inner.1
    let exprs (list : { value : Json // sizeOf value ≤ sizeOf body }) : Option (List Expr) := do
      let elements ← list.1.elements?
      elements.mapM (fun element => ofJson? element.1)
    let args : Option (List Expr) := do
      let inner ← body.member? "args"
      exprs ⟨inner.1, Nat.le_of_lt inner.2⟩
    let text (key : String) : Option String := body.required? key Json.string?
    let owner : Option ClassName := body.required? "class" Json.name?
    let method (key : String) : Option MethodName := body.required? key Json.name?
    let field : Option FieldName := body.required? "field" Json.name?
    match shape with
    | "block" => return block (← exprs ⟨body, Nat.le_refl _⟩)
    | "var_def" => return varDef (← text "name") (← expr "rhs")
    | "assign" => return assign (← expr "lhs") (← expr "rhs")
    | "return" => return ret (← ofJson? body)
    | "if" => do
      let elseBranch? ← match ← body.optionalMember? "else_branch" with
        | none => pure none
        | some inner => (ofJson? inner.1).map some
      return branch (← expr "cond") (← expr "then_branch") elseBranch?
    | "throw" => return raise (← ofJson? body)
    | "literal" => return literal (← Literal.ofJson? body)
    | "local" => return localVar (← body.string?)
    | "global_ref" => return globalRef (← body.string?)
    | "apply" => return apply (← expr "receiver") (← method "method") (← args)
    | "apply_static" => return applyStatic (← owner) (← method "method") (← args)
    | "apply_super" => return applySuper (← method "method") (← args)
    | "apply_constructor" => return applyConstructor (← owner) (← method "ctor") (← args)
    | "new" => return new (← owner) (← method "ctor") (← args)
    | "load_module" => return loadModule (← body.name?)
    | "load_js_constructor" => return loadJsConstructor (← body.name?)
    | "select" => return select (← expr "qualifier") (← field)
    | "select_static" => return selectStatic (← owner) (← field)
    | "js_select" => return jsSelect (← expr "qualifier") (← text "property")
    | "js_call" => return jsCall (← expr "function") (← args)
    | "unary_op" => return unary (← text "op") (← expr "arg")
    | "binary_op" => return binary (← text "op") (← expr "lhs") (← expr "rhs")
    | "is_instance_of" => return isInstanceOf (← expr "expr") (← owner)
    | "as_instance_of" => return asInstanceOf (← expr "expr") (← owner)
    | _ => json.unitVariant? unitVariants
  | _ => json.unitVariant? unitVariants
termination_by sizeOf json
decreasing_by
  all_goals simp_wf
  · exact Nat.lt_of_lt_of_le inner.2 (by omega)
  · exact Nat.lt_of_lt_of_le element.2 (Nat.le_trans list.2 (by omega))
  · omega
  · exact Nat.lt_of_lt_of_le inner.2 (by omega)
  · omega

end Expr

end JsEmitter
