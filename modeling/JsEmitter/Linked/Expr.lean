import JsEmitter.Double
import JsEmitter.Name

/-!
# Expressions of the linked program

The bodies of methods and initializers. An expression names the classes, methods and fields it
uses; `Expr.classes` lists the classes, in the order in which they stand.
-/
namespace JsEmitter

/-- A constant. -/
inductive Literal where
  | undefined
  | null
  | boolean (value : Bool)
  | int (value : Int32)
  | double (value : Double)
  | string (value : String)
deriving DecidableEq

/-- An expression or statement of a body. -/
inductive Expr where
  | skip
  | block (statements : List Expr)
  | varDef (name : String) (value : Expr)
  | assign (target value : Expr)
  | ret (value : Expr)
  | branch (cond thenBranch : Expr) (elseBranch? : Option Expr)
  | raise (value : Expr)
  | literal (value : Literal)
  | this
  | localVar (name : String)
  /-- A free reference to a name of the host. -/
  | globalRef (name : String)
  /-- Dynamic dispatch on an instance. -/
  | apply (receiver : Expr) (method : MethodName) (args : List Expr)
  /-- Call of a public static method. -/
  | applyStatic (owner : ClassName) (method : MethodName) (args : List Expr)
  /-- Call of the implementation that the parent class has of a method, on the receiver. -/
  | applySuper (method : MethodName) (args : List Expr)
  /-- Call of a constructor on the receiver. -/
  | applyConstructor (owner : ClassName) (ctor : MethodName) (args : List Expr)
  | new (owner : ClassName) (ctor : MethodName) (args : List Expr)
  | loadModule (owner : ClassName)
  | loadJsConstructor (owner : ClassName)
  | select (qualifier : Expr) (field : FieldName)
  | selectStatic (owner : ClassName) (field : FieldName)
  | jsSelect (qualifier : Expr) (property : String)
  | jsCall (function : Expr) (args : List Expr)
  | unary (operator : String) (arg : Expr)
  | binary (operator : String) (left right : Expr)
  | isInstanceOf (value : Expr) (owner : ClassName)
  | asInstanceOf (value : Expr) (owner : ClassName)
deriving Inhabited

namespace Expr

mutual

/-- The classes that an expression names. -/
def classes : Expr → List ClassName
  | skip | literal _ | this | localVar _ | globalRef _ => []
  | block statements => classesOfAll statements
  | varDef _ value | ret value | raise value | unary _ value => classes value
  | select qualifier _ | jsSelect qualifier _ => classes qualifier
  | assign target value => classes target ++ classes value
  | branch cond thenBranch elseBranch? =>
    classes cond ++ classes thenBranch ++ classesOfOption elseBranch?
  | apply receiver _ args => classes receiver ++ classesOfAll args
  | applySuper _ args => classesOfAll args
  | applyStatic owner _ args | applyConstructor owner _ args | new owner _ args =>
    owner :: classesOfAll args
  | loadModule owner | loadJsConstructor owner | selectStatic owner _ => [owner]
  | jsCall function args => classes function ++ classesOfAll args
  | binary _ left right => classes left ++ classes right
  | isInstanceOf value owner | asInstanceOf value owner => owner :: classes value

/-- The classes that a list of expressions names. -/
def classesOfAll : List Expr → List ClassName
  | [] => []
  | head :: rest => classes head ++ classesOfAll rest

/-- The classes that an expression names, if there is one. -/
def classesOfOption : Option Expr → List ClassName
  | none => []
  | some expr => classes expr

end

/-- The classes of a list are those of its expressions in turn. -/
theorem classesOfAll_eq_flatMap (exprs : List Expr) :
    classesOfAll exprs = exprs.flatMap classes := by
  induction exprs with
  | nil => simp [classesOfAll]
  | cons head rest ih => simp [classesOfAll, ih]

end Expr

end JsEmitter
