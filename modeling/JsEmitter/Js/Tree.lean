import JsEmitter.Double

/-!
# Syntax trees of the generated program

A small part of JavaScript, enough for everything that is generated. Blocks are built with
`Tree.ofStatements`, which drops empty statements and never nests a block directly in another.
-/
namespace JsEmitter.Js

/-- How a variable is declared. -/
inductive DeclKind where
  | functionScoped
  | blockScoped
  | constant
deriving DecidableEq, Repr, Inhabited

/-- The word that declares a variable. -/
def DeclKind.keyword : DeclKind → String
  | functionScoped => "var"
  | blockScoped => "let"
  | constant => "const"

mutual

/-- A statement or expression of the generated program. -/
inductive Tree where
  | skip
  | block (statements : List Tree)
  | varDef (kind : DeclKind) (name : String) (value? : Option Tree)
  | functionDef (name : String) (params : List String) (rest? : Option String) (body : Tree)
  /-- A function without a name. -/
  | function (params : List String) (body : Tree)
  | classDef (name : String) (parent? : Option Tree) (members : List Tree)
  | methodDef (isStatic : Bool) (name : PropName) (params : List String) (rest? : Option String)
    (body : Tree)
  | getterDef (isStatic : Bool) (name : PropName) (body : Tree)
  | setterDef (isStatic : Bool) (name : PropName) (param : String) (body : Tree)
  | assign (target value : Tree)
  | ret (value : Tree)
  | branch (cond thenBranch elseBranch : Tree)
  | raise (value : Tree)
  | varRef (name : String)
  | this
  | super
  | undefined
  | null
  | bool (value : Bool)
  | int (value : Int32)
  | double (value : Double)
  | str (value : String)
  | dotSelect (qualifier : Tree) (item : String)
  | bracketSelect (qualifier item : Tree)
  | apply (callee : Tree) (args : List Tree)
  | new (ctor : Tree) (args : List Tree)
  | spread (value : Tree)
  | unary (operator : String) (arg : Tree)
  | binary (operator : String) (left right : Tree)
  | objectLiteral (properties : List Property)
  /-- Import of a whole module under one name. -/
  | importNamespace (binding source : String)
  /-- Export of local names under names that other modules see. -/
  | exportNames (names : List (String × String))

/-- The name of a property in a class body or an object literal. -/
inductive PropName where
  | ident (name : String)
  | str (text : String)
  | computed (tree : Tree)

/-- A property of an object literal. -/
inductive Property where
  | mk (name : PropName) (value : Tree)

end

instance : Inhabited Tree := ⟨.skip⟩

namespace Tree

/-- What a statement contributes to the block it stands in: nothing if it is empty, and its
statements if it is a block. -/
def statements : Tree → List Tree
  | skip => []
  | block inner => inner
  | other => [other]

/-- The statement that does a list of statements: none, the only one, or a block. -/
def ofStatements (list : List Tree) : Tree :=
  match list.flatMap statements with
  | [] => skip
  | [only] => only
  | several => block several

/-- The name that a statement introduces at top level, if any. -/
def definedName? : Tree → Option String
  | varDef _ name _ | functionDef name _ _ _ | classDef name _ _ => some name
  | importNamespace binding _ => some binding
  | _ => none

/-- The names that statements introduce at top level, in order. -/
def definedNames (trees : List Tree) : List String := trees.filterMap definedName?

end Tree

end JsEmitter.Js
