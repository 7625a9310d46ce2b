import JsEmitter.Js.Tree

/-!
# Walking a tree

`Tree.visited` lists a tree and its subtrees, parents before children. Of the names of
properties it enters only the computed names of methods.
-/
namespace JsEmitter.Js.Tree

mutual

/-- The tree and its subtrees, parents first. -/
def visited : Tree → List Tree
  | tree@(block statements) => tree :: visitedAll statements
  | tree@(varDef _ _ value?) => tree :: visitedOption value?
  | tree@(functionDef _ _ _ body) | tree@(function _ body) | tree@(getterDef _ _ body)
  | tree@(setterDef _ _ _ body) => tree :: visited body
  | tree@(methodDef _ name _ _ body) => tree :: (visitedName name ++ visited body)
  | tree@(classDef _ parent? members) => tree :: (visitedOption parent? ++ visitedAll members)
  | tree@(assign left right) | tree@(binary _ left right) | tree@(bracketSelect left right) =>
    tree :: (visited left ++ visited right)
  | tree@(ret inner) | tree@(raise inner) | tree@(spread inner) | tree@(unary _ inner)
  | tree@(dotSelect inner _) => tree :: visited inner
  | tree@(branch cond thenBranch elseBranch) =>
    tree :: (visited cond ++ visited thenBranch ++ visited elseBranch)
  | tree@(apply callee args) | tree@(new callee args) =>
    tree :: (visited callee ++ visitedAll args)
  | tree@(objectLiteral properties) => tree :: visitedProperties properties
  | tree => [tree]

/-- The trees of a list and their subtrees. -/
def visitedAll : List Tree → List Tree
  | [] => []
  | head :: rest => visited head ++ visitedAll rest

/-- The tree, if there is one, and its subtrees. -/
def visitedOption : Option Tree → List Tree
  | none => []
  | some tree => visited tree

/-- The tree of a computed name and its subtrees. -/
def visitedName : PropName → List Tree
  | .computed tree => visited tree
  | _ => []

/-- The values of properties and their subtrees. -/
def visitedProperties : List Property → List Tree
  | [] => []
  | .mk _ value :: rest => visited value ++ visitedProperties rest

end

/-- Whether a tree is a reference to a variable of a given name. -/
def isReferenceTo (name : String) : Tree → Bool
  | varRef other => other = name
  | _ => false

/-- Whether a variable reference that the walk visits has a given name. -/
def references (tree : Tree) (name : String) : Bool := tree.visited.any (isReferenceTo name)

/-- The name of the shape of a tree. -/
def shape : Tree → String
  | skip => "Skip"
  | block .. => "Block"
  | varDef .. => "VarDef"
  | functionDef .. => "FunctionDef"
  | function .. => "Function"
  | classDef .. => "ClassDef"
  | methodDef .. => "MethodDef"
  | getterDef .. => "GetterDef"
  | setterDef .. => "SetterDef"
  | assign .. => "Assign"
  | ret .. => "Return"
  | branch .. => "If"
  | raise .. => "Throw"
  | varRef .. => "VarRef"
  | this => "This"
  | super => "Super"
  | undefined => "Undefined"
  | null => "Null"
  | bool .. => "Bool"
  | int .. => "Int"
  | double .. => "Double"
  | str .. => "Str"
  | dotSelect .. => "DotSelect"
  | bracketSelect .. => "BracketSelect"
  | apply .. => "Apply"
  | new .. => "New"
  | spread .. => "Spread"
  | unary .. => "Unary"
  | binary .. => "Binary"
  | objectLiteral .. => "ObjectConstr"
  | importNamespace .. => "ImportNamespace"
  | exportNames .. => "Export"

end JsEmitter.Js.Tree
