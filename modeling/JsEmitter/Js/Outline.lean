import JsEmitter.Js.Walk
import JsEmitter.Text.Quoted

/-!
# Outlines

One line that says what a statement is: what it declares, what it assigns to, what it calls, or
else the name of its shape.
-/
namespace JsEmitter.Js.Tree

/-- A chain of selections as text, with a question mark for anything else. -/
def path : Tree → String
  | varRef name => name
  | this => "this"
  | dotSelect qualifier item => path qualifier ++ "." ++ item
  | bracketSelect qualifier (str text) => path qualifier ++ "[" ++ Text.quoted text ++ "]"
  | bracketSelect qualifier _ => path qualifier ++ "[?]"
  | _ => "?"

/-- One line about a statement. -/
def outline : Tree → String
  | varDef kind name _ => kind.keyword ++ " " ++ name
  | functionDef name _ _ _ => "function " ++ name
  | classDef name _ members =>
    "class " ++ name ++ " (" ++ toString members.length ++ " members)"
  | importNamespace binding source => "import " ++ binding ++ " from " ++ Text.quoted source
  | exportNames names => "export \x7b" ++ ", ".intercalate (names.map Prod.snd) ++ "\x7d"
  | assign target _ => target.path ++ " = ..."
  | apply callee _ => callee.path ++ "(...)"
  | block statements => "\x7b " ++ toString statements.length ++ " statements \x7d"
  | tree => tree.shape

end JsEmitter.Js.Tree
