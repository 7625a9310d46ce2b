import JsEmitter.ClassIndex
import JsEmitter.Lowering.Identifier
import JsEmitter.Config
import JsEmitter.Js.Tree
import JsEmitter.Naming

/-!
# Context of code generation

Everything that generation needs besides the part of the program that it lowers. A reference
to a definition of another module goes through the import of that module, unless everything is
one script.
-/
namespace JsEmitter.Lowering

open Js (Tree DeclKind PropName Property)

/-- What generation depends on besides the lowered part. -/
structure Context where
  config : Config
  naming : Naming
  index : ClassIndex
  filter : DangerFilter
  /-- The module that the generated code is for. -/
  home : ModuleId

namespace Context

/-- A reference to a name of the host, recorded if it is tracked. -/
def hostRef (context : Context) (name : String) : Tracked Tree :=
  ⟨.varRef name, if context.config.tracking.tracks context.filter name then .single name else ∅⟩

/-- A reference to a definition of a module. -/
def qualify (context : Context) (owner? : Option ModuleId) (name : String) : Tree :=
  match owner? with
  | some owner =>
    if owner ≠ context.home ∧ context.config.moduleKind ≠ .script then
      .dotSelect (.varRef (context.naming.internalImport owner)) name
    else .varRef name
  | none => .varRef name

/-- A reference to a definition that belongs to a class. -/
def classMemberRef (context : Context) (owner : ClassName) (name : String) : Tree :=
  context.qualify (context.index.owner? owner) name

/-- A reference to the constructor of a class. -/
def classRef (context : Context) (owner : ClassName) : Tree :=
  context.classMemberRef owner (context.naming.classConstructor owner)

/-- A reference to the function that shares the prototype of a class. -/
def helperRef (context : Context) (owner : ClassName) : Tree :=
  context.classMemberRef owner (context.naming.classHelper owner)

/-- A reference to a definition of the root module. -/
def rootModuleRef (context : Context) (name : String) : Tree :=
  context.qualify context.index.rootModule? name

/-- A reference to a definition of the bootstrap library. -/
def bootstrapRef (context : Context) (name : String) : Tree :=
  context.rootModuleRef (context.naming.bootstrap name)

/-- Whether a property name follows a dot. -/
def usesDot (context : Context) (property : String) : Bool :=
  context.config.dotSelects && isIdentifier property

/-- The selection of a property. -/
def propSelect (context : Context) (qualifier : Tree) (property : String) : Tree :=
  if context.usesDot property then .dotSelect qualifier property
  else .bracketSelect qualifier (.str property)

/-- The name of a property where it is defined. -/
def propName (context : Context) (property : String) : PropName :=
  if context.usesDot property then .ident property else .str property

/-- How variables are declared. -/
def variableKind (context : Context) : DeclKind :=
  if context.config.classSyntax then .blockScoped else .functionScoped

/-- How constants are declared. -/
def constantKind (context : Context) : DeclKind :=
  if context.config.classSyntax then .constant else .functionScoped

/-- Whether a class is the root throwable and extends the error type of the host. -/
def extendsHostError (context : Context) (linked : LinkedClass) : Bool :=
  linked.name.isThrowable && context.config.classSyntax && linked.kind = .plain

end Context

/-- The value of a field before it is assigned. -/
def zeroValue : FieldType → Tree
  | .int => .int 0
  | .double => .double .zero
  | .boolean => .bool false
  | .ref => .null

end JsEmitter.Lowering
