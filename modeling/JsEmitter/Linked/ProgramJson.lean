import JsEmitter.Json.Reading
import JsEmitter.Linked.ClassJson
import JsEmitter.Linked.Layout
import JsEmitter.Linked.Program

/-!
# JSON form of programs

A program is an object with the list of its modules. Dependencies are read from arrays in any
order, repetitions included, and are written in increasing order.
-/
namespace JsEmitter

namespace ExportKind

/-- What a module exports as JSON. -/
def toJson : ExportKind → Json
  | method params body =>
    .obj [("method", .obj [("params", .ofStrings params), ("body", body.toJson)])]
  | singleton owner => .obj [("module", .obj [("class", .ofName owner)])]
  | jsClass owner => .obj [("js_class", .obj [("class", .ofName owner)])]
  | field owner name =>
    .obj [("field", .obj [("class", .ofName owner), ("field", .ofName name)])]

/-- What a module exports from JSON. -/
def ofJson? : Json → Option ExportKind
  | .obj [("method", body)] =>
    return method (← body.listMember? "params" Json.string?)
      (← body.required? "body" Expr.ofJson?)
  | .obj [("module", body)] => return singleton (← body.required? "class" Json.name?)
  | .obj [("js_class", body)] => return jsClass (← body.required? "class" Json.name?)
  | .obj [("field", body)] =>
    return field (← body.required? "class" Json.name?) (← body.required? "field" Json.name?)
  | _ => none

end ExportKind

namespace TopLevelExport

/-- An export as JSON. -/
def toJson (entry : TopLevelExport) : Json :=
  .obj [("export_name", .str entry.name), ("kind", entry.kind.toJson),
    ("version", entry.version.toJson)]

/-- An export from JSON. -/
def ofJson? (json : Json) : Option TopLevelExport :=
  return {
    name := ← json.required? "export_name" Json.string?
    kind := ← json.required? "kind" ExportKind.ofJson?
    version := ← Version.member? json "version" }

end TopLevelExport

namespace Initializer

/-- A call at load time as JSON. -/
def toJson (call : Initializer) : Json :=
  .obj [("class", .ofName call.owner), ("method", .ofName call.method)]

/-- A call at load time from JSON. -/
def ofJson? (json : Json) : Option Initializer :=
  return {
    owner := ← json.required? "class" Json.name?
    method := ← json.required? "method" Json.name? }

end Initializer

namespace Module

/-- A module as JSON. -/
def toJson (unit : Module) : Json :=
  .obj [
    ("id", .ofName unit.id),
    ("classes", .ofList LinkedClass.toJson unit.classes),
    ("external_dependencies", .ofStrings unit.externalDependencies.toList),
    ("internal_dependencies", .ofList .ofName unit.internalDependencies.toList),
    ("top_level_exports", .ofList TopLevelExport.toJson unit.topLevelExports),
    ("initializers", .ofList Initializer.toJson unit.initializers),
    ("initializers_version", unit.initializersVersion.toJson),
    ("is_root", .bool unit.isRoot)]

/-- A module from JSON. -/
def ofJson? (json : Json) : Option Module :=
  return {
    id := ← json.required? "id" Json.name?
    classes := ← json.listMember? "classes" LinkedClass.ofJson?
    externalDependencies := .ofList (← json.listMember? "external_dependencies" Json.string?)
    internalDependencies := .ofList (← json.listMember? "internal_dependencies" Json.name?)
    topLevelExports := ← json.listMember? "top_level_exports" TopLevelExport.ofJson?
    initializers := ← json.listMember? "initializers" Initializer.ofJson?
    initializersVersion := ← Version.member? json "initializers_version"
    isRoot := ← json.flag? "is_root" }

end Module

namespace Program

/-- A program as JSON. -/
def toJson (program : Program) : Json :=
  .obj [("modules", .ofList Module.toJson program.modules)]

/-- A program from JSON. -/
def ofJson? (json : Json) : Option Program :=
  return ⟨← json.required? "modules" (Json.listOf? Module.ofJson?)⟩

/-- So many arrays and objects can be held inside each other in the text of a program. -/
def nestingLimit : Nat := 127

/-- A program from JSON text, in which records may be written as lists of their fields. -/
def read? (text : String) : Option Program :=
  (Json.read? nestingLimit text).bind (fun json => ofJson? (Layout.program.named json))

end Program

end JsEmitter
