import JsEmitter.Linked.Class
import JsEmitter.Linked.ExprJson

/-!
# JSON form of classes

Classes and their parts are objects with one member for every field. Writing fills in every
member; reading accepts missing members that have a default and ignores members it does not
know. A missing or `null` version means that the part is unversioned.
-/
namespace JsEmitter

namespace Json

/-- A list of strings as an array. -/
def ofStrings (texts : List String) : Json := ofList str texts

/-- Read the member `key` as a list that is empty when the member is missing. -/
def listMember? {α : Type} (json : Json) (key : String) (read : Json → Option α) :
    Option (List α) := json.defaulted? key [] (listOf? read)

/-- Read the member `key` as a truth value that is false when the member is missing. -/
def flag? (json : Json) (key : String) : Option Bool := json.defaulted? key false bool?

end Json

namespace Version

/-- A version as a string, or `null` for none. -/
def toJson (version : Version) : Json := .ofOption .str version.token?

/-- A version from a string or `null`. -/
def ofJson? (json : Json) : Option Version := (json.nullable? Json.string?).map Version.mk

/-- Read the member `key` as a version; a missing member is unversioned. -/
def member? (json : Json) (key : String) : Option Version :=
  json.defaulted? key unversioned ofJson?

end Version

/-- The spelling of every kind of class. -/
def ClassKind.spellings : List (String × ClassKind) :=
  [("class", .plain), ("module_class", .moduleClass), ("interface", .interface),
    ("hijacked_class", .hijackedClass), ("js_class", .jsClass),
    ("js_module_class", .jsModuleClass), ("native_js_class", .nativeJsClass)]

/-- A kind of class as JSON. -/
def ClassKind.toJson : ClassKind → Json
  | plain => .str "class"
  | moduleClass => .str "module_class"
  | interface => .str "interface"
  | hijackedClass => .str "hijacked_class"
  | jsClass => .str "js_class"
  | jsModuleClass => .str "js_module_class"
  | nativeJsClass => .str "native_js_class"

/-- A kind of class from JSON. -/
def ClassKind.ofJson? (json : Json) : Option ClassKind := json.unitVariant? spellings

/-- The spelling of every namespace. -/
def MemberNamespace.spellings : List (String × MemberNamespace) :=
  [("public", .instancePublic), ("private", .instancePrivate), ("public_static", .staticPublic),
    ("private_static", .staticPrivate), ("constructor", .constructor),
    ("static_constructor", .staticConstructor)]

/-- A namespace as JSON. -/
def MemberNamespace.toJson : MemberNamespace → Json
  | instancePublic => .str "public"
  | instancePrivate => .str "private"
  | staticPublic => .str "public_static"
  | staticPrivate => .str "private_static"
  | constructor => .str "constructor"
  | staticConstructor => .str "static_constructor"

/-- A namespace from JSON. -/
def MemberNamespace.ofJson? (json : Json) : Option MemberNamespace := json.unitVariant? spellings

/-- The spelling of every field type. -/
def FieldType.spellings : List (String × FieldType) :=
  [("int", .int), ("double", .double), ("boolean", .boolean), ("ref", .ref)]

/-- A field type as JSON. -/
def FieldType.toJson : FieldType → Json
  | int => .str "int"
  | double => .str "double"
  | boolean => .str "boolean"
  | ref => .str "ref"

/-- A field type from JSON. -/
def FieldType.ofJson? (json : Json) : Option FieldType := json.unitVariant? spellings

namespace Versioned

variable {α : Type}

/-- A value with its version as JSON. -/
def toJson (write : α → Json) (versioned : Versioned α) : Json :=
  .obj [("value", write versioned.value), ("version", versioned.version.toJson)]

/-- A value with its version from JSON. -/
def ofJson? (read : Json → Option α) (json : Json) : Option (Versioned α) :=
  return ⟨← json.required? "value" read, ← Version.member? json "version"⟩

end Versioned

namespace MethodDef

/-- A method as JSON. -/
def toJson (method : MethodDef) : Json :=
  .obj [("name", .ofName method.name), ("namespace", method.home.toJson),
    ("params", .ofStrings method.params), ("body", method.body.toJson)]

/-- A method from JSON. -/
def ofJson? (json : Json) : Option MethodDef :=
  return {
    name := ← json.required? "name" Json.name?
    home := ← json.required? "namespace" MemberNamespace.ofJson?
    params := ← json.listMember? "params" Json.string?
    body := ← json.required? "body" Expr.ofJson? }

end MethodDef

namespace FieldDef

/-- A field as JSON. -/
def toJson (field : FieldDef) : Json :=
  .obj [("name", .ofName field.name), ("ty", field.type.toJson),
    ("is_static", .bool field.isStatic)]

/-- A field from JSON. -/
def ofJson? (json : Json) : Option FieldDef :=
  return {
    name := ← json.required? "name" Json.name?
    type := ← json.required? "ty" FieldType.ofJson?
    isStatic := ← json.flag? "is_static" }

end FieldDef

namespace JsConstructorDef

/-- A foreign constructor as JSON. -/
def toJson (ctor : JsConstructorDef) : Json :=
  .obj [("params", .ofStrings ctor.params), ("before_super", .ofList Expr.toJson ctor.beforeSuper),
    ("super_args", .ofList Expr.toJson ctor.superArgs),
    ("after_super", .ofList Expr.toJson ctor.afterSuper)]

/-- A foreign constructor from JSON. -/
def ofJson? (json : Json) : Option JsConstructorDef :=
  return {
    params := ← json.listMember? "params" Json.string?
    beforeSuper := ← json.listMember? "before_super" Expr.ofJson?
    superArgs := ← json.listMember? "super_args" Expr.ofJson?
    afterSuper := ← json.listMember? "after_super" Expr.ofJson? }

end JsConstructorDef

namespace ExportedMember

/-- A setter as a pair of its parameter and its body. -/
def setterToJson (setter : String × Expr) : Json := .arr [.str setter.1, setter.2.toJson]

/-- A setter from a pair. -/
def setterOfJson? : Json → Option (String × Expr)
  | .arr [param, body] => return (← param.string?, ← Expr.ofJson? body)
  | _ => none

/-- An exported member as JSON. -/
def toJson : ExportedMember → Json
  | method name isStatic params body =>
    .obj [("method", .obj [("name", .str name), ("is_static", .bool isStatic),
      ("params", .ofStrings params), ("body", body.toJson)])]
  | property name isStatic getter? setter? =>
    .obj [("property", .obj [("name", .str name), ("is_static", .bool isStatic),
      ("getter", .ofOption Expr.toJson getter?), ("setter", .ofOption setterToJson setter?)])]

/-- An exported member from JSON. -/
def ofJson? : Json → Option ExportedMember
  | .obj [("method", body)] =>
    return method (← body.required? "name" Json.string?) (← body.flag? "is_static")
      (← body.listMember? "params" Json.string?) (← body.required? "body" Expr.ofJson?)
  | .obj [("property", body)] =>
    return property (← body.required? "name" Json.string?) (← body.flag? "is_static")
      (← body.optional? "getter" Expr.ofJson?) (← body.optional? "setter" setterOfJson?)
  | _ => none

end ExportedMember

namespace NativeLoadSpec

/-- A place of a native class as JSON. -/
def toJson : NativeLoadSpec → Json
  | fromGlobal path => .obj [("global", .obj [("path", .ofStrings path)])]
  | fromModule source path =>
    .obj [("import", .obj [("module", .str source), ("path", .ofStrings path)])]

/-- A place of a native class from JSON. -/
def ofJson? : Json → Option NativeLoadSpec
  | .obj [("global", body)] => return fromGlobal (← body.required? "path" Json.strings?)
  | .obj [("import", body)] =>
    return fromModule (← body.required? "module" Json.string?)
      (← body.required? "path" Json.strings?)
  | _ => none

end NativeLoadSpec

namespace LinkedClass

/-- A class as JSON. -/
def toJson (linked : LinkedClass) : Json :=
  .obj [
    ("name", .ofName linked.name),
    ("kind", linked.kind.toJson),
    ("version", linked.version.toJson),
    ("ancestors", .ofList .ofName linked.ancestors),
    ("super_class", .ofOption .ofName linked.superClass?),
    ("js_super_class", .ofOption Expr.toJson linked.jsSuperClass?),
    ("js_native_load_spec", .ofOption NativeLoadSpec.toJson linked.nativeLoadSpec?),
    ("fields", .ofList FieldDef.toJson linked.fields),
    ("methods", .ofList (Versioned.toJson MethodDef.toJson) linked.methods),
    ("js_constructor", .ofOption (Versioned.toJson JsConstructorDef.toJson) linked.jsConstructor?),
    ("exported_members", .ofList (Versioned.toJson ExportedMember.toJson) linked.exportedMembers),
    ("has_instances", .bool linked.hasInstances),
    ("has_instance_tests", .bool linked.hasInstanceTests),
    ("has_runtime_type_info", .bool linked.hasTypeData),
    ("has_module_accessor", .bool linked.hasModuleAccessor)]

/-- A class from JSON. -/
def ofJson? (json : Json) : Option LinkedClass :=
  return {
    name := ← json.required? "name" Json.name?
    kind := ← json.required? "kind" ClassKind.ofJson?
    version := ← Version.member? json "version"
    ancestors := ← json.required? "ancestors" (Json.listOf? Json.name?)
    superClass? := ← json.optional? "super_class" Json.name?
    jsSuperClass? := ← json.optional? "js_super_class" Expr.ofJson?
    nativeLoadSpec? := ← json.optional? "js_native_load_spec" NativeLoadSpec.ofJson?
    fields := ← json.listMember? "fields" FieldDef.ofJson?
    methods := ← json.listMember? "methods" (Versioned.ofJson? MethodDef.ofJson?)
    jsConstructor? := ← json.optional? "js_constructor"
      (Versioned.ofJson? JsConstructorDef.ofJson?)
    exportedMembers := ← json.listMember? "exported_members"
      (Versioned.ofJson? ExportedMember.ofJson?)
    hasInstances := ← json.flag? "has_instances"
    hasInstanceTests := ← json.flag? "has_instance_tests"
    hasTypeData := ← json.flag? "has_runtime_type_info"
    hasModuleAccessor := ← json.flag? "has_module_accessor" }

end LinkedClass

end JsEmitter
