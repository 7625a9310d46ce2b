import JsEmitter.Json

/-!
# Records as lists

In the text of a program a record may be written as the list of its fields, in their order; fields
at the end that have a default may be left out. A layout says where records stand in a value, and
`Layout.named` gives them the names of their fields, so that a program is read in one way from
then on. A list with more elements than the record has fields cannot be held.
-/
namespace JsEmitter

/-- What stands where in a value. -/
inductive Layout where
  /-- A value without records. -/
  | plain
  | list (element : Layout)
  | tuple (parts : List Layout)
  /-- A record with its fields in order. -/
  | record (fields : List (String × Layout))
  /-- An object with one member, which tells what the content is. -/
  | tagged (variants : List (String × Layout))
  /-- An expression. -/
  | body

namespace Layout

/-- A record of fields, some of them without records inside. -/
def recordOf (fields : List String) (special : List (String × Layout)) : Layout :=
  record (fields.map (fun field => (field, (special.lookup field).getD plain)))

/-- A call with some parts before its arguments. -/
def call (parts : List String) (special : List (String × Layout)) : Layout :=
  recordOf (parts ++ ["args"]) (("args", list body) :: special)

/-- The shapes of expressions that have parts. -/
def exprVariants : List (String × Layout) := [
  ("block", list body),
  ("var_def", recordOf ["name", "rhs"] [("rhs", body)]),
  ("assign", recordOf ["lhs", "rhs"] [("lhs", body), ("rhs", body)]),
  ("return", body),
  ("if", recordOf ["cond", "then_branch", "else_branch"]
    [("cond", body), ("then_branch", body), ("else_branch", body)]),
  ("throw", body),
  ("apply", call ["receiver", "method"] [("receiver", body)]),
  ("apply_static", call ["class", "method"] []),
  ("apply_super", call ["method"] []),
  ("apply_constructor", call ["class", "ctor"] []),
  ("new", call ["class", "ctor"] []),
  ("select", recordOf ["qualifier", "field"] [("qualifier", body)]),
  ("select_static", recordOf ["class", "field"] []),
  ("js_select", recordOf ["qualifier", "property"] [("qualifier", body)]),
  ("js_call", call ["function"] [("function", body)]),
  ("unary_op", recordOf ["op", "arg"] [("arg", body)]),
  ("binary_op", recordOf ["op", "lhs", "rhs"] [("lhs", body), ("rhs", body)]),
  ("is_instance_of", recordOf ["expr", "class"] [("expr", body)]),
  ("as_instance_of", recordOf ["expr", "class"] [("expr", body)])]

/-- The layout with an expression seen as one of its shapes. -/
def unfolded : Layout → Layout
  | body => tagged exprVariants
  | layout => layout

mutual

/-- A value with its records as objects. -/
def named (layout : Layout) : Json → Json
  | .arr elements =>
    match layout.unfolded with
    | list element => .arr (namedElements element elements)
    | tuple parts => .arr (namedParts parts elements)
    | record fields =>
      if elements.length ≤ fields.length then .obj (namedFields fields elements) else .unreadable
    | _ => .arr elements
  | .obj members =>
    match layout.unfolded with
    | record parts | tagged parts => .obj (namedMembers parts members)
    | _ => .obj members
  | json => json

/-- The elements of a list with their records as objects. -/
def namedElements (layout : Layout) : List Json → List Json
  | [] => []
  | element :: rest => named layout element :: namedElements layout rest

/-- The parts of a tuple with their records as objects. -/
def namedParts (layouts : List Layout) : List Json → List Json
  | [] => []
  | part :: rest => named (layouts.headD plain) part :: namedParts layouts.tail rest

/-- The members of a record that is written as a list. -/
def namedFields (fields : List (String × Layout)) : List Json → List (String × Json)
  | [] => []
  | value :: rest =>
    let (field, layout) := fields.headD ("", plain)
    (field, named layout value) :: namedFields fields.tail rest

/-- The members of an object with their records as objects. -/
def namedMembers (parts : List (String × Layout)) : List (String × Json) → List (String × Json)
  | [] => []
  | (key, value) :: rest =>
    (key, named ((parts.lookup key).getD plain) value) :: namedMembers parts rest

end

/-- A value with its version. -/
def versioned (value : Layout) : Layout := recordOf ["value", "version"] [("value", value)]

/-- A method. -/
def method : Layout := recordOf ["name", "namespace", "params", "body"] [("body", body)]

/-- A field. -/
def field : Layout := recordOf ["name", "ty", "is_static"] []

/-- The constructor of a foreign class. -/
def jsConstructor : Layout :=
  recordOf ["params", "before_super", "super_args", "after_super"]
    [("before_super", list body), ("super_args", list body), ("after_super", list body)]

/-- An exported member. -/
def exportedMember : Layout := tagged [
  ("method", recordOf ["name", "is_static", "params", "body"] [("body", body)]),
  ("property", recordOf ["name", "is_static", "getter", "setter"]
    [("getter", body), ("setter", tuple [plain, body])])]

/-- The place of a native class. -/
def nativeLoadSpec : Layout := tagged [
  ("global", recordOf ["path"] []),
  ("import", recordOf ["module", "path"] [])]

/-- A class. -/
def linkedClass : Layout :=
  recordOf
    ["name", "kind", "version", "ancestors", "super_class", "js_super_class",
      "js_native_load_spec", "fields", "methods", "js_constructor", "exported_members",
      "has_instances", "has_instance_tests", "has_runtime_type_info", "has_module_accessor"]
    [("js_super_class", body), ("js_native_load_spec", nativeLoadSpec), ("fields", list field),
      ("methods", list (versioned method)), ("js_constructor", versioned jsConstructor),
      ("exported_members", list (versioned exportedMember))]

/-- What a module exports. -/
def exportKind : Layout := tagged [
  ("method", recordOf ["params", "body"] [("body", body)]),
  ("module", recordOf ["class"] []),
  ("js_class", recordOf ["class"] []),
  ("field", recordOf ["class", "field"] [])]

/-- An export of a module. -/
def topLevelExport : Layout := recordOf ["export_name", "kind", "version"] [("kind", exportKind)]

/-- A module. -/
def module : Layout :=
  recordOf
    ["id", "classes", "external_dependencies", "internal_dependencies", "top_level_exports",
      "initializers", "initializers_version", "is_root"]
    [("classes", list linkedClass), ("top_level_exports", list topLevelExport),
      ("initializers", list (recordOf ["class", "method"] []))]

/-- A program. -/
def program : Layout := recordOf ["modules"] [("modules", list module)]

end Layout

end JsEmitter
