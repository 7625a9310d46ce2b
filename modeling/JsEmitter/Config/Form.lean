import JsEmitter.Config
import JsEmitter.Json

/-!
# Written forms of the configuration

A configuration is written as a JSON object and read from one, and it is shown on lines, one for
every part. Parts that are missing keep their standard value; parts that it does not have are
ignored.
-/
namespace JsEmitter

/-- The spelling of every module kind. -/
def ModuleKind.spellings : List (String × ModuleKind) :=
  [("none", .script), ("es_module", .esModule), ("common_js", .commonJs)]

/-- A module kind as JSON. -/
def ModuleKind.toJson : ModuleKind → Json
  | script => .str "none"
  | esModule => .str "es_module"
  | commonJs => .str "common_js"

/-- A module kind from JSON. -/
def ModuleKind.ofJson? (json : Json) : Option ModuleKind := json.unitVariant? spellings

/-- How a module kind is shown. -/
def ModuleKind.label : ModuleKind → String
  | script => "None"
  | esModule => "EsModule"
  | commonJs => "CommonJs"

/-- The spelling of every tracking mode. -/
def Tracking.spellings : List (String × Tracking) := [("all", .all), ("dangerous", .dangerous)]

/-- A tracking mode as JSON. -/
def Tracking.toJson : Tracking → Json
  | all => .str "all"
  | dangerous => .str "dangerous"

/-- A tracking mode from JSON. -/
def Tracking.ofJson? (json : Json) : Option Tracking := json.unitVariant? spellings

/-- How a tracking mode is shown. -/
def Tracking.label : Tracking → String
  | all => "All"
  | dangerous => "Dangerous"

namespace Config

/-- A configuration as JSON. -/
def toJson (config : Config) : Json :=
  .obj [
    ("module_kind", config.moduleKind.toJson),
    ("use_class_syntax", .bool config.classSyntax),
    ("module_path_pattern", .str config.modulePathPattern),
    ("header", .str config.header),
    ("global_ref_tracking", config.tracking.toJson),
    ("optimize_bracket_selects", .bool config.dotSelects)]

/-- A configuration from JSON. -/
def ofJson? (json : Json) : Option Config :=
  return {
    moduleKind := ← json.defaulted? "module_kind" standard.moduleKind ModuleKind.ofJson?
    classSyntax := ← json.defaulted? "use_class_syntax" standard.classSyntax Json.bool?
    modulePathPattern := ← json.defaulted? "module_path_pattern" standard.modulePathPattern
      Json.string?
    header := ← json.defaulted? "header" standard.header Json.string?
    tracking := ← json.defaulted? "global_ref_tracking" standard.tracking Tracking.ofJson?
    dotSelects := ← json.defaulted? "optimize_bracket_selects" standard.dotSelects Json.bool? }

/-- A truth value as it is shown. -/
def showFlag (flag : Bool) : String := if flag then "true" else "false"

/-- The configuration on lines of its own. -/
def display (config : Config) : String :=
  "EmitterConfig \x7b\n" ++
  "    module_kind: " ++ config.moduleKind.label ++ ",\n" ++
  "    use_class_syntax: " ++ showFlag config.classSyntax ++ ",\n" ++
  "    module_path_pattern: " ++ Text.quoted config.modulePathPattern ++ ",\n" ++
  "    header: " ++ Text.quoted config.header ++ ",\n" ++
  "    global_ref_tracking: " ++ config.tracking.label ++ ",\n" ++
  "    optimize_bracket_selects: " ++ showFlag config.dotSelects ++ ",\n" ++
  "\x7d"

end Config

end JsEmitter
