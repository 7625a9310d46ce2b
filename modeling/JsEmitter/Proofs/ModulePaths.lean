import JsEmitter.Linked.Building
import JsEmitter.Lowering.ModuleParts
import JsEmitter.Proofs.CheckedHeaders
import JsEmitter.Proofs.HostNames
import Mathlib.Data.List.Nodup

/-!
# Paths of modules

A pattern may have several placeholders, and the id of a module may look like any part of the
pattern. Still the path tells the id: all placeholders are replaced by the same text, so paths of
one length come from ids of one length, and then the first placeholder shows the id.
`Config.modulePath_injective` says so, and that a module imports no two modules of its program from
the same place.
-/
namespace JsEmitter

open Js (Tree)
open Lowering (Context)

namespace Config

/-- How many placeholders a pattern has. -/
def placeholders : List Char → Nat
  | '\x7b' :: 'm' :: 'o' :: 'd' :: 'u' :: 'l' :: 'e' :: '\x7d' :: rest => placeholders rest + 1
  | _ :: rest => placeholders rest
  | [] => 0

/-- A pattern that has a placeholder has at least one. -/
theorem placeholders_pos {pattern : List Char} (has : hasPlaceholder pattern = true) :
    0 < placeholders pattern := by
  fun_induction hasPlaceholder pattern with
  | case1 rest => simp [placeholders]
  | case2 char rest other ih =>
    rw [placeholders]
    · exact ih has
    · exact other
  | case3 => cases has

/-- Each placeholder has eight characters and gives way to the id. -/
theorem length_substitute (id pattern : List Char) :
    (substitute id pattern).length + 8 * placeholders pattern =
      pattern.length + placeholders pattern * id.length := by
  fun_induction substitute id pattern with
  | case1 rest ih =>
    simp only [placeholders, List.length_append, List.length_cons, Nat.add_mul]
    omega
  | case2 char rest other ih =>
    rw [placeholders]
    · simp only [List.length_cons]
      omega
    · exact other
  | case3 => simp [placeholders]

/-- Ids of one length are told apart at the first placeholder. -/
theorem eq_of_substitute {id other pattern : List Char} (has : hasPlaceholder pattern = true)
    (long : id.length = other.length) (same : substitute id pattern = substitute other pattern) :
    id = other := by
  fun_induction hasPlaceholder pattern with
  | case1 rest => exact (List.append_inj same long).1
  | case2 char rest plain ih =>
    rw [substitute, substitute] at same
    · exact ih has (List.cons.inj same).2
    · exact plain
    · exact plain
  | case3 => cases has

/-- Different ids give different paths if the pattern has a placeholder. -/
theorem substitute_injective {pattern : List Char} (has : hasPlaceholder pattern = true) :
    Function.Injective (fun id => substitute id pattern) := by
  intro id other same
  have lengths : placeholders pattern * id.length = placeholders pattern * other.length := by
    have first := length_substitute id pattern
    have second := length_substitute other pattern
    have equal := congrArg List.length same
    simp only at equal
    omega
  exact eq_of_substitute has (Nat.eq_of_mul_eq_mul_left (placeholders_pos has) lengths) same

/-- A valid pattern has a placeholder. -/
theorem hasPlaceholder_of_checkPattern {pattern : String} (valid : checkPattern pattern = .ok ()) :
    hasPlaceholder pattern.toList = true := by
  unfold checkPattern at valid
  split at valid
  · cases valid
  · split at valid
    · assumption
    · cases valid

end Config

/-- The place that a statement imports a module from, if it imports one. -/
def Js.Tree.importSource? : Tree → Option String
  | importNamespace _ source => some source
  | varDef _ _ (some (apply (varRef "require") [str source])) => some source
  | _ => none

namespace Lowering.Context

/-- An import statement imports from its path. -/
theorem importStatement_importSource? (context : Context) (binding path : String) :
    (context.importStatement binding path).value.importSource? = some path := by
  unfold importStatement
  split <;> rfl

/-- Whether the imports of a module begin with statements for the modules of its program, each from
the path of its module and no two from the same place. -/
def ImportsApart (context : Context) (unit : Module) : Prop :=
  ∃ internal external : List Tree, (context.imports unit).value = internal ++ external ∧
    internal.map Tree.importSource? =
      (context.importedModules unit).toList.map (fun id => some (context.config.modulePath id)) ∧
    (internal.map Tree.importSource?).Nodup

/-- Imports stay apart if different modules have different paths. -/
theorem importsApart {context : Context} {unit : Module}
    (several : context.config.moduleKind ≠ .script)
    (injective : Function.Injective context.config.modulePath) : context.ImportsApart unit := by
  have sources : ((context.importedModules unit).toList.map (fun id =>
      (context.importStatement (context.naming.internalImport id)
        (context.config.modulePath id)).value)).map Tree.importSource? =
      (context.importedModules unit).toList.map (fun id =>
        some (context.config.modulePath id)) := by
    rw [List.map_map]
    exact List.map_congr_left (fun id _ => context.importStatement_importSource? _ _)
  refine ⟨_, unit.externalDependencies.toList.map (fun source =>
    (context.importStatement (context.naming.externalImport source) source).value), ?_, sources, ?_⟩
  · simp [imports, several, importBindings, Tracked.mapM_value]
  · rw [sources]
    exact List.Nodup.map (fun first second same => injective (Option.some.inj same))
      (context.importedModules unit).nodup

end Lowering.Context

/-- Under an accepted configuration different modules have different paths, and the modules of a
program are imported from different places. -/
theorem Config.modulePath_injective {config : Config} (valid : config.validate = .ok ()) :
    Function.Injective config.modulePath ∧
      ∀ (context : Context) (unit : Module), context.config = config →
        config.moduleKind ≠ .script → context.ImportsApart unit := by
  have has := hasPlaceholder_of_checkPattern (validate_eq_ok_iff.1 valid).2
  have injective : Function.Injective config.modulePath := by
    intro id other same
    have texts : id.text.toList = other.text.toList :=
      substitute_injective has (String.ofList_inj.1 same)
    exact congrArg Name.mk (String.toList_inj.1 texts)
  refine ⟨injective, ?_⟩
  rintro context unit rfl several
  exact Lowering.Context.importsApart several injective

/-- Two placeholders, and ids that look like a placeholder and like the text between the two. -/
theorem Config.modulePath_injective_imitating :
    let config : Config := { standard with
      moduleKind := .esModule, modulePathPattern := "\x7bmodule\x7d/m\x7bmodule\x7d.js" }
    let context : Context := ⟨config, ⟨∅⟩, default, .standard, ⟨"main"⟩⟩
    let unit := ((Module.start ⟨"main"⟩).dependOn ⟨"\x7bmodule\x7d"⟩).dependOn ⟨"a/m\x7ble\x7d"⟩
    config.validate = .ok () ∧ config.moduleKind ≠ .script ∧
      config.modulePath ⟨"\x7bmodule\x7d"⟩ ≠ config.modulePath ⟨"a/m\x7ble\x7d"⟩ ∧
      context.ImportsApart unit ∧ (context.imports unit).value.length = 2 := by
  intro config context unit
  have valid : config.validate = .ok () := by decide +kernel
  obtain ⟨injective, apart⟩ := modulePath_injective valid
  refine ⟨valid, by decide, ?_, apart context unit rfl (by decide), by decide +kernel⟩
  exact injective.ne (by decide)

end JsEmitter
