import JsEmitter.Proofs.Pieces

/-!
# Code under another tracking mode

The tracking mode decides which host names are recorded with generated code, and nothing else. So
what is generated under any mode is what is generated when every name is recorded, with the names
that the mode tracks. Keeping some of the names goes through the steps of a generator, since the
names of a step are united with those of the next.
-/
namespace JsEmitter

open Js (Tree)
open Lowering (Context Scope ConstructorParts Bootstrap)

namespace SortedSet

variable {α : Type} [Ord α]

variable [Std.TransOrd α] [Std.LawfulEqOrd α]

/-- Filtering a union is filtering its sides. -/
@[simp] theorem filter_union (keep : α → Bool) (left right : SortedSet α) :
    (left ∪ right).filter keep = left.filter keep ∪ right.filter keep := by
  ext member
  simp only [mem_filter, mem_union, or_and_right]

end SortedSet

namespace Tracked

variable {α β : Type} (kept : String → Bool)

/-- The value with those of its host names that are kept. -/
def only (tracked : Tracked α) : Tracked α := ⟨tracked.value, tracked.refs.filter kept⟩

/-- Forgetting recorded names keeps the value. -/
@[simp] theorem only_value (tracked : Tracked α) : (tracked.only kept).value = tracked.value := rfl

/-- Of the recorded names those that are kept remain. -/
@[simp] theorem only_refs (tracked : Tracked α) :
    (tracked.only kept).refs = tracked.refs.filter kept := rfl

/-- A pure value has no names to forget. -/
@[simp] theorem only_pure (value : α) : (pure value : Tracked α).only kept = pure value := rfl

/-- Names can be forgotten step by step. -/
@[simp] theorem only_bind (tracked : Tracked α) (next : α → Tracked β) :
    (tracked >>= next).only kept =
      tracked.only kept >>= fun value => (next value).only kept :=
  ext' rfl (by simp)

/-- Forgetting recorded names and changing the value can be exchanged. -/
@[simp] theorem only_map (transform : α → β) (tracked : Tracked α) :
    (tracked.map transform).only kept = (tracked.only kept).map transform := rfl

/-- Names are forgotten in the branch that is taken. -/
@[simp] theorem only_ite (condition : Prop) [Decidable condition] (first second : Tracked α) :
    (if condition then first else second).only kept =
      if condition then first.only kept else second.only kept := by
  split <;> rfl

/-- Names can be forgotten item by item. -/
@[simp] theorem only_mapM (items : List α) (run : α → Tracked β) :
    (items.mapM run).only kept = items.mapM (fun item => (run item).only kept) := by
  induction items with
  | nil => rfl
  | cons head rest ih => simp only [List.mapM_cons, only_bind, only_pure, ih]

/-- Names can be forgotten in the members of a list. -/
@[simp] theorem only_list (items : List (Tracked α)) :
    (list items).only kept = list (items.map (only kept)) := by
  simp only [list, only_mapM, List.mapM_map]
  rfl

end Tracked

/-- The configuration with another tracking mode. -/
def Config.under (mode : Tracking) (config : Config) : Config := { config with tracking := mode }

namespace Lowering.Context

/-- The context with another tracking mode. -/
def under (mode : Tracking) (context : Context) : Context :=
  { context with config := context.config.under mode }

variable (context : Context) (mode : Tracking)

/-- The mode does not matter for the index. -/
theorem under_index : (context.under mode).index = context.index := rfl

/-- The mode does not matter for the kind of modules. -/
theorem under_moduleKind :
    (context.under mode).config.moduleKind = context.config.moduleKind := rfl

/-- Under a mode, a reference to a host name records it if the mode tracks it. -/
theorem hostRef_under (name : String) :
    (context.under mode).hostRef name =
      ((context.under .all).hostRef name).only (mode.tracks context.filter) := by
  refine Tracked.ext' rfl ?_
  change (if mode.tracks context.filter name = true then SortedSet.single name else ∅) =
    (SortedSet.single name).filter (mode.tracks context.filter)
  ext other
  by_cases tracked : mode.tracks context.filter name = true
  · rw [if_pos tracked, SortedSet.mem_filter, SortedSet.mem_single]
    constructor
    · rintro rfl
      exact ⟨rfl, tracked⟩
    · exact And.left
  · rw [if_neg tracked, SortedSet.mem_filter, SortedSet.mem_single]
    constructor
    · intro found
      exact absurd found SortedSet.not_mem_empty
    · rintro ⟨rfl, found⟩
      exact absurd found tracked

/-- Under a mode, loading a native class records what the mode tracks. -/
theorem loadNative_under (owner : ClassName) :
    (context.under mode).loadNative owner =
      ((context.under .all).loadNative owner).only (mode.tracks context.filter) := by
  simp only [loadNative, under_index, hostRef_under context mode]
  cases context.index.nativeLoadSpec? owner with
  | none => rfl
  | some spec =>
    cases spec with
    | fromGlobal path => cases path <;> rfl
    | fromModule source path =>
      simp only [Tracked.only_ite]
      cases path <;> rfl

/-- Under a mode, loading a foreign class records what the mode tracks. -/
theorem loadJsConstructor_under (owner : ClassName) :
    (context.under mode).loadJsConstructor owner =
      ((context.under .all).loadJsConstructor owner).only (mode.tracks context.filter) := by
  simp only [loadJsConstructor, loadNative_under context mode, Tracked.only_ite]
  rfl

/-- Under a mode, creating an instance records what the mode tracks. -/
theorem newInstance_under (owner : ClassName) (ctor : MethodName) (args : List Tree) :
    (context.under mode).newInstance owner ctor args =
      ((context.under .all).newInstance owner ctor args).only (mode.tracks context.filter) := by
  simp only [newInstance, under_index, loadNative_under context mode]
  cases context.index.kind? owner with
  | none => rfl
  | some kind => cases kind <;> rfl

section Bodies

variable (scope : Scope)

mutual

/-- Under a mode, the code of an expression records what the mode tracks. -/
theorem lower_under : (expr : Expr) →
    (context.under mode).lower scope expr =
      ((context.under .all).lower scope expr).only (mode.tracks context.filter)
  | .skip | .literal _ | .this | .localVar _ | .loadModule _ | .selectStatic _ _ => rfl
  | .globalRef name => context.hostRef_under mode name
  | .loadJsConstructor owner => context.loadJsConstructor_under mode owner
  | .block statements => by
    simp only [lower, lowerAll_under statements, Tracked.only_bind, Tracked.only_pure]
  | .varDef _ value | .jsSelect value _ | .isInstanceOf value _ | .asInstanceOf value _ => by
    simp only [lower, lower_under value, Tracked.only_bind, Tracked.only_pure]
    rfl
  | .ret value | .raise value | .unary _ value | .select value _ => by
    simp only [lower, lower_under value, Tracked.only_bind, Tracked.only_pure]
  | .assign target value | .binary _ target value => by
    simp only [lower, lower_under target, lower_under value, Tracked.only_bind, Tracked.only_pure]
  | .branch cond thenBranch elseBranch? => by
    simp only [lower, lower_under cond, lower_under thenBranch, lowerElse_under elseBranch?,
      Tracked.only_bind, Tracked.only_pure]
  | .apply receiver _ args | .jsCall receiver args => by
    simp only [lower, lower_under receiver, lowerAll_under args, Tracked.only_bind,
      Tracked.only_pure]
  | .applySuper _ args | .applyStatic _ _ args | .applyConstructor _ _ args => by
    simp only [lower, lowerAll_under args, Tracked.only_bind, Tracked.only_pure]
    rfl
  | .new owner ctor args => by
    simp only [lower, lowerAll_under args, Tracked.only_bind, newInstance_under context mode]

/-- Under a mode, the code of expressions records what the mode tracks. -/
theorem lowerAll_under : (exprs : List Expr) →
    (context.under mode).lowerAll scope exprs =
      ((context.under .all).lowerAll scope exprs).only (mode.tracks context.filter)
  | [] => rfl
  | head :: rest => by
    simp only [lowerAll, lower_under head, lowerAll_under rest, Tracked.only_bind,
      Tracked.only_pure]

/-- Under a mode, the code of an optional expression records what the mode tracks. -/
theorem lowerElse_under : (expr? : Option Expr) →
    (context.under mode).lowerElse scope expr? =
      ((context.under .all).lowerElse scope expr?).only (mode.tracks context.filter)
  | none => rfl
  | some expr => lower_under expr

end

end Bodies

section Classes

variable (linked : LinkedClass)

/-- Under a mode, a reference to a parent records what the mode tracks. -/
theorem parentRef_under : (context.under mode).parentRef linked =
    ((context.under .all).parentRef linked).only (mode.tracks context.filter) := by
  simp only [parentRef, hostRef_under context mode, lower_under context mode,
    loadJsConstructor_under context mode, Tracked.only_ite]
  cases linked.jsSuperClass? <;> cases linked.superClass? <;> rfl

/-- Under a mode, the scope of members records what the mode tracks. -/
theorem memberScope_under : (context.under mode).memberScope linked =
    ((context.under .all).memberScope linked).only (mode.tracks context.filter) := by
  simp only [memberScope, parentRef_under context mode, Tracked.only_map]
  rfl

/-- Under a mode, a free function records what the mode tracks. -/
theorem freeFunction_under (method : MethodDef) : (context.under mode).freeFunction linked method =
    ((context.under .all).freeFunction linked method).only (mode.tracks context.filter) := by
  simp only [freeFunction, parentRef_under context mode, lower_under context mode,
    Tracked.only_bind, Tracked.only_pure]
  rfl

/-- Under a mode, a member method records what the mode tracks. -/
theorem memberMethod_under (method : MethodDef) : (context.under mode).memberMethod linked method =
    ((context.under .all).memberMethod linked method).only (mode.tracks context.filter) := by
  simp only [memberMethod, memberScope_under context mode, lower_under context mode,
    Tracked.only_bind, Tracked.only_pure]
  rfl

/-- Under a mode, arguments of a super call record what the mode tracks. -/
theorem superArgs_under (scope : Scope) (args : List Expr) :
    (context.under mode).superArgs scope args =
      ((context.under .all).superArgs scope args).only (mode.tracks context.filter) := by
  simp only [superArgs, lowerAll_under context mode]
  cases scope.parent? <;> rfl

/-- Under a mode, the constructor of a foreign class records what the mode tracks. -/
theorem jsConstructorParts_under (ctor : JsConstructorDef) :
    (context.under mode).jsConstructorParts linked ctor =
      ((context.under .all).jsConstructorParts linked ctor).only (mode.tracks context.filter) := by
  simp only [jsConstructorParts, memberScope_under context mode, lowerAll_under context mode,
    superArgs_under context mode, Tracked.only_bind, Tracked.only_pure]

/-- Under a mode, the constructor of an ordinary class records what the mode tracks. -/
theorem plainConstructorParts_under : (context.under mode).plainConstructorParts linked =
    ((context.under .all).plainConstructorParts linked).only (mode.tracks context.filter) := by
  have inlined : (context.under mode).inlinedConstructor? linked =
      (context.under .all).inlinedConstructor? linked := rfl
  simp only [plainConstructorParts, memberScope_under context mode, inlined,
    lower_under context mode, Tracked.only_bind]
  cases (context.under .all).inlinedConstructor? linked <;>
    simp only [Tracked.only_pure, Tracked.only_map, Tracked.only_bind]

/-- Under a mode, a constructor records what the mode tracks, or fails likewise. -/
theorem constructorParts_under : (context.under mode).constructorParts linked =
    ((context.under .all).constructorParts linked).map
      (Tracked.only (mode.tracks context.filter)) := by
  simp only [constructorParts, jsConstructorParts_under context mode,
    plainConstructorParts_under context mode]
  split
  · split <;> rfl
  · rfl

/-- Under a mode, the link of a prototype to its parent records what the mode tracks. -/
theorem prototypeLink_under (name : String) (parent? : Option Tree) :
    (context.under mode).prototypeLink linked name parent? =
      ((context.under .all).prototypeLink linked name parent?).only
        (mode.tracks context.filter) := by
  cases parent? with
  | none => rfl
  | some parent =>
    simp only [prototypeLink, prototypeValue, hostRef_under context mode, Tracked.only_map,
      Tracked.only_ite]
    cases linked.superClass? <;> rfl

/-- Under a mode, a class definition records what the mode tracks. -/
theorem fullClass_under (ctor : ConstructorParts) (members : List Tree)
    (exported : List (List Tree)) :
    (context.under mode).fullClass linked ctor members exported =
      ((context.under .all).fullClass linked ctor members exported).only
        (mode.tracks context.filter) := by
  simp only [fullClass, prototypeDefinition, prototypeLink_under context mode, Tracked.only_ite]
  rfl

/-- Under a mode, a getter records what the mode tracks. -/
theorem lowerGetter_under (scope : Scope) (getter? : Option Expr) :
    (context.under mode).lowerGetter scope getter? =
      ((context.under .all).lowerGetter scope getter?).only (mode.tracks context.filter) := by
  cases getter? with
  | none => rfl
  | some body => simp only [lowerGetter, lower_under context mode, Tracked.only_map]

/-- Under a mode, a setter records what the mode tracks. -/
theorem lowerSetter_under (scope : Scope) (setter? : Option (String × Expr)) :
    (context.under mode).lowerSetter scope setter? =
      ((context.under .all).lowerSetter scope setter?).only (mode.tracks context.filter) := by
  cases setter? with
  | none => rfl
  | some setter => simp only [lowerSetter, lower_under context mode, Tracked.only_map]

/-- Under a mode, an exported member records what the mode tracks. -/
theorem exportedMember_under (member : ExportedMember) :
    (context.under mode).exportedMember linked member =
      ((context.under .all).exportedMember linked member).only (mode.tracks context.filter) := by
  simp only [exportedMember, memberScope_under context mode, Tracked.only_bind]
  cases member with
  | method name isStatic params body =>
    simp only [lower_under context mode, Tracked.only_bind, Tracked.only_pure]
    rfl
  | property name isStatic getter? setter? =>
    simp only [lowerGetter_under context mode, lowerSetter_under context mode, Tracked.only_bind,
      definedProperty, hostRef_under context mode, Tracked.only_ite]
    rfl

/-- Under a mode, a module accessor records what the mode tracks. -/
theorem moduleAccessor_under : (context.under mode).moduleAccessor linked =
    ((context.under .all).moduleAccessor linked).only (mode.tracks context.filter) := by
  simp only [moduleAccessor, newInstance_under context mode, Tracked.only_map]
  rfl

end Classes

/-- Under a mode, an import records what the mode tracks. -/
theorem importStatement_under (binding path : String) :
    (context.under mode).importStatement binding path =
      ((context.under .all).importStatement binding path).only (mode.tracks context.filter) := by
  simp only [importStatement, under_moduleKind, hostRef_under context mode]
  cases context.config.moduleKind <;> rfl

/-- Under a mode, the imports of a module record what the mode tracks. -/
theorem imports_under (unit : Module) : (context.under mode).imports unit =
    ((context.under .all).imports unit).only (mode.tracks context.filter) := by
  simp only [imports, importStatement_under context mode, Tracked.only_ite, Tracked.only_mapM]
  rfl

/-- Under a mode, an export records what the mode tracks. -/
theorem topLevelExport_under (entry : TopLevelExport) :
    (context.under mode).topLevelExport entry =
      ((context.under .all).topLevelExport entry).only (mode.tracks context.filter) := by
  have values : (context.under mode).exportValue entry =
      ((context.under .all).exportValue entry).only (mode.tracks context.filter) := by
    simp only [exportValue, lower_under context mode]
    cases entry.kind <;> rfl
  simp only [topLevelExport, values, Tracked.only_bind, under_moduleKind,
    hostRef_under context mode]
  cases context.config.moduleKind <;> rfl

/-- Under a mode, exports record what the mode tracks. -/
theorem topLevelExports_under (entries : List TopLevelExport) :
    (context.under mode).topLevelExports entries =
      ((context.under .all).topLevelExports entries).only (mode.tracks context.filter) := by
  have each : (context.under mode).topLevelExport = fun entry =>
      ((context.under .all).topLevelExport entry).only (mode.tracks context.filter) :=
    funext (context.topLevelExport_under mode)
  simp only [topLevelExports, each, Tracked.only_map, Tracked.only_mapM]

/-- Under a mode, exports of internal names record what is tracked. -/
theorem internalExports_under (names : List String) :
    (context.under mode).internalExports names =
      ((context.under .all).internalExports names).only (mode.tracks context.filter) := by
  simp only [internalExports, under_moduleKind, hostRef_under context mode, Tracked.only_ite]
  cases context.config.moduleKind <;> rfl

/-- Under a mode, the bootstrap library records what the mode tracks. -/
theorem bootstrap_under : (context.under mode).bootstrap =
    (context.under .all).bootstrap.only (mode.tracks context.filter) := by
  simp only [bootstrap, castFailure, hostRef_under context mode, Tracked.only_map]
  rfl

end Lowering.Context

end JsEmitter
